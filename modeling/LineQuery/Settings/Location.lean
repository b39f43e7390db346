import LineQuery.Environment
import LineQuery.Files.Path
import LineQuery.Settings.Basic

/-!
# Where files are

The place of the settings file and of the folder of compiled programs, from options,
settings and environment variables. A variable that is empty counts as not set.
-/

namespace LineQuery

namespace Settings

open LineQuery.Files.Written (within)

/-- The folder of compiled programs if neither an option nor a setting gives one. -/
def defaultCacheDir (env : Environment) : String :=
  match env.get? "SIEVE_CACHE_DIR", env.get? "XDG_CACHE_HOME", env.get? "HOME" with
  | some dir, _, _ => dir
  | none, some caches, _ => within caches "sieve"
  | none, none, some home => within (within home ".cache") "sieve"
  | none, none, none => ".sieve-cache"

/-- The folder of compiled programs: that of the option, else that of the settings. -/
def cacheDir (option : Option String) (s : Settings) (env : Environment) : String :=
  (option.or s.cache.dir).getD (defaultCacheDir env)

/-- The settings file: that of the option, else that of the environment. -/
def file? (option : Option String) (fromEnvironment : Option String) : Option String :=
  option.or (fromEnvironment.filter fun value => !value.isEmpty)

end Settings

end LineQuery
