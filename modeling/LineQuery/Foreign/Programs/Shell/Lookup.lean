import LineQuery.Foreign.Programs.Shell.Parser
import LineQuery.Foreign.Programs.Shell.Streams

/-!
# Finding commands

A name can be that of a word of the language, of a function, of a command of the shell itself, or
of a program in one of the folders that a variable lists.
-/

namespace LineQuery.Shell

open LineQuery.Files (Disk Path)
open LineQuery.Text (Bytes encodeUtf8 decodeLossy)

/-! ## Commands of the shell -/

/-- The commands of the shell itself after whose errors a script ends. -/
def specialCommands : List String :=
  [".", ":", "break", "continue", "eval", "exec", "exit", "export", "readonly", "return", "set",
    "shift", "times", "trap", "unset", "local"]

/-- The other commands of the shell itself. -/
def plainCommands : List String :=
  ["[", "alias", "bg", "cd", "chdir", "command", "echo", "false", "fg", "getopts", "hash", "jobs",
    "kill", "printf", "pwd", "read", "test", "true", "type", "ulimit", "umask", "unalias", "wait"]

/-- Whether assignments among the arguments of a command give values to variables. -/
def takesAssignments (name : String) : Bool :=
  name = "export" || name = "readonly" || name = "local"

/-! ## Programs -/

/-- The folders in which programs are looked for unless a variable lists others. -/
def defaultFolders : String := "/usr/local/sbin:/usr/local/bin:/usr/sbin:/usr/bin:/sbin:/bin"

/-- The written paths at which a program of a name may stand. -/
def candidates (folders name : String) : List String :=
  ((Text.split [':'] folders.toList).map String.ofList).map fun folder =>
    Files.Written.within (if folder.isEmpty then "." else folder) name

/-- Why a program cannot be run. -/
inductive LookupError where
  | notFound
  | notPermitted
deriving DecidableEq, Repr

def LookupError.reason : LookupError → String
  | notFound => "not found"
  | notPermitted => "Permission denied"

/-- The program at one of some written paths: the path and the name that it is known by. -/
def findAmong (d : Disk) (folder : Path) (failure : LookupError) :
    List String → Except LookupError (String × String)
  | [] => .error failure
  | text :: texts =>
    match d.locate folder text with
    | .ok (_, .program name) => .ok (text, name)
    | .ok _ => findAmong d folder .notPermitted texts
    | .error _ => findAmong d folder failure texts

/-- The program that a command names: where it stands and the name that it is known by. -/
def findProgram (d : Disk) (m : Memory) (command : String) :
    Except LookupError (String × String) :=
  if command.toList.contains '/' then findAmong d m.folder .notFound [command]
  else
    let folders := ((m.value? "PATH").map decodeLossy).getD defaultFolders
    findAmong d m.folder .notFound (candidates folders command)

/-- The written path of a script that is read in. -/
def findScript? (d : Disk) (m : Memory) (name : String) : Option String :=
  if name.toList.contains '/' then some name
  else
    let folders := ((m.value? "PATH").map decodeLossy).getD defaultFolders
    (candidates folders name).find? fun text =>
      match d.locate m.folder text with
      | .ok (_, .file _) => true
      | _ => false

/-! ## What names are -/

/-- What a name stands for. -/
inductive Meaning where
  | keyword
  | aliasOf (text : String)
  | function
  | special
  | plain
  | program (text : String)
  | unknown
deriving DecidableEq, Repr

/-- What a name stands for where a command may start. -/
def meaningOf (d : Disk) (m : Memory) (name : String) : Meaning :=
  if (Keyword.ofText? name).isSome then .keyword
  else
    match m.aliases.lookup name with
    | some text => .aliasOf text
    | none =>
      if specialCommands.contains name then .special
      else if (m.functions.lookup name).isSome then .function
      else if plainCommands.contains name then .plain
      else
        match findProgram d m name with
        | .ok (text, _) => .program text
        | .error _ => .unknown

/-- What is said of a name. -/
def Meaning.describe (name : String) : Meaning → String
  | keyword => name ++ " is a shell keyword"
  | aliasOf text => name ++ " is an alias for " ++ text
  | function => name ++ " is a shell function"
  | special => name ++ " is a special shell builtin"
  | plain => name ++ " is a shell builtin"
  | program text => name ++ " is " ++ text
  | unknown => name ++ ": not found"

/-- An alias as it can be given. -/
def aliasText (name text : String) : String :=
  name ++ "=" ++ quoteText text

/-- What is run for a name, as short as it can be said. -/
def Meaning.brief (name : String) : Meaning → Option String
  | aliasOf text => some ("alias " ++ aliasText name text)
  | program text => some text
  | unknown => none
  | _ => some name

end LineQuery.Shell
