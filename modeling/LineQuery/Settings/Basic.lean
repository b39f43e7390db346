import LineQuery.Foreign.Toml.Document
import LineQuery.Text.Blank
import LineQuery.Text.Escape

/-!
# Settings

What a settings file may set, how it is read from a TOML document, and which settings are
refused. A key that no setting has, or a value of the wrong type, is an error of the
document; a value that could not be used is an error of the settings.
-/

namespace LineQuery

/-- Where compiled programs are kept, and whether they are. -/
structure CacheSettings where
  dir : Option String := none
  enabled : Bool := true
deriving DecidableEq, Repr

/-- The libraries that every query imports. -/
structure QuerySettings where
  imports : List String := []
deriving DecidableEq, Repr

/-- What is written between lines, with escapes. -/
structure OutputSettings where
  separator : Option String := none
deriving DecidableEq, Repr

/-- The workers that lines are handed to. -/
structure WorkerSettings where
  count : Option Nat := none
  command : Option String := none
  args : Option String := none
deriving DecidableEq, Repr

/-- The settings of a run. -/
structure Settings where
  cache : CacheSettings := {}
  query : QuerySettings := {}
  output : OutputSettings := {}
  workers : WorkerSettings := {}
deriving DecidableEq, Repr

def defaultSeparator : String := "\n"

/-- What is written between lines, its escapes read. -/
def OutputSettings.effective (s : OutputSettings) : String :=
  match s.separator with
  | some raw => Text.unescape raw
  | none => defaultSeparator

/-- The number of workers, at least one. -/
def WorkerSettings.effectiveCount (s : WorkerSettings) : Nat :=
  max (s.count.getD 1) 1

namespace Settings

open LineQuery.Toml (Item Fields)

/-! ## Reading a document -/

def asString : Item → Option String
  | .string s => some s
  | _ => none

def asBoolean : Item → Option Bool
  | .boolean b => some b
  | _ => none

def asNatural : Item → Option Nat
  | .integer n => if 0 ≤ n then some n.toInt.toNat else none
  | _ => none

def asStrings : Item → Option (List String)
  | .array items => items.mapM asString
  | _ => none

/-- A setting that need not be there. -/
def optional (read : Item → Option α) : Option Item → Option (Option α)
  | none => some none
  | some item => (read item).map some

/-- The settings of a section by name. A section may also be written as an array of its
settings in their order. -/
def section? (names : List String) : Item → Option Fields
  | .table _ fields => if fields.all fun field => field.1 ∈ names then some fields else none
  | .array items => some (names.zip items)
  | _ => none

def readCache (item : Item) : Option CacheSettings := do
  let fields ← section? ["dir", "enabled"] item
  let dir ← optional asString (fields.lookup "dir")
  let enabled ← optional asBoolean (fields.lookup "enabled")
  return { dir, enabled := enabled.getD true }

def readQuery (item : Item) : Option QuerySettings := do
  let fields ← section? ["imports"] item
  let imports ← optional asStrings (fields.lookup "imports")
  return { imports := imports.getD [] }

def readOutput (item : Item) : Option OutputSettings := do
  let fields ← section? ["separator"] item
  return { separator := ← optional asString (fields.lookup "separator") }

def readWorkers (item : Item) : Option WorkerSettings := do
  let fields ← section? ["workers", "command", "args"] item
  let count ← optional asNatural (fields.lookup "workers")
  let command ← optional asString (fields.lookup "command")
  let args ← optional asString (fields.lookup "args")
  return { count, command, args }

/-- The settings in the fields of a document. -/
def ofFields? (fields : Fields) : Option Settings := do
  let fields ← section? ["cache", "query", "output", "fanout"] (.table .header fields)
  let cache ← optional readCache (fields.lookup "cache")
  let query ← optional readQuery (fields.lookup "query")
  let output ← optional readOutput (fields.lookup "output")
  let workers ← optional readWorkers (fields.lookup "fanout")
  return { cache := cache.getD {}, query := query.getD {}, output := output.getD {},
           workers := workers.getD {} }

/-! ## Settings that can be used -/

/-- Why settings are refused. -/
inductive Refusal where
  | noWorkers
  | emptyCommand
  | notALibrary (name : String)
  | emptySeparator
deriving DecidableEq, Repr

def Refusal.message : Refusal → String
  | noWorkers => "fanout.workers must be at least 1"
  | emptyCommand => "fanout.command must not be empty"
  | notALibrary name => "query.imports: `" ++ name ++ "` is not a library name"
  | emptySeparator => "output.separator must not be empty"

/-- Whether `c` is an ASCII letter or an underscore. -/
def isNameStart (c : Char) : Bool :=
  ('a' ≤ c && c ≤ 'z') || ('A' ≤ c && c ≤ 'Z') || c == '_'

/-- Whether a name could be that of a library. -/
def isLibraryName (name : String) : Bool :=
  match name.toList with
  | [] => false
  | c :: cs => isNameStart c && cs.all fun c => isNameStart c || Text.isDigit c

/-- The first thing for which settings are refused. -/
def refusal? (s : Settings) : Option Refusal :=
  if s.workers.count = some 0 then some .noWorkers
  else if s.workers.command.any Text.isAllBlank then some .emptyCommand
  else
    match s.query.imports.find? fun name => !isLibraryName name with
    | some name => some (.notALibrary name)
    | none => if s.output.separator = some "" then some .emptySeparator else none

/-- Why settings cannot be loaded. -/
inductive LoadError where
  | unreadable (path cause : String)
  | malformed
  | refused (why : Refusal)
deriving DecidableEq, Repr

def LoadError.message : LoadError → String
  | unreadable path cause => "failed to read configuration " ++ path ++ ": " ++ cause
  | malformed => "failed to parse configuration"
  | refused why => "validation error: " ++ why.message

def ofText (text : String) : Except LoadError Settings :=
  match (Toml.read? text).bind ofFields? with
  | none => .error .malformed
  | some s =>
    match s.refusal? with
    | some why => .error (.refused why)
    | none => .ok s

end Settings

end LineQuery
