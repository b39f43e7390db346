import LineQuery.Foreign.Arguments

/-!
# Requests

What the command line asks for. An option that every command knows may stand before the
subcommand or behind it; where it stands in both places, the later one counts.
-/

namespace LineQuery.CommandLine

/-- The options that every command knows. -/
structure CommonOptions where
  quiet : Bool := false
  verbose : Bool := false
  color : ColorChoice := .auto
  config : Option String := none
  cacheDir : Option String := none
deriving DecidableEq, Repr

/-- A part of a query: text from the command line, or the text of a file. -/
inductive QueryPart where
  | code (text : String)
  | file (path : String)
deriving DecidableEq, Repr

/-- The options of commands that have a query. Its parts are in the order in which they were
given. -/
structure QueryOptions where
  parts : List QueryPart := []
  uses : List String := []
  noCache : Bool := false
  format : ReportFormat := .text
deriving DecidableEq, Repr

/-- The options of a run. -/
structure RunOptions where
  args : List String := []
  separator : Option String := none
  workers : Option Nat := none
  exec : Option String := none
  execArgs : Option String := none
  input : Option String := none
deriving DecidableEq, Repr

/-- What is to be done with the folder of compiled programs. -/
inductive CacheAction where
  | path
  | clear
  | list
deriving DecidableEq, Repr

/-- What is to be done. -/
inductive Task where
  | run (query : QueryOptions) (options : RunOptions)
  | check (query : QueryOptions)
  | cache (action : CacheAction)
deriving DecidableEq, Repr

/-- What the command line asks for. -/
structure Request where
  common : CommonOptions
  task : Task
deriving DecidableEq, Repr

/-! ## From items to options -/

def valuesOf (items : List Item) (s : Switch) : List String :=
  items.filterMap fun
    | .option t value => if s = t then some value else none
    | .word _ => none

/-- The last value of an option. -/
def valueOf? (items : List Item) (s : Switch) : Option String :=
  (valuesOf items s).getLast?

def isGiven (items : List Item) (s : Switch) : Bool :=
  items.any (Item.isOption s)

/-- The part of a query that an item stands for. -/
def Item.part? : Item → Option QueryPart
  | word text => some (.code text)
  | option s value => if s = .importFile then some (.file value) else none

/-- The options among `items` that every command knows. -/
def CommonOptions.ofItems (items : List Item) : CommonOptions :=
  { quiet := isGiven items .quiet
    verbose := isGiven items .verbose
    color := ((valueOf? items .color).bind ColorChoice.read?).getD .auto
    config := valueOf? items .config
    cacheDir := valueOf? items .cacheDir }

/-- The options for a query among `items`. -/
def QueryOptions.ofItems (items : List Item) : QueryOptions :=
  { parts := items.filterMap Item.part?
    uses := valuesOf items .use
    noCache := isGiven items .noCache
    format := ((valueOf? items .format).bind ReportFormat.read?).getD .text }

/-- The options for a run among `items`. -/
def RunOptions.ofItems (items : List Item) : RunOptions :=
  { args := valuesOf items .arg
    separator := valueOf? items .separator
    workers := (valueOf? items .workers).bind readCount?
    exec := valueOf? items .exec
    execArgs := valueOf? items .execArgs
    input := valueOf? items .input }

/-! ## From arguments to requests -/

def CacheAction.named? : String → Option CacheAction
  | "path" => some path
  | "clear" => some clear
  | "list" => some list
  | _ => none

/-- Whether help can be given on a command, from its name and those of the commands above
it. -/
def hasHelp (f : Form) : List String → Bool
  | [] => true
  | name :: names =>
    match f.subcommands.lookup name with
    | some g => hasHelp g names
    | none => false

/-- Why help on a command ends in nothing to carry out. -/
def helpStop (f : Form) (names : List String) : Stop :=
  if hasHelp f names then .help else .usage

/-- What the arguments behind `cache` ask for, `before` being the items before it. -/
def readCacheTask (before : List Item) (args : List String) : Except Stop Request := do
  let ⟨items, subcommand⟩ ← readArguments .cache args
  let some (name, args) := subcommand | throw .usage
  let some action := CacheAction.named? name | throw (helpStop .cache args)
  let ⟨more, _⟩ ← readArguments .cacheAction args
  return ⟨.ofItems (before ++ items ++ more), .cache action⟩

def Request.ofArgs (args : List String) : Except Stop Request := do
  let ⟨before, subcommand⟩ ← readArguments .top args
  match subcommand with
  | some ("run", args) =>
    let ⟨items, _⟩ ← readArguments .run args
    return ⟨.ofItems (before ++ items), .run (.ofItems items) (.ofItems items)⟩
  | some ("check", args) =>
    let ⟨items, _⟩ ← readArguments .check args
    return ⟨.ofItems (before ++ items), .check (.ofItems items)⟩
  | some ("cache", args) => readCacheTask before args
  | some (_, args) => throw (helpStop .top args)
  | none => throw .usage

end LineQuery.CommandLine
