import LineQuery.CommandLine.Switch

/-!
# Arguments

The arguments of one command, read from the left: options, words, and the subcommand that
ends them. An option may be written with its name or its letter; letters may share a hyphen;
a value may be attached, with an equals sign or, behind a letter, without. Behind two hyphens
that stand alone all arguments are words. These are the customs of command lines and not the tool's
own; `CommandLine.Switch` has the options that it knows.
-/

namespace LineQuery.CommandLine

/-- A command with its own kind of arguments. -/
inductive Form where
  | top
  | run
  | check
  | cache
  | cacheAction
  | help
deriving DecidableEq, Repr

namespace Form

/-- The options that every command knows. -/
def everywhere : List Switch := [.help, .quiet, .verbose, .color, .config, .cacheDir]

/-- The options of commands that have a query. -/
def ofQuery : List Switch := [.importFile, .use, .noCache, .format]

def switches : Form → List Switch
  | top => .version :: everywhere
  | run => [.arg, .separator, .workers, .exec, .execArgs, .input] ++ ofQuery ++ everywhere
  | check => ofQuery ++ everywhere
  | cache | cacheAction | help => everywhere

/-- Whether words may stand among the arguments of a command. -/
def hasWords : Form → Bool
  | run | check => true
  | top | cache | cacheAction | help => false

def subcommands : Form → List (String × Form)
  | top => [("run", run), ("check", check), ("cache", cache), ("help", help)]
  | cache =>
    [("path", cacheAction), ("clear", cacheAction), ("list", cacheAction), ("help", help)]
  | run | check | cacheAction | help => []

/-- The option of a name. -/
def named? (f : Form) (name : String) : Option Switch :=
  f.switches.find? fun s => s.name = name

/-- The option of a letter. -/
def lettered? (f : Form) (letter : Char) : Option Switch :=
  f.switches.find? fun s => s.letter? = some letter

end Form

/-- An argument that has been read: an option with its value, if it takes one, or a word. -/
inductive Item where
  | option (s : Switch) (value : String)
  | word (text : String)
deriving DecidableEq, Repr

/-- Why there is nothing to carry out. -/
inductive Stop where
  /-- The arguments break the rules. -/
  | usage
  /-- The version is asked for. -/
  | version
  /-- Help is asked for. -/
  | help
deriving DecidableEq, Repr

/-- The arguments of a command, and its subcommand with the arguments behind it. -/
structure Reading where
  items : List Item
  subcommand : Option (String × List String)
deriving DecidableEq, Repr

namespace Item

/-- Whether an item is an option of a kind. -/
def isOption (s : Switch) : Item → Bool
  | option t _ => s = t
  | word _ => false

end Item

/-- The items with one more option behind them. -/
def addOption (items : List Item) (s : Switch) (value : String) : Except Stop (List Item) :=
  if s = .help then .error .help
  else if s = .version then .error .version
  else if s.takes ≠ .each ∧ items.any (Item.isOption s) then .error .usage
  else if s.accepts value then .ok (items ++ [.option s value])
  else .error .usage

/-- The items after an option with its name, and the option if its value is the next
argument. -/
def readName (f : Form) (items : List Item) (text : List Char) :
    Except Stop (List Item × Option Switch) :=
  match f.named? (String.ofList (text.takeWhile (· ≠ '='))) with
  | none => .error .usage
  | some s =>
    match s.takes, text.dropWhile (· ≠ '=') with
    | .nothing, [] => (addOption items s "").map (·, none)
    | .nothing, _ :: _ => .error .usage
    | _, [] => .ok (items, some s)
    | _, _ :: value => (addOption items s (String.ofList value)).map (·, none)

/-- The items after options with their letters, and the last option if its value is the next
argument. -/
def readLetters (f : Form) (items : List Item) : List Char →
    Except Stop (List Item × Option Switch)
  | [] => .ok (items, none)
  | c :: cs =>
    match f.lettered? c with
    | none => .error .usage
    | some s =>
      if s.takes = .nothing then
        match addOption items s "" with
        | .error stop => .error stop
        | .ok items => readLetters f items cs
      else
        match cs with
        | [] => .ok (items, some s)
        | '=' :: value => (addOption items s (String.ofList value)).map (·, none)
        | value => (addOption items s (String.ofList value)).map (·, none)

/-- Whether an argument looks like an option. A hyphen alone does not. -/
def looksLikeOption (text : String) : Bool :=
  text.startsWith "-" && text ≠ "-"

/-- The arguments of a command after the items before them, where `waiting` is an option
whose value comes next. -/
def readFrom (f : Form) (items : List Item) (waiting : Option Switch) :
    List String → Except Stop Reading
  | [] => if waiting.isSome then .error .usage else .ok ⟨items, none⟩
  | text :: rest =>
    match waiting with
    | some s =>
      if looksLikeOption text && !s.takesHyphens then .error .usage
      else
        match addOption items s text with
        | .error stop => .error stop
        | .ok items => readFrom f items none rest
    | none =>
      if (f.subcommands.lookup text).isSome then .ok ⟨items, some (text, rest)⟩
      else if text = "--" then
        if f.hasWords || rest.isEmpty then .ok ⟨items ++ rest.map .word, none⟩
        else .error .usage
      else if looksLikeOption text then
        let step :=
          match text.toList.drop 1 with
          | '-' :: long => readName f items long
          | letters => readLetters f items letters
        match step with
        | .error stop => .error stop
        | .ok (items, waiting) => readFrom f items waiting rest
      else if f.hasWords then readFrom f (items ++ [.word text]) none rest
      else .error .usage

/-- The arguments of a command. -/
def readArguments (f : Form) (args : List String) : Except Stop Reading :=
  readFrom f [] none args

end LineQuery.CommandLine
