import LineQuery.Text.Decimal

/-!
# Switches

The options of the command line: how each is written, what stands behind it, and which
values it takes.
-/

namespace LineQuery.CommandLine

/-- An option of the command line. -/
inductive Switch where
  | help
  | version
  | quiet
  | verbose
  | color
  | config
  | cacheDir
  | importFile
  | use
  | noCache
  | format
  | arg
  | separator
  | workers
  | exec
  | execArgs
  | input
deriving DecidableEq, Repr

/-- What stands behind an option. -/
inductive Takes where
  /-- Nothing, and the option is given once at most. -/
  | nothing
  /-- A value, and the option is given once at most. -/
  | one
  /-- A value each time the option is given. -/
  | each
deriving DecidableEq, Repr

namespace Switch

/-- The name of an option, which is written behind two hyphens. -/
def name : Switch → String
  | help => "help"
  | version => "version"
  | quiet => "quiet"
  | verbose => "verbose"
  | color => "color"
  | config => "config"
  | cacheDir => "cache-dir"
  | importFile => "import"
  | use => "use"
  | noCache => "no-cache"
  | format => "format"
  | arg => "arg"
  | separator => "separator"
  | workers => "workers"
  | exec => "exec"
  | execArgs => "exec-args"
  | input => "input"

/-- The letter of an option, which is written behind one hyphen. -/
def letter? : Switch → Option Char
  | help => some 'h'
  | version => some 'V'
  | quiet => some 'q'
  | verbose => some 'v'
  | importFile => some 'i'
  | use => some 'u'
  | arg => some 'a'
  | separator => some 's'
  | workers => some 'w'
  | exec => some 'x'
  | color | config | cacheDir | noCache | format | execArgs | input => none

def takes : Switch → Takes
  | help | version | quiet | verbose | noCache => .nothing
  | importFile | use | arg => .each
  | color | config | cacheDir | format | separator | workers | exec | execArgs | input => .one

/-- Whether the value of an option may look like an option itself. -/
def takesHyphens (s : Switch) : Bool :=
  s = execArgs

end Switch

/-! ## Values -/

/-- When output is coloured. -/
inductive ColorChoice where
  | auto
  | always
  | never
deriving DecidableEq, Repr

def ColorChoice.read? : String → Option ColorChoice
  | "auto" => some auto
  | "always" => some always
  | "never" => some never
  | _ => none

/-- How diagnostics are written. -/
inductive ReportFormat where
  | text
  | json
deriving DecidableEq, Repr

def ReportFormat.read? : String → Option ReportFormat
  | "text" => some text
  | "json" => some json
  | _ => none

/-- A number of workers: digits, with `+` before them or not, that stand for a number from
one to the greatest of 64 bits. -/
def readCount? (text : String) : Option Nat :=
  let digits :=
    match text.toList with
    | '+' :: cs => cs
    | cs => cs
  (Text.readNat? digits).filter fun n => 0 < n && n < 0x10000000000000000

/-- Whether an option takes a value. Names of files are not empty. -/
def Switch.accepts (s : Switch) (value : String) : Bool :=
  match s with
  | color => (ColorChoice.read? value).isSome
  | format => (ReportFormat.read? value).isSome
  | workers => (readCount? value).isSome
  | config | cacheDir | importFile | input => !value.isEmpty
  | _ => true

end LineQuery.CommandLine
