import LineQuery.Foreign.Programs.Copy

/-!
# Arguments of small programs

Arguments are switches and operands in any order. A switch is a letter, several of which may
stand together behind a hyphen, or a word behind two; some take a value. Operands name the
files that are read instead of the standard input.
-/

namespace LineQuery.Programs

open LineQuery.Files (DiskError)
open LineQuery.Text (Bytes encodeUtf8)

/-! ## Switches -/

/-- The switches that a program knows: letters without and with a value, and words that stand for
letters. -/
structure SwitchSet where
  plain : String
  valued : String := ""
  words : List (String × Char) := []

/-- Switches by letter with their values, and operands. -/
structure Switches where
  given : List (Char × String) := []
  operands : List String := []
deriving DecidableEq, Repr

namespace Switches

/-- Whether a switch is given. -/
def has (o : Switches) (letter : Char) : Bool :=
  o.given.any (·.1 = letter)

def value? (o : Switches) (letter : Char) : Option String :=
  (o.given.reverse.lookup letter)

/-- The switches with one more. -/
def add (o : Switches) (letter : Char) (value : String) : Switches :=
  { o with given := (letter, value) :: o.given }

end Switches

/-- What a cluster of letters gives: its switches, and the one that takes the next argument for its
value. -/
def SwitchSet.readLetters (known : SwitchSet) :
    List Char → Except String (List (Char × String) × Option Char)
  | [] => .ok ([], none)
  | c :: cs =>
    if known.plain.toList.contains c then
      (known.readLetters cs).map fun (given, open?) => ((c, "") :: given, open?)
    else if known.valued.toList.contains c then
      if cs.isEmpty then .ok ([], some c) else .ok ([(c, String.ofList cs)], none)
    else .error ("invalid option -- '" ++ String.singleton c ++ "'")

/-- The letter and the value of a word behind two hyphens; a word may be cut short. -/
def SwitchSet.readWord (known : SwitchSet) (arg : String) :
    Except String (Char × Option String) :=
  let text := arg.toList.drop 2
  let word := String.ofList (text.takeWhile (· ≠ '='))
  let rest := text.dropWhile (· ≠ '=')
  let found := known.words.filter fun entry => entry.1.startsWith word
  let found := (known.words.filter fun entry => entry.1 = word) ++ found
  match found with
  | (_, letter) :: _ =>
    .ok (letter, if rest.isEmpty then none else some (String.ofList (rest.drop 1)))
  | [] => .error ("unrecognized option '" ++ arg ++ "'")

/-- The switches and operands among `count` arguments at most, or what is said of one that is not
known. -/
def SwitchSet.readUpTo (known : SwitchSet) : (count : Nat) → List String →
    Except String Switches
  | 0, _ => .ok {}
  | _ + 1, [] => .ok {}
  | count + 1, arg :: args =>
    if arg = "--" then .ok { operands := args }
    else if arg.startsWith "--" then do
      let (letter, value) ← known.readWord arg
      if known.valued.toList.contains letter then
        match value, args with
        | some v, args => return (← known.readUpTo count args).add letter v
        | none, v :: args => return (← known.readUpTo count args).add letter v
        | none, [] => throw ("option '" ++ arg ++ "' requires an argument")
      else return (← known.readUpTo count args).add letter ""
    else if arg.startsWith "-" && arg ≠ "-" then do
      let (given, waiting) ← known.readLetters (arg.toList.drop 1)
      match waiting, args with
      | none, args =>
        let o ← known.readUpTo count args
        return { o with given := given ++ o.given }
      | some letter, v :: args =>
        let o ← known.readUpTo count args
        return { o with given := given ++ (letter, v) :: o.given }
      | some letter, [] =>
        throw ("option requires an argument -- '" ++ String.singleton letter ++ "'")
    else do
      let o ← known.readUpTo count args
      return { o with operands := arg :: o.operands }

/-- The switches and operands among arguments. -/
def SwitchSet.read (known : SwitchSet) (args : List String) : Except String Switches :=
  known.readUpTo (args.length + 1) args

/-- The program that its switches and operands make, or one that complains of them. -/
def SwitchSet.program (known : SwitchSet) (code : Int) (args : List String)
    (make : Switches → Program) : Program :=
  match known.read args with
  | .ok o => make o
  | .error message => .misused message code

/-! ## Operands -/

/-- The bytes that operands name, each with its operand. The standard input can be read once. -/
def Surroundings.sources (s : Surroundings) : Bytes → List String →
    List (String × Except DiskError Bytes)
  | _, [] => []
  | input, operand :: operands =>
    match s.source operand with
    | .ok .input => (operand, .ok input) :: s.sources [] operands
    | .ok (.bytes bytes) => (operand, .ok bytes) :: s.sources input operands
    | .error e => (operand, .error e) :: s.sources input operands

/-- Whether the standard input is among operands. -/
def Surroundings.readsInput (s : Surroundings) (operands : List String) : Bool :=
  operands.any fun operand =>
    match s.source operand with
    | .ok .input => true
    | _ => false

/-- The operands, or the standard input where there are none. -/
def Switches.files (o : Switches) : List String :=
  if o.operands.isEmpty then ["-"] else o.operands

/-- The program that writes what becomes of each of its operands, and complains of those that
cannot be read; `complaint` words that. -/
def Program.overEach (operands : List String) (complaint : String → DiskError → String)
    (f : Nat → String → Bytes → Bytes) : Program := fun s input =>
  let sources := s.sources input operands
  let written := sources.zipIdx.map fun ((operand, source), i) =>
    match source with
    | .ok bytes => (Outlet.out, f i operand bytes)
    | .error e => (Outlet.err, encodeUtf8 (s.name ++ ": " ++ complaint operand e ++ "\n"))
  { stopsAfter := if s.readsInput operands then none else some 0
    written
    exitCode := some (if sources.all (·.2.isOk) then 0 else 1)
    disk := s.disk }

/-- What most programs say of a file that they cannot read. -/
def plainComplaint (operand : String) (e : DiskError) : String :=
  operand ++ ": " ++ e.reason

end LineQuery.Programs
