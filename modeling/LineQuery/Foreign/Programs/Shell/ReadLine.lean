import LineQuery.Foreign.Programs.Shell.Fields
import LineQuery.Foreign.Programs.Shell.Variables

/-!
# Reading lines

A line of the input is cut into as many fields as there are variables; the last one is given all
that is left.
-/

namespace LineQuery.Shell

open LineQuery.Text (Bytes decodeLossy)

/-! ## Lines -/

/-- A line of an input. -/
structure InputLine where
  bytes : List MarkedByte
  /-- Whether a line feed ended it. -/
  ended : Bool
  /-- How many bytes it took. -/
  size : Nat

/-- A line with one more byte before it. -/
def InputLine.before (l : InputLine) (b : MarkedByte) (size : Nat) : InputLine :=
  { l with bytes := b :: l.bytes, size := l.size + size }

/-- The next line. Unless `raw`, a backslash takes the meaning of the byte behind it, and joins
lines. Zero bytes are left out. -/
def readInputLine (raw : Bool) : Bytes → InputLine
  | [] => ⟨[], false, 0⟩
  | 92 :: c :: bs =>
    let line := readInputLine raw bs
    if raw then
      if c = 10 then ⟨[⟨92, .value⟩], true, 2⟩
      else (line.before ⟨c, .value⟩ 1).before ⟨92, .value⟩ 1
    else if c = 10 then { line with size := line.size + 2 }
    else line.before ⟨c, .quoted⟩ 2
  | b :: bs =>
    if b = 10 then ⟨[], true, 1⟩
    else
      let line := readInputLine raw bs
      if b = 0 then { line with size := line.size + 1 } else line.before ⟨b, .value⟩ 1

/-! ## Fields of a line -/

/-- Whether a byte of a line separates fields. -/
def MarkedByte.separates (b : MarkedByte) (separators : Bytes) : Bool :=
  b.mark == .value && separators.contains b.byte

/-- Whether a byte of a line is a blank that separates fields. -/
def MarkedByte.isGap (b : MarkedByte) (separators : Bytes) : Bool :=
  b.mark == .value && isBlankSeparator separators b.byte

/-- The first field of a line, and what is left behind what ends it: blanks with one other
separator among them at most. -/
def takeField (separators : Bytes) (line : List MarkedByte) :
    List MarkedByte × List MarkedByte :=
  let field := line.takeWhile fun b => !b.separates separators
  let rest := (line.drop field.length).dropWhile (·.isGap separators)
  match rest with
  | b :: more =>
    if b.separates separators then (field, more.dropWhile (·.isGap separators)) else (field, rest)
  | [] => (field, [])

/-- The values that a line without blanks at its front gives to variables. -/
def lineValues (separators : Bytes) : List String → List MarkedByte → List (String × Bytes)
  | [], _ => []
  | [name], line =>
    let (field, rest) := takeField separators line
    let all := (line.reverse.dropWhile (·.isGap separators)).reverse
    [(name, plainBytes (if rest.isEmpty then field else all))]
  | name :: names, line =>
    let (field, rest) := takeField separators line
    (name, plainBytes field) :: lineValues separators names rest

/-! ## The command -/

/-- Reads a line into variables. -/
def readVariables (raw : Bool) (names : List String) : InShell Nat := do
  if names.isEmpty then giveUp "arg count"
  else
    let line := readInputLine raw (← readable 0)
    passOver 0 line.size (!line.ended)
    let separators := (← memory).separators
    let bytes := line.bytes.dropWhile (·.isGap separators)
    for (name, value) in lineValues separators names bytes do
      assignNamed name value
    return if line.ended then 0 else 1

def runRead (raw : Bool) : List Bytes → InShell Nat
  | [] => readVariables raw []
  | arg :: args =>
    match (decodeLossy arg).toList with
    | ['-', '-'] => readVariables raw (args.map decodeLossy)
    | ['-', 'r'] => runRead true args
    | ['-', 'p'] => runRead raw args.tail
    | '-' :: c :: _ => giveUp ("Illegal option -" ++ String.singleton c)
    | _ => readVariables raw ((arg :: args).map decodeLossy)
termination_by args => args.length

end LineQuery.Shell
