import LineQuery.Foreign.Programs.Basic
import LineQuery.Text.Decimal

/-!
# Copying

The program that writes what it reads. Its operands name the files that are read instead of
the standard input. Its options number lines, drop repeated empty lines, and show characters
that are not seen otherwise.
-/

namespace LineQuery.Programs

open LineQuery.Files (DiskError)
open LineQuery.Text (Bytes encodeUtf8)

/-! ## Options -/

/-- What the options of a copy ask for: numbers on all lines, numbers on lines with text
only, one empty line of several, a mark at line ends, and shown tabs and controls. -/
structure CopyOptions where
  numbers : Bool := false
  textNumbers : Bool := false
  squeezes : Bool := false
  ends : Bool := false
  tabs : Bool := false
  controls : Bool := false
deriving DecidableEq, Repr

namespace CopyOptions

/-- The options with one more letter, if it is the letter of an option. -/
def addLetter? (o : CopyOptions) : Char → Option CopyOptions
  | 'n' => some { o with numbers := true }
  | 'b' => some { o with textNumbers := true }
  | 's' => some { o with squeezes := true }
  | 'E' => some { o with ends := true }
  | 'T' => some { o with tabs := true }
  | 'v' => some { o with controls := true }
  | 'e' => some { o with ends := true, controls := true }
  | 't' => some { o with tabs := true, controls := true }
  | 'A' => some { o with ends := true, tabs := true, controls := true }
  | 'u' => some o
  | _ => none

/-- The options with a cluster of letters, or the first letter that is no option. -/
def addLetters (o : CopyOptions) : List Char → Except Char CopyOptions
  | [] => .ok o
  | c :: cs =>
    match o.addLetter? c with
    | some o => o.addLetters cs
    | none => .error c

/-- The letter that a long option stands for. -/
def letterOf? : String → Option Char
  | "--number" => some 'n'
  | "--number-nonblank" => some 'b'
  | "--squeeze-blank" => some 's'
  | "--show-ends" => some 'E'
  | "--show-tabs" => some 'T'
  | "--show-nonprinting" => some 'v'
  | "--show-all" => some 'A'
  | _ => none

/-- The options and the operands among arguments, or what is said of an option that does not
exist. -/
def ofArgs (o : CopyOptions) : List String → Except String (CopyOptions × List String)
  | [] => .ok (o, [])
  | arg :: args =>
    if arg = "--" then .ok (o, args)
    else if arg.startsWith "--" then
      match (letterOf? arg).bind o.addLetter? with
      | some o => o.ofArgs args
      | none => .error ("unrecognized option '" ++ arg ++ "'")
    else if arg.startsWith "-" && arg ≠ "-" then
      match o.addLetters (arg.toList.drop 1) with
      | .ok o => o.ofArgs args
      | .error c => .error ("invalid option -- '" ++ String.singleton c ++ "'")
    else (o.ofArgs args).map fun (o, operands) => (o, arg :: operands)

end CopyOptions

/-! ## Showing bytes -/

/-- How a byte below 128 is shown where controls are. -/
def caretForm (b : UInt8) : Bytes :=
  if b < 32 then [94, b + 64] else if b = 127 then [94, 63] else [b]

/-- How a byte within a line is shown. -/
def CopyOptions.shown (o : CopyOptions) (b : UInt8) : Bytes :=
  if b = 9 then (if o.tabs then [94, 73] else [b])
  else if !o.controls then [b]
  else if b < 128 then caretForm b
  else [77, 45] ++ caretForm (b - 128)

/-- What a copy remembers between two bytes: the number of the last line numbered, how many
empty lines have just been read, and whether a line starts. -/
structure CopyState where
  count : Nat := 0
  empties : Nat := 0
  atStart : Bool := true
deriving DecidableEq, Repr

/-- The state behind one more byte, and what was written so far, the latest piece first. -/
def CopyOptions.step (o : CopyOptions) (state : CopyState × List Bytes) (b : UInt8) :
    CopyState × List Bytes :=
  let (s, pieces) := state
  let ends := b = 10
  let isEmptyLine := ends && s.atStart
  if isEmptyLine && o.squeezes && 0 < s.empties then ({ s with empties := s.empties + 1 }, pieces)
  else
    let numbered := s.atStart && (if o.textNumbers then !ends else o.numbers)
    let count := if numbered then s.count + 1 else s.count
    let number :=
      if numbered then encodeUtf8 (Text.padLeft 6 (Text.natText count) ++ "\t") else []
    let written := if ends then (if o.ends then [36, 10] else [10]) else o.shown b
    (⟨count, if isEmptyLine then s.empties + 1 else 0, ends⟩, (number ++ written) :: pieces)

/-- The bytes as the options show them behind others. -/
def CopyOptions.display (o : CopyOptions) (s : CopyState) (bytes : Bytes) : CopyState × Bytes :=
  if o = {} then (s, bytes)
  else
    let (s, pieces) := bytes.foldl o.step (s, [])
    (s, pieces.reverse.flatten)

/-! ## Operands -/

/-- What an operand names: the standard input, or the bytes of a file. -/
inductive Source where
  | input
  | bytes (bs : Bytes)

/-- What an operand of a program names, or why it cannot be read. -/
def Surroundings.source (s : Surroundings) (operand : String) : Except DiskError Source :=
  if operand = "-" then .ok .input
  else
    match s.disk.locate s.folder operand with
    | .ok (_, .device (.descriptor 0)) => .ok .input
    | _ => (s.disk.read s.folder operand).map .bytes

/-- What copying operands does behind what has been shown so far; the standard input can be
read once. -/
def CopyOptions.copyOperands (o : CopyOptions) (s : Surroundings) (state : CopyState)
    (input : Bytes) : List String → Conduct
  | [] => ⟨some 0, [], some 0, s.disk⟩
  | operand :: operands =>
    match s.source operand with
    | .error e =>
      let later := o.copyOperands s state input operands
      let message := s.name ++ ": " ++ operand ++ ": " ++ e.reason ++ "\n"
      { later with written := (.err, encodeUtf8 message) :: later.written, exitCode := some 1 }
    | .ok (.bytes bytes) =>
      let (state, shown) := o.display state bytes
      let later := o.copyOperands s state input operands
      { later with written := (.out, shown) :: later.written }
    | .ok .input =>
      let (state, shown) := o.display state input
      let later := o.copyOperands s state [] operands
      { later with stopsAfter := none, written := (.out, shown) :: later.written }

def copy (args : List String) : Program :=
  match CopyOptions.ofArgs {} args with
  | .error message => .misused message 1
  | .ok (o, operands) => fun s input =>
    o.copyOperands s {} input (if operands.isEmpty then ["-"] else operands)

end LineQuery.Programs
