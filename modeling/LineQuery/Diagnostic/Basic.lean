import LineQuery.Script.Position
import LineQuery.Text.Decimal

/-!
# Diagnostics

What is reported about a program: how severe it is, its code, a message, where it stands,
and how many columns of the line it concerns. Positions are positions in the whole text of
the program.

A finding is a diagnostic before it is placed: it knows the span that it is about. Placing
it turns the span into a position and a width; a span over several lines keeps one column.
-/

namespace LineQuery

/-- How severe a diagnostic is. -/
inductive Severity where
  | error
  | warning
deriving DecidableEq, Repr

def Severity.label : Severity → String
  | .error => "error"
  | .warning => "warning"

/-- The category of a code. -/
inductive Category where
  | error
  | warning
deriving DecidableEq, Repr

def Category.letter : Category → String
  | .error => "E"
  | .warning => "W"

/-- The code of a diagnostic: what kind of finding it is. -/
structure Code where
  category : Category
  number : Nat
deriving DecidableEq, Repr

namespace Code

def lexical : Code := ⟨.error, 1⟩
/-- Tokens that do not form a program. -/
def grammar : Code := ⟨.error, 2⟩
/-- A `use` of a library that does not exist. -/
def unknownLibrary : Code := ⟨.error, 3⟩
/-- A name that nothing in scope binds. -/
def unknownVariable : Code := ⟨.error, 4⟩
/-- A call of a function that does not exist or is not imported. -/
def unknownFunction : Code := ⟨.error, 5⟩
def arity : Code := ⟨.error, 6⟩
/-- A name bound twice. -/
def duplicateBinding : Code := ⟨.error, 7⟩
/-- The input stream used elsewhere than as the source of the first `from`. -/
def linesMisuse : Code := ⟨.error, 8⟩
/-- A binding that nothing reads. -/
def unusedBinding : Code := ⟨.warning, 1⟩

/-- The letter of the category and a number of at least three digits. -/
def label (c : Code) : String :=
  let digits := Text.showNat c.number
  c.category.letter ++ String.ofList (List.replicate (3 - digits.length) '0' ++ digits)

end Code

/-- One finding about a program. `width` is the number of columns it concerns. -/
structure Diagnostic where
  severity : Severity
  code : Code
  message : String
  position : Position
  width : Nat := 1
  notes : List String := []
  help : List String := []
deriving DecidableEq, Repr

namespace Diagnostic

def isError (d : Diagnostic) : Bool :=
  d.severity == .error

def isWarning (d : Diagnostic) : Bool :=
  d.severity == .warning

/-- The finding with a width of at least one column. -/
def withWidth (d : Diagnostic) (width : Nat) : Diagnostic :=
  { d with width := max width 1 }

/-- The order of reports: by position. -/
def le (a b : Diagnostic) : Bool :=
  a.position.le b.position

/-- Findings in the order of their positions; those at one position keep their order. -/
def sort (ds : List Diagnostic) : List Diagnostic :=
  ds.mergeSort le

end Diagnostic

/-- What a pass over a program reports about a span. -/
structure Finding where
  code : Code
  message : String
  span : Span
  help : List String := []
deriving DecidableEq, Repr

namespace Finding

/-- Codes of the category of warnings are warnings, all others errors. -/
def severity (f : Finding) : Severity :=
  match f.code.category with
  | .error => .error
  | .warning => .warning

/-- The number of columns that a span takes on its first line, at least one. -/
def width (index : LineIndex) (span : Span) : Nat :=
  let first := index.position span.start
  let last := index.position span.stop
  if first.line = last.line then max (last.column - first.column) 1 else 1

/-- The diagnostic of a finding in the text with the given index. -/
def place (index : LineIndex) (f : Finding) : Diagnostic :=
  { severity := f.severity, code := f.code, message := f.message,
    position := index.position f.span.start, width := width index f.span, help := f.help }

end Finding

end LineQuery
