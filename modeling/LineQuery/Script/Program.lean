import LineQuery.Digest.Fingerprint
import LineQuery.Text.Blank
import LineQuery.Text.Lines

/-!
# Programs

A program is what the user wrote, the body, inside a fixed frame: one `use` line for each
imported library, the head of the entry point, the body lines, and a closing brace. The
lines before the body are the preamble; positions in the whole text are told to the user
as lines of the body.
-/

namespace LineQuery

/-- A program: the libraries it imports, ascending and without repetition, and the lines of
its body. -/
structure Program where
  imports : List String
  body : List String
deriving DecidableEq, Repr

/-- Where the user's lines stand in a program's text: behind `preamble` lines, `count` of
them. -/
structure UserLines where
  preamble : Nat
  count : Nat
deriving DecidableEq, Repr

namespace UserLines

/-- The user's line, counted from zero, that a line of the text, counted from one, shows. -/
def find? (lines : UserLines) (line : Nat) : Option Nat :=
  if lines.preamble < line ∧ line ≤ lines.preamble + lines.count then
    some (line - lines.preamble - 1)
  else none

end UserLines

namespace Program

def defaultImports : List String := ["core", "text"]

def entryName : String := "query"

/-- The program with the default imports and an empty body. -/
def empty : Program := ⟨defaultImports, []⟩

/-- An ascending list without repetition, with `name` in it. -/
def insertName (name : String) : List String → List String
  | [] => [name]
  | other :: names =>
    if name < other then name :: other :: names
    else if name = other then other :: names
    else other :: insertName name names

/-- The program that imports `library` as well. -/
def addImport (p : Program) (library : String) : Program :=
  { p with imports := insertName library p.imports }

/-- The body lines of a text; an empty text is one empty line. -/
def bodyLines (text : String) : List String :=
  if text.isEmpty then [""] else Text.lines text

/-- The program with a text appended to its body. -/
def addText (p : Program) (text : String) : Program :=
  { p with body := p.body ++ bodyLines text }

/-- Whether the body holds blanks only. -/
def isBlank (p : Program) : Bool :=
  p.body.all Text.isAllBlank

def useLine (library : String) : String :=
  "use " ++ library ++ ";\n"

def headLine : String :=
  entryName ++ "(lines, args) \x7b\n"

def closingLine : String := "\x7d\n"

def text (p : Program) : String :=
  String.join (p.imports.map useLine) ++ headLine ++
    String.join (p.body.map (· ++ "\n")) ++ closingLine

def preambleLines (p : Program) : Nat :=
  p.imports.length + 1

/-- Where the body stands in the text. -/
def userLines (p : Program) : UserLines :=
  ⟨p.preambleLines, p.body.length⟩

/-- What the program's artifact is stored under. -/
def fingerprint (p : Program) : Digest.Fingerprint :=
  Digest.Fingerprint.ofText p.text

end Program

end LineQuery
