import LineQuery.Diagnostic.Basic
import LineQuery.Script.Program

/-!
# Diagnostics for a terminal

A heading, where the finding stands, and the lines of the user around it with carets under
the columns it concerns. Line numbers are those of the user's own lines; what lies outside
them is placed in the preamble and shown without an excerpt.
-/

namespace LineQuery.Excerpt

open LineQuery.Text (natText padLeft)

def contextBefore : Nat := 2

/-- The escape sequence that sets a terminal's rendition. -/
def rendition (code : String) : String :=
  "\x1b[" ++ code ++ "m"

def severityRendition : Severity → String
  | .error => rendition "1;31"
  | .warning => rendition "1;33"

/-- The first line of a report. -/
def heading (color : Bool) (d : Diagnostic) : String :=
  let label := d.severity.label ++ "[" ++ d.code.label ++ "]"
  if color then
    severityRendition d.severity ++ label ++ rendition "0" ++ rendition "1" ++ ": " ++ d.message ++
      rendition "0" ++ "\n"
  else label ++ ": " ++ d.message ++ "\n"

/-- What stands below a character before the carets. -/
def blankBelow (c : Char) : Char :=
  if c = '\t' then '\t' else ' '

/-- The characters of `cs` that start before byte `limit`, where `cs` starts at byte
`offset`. -/
def charsBefore (limit offset : Nat) : List Char → List Char
  | [] => []
  | c :: cs => if offset < limit then c :: charsBefore limit (offset + c.utf8Size) cs else []

/-- The row below a line: blanks up to byte column `column`, a caret for each character that
starts within `width` bytes from there, and one caret at least. -/
def caretRow (line : List Char) (column width : Nat) : List Char :=
  let start := column - 1
  let before := charsBefore start 0 line
  let upTo := charsBefore (start + max width 1) 0 line
  before.map blankBelow ++ List.replicate (start - Text.byteLength line) ' ' ++
    List.replicate (max (upTo.length - before.length) 1) '^'

/-- The lines `first`, `first + 1`, … of a report, numbered in a gutter. -/
def numbered (gutter first : Nat) (lines : List String) : String :=
  String.join ((lines.zipIdx first).map fun (line, i) =>
    padLeft gutter (natText (i + 1)) ++ " | " ++ line ++ "\n")

/-- The excerpt for user line `k`, counted from zero. -/
def excerpt (body : List String) (k column width : Nat) : String :=
  let first := k - contextBefore
  let gutter := (natText (k + 1)).length
  let padding := padLeft gutter ""
  let line := (body[k]?).getD ""
  padding ++ "--> query:" ++ natText (k + 1) ++ ":" ++ natText column ++ "\n" ++
    padding ++ " |\n" ++
    numbered gutter first ((body.take (k + 1)).drop first) ++
    padding ++ " | " ++ String.ofList (caretRow line.toList column width) ++ "\n"

/-- The lines below an excerpt. -/
def footnotes (kind : String) (texts : List String) : String :=
  String.join (texts.map fun text => "   = " ++ kind ++ ": " ++ text ++ "\n")

/-- The report of a finding about a program. -/
def render (color : Bool) (p : Program) (d : Diagnostic) : String :=
  let place :=
    match p.userLines.find? d.position.line with
    | some k => excerpt p.body k d.position.column d.width
    | none =>
      "  --> <preamble>:" ++ natText d.position.line ++ ":" ++ natText d.position.column ++ "\n"
  heading color d ++ place ++ footnotes "note" d.notes ++ footnotes "help" d.help

end LineQuery.Excerpt
