import LineQuery.Text.Utf8

/-!
# Spans and positions

A span is a range of byte offsets in a text. A position is a line and a column, both counted from
one, the column in bytes. The index of a text holds where its lines start and finds the position of
a byte offset.

Offsets are natural numbers here. Where they are kept in words of 32 bits they are the same for
texts that are shorter than the number of words, `UInt32.size` bytes; theorems about places in a
text ask for that. `Script.LineTable` has the index in words.
-/

namespace LineQuery

/-- The bytes from `start` up to, but not including, `stop`. -/
structure Span where
  start : Nat
  stop : Nat
deriving DecidableEq, Repr

namespace Span

/-- The least span that covers both. -/
def merge (a b : Span) : Span :=
  ⟨min a.start b.start, max a.stop b.stop⟩

def length (s : Span) : Nat :=
  s.stop - s.start

def isEmpty (s : Span) : Bool :=
  s.start == s.stop

end Span

/-- A line and a byte column, counted from one. -/
structure Position where
  line : Nat
  column : Nat
deriving DecidableEq, Repr

namespace Position

/-- Positions are ordered by line, then by column. -/
def le (a b : Position) : Bool :=
  a.line < b.line || (a.line == b.line && a.column ≤ b.column)

end Position

/-- The byte offsets at which the lines of a text after its first start. -/
structure LineIndex where
  starts : List Nat
deriving DecidableEq, Repr

namespace LineIndex

/-- The offsets behind the line feeds of `cs`, whose first character stands at `offset`. -/
def startsFrom (offset : Nat) : List Char → List Nat
  | [] => []
  | c :: cs =>
    let next := offset + c.utf8Size
    if c = '\n' then next :: startsFrom next cs else startsFrom next cs

def ofText (text : String) : LineIndex :=
  ⟨startsFrom 0 text.toList⟩

/-- The position of `offset`, where line `line` starts at `start` and the lines after it at
the later starts. -/
def positionFrom (line start offset : Nat) : List Nat → Position
  | [] => ⟨line, offset - start + 1⟩
  | next :: later =>
    if next ≤ offset then positionFrom (line + 1) next offset later
    else ⟨line, offset - start + 1⟩

/-- The position of a byte offset, which may lie behind the end of the text. -/
def position (index : LineIndex) (offset : Nat) : Position :=
  positionFrom 1 0 offset index.starts

/-- The number of lines; an empty last line counts. -/
def lineCount (index : LineIndex) : Nat :=
  index.starts.length + 1

end LineIndex

end LineQuery
