import LineQuery.Script.Position

/-!
# Line tables

A line table is the index of a text in words of 32 bits. The offsets that it holds and those that
it is asked for are words, and so are the lines and columns that it gives: where a word is too short
for one of these there is no position. The line of an offset is found by bisection.
-/

namespace LineQuery

/-- The sum of two words, if it is a word. -/
def Word.add? (a b : UInt32) : Option UInt32 :=
  if a.toNat + b.toNat < UInt32.size then some (a + b) else none

/-- The difference of two words, if it is a word. -/
def Word.sub? (a b : UInt32) : Option UInt32 :=
  if b ≤ a then some (a - b) else none

/-- The byte offsets at which the lines of a text start, as words. -/
structure LineTable where
  starts : Array UInt32
deriving DecidableEq, Repr

/-- The table of an index. The first line starts at zero. -/
def LineIndex.table (index : LineIndex) : LineTable :=
  ⟨((0 :: index.starts).map UInt32.ofNat).toArray⟩

namespace LineTable

/-- Looks for `offset` among the entries from `low` up to, but not including, `high`: `.ok` with the
place of the entry that it is, or `.error` with the place that it would have. -/
def searchFrom (table : LineTable) (offset : UInt32) (low high : Nat)
    (hhigh : high ≤ table.starts.size) : Except Nat Nat :=
  if h : low < high then
    let middle := (low + high) / 2
    let start := table.starts[middle]
    if start < offset then table.searchFrom offset (middle + 1) high hhigh
    else if offset < start then table.searchFrom offset low middle (by omega)
    else .ok middle
  else .error low
termination_by high - low

/-- Looks for `offset` among all entries. -/
def search (table : LineTable) (offset : UInt32) : Except Nat Nat :=
  table.searchFrom offset 0 table.starts.size (Nat.le_refl _)

/-- The line of `offset`, counted from zero: the one that starts there, or else the one before the
place that the offset would have. Nothing is before the first place. -/
def line? (table : LineTable) (offset : UInt32) : Option Nat :=
  match table.search offset with
  | .ok line => some line
  | .error 0 => none
  | .error (next + 1) => some next

/-- The position of a byte offset, which may lie behind the end of the text. -/
def position? (table : LineTable) (offset : UInt32) : Option Position := do
  let index ← table.line? offset
  let line ← Word.add? (.ofNat index) 1
  let start ← table.starts[index]?
  let column ← Word.add? (← Word.sub? offset start) 1
  return ⟨line.toNat, column.toNat⟩

end LineTable

end LineQuery
