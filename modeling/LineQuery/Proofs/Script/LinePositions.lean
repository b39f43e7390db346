import LineQuery.Proofs.Text.Utf8
import LineQuery.Script.Position
import Mathlib.Data.List.Induction

/-! # Positions and lines

A line of a text stands behind the lines before it, each of which has a line end. An offset in a
line, or at the line end behind it, has the number of that line, and the column is counted from the
start of the line.
-/

namespace LineQuery

open LineQuery.Text (byteLength byteLength_append)

def Text.lineChars (lines : List String) : List Char :=
  lines.flatMap fun line => line.toList ++ ['\n']

open LineQuery.Text (lineChars)

theorem Text.toList_join_lines (lines : List String) :
    (String.join (lines.map (· ++ "\n"))).toList = lineChars lines := by
  induction lines with
  | nil => rfl
  | cons line lines ih =>
    rw [List.map_cons, String.join_cons, String.toList_append, ih, String.toList_append]
    rfl

theorem Text.lineChars_cons (line : String) (lines : List String) :
    lineChars (line :: lines) = line.toList ++ '\n' :: lineChars lines := by
  rw [lineChars, List.flatMap_cons, List.append_assoc]
  rfl

theorem Text.lineChars_append (lines more : List String) :
    lineChars (lines ++ more) = lineChars lines ++ lineChars more :=
  List.flatMap_append

/-- A line takes one byte more than it has, for the line end. -/
theorem Text.byteLength_lineChars_concat (lines : List String) (line : String) :
    byteLength (lineChars (lines ++ [line])) =
      byteLength (lineChars lines) + byteLength line.toList + 1 := by
  have hend : byteLength ['\n'] = 1 := by decide
  rw [lineChars_append, byteLength_append, lineChars, lineChars, List.flatMap_singleton,
    byteLength_append, hend, Nat.add_assoc]

/-- An offset in some lines is in one of them or at the line end behind it. -/
theorem Text.exists_line_of_lt {lines : List String} {offset : Nat}
    (h : offset < byteLength (lineChars lines)) :
    ∃ before line after, lines = before ++ line :: after ∧
      byteLength (lineChars before) ≤ offset ∧
      offset ≤ byteLength (lineChars before) + byteLength line.toList := by
  induction lines using List.reverseRecOn with
  | nil => exact absurd h (Nat.not_lt_zero offset)
  | append_singleton lines line ih =>
    by_cases hbefore : offset < byteLength (lineChars lines)
    · obtain ⟨before, line', after, rfl, hstart, hend⟩ := ih hbefore
      exact ⟨before, line', after ++ [line], by rw [List.append_assoc]; rfl, hstart, hend⟩
    · rw [byteLength_lineChars_concat] at h
      exact ⟨lines, line, [], rfl, Nat.not_lt.mp hbefore, by omega⟩

/-- Whether one position is behind another: in a later line, or further on in the same one. -/
def Position.Before (a b : Position) : Prop :=
  a.line < b.line ∨ (a.line = b.line ∧ a.column < b.column)

theorem Position.le_of_before {a b : Position} (h : a.Before b) : a.le b = true := by
  simp only [le, Bool.or_eq_true, Bool.and_eq_true, decide_eq_true_eq, beq_iff_eq]
  rcases h with hline | ⟨hline, hcolumn⟩
  · exact .inl hline
  · exact .inr ⟨hline, Nat.le_of_lt hcolumn⟩

namespace LineIndex

theorem le_line_positionFrom (starts : List Nat) (n start offset : Nat) :
    n ≤ (positionFrom n start offset starts).line := by
  induction starts generalizing n start with
  | nil => exact Nat.le_refl _
  | cons next later ih =>
    rw [positionFrom]
    split
    · exact Nat.le_of_succ_le (ih (n + 1) next)
    · exact Nat.le_refl _

/-- A greater offset has a position further on. -/
theorem positionFrom_before {a b : Nat} (hab : a < b) (starts : List Nat) {n start : Nat}
    (hstart : start ≤ a) :
    (positionFrom n start a starts).Before (positionFrom n start b starts) := by
  induction starts generalizing n start with
  | nil => exact .inr ⟨rfl, show a - start + 1 < b - start + 1 by omega⟩
  | cons next later ih =>
    rw [positionFrom, positionFrom]
    by_cases ha : next ≤ a
    · rw [if_pos ha, if_pos (by omega)]
      exact ih ha
    · rw [if_neg ha]
      split
      · exact .inl (le_line_positionFrom later (n + 1) next b)
      · exact .inr ⟨rfl, show a - start + 1 < b - start + 1 by omega⟩

/-- Positions go forward in the text. -/
theorem position_before {a b : Nat} (hab : a < b) (index : LineIndex) :
    (index.position a).Before (index.position b) :=
  positionFrom_before hab index.starts (Nat.zero_le a)

/-- The line starts of two texts, one behind the other. -/
theorem startsFrom_append (offset : Nat) (cs ds : List Char) :
    startsFrom offset (cs ++ ds) =
      startsFrom offset cs ++ startsFrom (offset + byteLength cs) ds := by
  induction cs generalizing offset with
  | nil => rfl
  | cons c cs ih =>
    rw [List.cons_append, startsFrom, startsFrom, ih, byteLength, Nat.add_assoc]
    split
    · rfl
    · rfl

theorem startsFrom_of_not_mem {cs : List Char} (h : '\n' ∉ cs) (offset : Nat) :
    startsFrom offset cs = [] := by
  induction cs generalizing offset with
  | nil => rfl
  | cons c cs ih =>
    rw [startsFrom, if_neg (List.ne_of_not_mem_cons h).symm]
    exact ih (List.not_mem_of_not_mem_cons h) _

/-- An offset behind a line is looked for in the next one. -/
theorem positionFrom_line {line : List Char} (hline : '\n' ∉ line) {n start offset : Nat}
    (hbehind : start + byteLength line + 1 ≤ offset) (rest : List Char) :
    positionFrom n start offset (startsFrom start (line ++ '\n' :: rest)) =
      positionFrom (n + 1) (start + byteLength line + 1) offset
        (startsFrom (start + byteLength line + 1) rest) := by
  have hend : '\n'.utf8Size = 1 := by decide
  rw [startsFrom_append, startsFrom_of_not_mem hline, List.nil_append, startsFrom, if_pos rfl,
    hend, positionFrom, if_pos hbehind]

/-- An offset behind some lines is looked for in what comes after them. -/
theorem positionFrom_lineChars {lines : List String} (hlines : ∀ l ∈ lines, '\n' ∉ l.toList)
    {n start offset : Nat} (hbehind : start + byteLength (lineChars lines) ≤ offset)
    (rest : List Char) :
    positionFrom n start offset (startsFrom start (lineChars lines ++ rest)) =
      positionFrom (n + lines.length) (start + byteLength (lineChars lines)) offset
        (startsFrom (start + byteLength (lineChars lines)) rest) := by
  induction lines generalizing n start with
  | nil => rfl
  | cons line lines ih =>
    obtain ⟨hline, hothers⟩ := List.forall_mem_cons.mp hlines
    have hchars := Text.lineChars_cons line lines
    have hlength : start + byteLength (lineChars (line :: lines)) =
        start + byteLength line.toList + 1 + byteLength (lineChars lines) := by
      have hend : '\n'.utf8Size = 1 := by decide
      rw [hchars, byteLength_append, byteLength, hend]
      omega
    rw [hlength] at hbehind ⊢
    rw [hchars, List.append_assoc, List.cons_append, positionFrom_line hline (by omega),
      ih hothers hbehind, List.length_cons, Nat.add_assoc n, Nat.add_comm 1]

/-- An offset in a line, or at the end of it, is not looked for any further. -/
theorem positionFrom_of_le {line tail : List Char} (hline : '\n' ∉ line)
    (htail : tail = [] ∨ ∃ rest, tail = '\n' :: rest) {n start offset : Nat}
    (hend : offset ≤ start + byteLength line) :
    positionFrom n start offset (startsFrom start (line ++ tail)) =
      ⟨n, offset - start + 1⟩ := by
  rw [startsFrom_append, startsFrom_of_not_mem hline, List.nil_append]
  rcases htail with rfl | ⟨rest, rfl⟩
  · rfl
  · have hsize : '\n'.utf8Size = 1 := by decide
    rw [startsFrom, if_pos rfl, hsize, positionFrom, if_neg (by omega)]

/-- The position of an offset in a line, or at the end of it. -/
theorem position_of_line {text : String} {before : List String} {line tail : List Char}
    (htext : text.toList = lineChars before ++ (line ++ tail))
    (hbefore : ∀ l ∈ before, '\n' ∉ l.toList) (hline : '\n' ∉ line)
    (htail : tail = [] ∨ ∃ rest, tail = '\n' :: rest) {offset : Nat}
    (hstart : byteLength (lineChars before) ≤ offset)
    (hend : offset ≤ byteLength (lineChars before) + byteLength line) :
    (ofText text).position offset =
      ⟨before.length + 1, offset - byteLength (lineChars before) + 1⟩ := by
  have hbehind : 0 + byteLength (lineChars before) ≤ offset := by
    rw [Nat.zero_add]
    exact hstart
  rw [position, ofText, htext, positionFrom_lineChars hbefore hbehind, Nat.zero_add,
    positionFrom_of_le hline htail hend, Nat.add_comm]

/-- An offset in some lines, or at the end of one of them, is in no line behind them. -/
theorem line_le_of_lt {text : String} {lines : List String} {rest : List Char}
    (htext : text.toList = lineChars lines ++ rest) (hlines : ∀ l ∈ lines, '\n' ∉ l.toList)
    {offset : Nat} (hlt : offset < byteLength (lineChars lines)) :
    ((ofText text).position offset).line ≤ lines.length := by
  obtain ⟨before, line, after, rfl, hstart, hend⟩ := Text.exists_line_of_lt hlt
  rw [Text.lineChars_append, Text.lineChars_cons, List.append_assoc, List.append_assoc,
    List.cons_append] at htext
  have hbefore : ∀ l ∈ before, '\n' ∉ l.toList := fun l hl =>
    hlines l (List.mem_append_left _ hl)
  have hline : '\n' ∉ line.toList := hlines line (List.mem_append_right _ List.mem_cons_self)
  rw [position_of_line htext hbefore hline (.inr ⟨_, rfl⟩) hstart hend, List.length_append,
    List.length_cons]
  show before.length + 1 ≤ _
  omega

/-- An offset behind some lines is in a line behind them. -/
theorem lt_line_of_le {text : String} {lines : List String} {rest : List Char}
    (htext : text.toList = lineChars lines ++ rest) (hlines : ∀ l ∈ lines, '\n' ∉ l.toList)
    {offset : Nat} (hle : byteLength (lineChars lines) ≤ offset) :
    lines.length < ((ofText text).position offset).line := by
  have hbehind : 0 + byteLength (lineChars lines) ≤ offset := by
    rwa [Nat.zero_add]
  have hline := le_line_positionFrom (startsFrom (0 + byteLength (lineChars lines)) rest)
    (1 + lines.length) (0 + byteLength (lineChars lines)) offset
  rw [position, ofText, htext, positionFrom_lineChars hlines hbehind]
  omega

end LineIndex

end LineQuery
