import LineQuery.Proofs.Text.ByteLines

/-! # Reading line by line

A stream is cut at its line feeds into the lines that end in it and what stands behind the last of
them. A reader that takes all up to the next line feed, again and again, takes these lines one after
another and comes to the end of the stream.
-/

namespace LineQuery.Text

variable {α : Type} [DecidableEq α] {nl cr : α} {stream line left rest : List α}
  {ended : List (List α)}

/-! ## Lines and their ends -/

/-- A stream in its parts: the lines that end in it, without the line feeds, and what stands behind
the last line feed. -/
structure HasLines (nl : α) (stream : List α) (ended : List (List α)) (rest : List α) : Prop where
  whole : stream = ended.flatMap (· ++ [nl]) ++ rest
  ended : ∀ line ∈ ended, nl ∉ line
  rest : nl ∉ rest

/-- The lines of a stream with these parts. What stands behind the last line feed is a line if it
is not empty, and it keeps a carriage return. -/
def bareLines (cr : α) (ended : List (List α)) (rest : List α) : List (List α) :=
  ended.map (withoutReturn cr) ++ if rest = [] then [] else [rest]

theorem length_bareLines (cr : α) (ended : List (List α)) (rest : List α) :
    (bareLines cr ended rest).length = ended.length + if rest = [] then 0 else 1 := by
  rw [bareLines, List.length_append, List.length_map]
  split <;> rfl

namespace HasLines

omit [DecidableEq α] in
theorem cons (hline : nl ∉ line) (h : HasLines nl stream ended rest) :
    HasLines nl (line ++ nl :: stream) (line :: ended) rest where
  whole := by
    rw [h.whole, List.flatMap_cons]
    simp
  ended := List.forall_mem_cons.mpr ⟨hline, h.ended⟩
  rest := h.rest

/-- Every stream has its parts. -/
theorem exists_parts (nl : α) (stream : List α) : ∃ ended rest, HasLines nl stream ended rest := by
  induction hlength : stream.length using Nat.strongRecOn generalizing stream with
  | ind n ih =>
    by_cases hmem : nl ∈ stream
    · -- the first line ends, and what is behind it is shorter
      obtain ⟨line, left, rfl, hline⟩ := List.eq_append_cons_of_mem hmem
      have hshorter : left.length < n := by
        rw [← hlength, List.length_append, List.length_cons]
        omega
      obtain ⟨ended, rest, h⟩ := ih left.length hshorter left rfl
      exact ⟨line :: ended, rest, h.cons hline⟩
    · exact ⟨[], stream, rfl, nofun, hmem⟩

theorem splitLines_eq (h : HasLines nl stream ended rest) :
    splitLines nl cr stream = bareLines cr ended rest := by
  obtain ⟨rfl, hended, hrest⟩ := h
  induction ended with
  | nil =>
    have hread : splitLinesFrom nl cr [] (rest ++ []) =
        splitLinesFrom nl cr (rest.reverse ++ []) [] := splitLinesFrom_of_not_mem hrest [] []
    rw [List.append_nil, List.append_nil] at hread
    rw [List.flatMap_nil, List.nil_append, splitLines, hread, splitLinesFrom, bareLines]
    simp
  | cons line ended ih =>
    obtain ⟨hline, hended⟩ := List.forall_mem_cons.mp hended
    rw [List.flatMap_cons, List.append_assoc, List.append_assoc, List.singleton_append, splitLines,
      splitLinesFrom_append hline, List.append_nil, reverse_dropReturn_reverse]
    exact congrArg (withoutReturn cr line :: ·) (ih hended)

end HasLines

/-! ## A reader -/

/-- What is read at once, all up to the next line feed and with it, or else all there is; and what
is left of the stream. -/
def readThrough (nl : α) : List α → List α × List α
  | [] => ([], [])
  | x :: xs =>
    if x = nl then ([x], xs) else (x :: (readThrough nl xs).1, (readThrough nl xs).2)

/-- What was read without its end: a line feed, and then one carriage return. -/
def withoutEnd (nl cr : α) (line : List α) : List α :=
  if line.getLast? = some nl then withoutReturn cr line.dropLast else line

/-- The next line of a stream and what is left behind it. There is none if nothing is read. -/
def nextLine? (nl cr : α) (stream : List α) : Option (List α × List α) :=
  if (readThrough nl stream).1 = [] then none
  else some (withoutEnd nl cr (readThrough nl stream).1, (readThrough nl stream).2)

theorem readThrough_append (hline : nl ∉ line) :
    readThrough nl (line ++ nl :: left) = (line ++ [nl], left) := by
  induction line with
  | nil => simp [readThrough]
  | cons x line ih =>
    obtain ⟨hx, hline⟩ := List.ne_and_not_mem_of_not_mem_cons hline
    rw [List.cons_append, readThrough, if_neg hx.symm, ih hline, List.cons_append]

theorem readThrough_of_not_mem (h : nl ∉ rest) : readThrough nl rest = (rest, []) := by
  induction rest with
  | nil => rfl
  | cons x rest ih =>
    obtain ⟨hx, hrest⟩ := List.ne_and_not_mem_of_not_mem_cons h
    rw [readThrough, if_neg hx.symm, ih hrest]

/-- A line that ends is read without its end. -/
theorem nextLine?_append (hline : nl ∉ line) :
    nextLine? nl cr (line ++ nl :: left) = some (withoutReturn cr line, left) := by
  rw [nextLine?, readThrough_append hline, if_neg (List.concat_ne_nil _ _), withoutEnd,
    if_pos List.getLast?_concat, List.dropLast_concat]

/-- What does not end is read as it is, and nothing is left. -/
theorem nextLine?_of_not_mem (h : nl ∉ rest) :
    nextLine? nl cr rest = if rest = [] then none else some (rest, []) := by
  have hlast : rest.getLast? ≠ some nl := fun hlast => h (List.mem_of_getLast? hlast)
  rw [nextLine?, readThrough_of_not_mem h, withoutEnd, if_neg hlast]

theorem nextLine?_eq_none_iff : nextLine? nl cr stream = none ↔ stream = [] := by
  unfold nextLine?
  cases stream with
  | nil => simp [readThrough]
  | cons x stream => by_cases hx : x = nl <;> simp [readThrough, hx]

/-- What a source gives when it is asked again and again until it has no more. -/
inductive Yields {σ β : Type} (next? : σ → Option (β × σ)) : σ → List β → Prop where
  | done {s : σ} (none : next? s = none) : Yields next? s []
  | more {s left : σ} {b : β} {bs : List β} (some : next? s = some (b, left))
    (behind : Yields next? left bs) : Yields next? s (b :: bs)

/-- The reader gives the lines of the stream. -/
theorem yields_splitLines (nl cr : α) (stream : List α) :
    Yields (nextLine? nl cr) stream (splitLines nl cr stream) := by
  obtain ⟨ended, rest, h⟩ := HasLines.exists_parts nl stream
  rw [h.splitLines_eq]
  obtain ⟨rfl, hended, hrest⟩ := h
  induction ended with
  | nil =>
    have hnext : nextLine? nl cr rest = if rest = [] then none else some (rest, []) :=
      nextLine?_of_not_mem hrest
    rw [List.flatMap_nil, List.nil_append, bareLines, List.map_nil, List.nil_append]
    split
    · rename_i hempty
      rw [if_pos hempty] at hnext
      exact .done hnext
    · rename_i hne
      rw [if_neg hne] at hnext
      exact .more hnext (.done rfl)
  | cons line ended ih =>
    obtain ⟨hline, hended⟩ := List.forall_mem_cons.mp hended
    rw [List.flatMap_cons, List.append_assoc, List.append_assoc, List.singleton_append]
    exact .more (nextLine?_append hline) (ih hended)

end LineQuery.Text
