import LineQuery.Proofs.Script.UserPositions
import LineQuery.Proofs.Text.ByteLines
import Mathlib.Data.List.DropRight

/-! # Where a piece of a text stands in the body

A piece of a text that has no line end in it, and no carriage return at its end, stands in one line
as a whole: the line ends before it count the lines, and what is left of the text around it belongs
to its line up to the next line ends. The lines of a text become lines of the body behind those of
the texts before it.
-/

namespace LineQuery

namespace Text

section Symbols

variable {α : Type} [DecidableEq α] {nl cr : α}

/-- The line that some symbols end in, as far as they go. -/
def lineSoFar (nl : α) (pre : List α) : List α :=
  pre.rtakeWhile (· ≠ nl)

/-- Behind the last line feed nothing counts that stands before it. -/
theorem takeWhile_append_cons_self (a b : List α) :
    (a ++ nl :: b).takeWhile (· ≠ nl) = a.takeWhile (· ≠ nl) := by
  induction a with
  | nil => simp
  | cons x a ih => rw [List.cons_append, List.takeWhile_cons, List.takeWhile_cons, ih]

/-- What stands behind a text is read on in its last line, and the lines before that are as many as
the text has line feeds. -/
theorem getElem?_splitLinesFrom (rest : List α) (i : Nat) : ∀ pre line : List α, nl ∉ line →
    (splitLinesFrom nl cr line (pre ++ rest))[pre.count nl + i]? =
      (splitLinesFrom nl cr ((pre.reverse ++ line).takeWhile (· ≠ nl)) rest)[i]?
  | [], line, hline => by
    have hopen : line.takeWhile (· ≠ nl) = line :=
      List.takeWhile_eq_self_iff.mpr fun x hx => decide_eq_true fun heq => hline (heq ▸ hx)
    rw [List.reverse_nil, List.nil_append, List.nil_append, hopen, List.count_nil, Nat.zero_add]
  | x :: pre, line, hline => by
    rw [List.reverse_cons, List.append_assoc, List.singleton_append]
    -- a line feed is one more line, and the next line starts empty behind it
    by_cases hx : x = nl
    · have hnext := getElem?_splitLinesFrom rest i pre [] List.not_mem_nil
      rw [List.append_nil] at hnext
      rw [List.cons_append, splitLinesFrom, if_pos hx, hx, List.count_cons_self,
        Nat.add_right_comm, List.getElem?_cons_succ, hnext, takeWhile_append_cons_self]
    · have hnext := getElem?_splitLinesFrom rest i pre (x :: line)
        (List.not_mem_cons_of_ne_of_not_mem (Ne.symm hx) hline)
      rw [List.cons_append, splitLinesFrom, if_neg hx, List.count_cons_of_ne hx, hnext]

/-- A carriage return at the end of a line is left out, if it is not in the part that is kept. -/
theorem exists_dropReturn {kept : List α} (hkept : kept.head? ≠ some cr) (tail : List α) :
    ∃ back, back <+: tail ∧
      (dropReturn cr (tail.reverse ++ kept)).reverse = kept.reverse ++ back := by
  rcases List.eq_nil_or_concat' tail with rfl | ⟨tail, x, rfl⟩
  · refine ⟨[], List.prefix_refl [], ?_⟩
    cases kept with
    | nil => rfl
    | cons y kept =>
      have hy : y ≠ cr := fun heq => hkept (congrArg some heq)
      rw [List.reverse_nil, List.nil_append, dropReturn, if_neg hy, List.append_nil]
  · rw [List.reverse_concat', List.cons_append, dropReturn]
    split
    · exact ⟨tail, List.prefix_append tail [x], by simp⟩
    · exact ⟨tail ++ [x], List.prefix_refl _, by simp⟩

/-- A line that something stands in goes on up to the next line end. -/
theorem exists_line_end {kept : List α} (hne : kept ≠ []) (hkept : kept.head? ≠ some cr) :
    ∀ post tail : List α, ∃ back, back <+: tail ++ post ∧
      (splitLinesFrom nl cr (tail.reverse ++ kept) post).head? = some (kept.reverse ++ back)
  | [], tail => by
    refine ⟨tail, by simp, ?_⟩
    rw [splitLinesFrom, if_neg (by simp [hne]), List.head?_cons, List.reverse_append,
      List.reverse_reverse]
  | x :: post, tail => by
    rw [splitLinesFrom]
    split
    · obtain ⟨back, hback, hline⟩ := exists_dropReturn hkept tail
      exact ⟨back, hback.trans (List.prefix_append _ _), congrArg some hline⟩
    · obtain ⟨back, hback, hline⟩ := exists_line_end hne hkept post (tail ++ [x])
      refine ⟨back, by simpa using hback, ?_⟩
      rwa [List.reverse_concat'] at hline

/-- A piece of a text without line feeds, and without a carriage return at its end, stands in one
line. -/
theorem exists_line_of_piece {piece : List α} (hnl : nl ∉ piece) (hne : piece ≠ [])
    (hcr : piece.getLast? ≠ some cr) (pre post : List α) : ∃ back, back <+: post ∧
      (splitLines nl cr (pre ++ piece ++ post))[pre.count nl]? =
        some (lineSoFar nl pre ++ piece ++ back) := by
  have hfirst := @getElem?_splitLinesFrom α _ nl cr (piece ++ post) 0 pre [] List.not_mem_nil
  have hkept : (piece.reverse ++ (lineSoFar nl pre).reverse).head? ≠ some cr := by simp [hne, hcr]
  obtain ⟨back, hback, hline⟩ := @exists_line_end α _ nl cr _ (by simp [hne]) hkept post []
  refine ⟨back, hback, ?_⟩
  rw [Nat.add_zero, splitLinesFrom_of_not_mem hnl, List.append_nil,
    ← List.head?_eq_getElem?] at hfirst
  rw [List.append_assoc, splitLines, hfirst]
  simpa [lineSoFar, List.rtakeWhile] using hline

end Symbols

end Text

namespace Program

/-! ## Lines of texts in the body -/

/-- More parts add lines behind those of a body. -/
theorem body_foldl_addPart : ∀ (parts : List Part) (p : Program),
    ∃ more, (parts.foldl addPart p).body = p.body ++ more
  | [], p => ⟨[], (List.append_nil _).symm⟩
  | .library name :: parts, p => body_foldl_addPart parts (p.addImport name)
  | .text text :: parts, p => by
    obtain ⟨more, hmore⟩ := body_foldl_addPart parts (p.addText text)
    refine ⟨bodyLines text ++ more, hmore.trans ?_⟩
    exact List.append_assoc p.body (bodyLines text) more

/-- The lines of a text stand in the body behind those of the texts before it. -/
theorem exists_body_ofParts (before after : List Part) (text : String) : ∃ more,
    (ofParts (before ++ .text text :: after)).body =
      (ofParts before).body ++ (bodyLines text ++ more) := by
  rw [ofParts, List.foldl_append, List.foldl_cons]
  obtain ⟨more, hmore⟩ := body_foldl_addPart after ((ofParts before).addText text)
  refine ⟨more, hmore.trans ?_⟩
  exact List.append_assoc (ofParts before).body (bodyLines text) more

/-- A text without line feeds is one line. -/
theorem bodyLines_of_not_mem {text : String} (hne : text ≠ "") (hnl : '\n' ∉ text.toList) :
    bodyLines text = [text] := by
  have hlines := @Text.splitLinesFrom_of_not_mem Char _ '\n' '\r' text.toList hnl [] []
  have hchars : text.toList ≠ [] := fun hnil => hne (String.toList_eq_nil_iff.mp hnil)
  rw [List.append_nil, List.append_nil, Text.splitLinesFrom, if_neg (by simpa using hchars),
    List.reverse_reverse] at hlines
  rw [bodyLines, if_neg (by simpa using hne), Text.lines, Text.splitLines, hlines,
    List.map_singleton, String.ofList_toList]

/-- A piece of a text without line ends stands in one line of the body, behind as many lines of its
text as there are line feeds before it. -/
theorem exists_line_of_piece {piece : List Char} (hnl : '\n' ∉ piece) (hne : piece ≠ [])
    (hcr : piece.getLast? ≠ some '\r') (before after : List Part) (pre post : List Char) :
    ∃ back, back <+: post ∧
      (ofParts (before ++ .text (String.ofList (pre ++ piece ++ post)) :: after)).body[
        (ofParts before).body.length + pre.count '\n']? =
          some (String.ofList (Text.lineSoFar '\n' pre ++ piece ++ back)) := by
  obtain ⟨back, hback, hline⟩ := Text.exists_line_of_piece hnl hne hcr pre post
  obtain ⟨more, hbody⟩ := exists_body_ofParts before after (String.ofList (pre ++ piece ++ post))
  refine ⟨back, hback, ?_⟩
  have hlines : bodyLines (String.ofList (pre ++ piece ++ post)) =
      (Text.splitLines '\n' '\r' (pre ++ piece ++ post)).map String.ofList := by
    rw [bodyLines, if_neg (by simp [hne]), Text.lines, String.toList_ofList]
  have hlt := (List.getElem?_eq_some_iff.mp hline).1
  rw [hbody, List.getElem?_append_right (Nat.le_add_right _ _), Nat.add_sub_cancel_left, hlines,
    List.getElem?_append_left (by rwa [List.length_map]), List.getElem?_map, hline]
  rfl

end Program

end LineQuery
