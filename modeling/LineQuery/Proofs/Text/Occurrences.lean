import LineQuery.Builtin.Apply
import Mathlib.Data.List.Infix

/-! # Occurrences

A text is cut at the occurrences of a separator that a reader meets who goes on behind each one it
has found. `Cuts` says so without a reader: no occurrence starts in a piece, and the pieces and the
separators between them are the whole text. That determines the pieces, so joining them gives the
text back, joining them with another text replaces the occurrences, and there is more than one of
them if the separator occurs at all.
-/

namespace LineQuery

namespace Text

variable {sep cs rest : List Char} {pieces : List (List Char)}

/-! ## Cuts -/

/-- No occurrence of `sep` in `piece ++ rest` starts in `piece`. -/
def NoneStarts (sep piece rest : List Char) : Prop :=
  ∀ back, back <:+ piece → back ≠ [] → ¬sep <+: back ++ rest

/-- The pieces of a text between the occurrences of `sep`, each of which is the first one behind the
one before it. -/
inductive Cuts (sep : List Char) : List Char → List (List Char) → Prop where
  | last {piece : List Char} : NoneStarts sep piece [] → Cuts sep piece [piece]
  | cut {piece rest : List Char} {pieces : List (List Char)} :
      NoneStarts sep piece (sep ++ rest) → Cuts sep rest pieces →
        Cuts sep (piece ++ (sep ++ rest)) (piece :: pieces)

theorem noneStarts_nil (sep rest : List Char) : NoneStarts sep [] rest := by
  intro back hback hne
  exact absurd (List.suffix_nil.mp hback) hne

/-- A character with which no occurrence starts goes to the piece in front of it. -/
theorem NoneStarts.concat {piece : List Char} {c : Char} (h : NoneStarts sep piece (c :: cs))
    (hc : ¬sep <+: c :: cs) : NoneStarts sep (piece ++ [c]) cs := by
  intro back hback hne
  rcases List.suffix_concat_iff.mp hback with rfl | ⟨front, rfl, hfront⟩
  · exact absurd rfl hne
  · rw [List.append_assoc, List.singleton_append]
    rcases eq_or_ne front [] with rfl | hfrontne
    · exact hc
    · exact h front hfront hfrontne

theorem NoneStarts.not_infix {piece : List Char} (hsep : sep ≠ [])
    (h : NoneStarts sep piece rest) : ¬sep <:+: piece := by
  intro hinfix
  obtain ⟨back, hprefix, hback⟩ := List.infix_iff_prefix_suffix.mp hinfix
  refine h back hback ?_ (List.prefix_append_of_prefix hprefix)
  rintro rfl
  exact hsep (List.prefix_nil.mp hprefix)

/-- A piece ends where the first occurrence starts, so nothing more can be in it. -/
theorem NoneStarts.eq_nil {piece more rest' : List Char}
    (h : NoneStarts sep (piece ++ more) (sep ++ rest'))
    (heq : sep ++ rest = more ++ (sep ++ rest')) : more = [] := by
  by_contra hne
  refine h more (List.suffix_append piece more) hne ?_
  rw [← heq]
  exact List.prefix_append sep rest

/-- Where the first piece ends, and what is behind the separator there, is determined. -/
theorem NoneStarts.eq_of_append {piece piece' rest' : List Char}
    (h : NoneStarts sep piece (sep ++ rest)) (h' : NoneStarts sep piece' (sep ++ rest'))
    (heq : piece ++ (sep ++ rest) = piece' ++ (sep ++ rest')) : piece = piece' ∧ rest = rest' := by
  rcases List.append_eq_append_iff.mp heq with ⟨more, rfl, hmore⟩ | ⟨more, rfl, hmore⟩
  · obtain rfl := h'.eq_nil hmore
    exact ⟨(List.append_nil piece).symm, List.append_cancel_left hmore⟩
  · obtain rfl := h.eq_nil hmore
    exact ⟨List.append_nil piece', (List.append_cancel_left hmore).symm⟩

namespace Cuts

theorem ne_nil (h : Cuts sep cs pieces) : pieces ≠ [] := by
  cases h with
  | last _ => exact List.cons_ne_nil _ _
  | cut _ _ => exact List.cons_ne_nil _ _

/-- Pieces and separators are the whole text. -/
theorem join_eq (h : Cuts sep cs pieces) : join sep pieces = cs := by
  induction h with
  | last _ => exact List.intercalate_singleton
  | cut _ hrest ih =>
    rw [join] at ih ⊢
    rw [List.intercalate_cons_of_ne_nil hrest.ne_nil, ih, List.append_assoc]

/-- The separator is in no piece. -/
theorem not_infix (hsep : sep ≠ []) (h : Cuts sep cs pieces) :
    ∀ piece ∈ pieces, ¬sep <:+: piece := by
  induction h with
  | last hnone =>
    intro piece hpiece
    obtain rfl := List.mem_singleton.mp hpiece
    exact hnone.not_infix hsep
  | cut hnone _ ih =>
    intro piece hpiece
    rcases List.mem_cons.mp hpiece with rfl | hpiece
    · exact hnone.not_infix hsep
    · exact ih piece hpiece

/-- There is a second piece exactly if there is something to cut at. -/
theorem two_le_length_iff (hsep : sep ≠ []) (h : Cuts sep cs pieces) :
    2 ≤ pieces.length ↔ sep <:+: cs := by
  cases h with
  | last hnone =>
    constructor
    · intro hlength
      exact absurd hlength (by simp)
    · intro hinfix
      exact absurd hinfix (hnone.not_infix hsep)
  | @cut piece rest pieces _ hrest =>
    constructor
    · intro _
      rw [← List.append_assoc]
      exact List.infix_append piece sep rest
    · intro _
      have hpos := List.length_pos_of_ne_nil hrest.ne_nil
      rw [List.length_cons]
      omega

/-- A text has one list of pieces. -/
theorem unique (hsep : sep ≠ []) (h : Cuts sep cs pieces) :
    ∀ {pieces' : List (List Char)}, Cuts sep cs pieces' → pieces' = pieces := by
  induction h with
  | @last piece hnone =>
    intro pieces' h'
    cases h' with
    | last _ => rfl
    | cut _ _ =>
      -- A cut would be at an occurrence, and there is none in the last piece.
      refine absurd ?_ (hnone.not_infix hsep)
      rw [← List.append_assoc]
      exact List.infix_append _ _ _
  | @cut piece rest pieces hnone _ ih =>
    intro pieces' h'
    generalize htext : piece ++ (sep ++ rest) = text at h'
    cases h' with
    | last hnone' =>
      refine absurd ?_ (hnone'.not_infix hsep)
      rw [← htext, ← List.append_assoc]
      exact List.infix_append _ _ _
    | cut hnone' hrest' =>
      obtain ⟨rfl, rfl⟩ := hnone.eq_of_append hnone' htext
      rw [ih hrest']

end Cuts

/-! ## Reading from the left -/

/-- A text is read to its end if a reader takes either an occurrence of `sep` as a whole or, where
none starts, one character. -/
theorem reading_induction (hsep : sep ≠ []) {motive : List Char → Prop} (nil : motive [])
    (found : ∀ rest, motive rest → motive (sep ++ rest))
    (other : ∀ c cs, ¬sep <+: c :: cs → motive cs → motive (c :: cs)) (cs : List Char) :
    motive cs := by
  induction hlength : cs.length using Nat.strongRecOn generalizing cs with
  | ind length ih =>
    cases cs with
    | nil => exact nil
    | cons c cs =>
      by_cases hc : sep <+: c :: cs
      · obtain ⟨rest, hrest⟩ := hc
        have hpos := List.length_pos_of_ne_nil hsep
        have hshorter : rest.length < length := by
          rw [← hlength, ← hrest, List.length_append]
          omega
        rw [← hrest]
        exact found rest (ih rest.length hshorter rest rfl)
      · refine other c cs hc (ih cs.length ?_ cs rfl)
        rw [← hlength]
        exact Nat.lt_succ_self _

theorem splitFrom_skip (sep piece : List Char) : ∀ (skip : Nat) (cs : List Char),
    splitFrom sep skip piece cs = splitFrom sep 0 piece (cs.drop skip)
  | 0, cs => by rw [List.drop_zero]
  | skip + 1, [] => by rw [List.drop_nil, splitFrom, splitFrom]
  | skip + 1, _ :: cs => by
    rw [splitFrom, List.drop_succ_cons]
    exact splitFrom_skip sep piece skip cs

theorem replaceFrom_skip (old new done : List Char) : ∀ (skip : Nat) (cs : List Char),
    replaceFrom old new skip done cs = replaceFrom old new 0 done (cs.drop skip)
  | 0, cs => by rw [List.drop_zero]
  | skip + 1, [] => by rw [List.drop_nil, replaceFrom, replaceFrom]
  | skip + 1, _ :: cs => by
    rw [replaceFrom, List.drop_succ_cons]
    exact replaceFrom_skip old new done skip cs

/-- An occurrence ends the piece in front of it. -/
theorem splitFrom_found (hsep : sep ≠ []) (piece rest : List Char) :
    splitFrom sep 0 piece (sep ++ rest) = piece.reverse :: split sep rest := by
  obtain ⟨c, tail, rfl⟩ := List.exists_cons_of_ne_nil hsep
  have hfound : (c :: tail).isPrefixOf (c :: (tail ++ rest)) = true :=
    List.isPrefixOf_iff_prefix.mpr (List.prefix_append (c :: tail) rest)
  rw [List.cons_append, splitFrom, if_pos hfound, splitFrom_skip, List.length_cons,
    Nat.add_sub_cancel, List.drop_left, split]

theorem splitFrom_other {c : Char} (hc : ¬sep <+: c :: cs) (piece : List Char) :
    splitFrom sep 0 piece (c :: cs) = splitFrom sep 0 (c :: piece) cs := by
  rw [splitFrom, if_neg (mt List.isPrefixOf_iff_prefix.mp hc)]

/-- The new text comes in the place of an occurrence. -/
theorem replaceFrom_found (hsep : sep ≠ []) (new done rest : List Char) :
    replaceFrom sep new 0 done (sep ++ rest) =
      replaceFrom sep new 0 (new.reverse ++ done) rest := by
  obtain ⟨c, tail, rfl⟩ := List.exists_cons_of_ne_nil hsep
  have hfound : (c :: tail).isPrefixOf (c :: (tail ++ rest)) = true :=
    List.isPrefixOf_iff_prefix.mpr (List.prefix_append (c :: tail) rest)
  rw [List.cons_append, replaceFrom, if_pos hfound, replaceFrom_skip, List.length_cons,
    Nat.add_sub_cancel, List.drop_left]

theorem replaceFrom_other {c : Char} (hc : ¬sep <+: c :: cs) (new done : List Char) :
    replaceFrom sep new 0 done (c :: cs) = replaceFrom sep new 0 (c :: done) cs := by
  rw [replaceFrom, if_neg (mt List.isPrefixOf_iff_prefix.mp hc)]

/-- What has been read of a piece has no occurrence in it, whatever comes next. -/
theorem cuts_splitFrom (hsep : sep ≠ []) (cs : List Char) : ∀ piece : List Char,
    NoneStarts sep piece.reverse cs →
      Cuts sep (piece.reverse ++ cs) (splitFrom sep 0 piece cs) := by
  -- What the reader keeps is `NoneStarts` for the part of a piece that is behind it.
  induction cs using reading_induction hsep with
  | nil =>
    intro piece h
    rw [splitFrom, List.append_nil]
    exact .last h
  | found rest ih =>
    intro piece h
    rw [splitFrom_found hsep]
    exact .cut h (ih [] (noneStarts_nil sep rest))
  | other c cs hc ih =>
    intro piece h
    rw [splitFrom_other hc, List.append_cons, ← List.reverse_cons]
    refine ih (c :: piece) ?_
    rw [List.reverse_cons]
    exact h.concat hc

/-- A text is cut at its occurrences of the separator. -/
theorem cuts_split (hsep : sep ≠ []) (cs : List Char) : Cuts sep cs (split sep cs) :=
  cuts_splitFrom hsep cs [] (noneStarts_nil sep cs)

/-- Replacing goes the same way as cutting: the piece that is being read is a part of what is
done. -/
theorem replaceFrom_eq (hsep : sep ≠ []) (new cs : List Char) : ∀ piece done : List Char,
    replaceFrom sep new 0 (piece ++ done) cs =
      done.reverse ++ join new (splitFrom sep 0 piece cs) := by
  induction cs using reading_induction hsep with
  | nil =>
    intro piece done
    rw [replaceFrom, splitFrom, join, List.intercalate_singleton, List.reverse_append]
  | found rest ih =>
    intro piece done
    have hne := (cuts_split hsep rest).ne_nil
    have hrest := ih [] (new.reverse ++ (piece ++ done))
    rw [List.nil_append] at hrest
    rw [replaceFrom_found hsep, splitFrom_found hsep, hrest, join, join,
      List.intercalate_cons_of_ne_nil hne, split]
    simp only [List.reverse_append, List.reverse_reverse, List.append_assoc]
  | other c cs hc ih =>
    intro piece done
    rw [replaceFrom_other hc, splitFrom_other hc]
    exact ih (c :: piece) done

theorem replace_eq_join (hsep : sep ≠ []) (new cs : List Char) :
    replace sep new cs = join new (split sep cs) :=
  replaceFrom_eq hsep new cs [] []

theorem contains_iff (sub : List Char) : ∀ cs : List Char, contains sub cs = true ↔ sub <:+: cs
  | [] => by rw [contains, List.isEmpty_iff, List.infix_nil]
  | c :: cs => by
    rw [contains, Bool.or_eq_true, List.isPrefixOf_iff_prefix, List.infix_cons_iff,
      contains_iff sub cs]

end Text

/-! ## Calls -/

open Text (Cuts)

theorem Builtin.apply_split {f : String} (hf : f ≠ "") (s : String) :
    Builtin.split.apply [.str s, .str f] =
      .ok (.strings ((Text.split f.toList s.toList).map String.ofList)) := by
  have hne : f.toList.isEmpty = false := by simpa using hf
  show (if f.toList.isEmpty = true then _ else _) = _
  rw [hne, Value.strings, List.map_map]
  rfl

theorem Builtin.apply_join (pieces : List String) (t : String) :
    Builtin.join.apply [.strings pieces, .str t] =
      .ok (.str (String.ofList (Text.join t.toList (pieces.map String.toList)))) := by
  show Except.ok (Builtin.text (Text.join t.toList ((pieces.map Value.str).map _))) = _
  rw [List.map_map]
  rfl

theorem Builtin.apply_replace {f : String} (hf : f ≠ "") (s t : String) :
    Builtin.replace.apply [.str s, .str f, .str t] =
      .ok (.str (String.ofList (Text.replace f.toList t.toList s.toList))) := by
  have hne : f.toList.isEmpty = false := by simpa using hf
  show (if f.toList.isEmpty = true then _ else _) = _
  rw [hne]
  rfl

theorem Builtin.apply_contains (s f : String) :
    Builtin.contains.apply [.str s, .str f] = .ok (.bool (decide (f.toList <:+: s.toList))) := by
  show Except.ok (Value.bool (Text.contains f.toList s.toList)) = _
  rw [Bool.eq_iff_iff.mpr ((Text.contains_iff f.toList s.toList).trans decide_eq_true_iff.symm)]

/-- `split` cuts a string at the leftmost occurrences that do not overlap, and only so. `join` with
the separator undoes that, `join` with another string is `replace`, and `contains` tells whether
there is anything to cut at, which in a piece there is not. -/
theorem split_cuts_at_occurrences {f : String} (hf : f ≠ "") (s t : String) :
    ∃ pieces : List String,
      Builtin.split.apply [.str s, .str f] = .ok (.strings pieces) ∧
      (∀ cuts, Cuts f.toList s.toList cuts ↔ cuts = pieces.map String.toList) ∧
      Builtin.join.apply [.strings pieces, .str f] = .ok (.str s) ∧
      (∀ piece ∈ pieces, Builtin.contains.apply [.str piece, .str f] = .ok (.bool false)) ∧
      (∃ replaced, Builtin.replace.apply [.str s, .str f, .str t] = .ok (.str replaced) ∧
        Builtin.join.apply [.strings pieces, .str t] = .ok (.str replaced)) ∧
      Builtin.contains.apply [.str s, .str f] = .ok (.bool (decide (2 ≤ pieces.length))) := by
  have hsep : f.toList ≠ [] := by simpa using hf
  -- the pieces are the only ones that the text is cut into at its leftmost occurrences
  have hcuts := Text.cuts_split hsep s.toList
  have hpieces : ((Text.split f.toList s.toList).map String.ofList).map String.toList =
      Text.split f.toList s.toList := by
    simp
  refine ⟨_, Builtin.apply_split hf s, fun cuts => ?_, ?_, fun piece hpiece => ?_,
    ⟨_, Builtin.apply_replace hf s t, ?_⟩, ?_⟩
  · rw [hpieces]
    constructor
    · intro h
      exact hcuts.unique hsep h
    · rintro rfl
      exact hcuts
  · rw [Builtin.apply_join, hpieces, hcuts.join_eq, String.ofList_toList]
  · obtain ⟨cs, hcs, rfl⟩ := List.mem_map.mp hpiece
    rw [Builtin.apply_contains, String.toList_ofList,
      decide_eq_false (hcuts.not_infix hsep cs hcs)]
  · rw [Builtin.apply_join, hpieces, Text.replace_eq_join hsep]
  · rw [Builtin.apply_contains, List.length_map,
      decide_eq_decide.mpr (hcuts.two_le_length_iff hsep)]

/-- Where occurrences overlap the left one counts, and one at an end leaves an empty piece. -/
theorem split_cuts_at_overlapping_occurrences : "aa" ≠ "" ∧
    Builtin.split.apply [.str "aaabaa", .str "aa"] = .ok (.strings ["", "ab", ""]) ∧
    ∃ pieces : List String,
      Builtin.split.apply [.str "aaabaa", .str "aa"] = .ok (.strings pieces) ∧
      (∀ cuts, Cuts "aa".toList "aaabaa".toList cuts ↔ cuts = pieces.map String.toList) ∧
      Builtin.join.apply [.strings pieces, .str "aa"] = .ok (.str "aaabaa") ∧
      (∀ piece ∈ pieces, Builtin.contains.apply [.str piece, .str "aa"] = .ok (.bool false)) ∧
      (∃ replaced, Builtin.replace.apply [.str "aaabaa", .str "aa", .str "c"] =
          .ok (.str replaced) ∧
        Builtin.join.apply [.strings pieces, .str "c"] = .ok (.str replaced)) ∧
      Builtin.contains.apply [.str "aaabaa", .str "aa"] =
        .ok (.bool (decide (2 ≤ pieces.length))) :=
  ⟨by decide, by rfl, split_cuts_at_occurrences (by decide) "aaabaa" "c"⟩

end LineQuery
