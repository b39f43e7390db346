import LineQuery.Builtin.Apply
import LineQuery.Proofs.Text.Quoting

/-! # Columns

A list is joined to a line with tabs between its items, which are escaped before that. A tab in the
line is never part of an item then, so what is cut at the tabs are the items.
-/

namespace LineQuery

namespace Text

/-! ## Cutting at one character -/

theorem splitFrom_singleton (sep : Char) : ∀ piece cs : List Char,
    splitFrom [sep] 0 piece cs = cs.splitOnPPrepend (· == sep) piece
  | piece, [] => by rw [splitFrom, List.splitOnPPrepend_nil]
  | piece, c :: cs => by
    rw [splitFrom]
    by_cases hc : c = sep
    · rw [if_pos (by simp [hc]), List.splitOnPPrepend_cons_pos (by simp [hc]),
        List.splitOnP_eq_splitOnPPrepend]
      exact congrArg _ (splitFrom_singleton sep [] cs)
    · rw [if_neg (by simpa using Ne.symm hc), List.splitOnPPrepend_cons_neg (by simp [hc])]
      exact splitFrom_singleton sep (c :: piece) cs

/-- What is joined with a character that it does not hold is cut into the same pieces. -/
theorem split_join {sep : Char} {pieces : List (List Char)} (hsep : ∀ piece ∈ pieces, sep ∉ piece)
    (hne : pieces ≠ []) : split [sep] (join [sep] pieces) = pieces := by
  rw [split, splitFrom_singleton, ← List.splitOnP_eq_splitOnPPrepend]
  exact List.splitOn_intercalate sep hsep hne

end Text

/-! ## Lines of columns -/

open Text (escape unescape)

/-- Escaping loses nothing and leaves no tab and no line end, so a list that is joined with tabs is
cut into the displayed items again. -/
theorem columns_round_trip :
    (∀ s : String, unescape (escape s) = s ∧ ∀ c ∈ ['\t', '\n', '\r'], c ∉ (escape s).toList) ∧
    ∀ vs : List Value, vs ≠ [] → ∃ (line : String) (columns : List Value),
      Builtin.joinTab.apply [.list vs] = .ok (.str line) ∧
      Builtin.splitTab.apply [.str line] = .ok (.list columns) ∧
      columns = vs.map (fun v => .str v.display) ∧ columns.length = vs.length := by
  refine ⟨fun s => ⟨?_, fun c hc => ?_⟩, fun vs hne => ?_⟩
  · rw [unescape, escape, String.toList_ofList, Text.decodeEscapes_encodeEscapes,
      String.ofList_toList]
  · rw [escape, String.toList_ofList]
    exact Text.not_mem_encodeEscapes hc s.toList
  · let pieces := vs.map fun v => Text.encodeEscapes v.display.toList
    have hpieces : Text.split ['\t'] (Text.join ['\t'] pieces) = pieces := by
      refine Text.split_join ?_ (by simpa [pieces] using hne)
      intro piece hpiece
      obtain ⟨v, -, rfl⟩ := List.mem_map.mp hpiece
      exact Text.not_mem_encodeEscapes (by decide) v.display.toList
    have hread : pieces.map (fun column => Builtin.text (Text.decodeEscapes column)) =
        vs.map fun v => .str v.display := by
      simp [pieces, Builtin.text, Text.decodeEscapes_encodeEscapes]
    refine ⟨String.ofList (Text.join ['\t'] pieces), vs.map fun v => .str v.display, rfl, ?_, rfl,
      List.length_map _⟩
    show Except.ok (Value.list ((Text.split ['\t']
      (String.ofList (Text.join ['\t'] pieces)).toList).map _)) = _
    rw [String.toList_ofList, hpieces, hread]

/-- Tabs, line ends and backslashes in the items are no columns and no lines. -/
theorem columns_round_trip_control :
    [Value.str "a\tb\\t", .str "", .list [.str "\r\n", .int 7], .str "\\"] ≠ [] ∧
    ∃ (line : String) (columns : List Value),
      Builtin.joinTab.apply
        [.list [.str "a\tb\\t", .str "", .list [.str "\r\n", .int 7], .str "\\"]] =
          .ok (.str line) ∧
      Builtin.splitTab.apply [.str line] = .ok (.list columns) ∧
      columns = [Value.str "a\tb\\t", .str "", .list [.str "\r\n", .int 7], .str "\\"].map
        (fun v => .str v.display) ∧ columns.length = 4 :=
  ⟨by simp, columns_round_trip.2 _ (by simp)⟩

end LineQuery
