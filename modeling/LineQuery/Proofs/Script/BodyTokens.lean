import LineQuery.Proofs.Grammar.Placement
import LineQuery.Proofs.Script.LineTables
import LineQuery.Proofs.Script.UserPositions

/-! # Tokens in the lines of the user

A token between a left and a right brace stands in a line of the user, as a whole: the first left
brace of a text ends the line that opens the entry point, and the last right brace is the one in the
closing line.
-/

namespace LineQuery

open LineQuery.Syntax (Word Token tokens InOrder exists_stands inOrder_scanFrom lexeme)
open LineQuery.Text (byteLength byteLength_append lineChars encodeUtf8)

namespace Syntax

/-! ## Braces -/

/-- A mark is spelled by its first character, or by that and one more. -/
theorem ofChar?_of_lexeme {c : Char} {cs : List Char} {m : Mark}
    (h : (lexeme c cs).kind = .mark m) :
    Mark.ofChar? c = some m ∨ ∃ d, Mark.ofPair? c d = some m := by
  have hform := lexemeForm c cs
  generalize lexeme c cs = found at hform h
  cases hform with
  | word =>
    unfold wordKind at h
    split at h <;> cases h
  | number =>
    unfold numberKind at h
    split at h <;> cases h
  | string => split at h <;> cases h
  | pair _ hpair => exact .inr ⟨_, hpair.trans (congrArg some (TokenKind.mark.inj h))⟩
  | single hchar => exact .inl (hchar.trans (congrArg some (TokenKind.mark.inj h)))
  | unexpected => cases h

/-- Only a brace is read as one. -/
theorem eq_of_brace {c x : Char} {cs : List Char} {m : Mark} (h : (lexeme c cs).kind = .mark m)
    (hm : m = .leftBrace ∧ x = '\x7b' ∨ m = .rightBrace ∧ x = '\x7d') : c = x := by
  rcases ofChar?_of_lexeme h with hchar | ⟨d, hpair⟩
  · unfold Mark.ofChar? at hchar
    split at hchar
    all_goals
      obtain ⟨rfl, rfl⟩ | ⟨rfl, rfl⟩ := hm
      all_goals first | rfl | cases hchar
  · unfold Mark.ofPair? at hpair
    split at hpair
    all_goals
      obtain ⟨rfl, rfl⟩ | ⟨rfl, rfl⟩ := hm
      all_goals cases hpair

end Syntax

namespace Program

variable {p : Program}

/-- Words hold the position at which a token starts, if they can count the bytes of the text. -/
theorem tabled_of_token (hsize : (encodeUtf8 p.text).length < UInt32.size) {t : Token}
    (ht : t ∈ tokens p.text) : p.Tabled t.span.start :=
  tabled hsize (Syntax.start_le_of_token ht)

/-- What is before the body ends in the first left brace of the text and a line end. -/
theorem exists_first_brace (hwords : ∀ library ∈ p.imports, Word library.toList) :
    ∃ front, '\x7b' ∉ front ∧ lineChars (p.linesBefore 0) = front ++ ['\x7b', '\n'] := by
  refine ⟨lineChars (p.imports.map fun library => "use " ++ library ++ ";") ++
    "query(lines, args) ".toList, ?_, ?_⟩
  · intro hmem
    rcases List.mem_append.mp hmem with huse | hhead
    · obtain ⟨line, hline, hchar⟩ := List.mem_flatMap.mp huse
      obtain ⟨library, hlibrary, rfl⟩ := List.mem_map.mp hline
      have hname : '\x7b' ∉ library.toList := (hwords library hlibrary).not_mem (by decide)
      simp [hname] at hchar
    · exact absurd hhead (by decide)
  · rw [linesBefore, List.take_zero, Text.lineChars_append, List.append_assoc]
    rfl

/-- A token behind a left brace stands in the body or behind it. -/
theorem bodyOffset_le_of_token (hwords : ∀ library ∈ p.imports, Word library.toList)
    {left t : Token} (hleft : left ∈ tokens p.text) (ht : t ∈ tokens p.text)
    (hbrace : left.kind = .mark .leftBrace) (hlt : left.span.start < t.span.start) :
    p.bodyOffset 0 ≤ t.span.start := by
  obtain ⟨front, hfront, hchars⟩ := exists_first_brace hwords
  obtain ⟨more, htext⟩ : ∃ more, p.text.toList = front ++ '\x7b' :: '\n' :: more := by
    refine ⟨(String.join (p.body.map (· ++ "\n")) ++ closingLine).toList, ?_⟩
    have hhead : p.text.toList = (p.textBefore 0).toList ++
        (String.join (p.body.map (· ++ "\n")) ++ closingLine).toList := by
      rw [text, textBefore, List.take_zero]
      simp
    rw [hhead, toList_textBefore, hchars, List.append_assoc]
    rfl
  obtain ⟨before, c, rest, hcut, hstands⟩ := exists_stands hleft
  obtain ⟨before', c', rest', hcut', hstands'⟩ := exists_stands ht
  obtain rfl : c = '\x7b' := Syntax.eq_of_brace (hstands.kind ▸ hbrace) (.inl ⟨rfl, rfl⟩)
  have hsize : '\x7b'.utf8Size = 1 := by decide
  have hnewline : '\n'.utf8Size = 1 := by decide
  -- there is no left brace before the first one
  have hfirst : byteLength front ≤ byteLength before := by
    by_contra hless
    obtain ⟨between, hbetween, hrest⟩ := Text.exists_append_of_byteLength_le
      (hcut.symm.trans htext) (Nat.le_of_not_le hless)
    cases between with
    | nil =>
      rw [List.append_nil] at hbetween
      exact hless (hbetween ▸ Nat.le_refl _)
    | cons d between =>
      obtain ⟨rfl, -⟩ := List.cons.inj hrest
      exact hfront (hbetween ▸ List.mem_append_right _ List.mem_cons_self)
  have hbehind : byteLength (front ++ ['\x7b']) ≤ byteLength before' := by
    have hstart := hstands.start
    have hstart' := hstands'.start
    rw [byteLength_append, byteLength, byteLength, hsize]
    omega
  obtain ⟨between, hbetween, hrest⟩ := Text.exists_append_of_byteLength_le
    ((List.append_assoc front ['\x7b'] _).trans (htext.symm.trans hcut')) hbehind
  cases between with
  | nil =>
    -- no token starts with the line end behind the brace
    obtain ⟨rfl, -⟩ := List.cons.inj hrest
    exact absurd hstands'.space (by decide)
  | cons d between =>
    obtain ⟨rfl, -⟩ := List.cons.inj hrest
    rw [bodyOffset_eq, hchars, hstands'.start, hbetween]
    simp only [byteLength_append, byteLength, hsize, hnewline]
    omega

/-- A token before a right brace stands before the closing line. -/
theorem token_lt_bodyOffset {t right : Token} (hright : right ∈ tokens p.text)
    (hbrace : right.kind = .mark .rightBrace) (hlt : t.span.start < right.span.start) :
    t.span.start < p.bodyOffset p.body.length := by
  obtain ⟨before, c, rest, hcut, hstands⟩ := exists_stands hright
  obtain rfl : c = '\x7d' := Syntax.eq_of_brace (hstands.kind ▸ hbrace) (.inr ⟨rfl, rfl⟩)
  have hsize : '\x7d'.utf8Size = 1 := by decide
  have htext : p.text.toList = (lineChars (p.linesBefore p.body.length) ++ ['\x7d']) ++ ['\n'] := by
    rw [text_eq_textBefore, String.toList_append, toList_textBefore, List.append_assoc]
    rfl
  have hlast : byteLength before ≤ p.bodyOffset p.body.length := by
    by_contra hmore
    have hbehind : byteLength (lineChars (p.linesBefore p.body.length) ++ ['\x7d']) ≤
        byteLength before := by
      rw [bodyOffset_eq] at hmore
      rw [byteLength_append, byteLength, byteLength, hsize]
      omega
    obtain ⟨between, -, hrest⟩ := Text.exists_append_of_byteLength_le
      (htext.symm.trans hcut) hbehind
    cases between with
    | nil => exact absurd (List.cons.inj hrest).1 (by decide)
    | cons d between =>
      have hnil : [] = between ++ '\x7d' :: rest := (List.cons.inj hrest).2
      exact List.append_ne_nil_of_right_ne_nil _ (List.cons_ne_nil _ _) hnil.symm
  have hstart := hstands.start
  omega

/-- A token that starts in a line of the body, or at its line end, stands in the line as a whole. -/
theorem exists_cut_of_token {t : Token} {k : Nat} {line : String} (ht : t ∈ tokens p.text)
    (hk : p.body[k]? = some line) (hstart : p.bodyOffset k ≤ t.span.start)
    (hend : t.span.start ≤ p.bodyOffset k + (encodeUtf8 line).length) :
    ∃ front back : List Char, line.toList = front ++ (t.text.toList ++ back) ∧
      t.span.start = p.bodyOffset k + byteLength front := by
  obtain ⟨before, c, rest, hcut, hstands⟩ := exists_stands ht
  have htoken : '\n' ∉ t.text.toList := by
    rw [hstands.text]
    refine List.not_mem_cons_of_ne_of_not_mem ?_ (Syntax.not_mem_take_lexeme c rest)
    rintro rfl
    exact absurd hstands.space (by decide)
  have htext : p.text.toList = lineChars (p.linesBefore k) ++ (line.toList ++ '\n' ::
      lineChars (p.body.drop (k + 1) ++ ["\x7d"])) := by
    rw [toList_text, textLines_eq hk, Text.lineChars_append, Text.lineChars_cons]
  have hplace : t.span.start = byteLength before := by
    rw [hstands.start, Nat.zero_add]
  have htaken : c :: rest = t.text.toList ++ rest.drop (lexeme c rest).more := by
    rw [hstands.text, List.cons_append, List.take_append_drop]
  rw [bodyOffset_eq, hplace] at hstart hend
  rw [Text.length_encodeUtf8] at hend
  obtain ⟨front, hfront, hrest⟩ := Text.exists_append_of_byteLength_le
    (htext.symm.trans hcut) hstart
  rw [hfront, byteLength_append] at hend
  obtain ⟨tail, htail, hcut'⟩ := Text.exists_append_of_byteLength_le hrest.symm (by omega)
  rw [htaken] at hcut'
  refine ⟨front, ?_⟩
  -- the token goes no further than the line
  rcases List.append_eq_append_iff.mp hcut' with ⟨back, hback, -⟩ | ⟨back, hback, hnewline⟩
  · refine ⟨back, ?_, ?_⟩
    · rw [htail, hback]
    · rw [hplace, hfront, byteLength_append, bodyOffset_eq]
  · cases back with
    | nil =>
      refine ⟨[], ?_, ?_⟩
      · rw [htail, hback, List.append_nil, List.append_nil]
      · rw [hplace, hfront, byteLength_append, bodyOffset_eq]
    | cons d back =>
      obtain ⟨rfl, -⟩ := List.cons.inj hnewline
      exact absurd (hback ▸ List.mem_append_right _ List.mem_cons_self) htoken

/-- A token between braces stands in a line of the body as a whole. -/
theorem exists_line_of_token (hwords : ∀ library ∈ p.imports, Word library.toList)
    {left t right : Token} (hleft : left ∈ tokens p.text) (ht : t ∈ tokens p.text)
    (hright : right ∈ tokens p.text) (hleftBrace : left.kind = .mark .leftBrace)
    (hrightBrace : right.kind = .mark .rightBrace) (hbehind : left.span.start < t.span.start)
    (hbefore : t.span.start < right.span.start) :
    ∃ (k : Nat) (line : String) (front back : List Char), p.body[k]? = some line ∧
      line.toList = front ++ (t.text.toList ++ back) ∧
      t.span.start = p.bodyOffset k + byteLength front := by
  obtain ⟨k, line, hk, hstart, hend⟩ := exists_line_of_bodyOffset (Nat.le_refl _)
    (bodyOffset_le_of_token hwords hleft ht hleftBrace hbehind)
    (token_lt_bodyOffset hright hrightBrace hbefore)
  obtain ⟨front, back, hcut, hplace⟩ := exists_cut_of_token ht hk hstart hend
  exact ⟨k, line, front, back, hk, hcut, hplace⟩

end Program

end LineQuery
