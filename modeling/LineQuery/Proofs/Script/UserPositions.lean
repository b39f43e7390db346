import LineQuery.Proofs.Script.Assembly
import LineQuery.Proofs.Script.LinePositions

/-! # Positions in the text and in the body

The lines of the user stand in the text of a program behind the lines that import libraries and the
line that opens the entry point, and before the line that closes it. An offset is shown as a line of
the user exactly if it is in that line or at its line end, and then its column is the one in the
line.
-/

namespace LineQuery

open LineQuery.Text (Bytes byteLength encodeUtf8 encodeChars lineChars)

namespace UserLines

theorem find?_eq_some_iff {lines : UserLines} {line k : Nat} :
    lines.find? line = some k ↔ line = lines.preamble + k + 1 ∧ k < lines.count := by
  unfold find?
  by_cases hline : lines.preamble < line ∧ line ≤ lines.preamble + lines.count
  · rw [if_pos hline, Option.some.injEq]
    omega
  · rw [if_neg hline]
    refine iff_of_false nofun ?_
    rintro ⟨rfl, hk⟩
    exact hline (by omega)

end UserLines

namespace Program

variable {p : Program} {k : Nat} {line : String} {offset : Nat}

/-! ## Where the lines of the body start -/

/-- What stands in the text before a line of the body. -/
def textBefore (p : Program) (k : Nat) : String :=
  String.join (p.imports.map useLine) ++ headLine ++ String.join ((p.body.take k).map (· ++ "\n"))

/-- The byte at which a line of the body starts; behind the last line, the one at which the closing
line starts. -/
def bodyOffset (p : Program) (k : Nat) : Nat :=
  (encodeUtf8 (p.textBefore k)).length

/-- The lines of the text before a line of the body. -/
def linesBefore (p : Program) (k : Nat) : List String :=
  p.imports.map (fun library => "use " ++ library ++ ";") ++
    (entryName ++ "(lines, args) \x7b") :: p.body.take k

theorem length_linesBefore (hk : k ≤ p.body.length) :
    (p.linesBefore k).length = p.preambleLines + k := by
  rw [linesBefore, List.length_append, List.length_map, List.length_cons,
    List.length_take_of_le hk, preambleLines, Nat.add_assoc, Nat.add_comm 1]

theorem toList_textBefore (p : Program) (k : Nat) :
    (p.textBefore k).toList = lineChars (p.linesBefore k) := by
  have huse : useLine = fun library => "use " ++ library ++ ";" ++ "\n" := by
    funext library
    rw [← String.toList_inj]
    simp [useLine]
  rw [textBefore, String.toList_append, String.toList_append, Text.toList_join_lines, huse,
    ← Text.toList_join_lines, ← Text.toList_join_lines, linesBefore]
  simp [headLine, Function.comp_def]

theorem bodyOffset_eq (p : Program) (k : Nat) :
    p.bodyOffset k = byteLength (lineChars (p.linesBefore k)) := by
  rw [bodyOffset, Text.length_encodeUtf8, toList_textBefore]

theorem textLines_eq (hk : p.body[k]? = some line) :
    p.textLines = p.linesBefore k ++ line :: (p.body.drop (k + 1) ++ ["\x7d"]) := by
  have hbody : p.body = p.body.take k ++ line :: p.body.drop (k + 1) := by
    obtain ⟨hlt, rfl⟩ := List.getElem?_eq_some_iff.mp hk
    rw [← List.drop_eq_getElem_cons hlt, List.take_append_drop]
  rw [textLines, linesBefore, List.append_assoc, List.cons_append]
  conv_lhs => rw [hbody]
  rw [List.append_assoc, List.cons_append]

theorem toList_text (p : Program) : p.text.toList = lineChars p.textLines := by
  rw [text_eq_join, Text.toList_join_lines]

theorem linesBefore_succ (hk : p.body[k]? = some line) :
    p.linesBefore (k + 1) = p.linesBefore k ++ [line] := by
  rw [linesBefore, linesBefore, List.take_add_one, hk, List.append_assoc, List.cons_append]
  rfl

theorem bodyOffset_succ (hk : p.body[k]? = some line) :
    p.bodyOffset (k + 1) = p.bodyOffset k + (encodeUtf8 line).length + 1 := by
  rw [bodyOffset_eq, bodyOffset_eq, linesBefore_succ hk, Text.byteLength_lineChars_concat,
    Text.length_encodeUtf8]

theorem bodyOffset_mono {k k' : Nat} (h : k ≤ k') (hk' : k' ≤ p.body.length) :
    p.bodyOffset k ≤ p.bodyOffset k' := by
  induction h with
  | refl => exact Nat.le_refl _
  | @step m h ih =>
    have hm : p.body[m]? = some _ := List.getElem?_eq_getElem hk'
    have hstep : p.bodyOffset m.succ = _ := bodyOffset_succ hm
    have hbefore := ih (Nat.le_of_succ_le hk')
    omega

/-- An offset in the first lines of the body is in one of them or at its line end. -/
theorem exists_line_of_bodyOffset (hk : k ≤ p.body.length) (hstart : p.bodyOffset 0 ≤ offset)
    (hlt : offset < p.bodyOffset k) :
    ∃ j line, p.body[j]? = some line ∧ p.bodyOffset j ≤ offset ∧
      offset ≤ p.bodyOffset j + (encodeUtf8 line).length := by
  induction k with
  | zero => exact absurd hstart (Nat.not_le.mpr hlt)
  | succ k ih =>
    have hline : p.body[k]? = some p.body[k] := List.getElem?_eq_getElem hk
    by_cases hbefore : offset < p.bodyOffset k
    · exact ih (Nat.le_of_succ_le hk) hbefore
    · rw [bodyOffset_succ hline] at hlt
      exact ⟨k, _, hline, Nat.not_lt.mp hbefore, Nat.le_of_lt_succ hlt⟩

/-! ## Positions -/

/-- The position of an offset in a line of the body, or at its line end. -/
theorem Lined.position_of_body (hp : p.Lined) (hk : p.body[k]? = some line)
    (hstart : p.bodyOffset k ≤ offset)
    (hend : offset ≤ p.bodyOffset k + (encodeUtf8 line).length) :
    (LineIndex.ofText p.text).position offset =
      ⟨p.preambleLines + k + 1, offset - p.bodyOffset k + 1⟩ := by
  have hlines := hp.textLines
  have htext := p.toList_text
  rw [textLines_eq hk] at hlines htext
  have hsplit : p.text.toList = lineChars (p.linesBefore k) ++
      (line.toList ++ '\n' :: lineChars (p.body.drop (k + 1) ++ ["\x7d"])) := by
    rw [htext, Text.lineChars_append, Text.lineChars_cons]
  have hbefore : ∀ l ∈ p.linesBefore k, '\n' ∉ l.toList := by
    intro l hl
    exact hlines l (List.mem_append_left _ hl)
  have hline : '\n' ∉ line.toList := hlines line (List.mem_append_right _ List.mem_cons_self)
  have hlength : (p.linesBefore k).length = p.preambleLines + k :=
    length_linesBefore (Nat.le_of_lt (List.getElem?_eq_some_iff.mp hk).1)
  rw [bodyOffset_eq] at hstart hend ⊢
  rw [Text.length_encodeUtf8] at hend
  rw [LineIndex.position_of_line hsplit hbefore hline (.inr ⟨_, rfl⟩) hstart hend, hlength]

/-- An offset that is shown as a line of the user is in that line or at its line end. -/
theorem Lined.body_of_position (hp : p.Lined)
    (hoffset : offset ≤ (encodeUtf8 p.text).length)
    (hfind : p.userLines.find? ((LineIndex.ofText p.text).position offset).line = some k) :
    ∃ line, p.body[k]? = some line ∧ p.bodyOffset k ≤ offset ∧
      offset ≤ p.bodyOffset k + (encodeUtf8 line).length := by
  obtain ⟨hplace, hk⟩ := UserLines.find?_eq_some_iff.mp hfind
  have hk : k < p.body.length := hk
  have hplace : ((LineIndex.ofText p.text).position offset).line = p.preambleLines + k + 1 := hplace
  have htotal : (encodeUtf8 p.text).length = byteLength (lineChars p.textLines) := by
    rw [Text.length_encodeUtf8, toList_text]
  have hlength : p.textLines.length = p.preambleLines + p.body.length + 1 := by
    rw [Program.textLines, List.length_append, List.length_map, List.length_cons,
      List.length_append, List.length_singleton, preambleLines]
    omega
  rw [htotal] at hoffset
  rcases Nat.lt_or_ge offset (byteLength (lineChars p.textLines)) with hlt | hge
  · obtain ⟨before, l, after, hsplit, hstart, hend⟩ := Text.exists_line_of_lt hlt
    have hlines := hp.textLines
    rw [hsplit] at hlines
    have htext : p.text.toList = lineChars before ++ (l.toList ++ '\n' :: lineChars after) := by
      rw [toList_text, hsplit, Text.lineChars_append, Text.lineChars_cons]
    have hposition := LineIndex.position_of_line htext
      (fun l' hl' => hlines l' (List.mem_append_left _ hl'))
      (hlines l (List.mem_append_right _ List.mem_cons_self)) (.inr ⟨_, rfl⟩) hstart hend
    rw [hposition] at hplace
    -- a line is told by the number of lines before it
    have hcount : before.length = (p.linesBefore k).length := by
      rw [length_linesBefore (Nat.le_of_lt hk)]
      exact Nat.succ.inj hplace
    have hbody : p.body[k]? = some p.body[k] := List.getElem?_eq_getElem hk
    obtain ⟨rfl, hrest⟩ :=
      List.append_inj ((hsplit.symm.trans (textLines_eq hbody))) hcount
    obtain ⟨rfl, -⟩ := List.cons.inj hrest
    refine ⟨_, hbody, ?_, ?_⟩
    · rw [bodyOffset_eq]
      exact hstart
    · rw [bodyOffset_eq, Text.length_encodeUtf8]
      exact hend
  · -- behind the last line end there is no line of the user
    have htext : p.text.toList = lineChars p.textLines ++ ([] ++ []) := by
      rw [toList_text, List.append_nil, List.append_nil]
    have hposition := LineIndex.position_of_line htext hp.textLines List.not_mem_nil (.inl rfl)
      hge hoffset
    rw [hposition] at hplace
    have hcount : p.textLines.length + 1 = p.preambleLines + k + 1 := hplace
    omega

/-- The bytes of the text from the start of a line of the body on are those of the line, and then a
line feed. -/
theorem getElem?_text_of_body (hk : p.body[k]? = some line) {j : Nat}
    (hj : j ≤ (encodeUtf8 line).length) :
    (encodeUtf8 p.text)[p.bodyOffset k + j]? = (encodeUtf8 line ++ [10])[j]? := by
  have hbytes : encodeUtf8 p.text = encodeUtf8 (p.textBefore k) ++ ((encodeUtf8 line ++ [10]) ++
      encodeChars (lineChars (p.body.drop (k + 1) ++ ["\x7d"]))) := by
    have hnewline : encodeChars ['\n'] = [10] := by decide
    rw [encodeUtf8, toList_text, textLines_eq hk, Text.lineChars_append, Text.lineChars_cons,
      List.append_cons, encodeUtf8, toList_textBefore, encodeUtf8, ← hnewline,
      ← Text.encodeChars_append, ← Text.encodeChars_append, ← Text.encodeChars_append]
  have hwithin : j < (encodeUtf8 line ++ [10]).length := by
    rw [List.length_append, List.length_singleton]
    omega
  rw [hbytes, bodyOffset, List.getElem?_append_right (Nat.le_add_right _ _),
    Nat.add_sub_cancel_left, List.getElem?_append_left hwithin]

theorem text_eq_textBefore (p : Program) : p.text = p.textBefore p.body.length ++ closingLine := by
  rw [text, textBefore, List.take_length]

/-- The start of each line of the body is an offset in the text. -/
theorem bodyOffset_le (hk : k ≤ p.body.length) : p.bodyOffset k ≤ (encodeUtf8 p.text).length := by
  have hlast := bodyOffset_mono hk (Nat.le_refl _)
  have hlength : (encodeUtf8 p.text).length =
      p.bodyOffset p.body.length + (encodeUtf8 closingLine).length := by
    rw [text_eq_textBefore, bodyOffset, encodeUtf8, String.toList_append, Text.encodeChars_append,
      List.length_append]
    rfl
  omega

end Program

open Program (Part ofParts)

/-- For a program put together from names of libraries without line ends and from any texts, and
for each offset in its text: the position of the offset is shown as a line of the user exactly if
the offset is in that line or at its line end. Then the byte in that column is the byte at the
offset, or the column is behind the line and the byte at the offset is the line feed. It is shown as
no line of the user exactly in the lines before the body, in the closing line and at the end of the
text. Each line of the user is shown. -/
theorem positions_show_user_lines {parts : List Part} (hparts : ∀ part ∈ parts, part.Lined) :
    let p := ofParts parts
    let bytes := encodeUtf8 p.text
    let shown := fun offset => p.userLines.find? ((LineIndex.ofText p.text).position offset).line
    p.text = p.textBefore p.body.length ++ Program.closingLine ∧
    (∀ offset ≤ bytes.length,
      let column := ((LineIndex.ofText p.text).position offset).column
      (∀ k, shown offset = some k ↔ ∃ line, p.body[k]? = some line ∧
        p.bodyOffset k ≤ offset ∧ offset ≤ p.bodyOffset k + (encodeUtf8 line).length) ∧
      (∀ k line, shown offset = some k → p.body[k]? = some line →
        let content := encodeUtf8 line
        column = offset - p.bodyOffset k + 1 ∧
          ((column - 1 < content.length ∧ bytes[offset]? = content[column - 1]?) ∨
            (column - 1 = content.length ∧ bytes[offset]? = some 10))) ∧
      (shown offset = none ↔ offset < p.bodyOffset 0 ∨ p.bodyOffset p.body.length ≤ offset)) ∧
    ∀ k < p.body.length, ∃ offset ≤ bytes.length, shown offset = some k := by
  intro p bytes shown
  have hp : p.Lined := Program.lined_ofParts hparts
  have hin : ∀ offset k line, p.body[k]? = some line → p.bodyOffset k ≤ offset →
      offset ≤ p.bodyOffset k + (encodeUtf8 line).length → shown offset = some k := by
    intro offset k line hk hstart hend
    have hposition := hp.position_of_body hk hstart hend
    refine UserLines.find?_eq_some_iff.mpr ⟨congrArg Position.line hposition, ?_⟩
    exact (List.getElem?_eq_some_iff.mp hk).1
  refine ⟨p.text_eq_textBefore, ?_, ?_⟩
  · intro offset hoffset column
    have hout : ∀ k, shown offset = some k → ∃ line, p.body[k]? = some line ∧
        p.bodyOffset k ≤ offset ∧ offset ≤ p.bodyOffset k + (encodeUtf8 line).length :=
      fun k hk => hp.body_of_position hoffset hk
    refine ⟨?_, ?_, ?_⟩
    · intro k
      refine ⟨hout k, ?_⟩
      rintro ⟨line, hk, hstart, hend⟩
      exact hin offset k line hk hstart hend
    · intro k line hshown hk content
      obtain ⟨line', hk', hstart, hend⟩ := hout k hshown
      obtain rfl := Option.some.inj (hk.symm.trans hk')
      have hcolumn : column = offset - p.bodyOffset k + 1 :=
        congrArg Position.column (hp.position_of_body hk hstart hend)
      have hbyte := Program.getElem?_text_of_body hk (j := offset - p.bodyOffset k) (by omega)
      rw [Nat.add_sub_cancel' hstart] at hbyte
      refine ⟨hcolumn, ?_⟩
      rw [hcolumn, Nat.add_sub_cancel]
      by_cases hlt : offset - p.bodyOffset k < content.length
      · left
        rw [List.getElem?_append_left hlt] at hbyte
        exact ⟨hlt, hbyte⟩
      · right
        have hlast : offset - p.bodyOffset k = content.length := by
          have hwithin : offset ≤ p.bodyOffset k + content.length := hend
          omega
        rw [hlast, List.getElem?_concat_length] at hbyte
        exact ⟨hlast, hbyte⟩
    · constructor
      · intro hnone
        by_contra hbody
        rw [not_or, Nat.not_lt, Nat.not_le] at hbody
        -- an offset in the text of the body is in one of its lines
        obtain ⟨k, line, hk, hstart, hend⟩ :=
          Program.exists_line_of_bodyOffset (Nat.le_refl _) hbody.1 hbody.2
        exact nomatch hnone.symm.trans (hin offset k line hk hstart hend)
      · intro hframe
        cases hshown : shown offset with
        | none => rfl
        | some k =>
          obtain ⟨line, hk, hstart, hend⟩ := hout k hshown
          have hlt := (List.getElem?_eq_some_iff.mp hk).1
          have hfirst := Program.bodyOffset_mono (Nat.zero_le k) (Nat.le_of_lt hlt)
          have hlast : p.bodyOffset (k + 1) ≤ _ := Program.bodyOffset_mono hlt (Nat.le_refl _)
          have hnext := Program.bodyOffset_succ hk
          omega
  · intro k hk
    have hbody : p.body[k]? = some p.body[k] := List.getElem?_eq_getElem hk
    refine ⟨p.bodyOffset k, Program.bodyOffset_le (Nat.le_of_lt hk), ?_⟩
    exact hin _ k _ hbody (Nat.le_refl _) (Nat.le_add_right _ _)

/-- The line end behind a letter of two bytes is shown in the third column of its line, although it
was written with a carriage return. -/
theorem positions_show_user_lines_past_return :
    let parts := [Part.text "ä\r\n\r", .library "tsv", .text "", .text "b"]
    let p := ofParts parts
    let offset := p.bodyOffset 0 + 2
    let position := (LineIndex.ofText p.text).position offset
    (∀ part ∈ parts, part.Lined) ∧ p.body = ["ä", "\r", "", "b"] ∧
      offset ≤ (encodeUtf8 p.text).length ∧ p.userLines.find? position.line = some 0 ∧
      position.column = 3 ∧ (encodeUtf8 p.text)[offset]? = some 10 := by
  intro parts p offset position
  have hparts : ∀ part ∈ parts, part.Lined := by decide
  have hbody : p.body = ["ä", "\r", "", "b"] := by decide +kernel
  have hfirst : p.body[0]? = some "ä" := congrArg (fun body : List String => body[0]?) hbody
  have hoffset : offset ≤ (encodeUtf8 p.text).length := by decide +kernel
  have hsize : (encodeUtf8 "ä").length = 2 := by decide
  obtain ⟨-, hpositions, -⟩ := positions_show_user_lines hparts
  obtain ⟨hshown, hcolumn, -⟩ := hpositions offset hoffset
  have hend : offset ≤ p.bodyOffset 0 + (encodeUtf8 "ä").length :=
    Nat.le_of_eq (congrArg (p.bodyOffset 0 + ·) hsize.symm)
  have hline : p.userLines.find? position.line = some 0 :=
    (hshown 0).mpr ⟨"ä", hfirst, Nat.le_add_right _ _, hend⟩
  obtain ⟨hthird, hbytes⟩ := hcolumn 0 "ä" hline hfirst
  have hthree : position.column = 3 := by
    refine hthird.trans ?_
    rw [Nat.add_sub_cancel_left]
  refine ⟨hparts, hbody, hoffset, hline, hthree, ?_⟩
  rcases hbytes with ⟨hwithin, -⟩ | ⟨-, hnewline⟩
  · have hlt : position.column - 1 < 2 := hwithin
    omega
  · exact hnewline

end LineQuery
