import LineQuery.Diagnostic.Excerpt
import LineQuery.Proofs.Scoping.FindingPlaces
import LineQuery.Proofs.Script.BodyTokens
import LineQuery.Proofs.Text.Numerals

/-! # Carets point at what was found

A finding is placed by bytes and shown by characters. Whatever compiling says about a line of the
user is about a token in it, so its column is the one of a character of the line, and the row of
carets has a blank, or a tab below a tab, for each character before that one. There is a caret for
each character of the line that starts within the width, and that takes none past its end.
-/

namespace LineQuery

open LineQuery.Text (byteLength byteLength_append encodeUtf8 natText padLeft showNat)

namespace Excerpt

/-! ## Characters by the bytes at which they start -/

/-- The number of characters of a line that start at a byte from `lo` up to, but not including,
`hi`. -/
def startingIn (line : List Char) (lo hi : Nat) : Nat :=
  (List.range line.length).countP fun i =>
    decide (lo ≤ byteLength (line.take i) ∧ byteLength (line.take i) < hi)

/-- As many characters are taken as start before the limit. -/
theorem length_charsBefore (limit : Nat) : ∀ (cs : List Char) (offset : Nat),
    (charsBefore limit offset cs).length =
      (List.range cs.length).countP fun i => decide (offset + byteLength (cs.take i) < limit)
  | [], _ => rfl
  | c :: cs, offset => by
    rw [charsBefore, List.length_cons, List.range_succ_eq_map, List.countP_cons, List.countP_map]
    split
    · rename_i hlt
      rw [List.length_cons, length_charsBefore limit cs]
      simp [hlt, byteLength, Function.comp_def, Nat.add_assoc]
    · -- behind the limit no more character starts before it
      rename_i hge
      have hnone : (List.range cs.length).countP ((fun i =>
          decide (offset + byteLength ((c :: cs).take i) < limit)) ∘ Nat.succ) = 0 := by
        rw [List.countP_eq_zero]
        intro i _
        simp only [Function.comp_apply, decide_eq_true_eq]
        omega
      rw [hnone]
      simp [byteLength, hge]

/-- The characters in front of a place are those that start before its byte. -/
theorem charsBefore_append (front rest : List Char) (offset : Nat) :
    charsBefore (offset + byteLength front) offset (front ++ rest) = front := by
  induction front generalizing offset with
  | nil =>
    cases rest with
    | nil => rfl
    | cons c rest => rw [List.nil_append, charsBefore, if_neg (by rw [byteLength]; omega)]
  | cons c front ih =>
    have hsize := c.utf8Size_pos
    rw [List.cons_append, charsBefore, if_pos (by rw [byteLength]; omega), byteLength,
      ← Nat.add_assoc, ih]

/-- What starts before `hi` starts before `lo` or from there on. -/
theorem countP_add_countP {lo hi : Nat} (h : lo ≤ hi) (start : Nat → Nat) (is : List Nat) :
    is.countP (fun i => decide (start i < lo)) +
      is.countP (fun i => decide (lo ≤ start i ∧ start i < hi)) =
        is.countP fun i => decide (start i < hi) := by
  induction is with
  | nil => rfl
  | cons i is ih =>
    simp only [List.countP_cons, decide_eq_true_eq]
    split <;> split <;> split <;> omega

/-! ## The row of carets -/

/-- Below a character of the line the row has a blank for each character before it, and then a caret
for each one that starts within the width. -/
theorem caretRow_eq {line front back : List Char} {c : Char} {column width : Nat}
    (hline : line = front ++ c :: back) (hcolumn : column = byteLength front + 1)
    (hwidth : 1 ≤ width) :
    caretRow line column width = front.map blankBelow ++
        List.replicate (startingIn line (column - 1) (column - 1 + width)) '^' ∧
      1 ≤ startingIn line (column - 1) (column - 1 + width) ∧
      front.length + startingIn line (column - 1) (column - 1 + width) ≤ line.length := by
  have hstart : column - 1 = byteLength front := by rw [hcolumn, Nat.add_sub_cancel]
  have hbefore : charsBefore (column - 1) 0 line = front := by
    have hchars := charsBefore_append front (c :: back) 0
    rwa [Nat.zero_add, ← hstart, ← hline] at hchars
  -- the characters that start before the end of the range are those before it and those in it
  have hcount : front.length + startingIn line (column - 1) (column - 1 + width) =
      (charsBefore (column - 1 + width) 0 line).length := by
    have hadd := countP_add_countP (Nat.le_add_right (column - 1) width)
      (fun i => byteLength (line.take i)) (List.range line.length)
    have hlo := length_charsBefore (column - 1) line 0
    have hhi := length_charsBefore (column - 1 + width) line 0
    rw [hbefore] at hlo
    simp only [Nat.zero_add] at hlo hhi
    rw [hhi, hlo, ← hadd]
    rfl
  -- the character at the column is itself in the range
  have hpos : 1 ≤ startingIn line (column - 1) (column - 1 + width) := by
    refine List.countP_pos_iff.mpr ⟨front.length, ?_, ?_⟩
    · rw [List.mem_range, hline]
      simp
    · have htake : line.take front.length = front := by rw [hline, List.take_left]
      rw [htake, decide_eq_true_eq]
      omega
  have hinside : byteLength front < byteLength line := by
    have hsize := c.utf8Size_pos
    rw [hline, byteLength_append, byteLength]
    omega
  refine ⟨?_, hpos, ?_⟩
  -- the column is inside of the line, so no spaces stand behind the line
  · have hblank : column - 1 - byteLength line = 0 := by omega
    unfold caretRow
    dsimp only
    rw [Nat.max_eq_left hwidth, hbefore, ← hcount, Nat.add_sub_cancel_left, Nat.max_eq_left hpos,
      hblank, List.replicate_zero, List.append_nil]
  · rw [hcount, length_charsBefore]
    exact List.countP_le_length.trans (Nat.le_of_eq List.length_range)

theorem blankBelow_ne_caret (c : Char) : blankBelow c ≠ '^' := by
  unfold blankBelow
  split <;> decide

/-! ## Numbered rows -/

/-- What stands in front of user line `i`: its number at the right of the gutter, and a bar. -/
def label (gutter i : Nat) : String :=
  padLeft gutter (natText (i + 1)) ++ " | "

/-- The gutter has room for the greatest number, so all bars stand below each other. -/
theorem length_label {i k : Nat} (h : i ≤ k) :
    (label (natText (k + 1)).length i).length = (natText (k + 1)).length + 3 := by
  have hle : (natText (i + 1)).length ≤ (natText (k + 1)).length := by
    rw [natText, natText, String.length_ofList, String.length_ofList]
    exact Text.length_showNat_le (Nat.succ_le_succ h)
  rw [label, padLeft, String.length_append, String.length_append, String.length_ofList,
    List.length_replicate, Nat.sub_add_cancel hle]
  rfl

/-- The rows of an excerpt show the lines of the user from the second one before line `k` on. -/
theorem numbered_eq (body : List String) (gutter : Nat) {k : Nat} (hk : k < body.length) :
    numbered gutter (k - 2) ((body.take (k + 1)).drop (k - 2)) =
      String.join ((List.range' (k - 2) (k + 1 - (k - 2))).map fun i =>
        label gutter i ++ (body[i]?).getD "" ++ "\n") := by
  have hzip : ((body.take (k + 1)).drop (k - 2)).zipIdx (k - 2) =
      (List.range' (k - 2) (k + 1 - (k - 2))).map fun i => ((body[i]?).getD "", i) := by
    apply List.ext_getElem
    · simp
      omega
    · intro i hi hi'
      simp only [List.length_zipIdx, List.length_drop, List.length_take] at hi
      have hlt : k - 2 + i < body.length := by omega
      simp [List.getElem?_eq_getElem hlt]
  rw [numbered, hzip, List.map_map]
  rfl

/-- The row of carets of an excerpt: below `front` a tab for each tab and a space for any other
character, and then the carets. -/
def caretLine (gutter : Nat) (front : List Char) (carets : Nat) : String :=
  padLeft gutter "" ++ " | " ++
    String.ofList ((front.map fun c => if c = '\t' then '\t' else ' ') ++
      List.replicate carets '^')

theorem caretLine_eq (gutter : Nat) (front : List Char) (carets : Nat) :
    caretLine gutter front carets = padLeft gutter "" ++ " | " ++
      String.ofList (front.map blankBelow ++ List.replicate carets '^') := rfl

/-- The first caret stands behind as many characters as `front` has, counted behind the bar. -/
theorem takeWhile_caretLine (gutter : Nat) (front : List Char) {carets : Nat} (h : 1 ≤ carets) :
    ((caretLine gutter front carets).toList.takeWhile (· ≠ '^')).length =
      gutter + 3 + front.length := by
  obtain ⟨more, rfl⟩ := Nat.exists_eq_add_of_le' h
  have hblank : ∀ c ∈ List.replicate gutter ' ' ++ [' ', '|', ' '] ++ front.map blankBelow,
      decide (c ≠ '^') = true := by
    intro c hc
    rw [decide_eq_true_eq]
    rcases List.mem_append.mp hc with hc | hc
    · rcases List.mem_append.mp hc with hc | hc
      · rw [List.eq_of_mem_replicate hc]
        decide
      · rintro rfl
        exact absurd hc (by decide)
    · obtain ⟨x, -, rfl⟩ := List.mem_map.mp hc
      exact blankBelow_ne_caret x
  have hchars : (caretLine gutter front (more + 1)).toList =
      (List.replicate gutter ' ' ++ [' ', '|', ' '] ++ front.map blankBelow) ++
        '^' :: List.replicate more '^' := by
    simp [caretLine_eq, padLeft, List.replicate_succ]
  rw [hchars, List.takeWhile_append_of_pos hblank, List.takeWhile_cons_of_neg (by decide)]
  simp only [List.append_nil, List.length_append, List.length_replicate, List.length_map]
  rfl

/-- The row of carets is as long as what it points at and all in front of it. -/
theorem length_caretLine (gutter : Nat) (front : List Char) (carets : Nat) :
    (caretLine gutter front carets).length = gutter + 3 + (front.length + carets) := by
  have hbar : " | ".length = 3 := rfl
  simp [caretLine, padLeft, String.length_append, hbar]

end Excerpt

/-! ## Findings in the lines of the user -/

namespace Program

variable {p : Program} {d : Diagnostic} {k : Nat}

/-- What is said about a line of the user stands at a character of it. -/
theorem Lined.exists_char_of_diagnostic (hp : p.Lined) (hd : d ∈ p.diagnostics)
    (hk : p.userLines.find? d.position.line = some k) :
    ∃ (line : String) (front back : List Char) (c : Char), p.body[k]? = some line ∧
      line.toList = front ++ c :: back ∧ d.position.column = byteLength front + 1 := by
  obtain ⟨f, rfl, hplace⟩ := exists_place_of_diagnostic hd
  have hfind : p.userLines.find?
      ((LineIndex.ofText p.text).position f.span.start).line = some k := hk
  rcases hplace with ⟨t, ht, hstart⟩ | hend
  · obtain ⟨before, c, rest, hcut, hstands⟩ := Syntax.exists_stands ht
    have hoffset : f.span.start ≤ (encodeUtf8 p.text).length := by
      rw [hstart, hstands.start, Text.length_encodeUtf8, hcut, byteLength_append]
      omega
    obtain ⟨line, hline, hfirst, hlast⟩ := hp.body_of_position hoffset hfind
    obtain ⟨front, back, htoken, hplace⟩ :=
      exists_cut_of_token ht hline (hstart ▸ hfirst) (hstart ▸ hlast)
    rw [hstands.text] at htoken
    refine ⟨line, front, _, c, hline, htoken, ?_⟩
    have hposition := hp.position_of_body hline hfirst hlast
    rw [hstart, hplace, Nat.add_sub_cancel_left] at hposition
    rw [Finding.place, hstart, hplace, hposition]
  · -- behind the closing line there is no line of the user
    rw [Text.utf8ByteSize_eq] at hend
    obtain ⟨line, hline, -, hlast⟩ := hp.body_of_position (Nat.le_of_eq hend) hfind
    have hlt := (List.getElem?_eq_some_iff.mp hline).1
    have hnext := bodyOffset_succ hline
    have hwithin : p.bodyOffset (k + 1) ≤ _ := bodyOffset_le hlt
    omega

/-- Words hold the position of whatever is said, if they can count the bytes of the text. -/
theorem exists_tabled_of_diagnostic (hsize : (encodeUtf8 p.text).length < UInt32.size)
    (hd : d ∈ p.diagnostics) :
    ∃ offset, p.Tabled offset ∧ d.position = (LineIndex.ofText p.text).position offset := by
  obtain ⟨f, rfl, hplace⟩ := exists_place_of_diagnostic hd
  refine ⟨f.span.start, ?_, rfl⟩
  rcases hplace with ⟨t, ht, hstart⟩ | hend
  · exact hstart ▸ tabled_of_token hsize ht
  · exact tabled hsize (Nat.le_of_eq (hend.trans (Text.utf8ByteSize_eq _)))

end Program

/-- Each finding has one caret at least. -/
theorem Finding.one_le_width (index : LineIndex) (span : Span) : 1 ≤ Finding.width index span := by
  unfold Finding.width
  dsimp only
  split
  · exact Nat.le_max_right _ _
  · exact Nat.le_refl 1

open Program (Part ofParts)
open Excerpt
open Syntax (parse)

/-- For a program put together from names of libraries without line ends and from any texts, whose
text is shorter than a word of 32 bits can count: what compiling says about user line `k` is shown
below the lines from the second one before it up to itself, whose numbers take a gutter of one
width. The column is that of a character of the line, which words hold, and the row of carets has
its first caret below it: as many characters are before it as in the row of the line, tabs below
tabs and spaces below all others. There are as many carets as characters of the line start within
the width, at least one, and none goes past the end of the line. -/
theorem carets_point_at_finding {parts : List Part} (hparts : ∀ part ∈ parts, part.Lined)
    (hsize : (encodeUtf8 (ofParts parts).text).length < UInt32.size)
    {d : Diagnostic} (hd : d ∈ (ofParts parts).diagnostics) {k : Nat}
    (hk : (ofParts parts).userLines.find? d.position.line = some k) (color : Bool) :
    let p := ofParts parts
    let gutter := (natText (k + 1)).length
    ∃ (line : String) (front back : List Char) (c : Char), p.body[k]? = some line ∧
      line.toList = front ++ c :: back ∧ d.position.column = byteLength front + 1 ∧
      let first := d.position.column - 1
      let carets := startingIn line.toList first (first + d.width)
      render color p d = heading color d ++ (padLeft gutter "" ++ "--> query:" ++ natText (k + 1) ++
          ":" ++ natText d.position.column ++ "\n" ++ padLeft gutter "" ++ " |\n" ++
          String.join ((List.range' (k - 2) (k + 1 - (k - 2))).map fun i =>
            label gutter i ++ (p.body[i]?).getD "" ++ "\n") ++
          caretLine gutter front carets ++ "\n") ++
        footnotes "note" d.notes ++ footnotes "help" d.help ∧
      (∀ i ≤ k, (label gutter i).length = gutter + 3) ∧
      ((caretLine gutter front carets).toList.takeWhile (· ≠ '^')).length =
        (label gutter k ++ String.ofList front).length ∧
      1 ≤ carets ∧ (caretLine gutter front carets).length ≤ (label gutter k ++ line).length ∧
      ∃ offset, p.Tabled offset ∧ d.position = (LineIndex.ofText p.text).position offset := by
  intro p gutter
  have hp : p.Lined := Program.lined_ofParts hparts
  -- a finding starts at a character of a line of the body, never behind the line
  obtain ⟨line, front, back, c, hline, hcut, hcolumn⟩ := hp.exists_char_of_diagnostic hd hk
  have hwidth : 1 ≤ d.width := by
    obtain ⟨f, rfl, -⟩ := exists_place_of_diagnostic hd
    exact Finding.one_le_width _ _
  obtain ⟨hrow, hpos, hend⟩ := caretRow_eq hcut hcolumn hwidth
  have hlabel : ∀ i ≤ k, (label gutter i).length = gutter + 3 := fun i hi => length_label hi
  refine ⟨line, front, back, c, hline, hcut, hcolumn, ?_, hlabel, ?_, hpos, ?_,
    Program.exists_tabled_of_diagnostic hsize hd⟩
  · have hrows := numbered_eq p.body gutter (List.getElem?_eq_some_iff.mp hline).1
    rw [render, hk]
    dsimp only
    rw [excerpt, hline, Option.getD_some, hrow, contextBefore, hrows, caretLine_eq]
    simp only [String.append_assoc, gutter]
  · rw [takeWhile_caretLine gutter front hpos, String.length_append, String.length_ofList,
      hlabel k (Nat.le_refl k)]
  · rw [length_caretLine, String.length_append, hlabel k (Nat.le_refl k), ← String.length_toList]
    omega

/-- Behind a tab and a letter of two bytes, the caret stands below a character that starts no
token. -/
theorem carets_point_at_finding_past_tab :
    let parts := [Part.text "from l in lines", .text "\tselect \"ä\" ~ l"]
    let p := ofParts parts
    let d : Diagnostic :=
      { severity := .error, code := .lexical, message := "unexpected character `~`",
        position := ⟨5, 14⟩ }
    (∀ part ∈ parts, part.Lined) ∧ (encodeUtf8 p.text).length < UInt32.size ∧ d ∈ p.diagnostics ∧
      p.userLines.find? d.position.line = some 1 ∧
      render false p d = "error[E001]: unexpected character `~`\n --> query:2:14\n  |\n" ++
        "1 | from l in lines\n2 | \tselect \"ä\" ~ l\n  | \t           ^\n" := by
  intro parts p d
  have hparts : ∀ part ∈ parts, part.Lined := by decide
  have hsize : (encodeUtf8 p.text).length < UInt32.size := by decide +kernel
  have hparse : (parse p.text).2.map (Finding.place (LineIndex.ofText p.text)) = [d] := by
    decide +kernel
  have hd : d ∈ p.diagnostics := by
    have hfound : (parse p.text).2 ≠ [] := by
      intro hnil
      rw [hnil] at hparse
      exact absurd hparse (List.cons_ne_nil d []).symm
    rw [Program.mem_diagnostics, p.reports_eq, if_neg hfound, Program.readingReports, hparse]
    exact List.mem_singleton_self d
  have hk : p.userLines.find? d.position.line = some 1 := by decide +kernel
  obtain ⟨line, front, back, c, hline, hcut, hcolumn, hrender, -⟩ :=
    carets_point_at_finding hparts hsize hd hk false
  -- the column tells what stands in front of the character in the second line
  have hsecond : p.body = ["from l in lines", "\tselect \"ä\" ~ l"] := by decide +kernel
  obtain rfl : "\tselect \"ä\" ~ l" = line := by
    rw [hsecond] at hline
    exact Option.some.inj hline
  have hfront : byteLength "\tselect \"ä\" ".toList = byteLength front := by
    have hbytes : byteLength "\tselect \"ä\" ".toList = 13 := by decide
    have hbehind : 14 = byteLength front + 1 := hcolumn
    omega
  have hends : "\tselect \"ä\" ".toList ++ "~ l".toList = front ++ c :: back := hcut
  obtain ⟨rfl, -⟩ := Text.append_inj_of_byteLength hends hfront
  refine ⟨hparts, hsize, hd, hk, hrender.trans ?_⟩
  show heading false d ++ (_ ++ String.join ((List.range' 0 2).map fun i =>
    label 1 i ++ (p.body[i]?).getD "" ++ "\n") ++ _ ++ _) ++ _ ++ _ = _
  rw [hsecond]
  decide +kernel

end LineQuery
