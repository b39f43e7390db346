import LineQuery.Proofs.Diagnostic.Log
import LineQuery.Proofs.Script.LinePositions
import LineQuery.Proofs.Text.ByteLines
import LineQuery.Script.LineTable
import LineQuery.Script.Program

/-! # Positions in words

In the bytes of a text each line but the first starts behind a line feed. The lines that start at or
before an offset are the first one and one for each line feed before the offset, and the last of
them is the line in which the offset is. Bisection in the table of the text finds that line, so the
table gives the position that the index gives, as far as words hold it; only the greatest offset can
have a line or a column that is too great for a word. Positions are in the order of their offsets,
and findings in the order of their positions are in the order of the offsets at which they start.
-/

namespace LineQuery

open LineQuery.Text (Bytes encodeChars encodeUtf8 eq_of_mem_encodeChar)

/-! ## Where lines start -/

namespace Text

/-- The number of line feeds before an offset. -/
def feedsBefore (bytes : Bytes) (offset : Nat) : Nat :=
  (bytes.take offset).count 10

/-- The offsets at which lines start: that of the text, and those behind its line feeds. -/
def lineStarts (bytes : Bytes) : List Nat :=
  0 :: bytes.idxsOf 10 1

/-- `start` is where the line of `offset` starts: behind the last line feed before `offset`, or at
the start of the text. -/
structure LineStart (bytes : Bytes) (offset start : Nat) : Prop where
  le : start ≤ offset
  behind : start = 0 ∨ bytes[start - 1]? = some 10
  last : ∀ i, start ≤ i → i < offset → bytes[i]? ≠ some 10

/-- `p` is the position of `offset`: its line counts the line feeds before `offset`, and its column
the bytes from the start of the line, both from one. -/
def PositionAt (bytes : Bytes) (offset : Nat) (p : Position) : Prop :=
  ∃ start, LineStart bytes offset start ∧ p = ⟨1 + feedsBefore bytes offset, 1 + (offset - start)⟩

theorem feedsBefore_le (bytes : Bytes) (offset : Nat) : feedsBefore bytes offset ≤ offset :=
  Nat.le_trans List.count_le_length (List.length_take_le _ _)

theorem feedsBefore_of_length_le {bytes : Bytes} {offset : Nat} (h : bytes.length ≤ offset) :
    feedsBefore bytes offset = bytes.count 10 := by
  rw [feedsBefore, List.take_of_length_le h]

theorem idxsOf_encodeChar {c : Char} (hc : c ≠ '\n') (start : Nat) :
    (String.utf8EncodeChar c).idxsOf 10 start = [] := by
  rw [List.idxsOf_eq_nil_iff]
  intro b hb
  rw [beq_eq_false_iff_ne]
  rintro rfl
  exact hc (Char.toNat_inj.mp (eq_of_mem_encodeChar hb (by decide)))

/-- A line starts behind each line feed. -/
theorem mem_idxsOf_iff {bytes : Bytes} {start : Nat} :
    start ∈ bytes.idxsOf 10 1 ↔ 1 ≤ start ∧ bytes[start - 1]? = some 10 := by
  rw [List.mem_idxsOf_iff_getElem_sub_pos, List.getElem?_eq_some_iff]
  simp only [beq_iff_eq]

/-- Line starts ascend. -/
theorem pairwise_lineStarts (bytes : Bytes) : (lineStarts bytes).Pairwise (· < ·) :=
  List.pairwise_cons.mpr ⟨fun start hstart => List.ge_of_mem_idxsOf start hstart,
    List.pairwise_idxsOf⟩

end Text

namespace LineIndex

/-- Counting line starts over characters finds those over bytes: no byte of another character is a
line feed. -/
theorem startsFrom_eq (cs : List Char) (offset : Nat) :
    startsFrom offset cs = (encodeChars cs).idxsOf 10 (offset + 1) := by
  induction cs generalizing offset with
  | nil => rfl
  | cons c cs ih =>
    have hchars : encodeChars (c :: cs) = String.utf8EncodeChar c ++ encodeChars cs := rfl
    rw [startsFrom, ih, hchars, List.idxsOf_append, String.length_utf8EncodeChar,
      Nat.add_right_comm]
    split
    case isTrue hc =>
      subst hc
      rfl
    case isFalse hc =>
      rw [Text.idxsOf_encodeChar hc]
      rfl

/-- The index of a text has the starts of its lines after the first. -/
theorem starts_ofText (text : String) :
    (ofText text).starts = (encodeUtf8 text).idxsOf 10 1 :=
  startsFrom_eq text.toList 0

end LineIndex

/-! ## The starts up to an offset -/

/-- The first `n` of the offsets, and only those, are at or before `offset`. -/
def CutAt {α : Type} [LE α] (starts : List α) (offset : α) (n : Nat) : Prop :=
  ∀ i start, starts[i]? = some start → (start ≤ offset ↔ i < n)

namespace CutAt

variable {starts : List Nat} {offset n first : Nat}

theorem cons (h : CutAt starts offset n) (hfirst : first ≤ offset) :
    CutAt (first :: starts) offset (n + 1) := by
  intro i start hi
  cases i with
  | zero =>
    cases hi
    exact iff_of_true hfirst (Nat.zero_lt_succ n)
  | succ i => exact (h i start hi).trans Nat.succ_lt_succ_iff.symm

theorem of_cons (h : CutAt (first :: starts) offset (n + 1)) : CutAt starts offset n :=
  fun i start hi => (h (i + 1) start hi).trans Nat.succ_lt_succ_iff

/-- Of ascending offsets, none that is at or before `offset` is behind the last of those. -/
theorem le_last {start last : Nat} (h : CutAt starts offset (n + 1))
    (hascending : starts.Pairwise (· < ·)) (hlast : starts[n]? = some last)
    (hmem : start ∈ starts) (hle : start ≤ offset) : start ≤ last := by
  obtain ⟨i, hi⟩ := List.mem_iff_getElem?.mp hmem
  rcases Nat.eq_or_lt_of_le (Nat.le_of_lt_succ ((h i start hi).mp hle)) with rfl | hlt
  · exact Nat.le_of_eq (Option.some.inj (hi.symm.trans hlast))
  · obtain ⟨hilt, rfl⟩ := List.getElem?_eq_some_iff.mp hi
    obtain ⟨hnlt, rfl⟩ := List.getElem?_eq_some_iff.mp hlast
    exact Nat.le_of_lt (List.pairwise_iff_getElem.mp hascending i n hilt hnlt hlt)

end CutAt

namespace Text

variable {bytes : Bytes} {offset : Nat}

/-- As many lines after the first start at or before an offset as there are line feeds before it. -/
theorem cutAt_idxsOf (bytes : Bytes) (offset : Nat) :
    CutAt (bytes.idxsOf 10 1) offset (feedsBefore bytes offset) := by
  have hsplit : bytes.idxsOf 10 1 = (bytes.take offset).idxsOf 10 1 ++
      (bytes.drop offset).idxsOf 10 (1 + (bytes.take offset).length) := by
    rw [← List.idxsOf_append, List.take_append_drop]
  -- a line feed before the offset starts a line up to it, any other one a line behind it
  intro i start hi
  rw [hsplit, List.getElem?_append, List.length_idxsOf] at hi
  split at hi
  case isTrue hlt =>
    obtain ⟨-, hend, -⟩ := List.mem_idxsOf_iff_getElem_sub_pos.mp (List.mem_of_getElem? hi)
    rw [List.length_take] at hend
    exact iff_of_true (by omega) hlt
  case isFalse hge =>
    obtain ⟨hstart, hend, -⟩ := List.mem_idxsOf_iff_getElem_sub_pos.mp (List.mem_of_getElem? hi)
    rw [List.length_drop, List.length_take] at hend
    rw [List.length_take] at hstart
    exact iff_of_false (by omega) hge

/-- The lines that start up to an offset are one more than the line feeds in front of it. -/
theorem cutAt_lineStarts (bytes : Bytes) (offset : Nat) :
    CutAt (lineStarts bytes) offset (feedsBefore bytes offset + 1) :=
  (cutAt_idxsOf bytes offset).cons (Nat.zero_le offset)

/-- Some line starts at or before each offset, as the first starts at zero. -/
theorem exists_start (bytes : Bytes) (offset : Nat) : ∃ start,
    (lineStarts bytes)[feedsBefore bytes offset]? = some start := by
  have hlt : feedsBefore bytes offset < (lineStarts bytes).length := by
    rw [lineStarts, List.length_cons, List.length_idxsOf]
    exact Nat.lt_succ_of_le ((List.take_sublist offset bytes).count_le 10)
  exact ⟨_, List.getElem?_eq_getElem hlt⟩

/-- The last line that starts at or before an offset is the line of the offset. -/
theorem lineStart_of_getElem? {start : Nat}
    (hstart : (lineStarts bytes)[feedsBefore bytes offset]? = some start) :
    LineStart bytes offset start := by
  have hcut := cutAt_lineStarts bytes offset
  refine ⟨(hcut _ _ hstart).mpr (Nat.lt_succ_self _), ?_, ?_⟩
  · rcases List.mem_cons.mp (List.mem_of_getElem? hstart) with hzero | hmem
    · exact .inl hzero
    · exact .inr (mem_idxsOf_iff.mp hmem).2
  · intro i hle hlt hfeed
    -- a line that starts behind a line feed at `i` would be one of those up to the offset
    have hmem : i + 1 ∈ lineStarts bytes :=
      List.mem_cons_of_mem 0 (mem_idxsOf_iff.mpr ⟨Nat.le_add_left 1 i, hfeed⟩)
    have hbehind := hcut.le_last (pairwise_lineStarts bytes) hstart hmem hlt
    omega

theorem start_eq_zero_iff {start : Nat}
    (hstart : (lineStarts bytes)[feedsBefore bytes offset]? = some start) :
    start = 0 ↔ feedsBefore bytes offset = 0 := by
  cases hcount : feedsBefore bytes offset with
  | zero =>
    rw [hcount] at hstart
    exact iff_of_true (Option.some.inj hstart).symm rfl
  | succ n =>
    rw [hcount] at hstart
    have hpos := List.ge_of_mem_idxsOf start (List.mem_of_getElem? hstart)
    exact iff_of_false (Nat.ne_of_gt hpos) (Nat.succ_ne_zero n)

/-- An offset is on one line. -/
theorem LineStart.unique {a b : Nat} (ha : LineStart bytes offset a)
    (hb : LineStart bytes offset b) : a = b := by
  -- otherwise the line feed in front of the later start would stand in the line of the earlier
  have hle : ∀ {a b}, LineStart bytes offset a → LineStart bytes offset b → b ≤ a := by
    intro a b ha hb
    by_contra hlt
    have hbound := hb.le
    rcases hb.behind with rfl | hfeed
    · omega
    · exact ha.last (b - 1) (by omega) (by omega) hfeed
  exact Nat.le_antisymm (hle hb ha) (hle ha hb)

/-- An offset has one position only. -/
theorem PositionAt.unique {p q : Position} (hp : PositionAt bytes offset p)
    (hq : PositionAt bytes offset q) : p = q := by
  obtain ⟨a, ha, rfl⟩ := hp
  obtain ⟨b, hb, rfl⟩ := hq
  rw [ha.unique hb]

end Text

open LineQuery.Text (PositionAt feedsBefore lineStarts)

namespace LineIndex

/-- The line of an offset is found by passing all starts up to the offset. -/
theorem positionFrom_cutAt {starts : List Nat} {offset n first start : Nat} (line : Nat)
    (hcut : CutAt starts offset n) (hstart : (first :: starts)[n]? = some start) :
    positionFrom line first offset starts = ⟨line + n, offset - start + 1⟩ := by
  induction starts generalizing line n first with
  | nil =>
    cases n with
    | zero =>
      cases hstart
      rfl
    | succ n => cases hstart
  | cons next later ih =>
    rw [positionFrom]
    cases n with
    | zero =>
      cases hstart
      rw [if_neg fun hle => Nat.not_lt_zero 0 ((hcut 0 next rfl).mp hle)]
      rfl
    | succ n =>
      rw [if_pos ((hcut 0 next rfl).mpr (Nat.zero_lt_succ n)), ih (line + 1) hcut.of_cons hstart,
        Nat.add_right_comm, Nat.add_assoc]

variable {text : String} {offset start : Nat}

/-- The position of an offset, also behind the end of the text. -/
theorem position_of_start
    (hstart : (lineStarts (encodeUtf8 text))[feedsBefore (encodeUtf8 text) offset]? = some start) :
    (ofText text).position offset =
      ⟨1 + feedsBefore (encodeUtf8 text) offset, offset - start + 1⟩ := by
  rw [position, starts_ofText, positionFrom_cutAt 1 (Text.cutAt_idxsOf _ offset) hstart]

/-- The position of an offset counts line feeds, and bytes from the last of them. -/
theorem positionAt_position (text : String) (offset : Nat) :
    PositionAt (encodeUtf8 text) offset ((ofText text).position offset) := by
  obtain ⟨start, hstart⟩ := Text.exists_start (encodeUtf8 text) offset
  refine ⟨start, Text.lineStart_of_getElem? hstart, ?_⟩
  rw [position_of_start hstart, Nat.add_comm 1 (offset - start)]

end LineIndex

/-! ## Positions in order -/

theorem Position.Before.asymm {p q : Position} (h : p.Before q) : ¬ q.Before p := by
  simp only [Before] at *
  omega

namespace LineIndex

/-- Positions are in the order of their offsets. -/
theorem position_before_iff {index : LineIndex} {a b : Nat} :
    (index.position a).Before (index.position b) ↔ a < b := by
  refine ⟨fun h => ?_, fun h => position_before h index⟩
  rcases Nat.lt_trichotomy a b with hlt | rfl | hgt
  · exact hlt
  · exact absurd h h.asymm
  · exact absurd (position_before hgt index) h.asymm

/-- Different offsets have different positions. -/
theorem position_inj {index : LineIndex} {a b : Nat} :
    index.position a = index.position b ↔ a = b := by
  refine ⟨fun h => ?_, congrArg index.position⟩
  rcases Nat.lt_trichotomy a b with hlt | heq | hgt
  · have hbefore := position_before hlt index
    rw [h] at hbefore
    exact absurd hbefore hbefore.asymm
  · exact heq
  · have hbefore := position_before hgt index
    rw [h] at hbefore
    exact absurd hbefore hbefore.asymm

/-- Offsets are in the order of their positions. -/
theorem position_le (index : LineIndex) (a b : Nat) :
    (index.position a).le (index.position b) = decide (a ≤ b) := by
  rw [Bool.eq_iff_iff, decide_eq_true_iff, Position.le_iff, position_inj, position_before_iff,
    or_comm, Nat.le_iff_lt_or_eq]

end LineIndex

/-- Findings that are sorted by their positions are sorted by the offsets at which they start. -/
theorem Diagnostic.sort_place (index : LineIndex) (findings : List Finding) :
    sort (findings.map (Finding.place index)) =
      (findings.mergeSort fun a b => a.span.start ≤ b.span.start).map (Finding.place index) :=
  (List.map_mergeSort fun a _ b _ =>
    (index.position_le a.span.start b.span.start).symm).symm

/-! ## Bisection -/

namespace LineTable

variable {table : LineTable} {offset : UInt32} {n : Nat}

/-- A search ends at a start that is the offset, or behind the starts up to the offset. The number
of these stays between the two ends of what is searched. -/
theorem searchFrom_cutAt (hcut : CutAt table.starts.toList offset n) {low high : Nat}
    (hsize : high ≤ table.starts.size) (hlow : low ≤ n) (hhigh : n ≤ high) :
    table.searchFrom offset low high hsize = .error n ∨
      ∃ i, table.searchFrom offset low high hsize = .ok i ∧ table.starts[i]? = some offset := by
  have hat : ∀ i (h : i < table.starts.size), table.starts[i] ≤ offset ↔ i < n :=
    fun i h => hcut i _ (List.getElem?_eq_some_iff.mpr ⟨h, rfl⟩)
  -- each half of the window that is searched on keeps `low ≤ n ≤ high`, so an empty one is at `n`
  fun_induction searchFrom table offset low high hsize with
  | case1 low high hsize hlt middle start hbefore ih =>
    exact ih ((hat middle (by omega)).mp (UInt32.le_of_lt hbefore)) hhigh
  | case2 low high hsize hlt middle start hbefore hbehind ih =>
    refine ih hlow (Nat.le_of_not_lt fun hn => ?_)
    exact UInt32.not_le.mpr hbehind ((hat middle (by omega)).mpr hn)
  | case3 low high hsize hlt middle start hbefore hbehind =>
    have hstart : start = offset :=
      UInt32.le_antisymm (UInt32.not_lt.mp hbehind) (UInt32.not_lt.mp hbefore)
    exact .inr ⟨middle, rfl, hstart ▸ Array.getElem?_eq_getElem (by omega)⟩
  | case4 low high hsize hge =>
    have heq : low = n := by omega
    exact .inl (heq ▸ rfl)

/-- The line of an offset is the last one that starts up to the offset, and there is one if the
first does. -/
theorem line?_cutAt (hascending : table.starts.toList.Pairwise (· < ·))
    (hcut : CutAt table.starts.toList offset (n + 1)) (hn : n < table.starts.size) :
    table.line? offset = some n := by
  rcases searchFrom_cutAt hcut (Nat.le_refl _) (Nat.zero_le _) hn with hmiss | ⟨i, hhit, hi⟩
  · rw [line?, search, hmiss]
  · have hi' : table.starts.toList[i]? = some offset := by rwa [Array.getElem?_toList]
    obtain ⟨hlt, hentry⟩ := List.getElem?_eq_some_iff.mp hi'
    -- a start behind the one found would be greater, and not up to the offset
    have hbehind : ¬ i < n := by
      intro hi
      have hnext : i + 1 < table.starts.toList.length := Nat.lt_of_le_of_lt hi hn
      have hgreater := List.pairwise_iff_getElem.mp hascending i (i + 1) hlt hnext
        (Nat.lt_succ_self i)
      rw [hentry] at hgreater
      refine UInt32.not_le.mpr hgreater ?_
      exact (hcut (i + 1) _ (List.getElem?_eq_getElem hnext)).mpr (Nat.succ_lt_succ hi)
    have hle : i ≤ n := Nat.le_of_lt_succ ((hcut i offset hi').mp (UInt32.le_refl offset))
    rw [line?, search, hhit, Nat.le_antisymm hle (Nat.not_lt.mp hbehind)]

end LineTable

/-! ## Words -/

namespace Word

theorem add?_eq_some {a b : UInt32} (h : a.toNat + b.toNat < UInt32.size) :
    ∃ c, add? a b = some c ∧ c.toNat = a.toNat + b.toNat :=
  ⟨a + b, if_pos h, by rw [UInt32.toNat_add, Nat.mod_eq_of_lt h]⟩

/-- A sum that a word does not hold is no word. -/
theorem add?_eq_none {a b : UInt32} (h : ¬ a.toNat + b.toNat < UInt32.size) : add? a b = none :=
  if_neg h

theorem sub?_eq_some {a b : UInt32} (h : b ≤ a) :
    ∃ c, sub? a b = some c ∧ c.toNat = a.toNat - b.toNat :=
  ⟨a - b, if_pos h, UInt32.toNat_sub_of_le a b h⟩

end Word

/-- Whether words hold the line and the column. -/
def Position.InWords (p : Position) : Prop :=
  p.line < UInt32.size ∧ p.column < UInt32.size

/-- Cutting words off to 32 bits changes no line start, if the text is short enough. -/
theorem CutAt.words {starts : List Nat} {offset : UInt32} {n : Nat}
    (hwords : ∀ start ∈ starts, start < UInt32.size) (h : CutAt starts offset.toNat n) :
    CutAt (starts.map UInt32.ofNat) offset n := by
  intro i start hi
  rw [List.getElem?_map, Option.map_eq_some_iff] at hi
  obtain ⟨start, hstart, rfl⟩ := hi
  rw [UInt32.ofNat_le_iff (hwords start (List.mem_of_getElem? hstart))]
  exact h i start hstart

/-- From the start of its line, the table gives the position of an offset exactly if words hold
it. -/
theorem LineTable.position?_of_line {table : LineTable} {offset start : UInt32} {line : Nat}
    (hline : table.line? offset = some line) (hstart : table.starts[line]? = some start)
    (hle : start ≤ offset) (hword : line < UInt32.size) {p : Position} :
    table.position? offset = some p ↔
      p = ⟨line + 1, offset.toNat - start.toNat + 1⟩ ∧ p.InWords := by
  have hone : UInt32.toNat 1 = 1 := rfl
  have hindex : (UInt32.ofNat line).toNat = line := UInt32.toNat_ofNat_of_lt' hword
  obtain ⟨distance, hsub, hdistance⟩ := Word.sub?_eq_some hle
  rw [position?, hline, Option.bind_eq_bind, Option.bind_some, hstart]
  -- what is added to the line and to the distance may be too much for a word
  by_cases hlineFits : line + 1 < UInt32.size
  · obtain ⟨l, hl, hlnat⟩ := Word.add?_eq_some (a := .ofNat line) (b := 1) (by omega)
    by_cases hcolumnFits : offset.toNat - start.toNat + 1 < UInt32.size
    · obtain ⟨c, hc, hcnat⟩ := Word.add?_eq_some (a := distance) (b := 1) (by omega)
      simp only [hl, hsub, hc, Option.bind_eq_bind, Option.bind_some, Option.pure_def,
        Option.some.injEq, hlnat, hcnat, hindex, hdistance, hone]
      constructor
      · rintro rfl
        exact ⟨rfl, hlineFits, hcolumnFits⟩
      · rintro ⟨rfl, -⟩
        rfl
    · have hc := Word.add?_eq_none (a := distance) (b := 1) (by omega)
      simp only [hl, hsub, hc, Option.bind_eq_bind, Option.bind_some, Option.bind_none]
      refine iff_of_false nofun ?_
      rintro ⟨rfl, -, hfits⟩
      exact hcolumnFits hfits
  · have hl := Word.add?_eq_none (a := .ofNat line) (b := 1) (by omega)
    rw [hl, Option.bind_eq_bind, Option.bind_none]
    refine iff_of_false nofun ?_
    rintro ⟨rfl, hfits, -⟩
    exact hlineFits hfits

/-- Whether the line or the column of `offset` is too great for a word: only the greatest offset can
have as many bytes before it, and they hold no line feed, or nothing else. -/
def Text.Overflows (bytes : Bytes) (offset : UInt32) : Prop :=
  offset = 4294967295 ∧ (bytes.count 10 = 0 ∨ bytes.count 10 = 4294967295)

namespace LineIndex

variable {text : String}

theorem starts_lt (hsize : (encodeUtf8 text).length < UInt32.size) :
    ∀ start ∈ lineStarts (encodeUtf8 text), start < UInt32.size := by
  intro start hstart
  rcases List.mem_cons.mp hstart with rfl | hmem
  · decide
  · have hlt := List.lt_add_of_mem_idxsOf start hmem
    omega

theorem table_starts (text : String) :
    (ofText text).table.starts.toList = (lineStarts (encodeUtf8 text)).map UInt32.ofNat := by
  rw [table, List.toList_toArray, starts_ofText, lineStarts]

/-- The line starts of a table ascend, so they can be searched. -/
theorem pairwise_table_starts (hsize : (encodeUtf8 text).length < UInt32.size) :
    (ofText text).table.starts.toList.Pairwise (· < ·) := by
  rw [table_starts, List.pairwise_map]
  refine (Text.pairwise_lineStarts (encodeUtf8 text)).imp_of_mem fun ha hb hlt => ?_
  exact (UInt32.ofNat_lt_iff_lt (starts_lt hsize _ ha) (starts_lt hsize _ hb)).mpr hlt

/-- The table finds the line of every offset, and from its start the position if words hold it. -/
theorem position?_table (hsize : (encodeUtf8 text).length < UInt32.size) (offset : UInt32) :
    ∃ line start, (ofText text).table.line? offset = some line ∧
      (ofText text).table.starts[line]? = some start ∧ start ≤ offset ∧
      ∀ p, (ofText text).table.position? offset = some p ↔
        p = (ofText text).position offset.toNat ∧ p.InWords := by
  obtain ⟨start, hstart⟩ := Text.exists_start (encodeUtf8 text) offset.toNat
  generalize hn : feedsBefore (encodeUtf8 text) offset.toNat = n at hstart
  have hcut : CutAt (ofText text).table.starts.toList offset (n + 1) := by
    rw [table_starts, ← hn]
    exact (Text.cutAt_lineStarts _ _).words (starts_lt hsize)
  have hentry : (ofText text).table.starts[n]? = some (UInt32.ofNat start) := by
    rw [← Array.getElem?_toList, table_starts, List.getElem?_map, hstart, Option.map_some]
  have hle : UInt32.ofNat start ≤ offset :=
    (hcut n _ (Array.getElem?_toList ▸ hentry)).mpr (Nat.lt_succ_self n)
  have hline : (ofText text).table.line? offset = some n :=
    LineTable.line?_cutAt (pairwise_table_starts hsize) hcut
      (Array.getElem?_eq_some_iff.mp hentry).1
  have hword : n < UInt32.size :=
    Nat.lt_of_le_of_lt (hn ▸ Text.feedsBefore_le _ _) offset.toNat_lt
  refine ⟨n, UInt32.ofNat start, hline, hentry, hle, fun p => ?_⟩
  rw [LineTable.position?_of_line hline hentry hle hword, position_of_start (hn ▸ hstart), hn,
    UInt32.toNat_ofNat_of_lt' (starts_lt hsize start (List.mem_of_getElem? hstart)),
    Nat.add_comm n 1]

/-- Words hold the position of an offset unless they are too short for its line or its column. -/
theorem inWords_position_iff (hsize : (encodeUtf8 text).length < UInt32.size) (offset : UInt32) :
    ((ofText text).position offset.toNat).InWords ↔
      ¬ Text.Overflows (encodeUtf8 text) offset := by
  obtain ⟨start, hstart⟩ := Text.exists_start (encodeUtf8 text) offset.toNat
  have hgreatest : UInt32.size = 4294967295 + 1 := rfl
  rw [position_of_start hstart, Position.InWords]
  dsimp only
  have hfirst := Text.start_eq_zero_iff hstart
  -- neither number is more than the offset and one, so smaller offsets have both in words
  by_cases hlast : offset = 4294967295
  · have hnat : offset.toNat = 4294967295 := congrArg UInt32.toNat hlast
    have hall : feedsBefore (encodeUtf8 text) offset.toNat = (encodeUtf8 text).count 10 :=
      Text.feedsBefore_of_length_le (by omega)
    have hcount := Text.feedsBefore_le (encodeUtf8 text) offset.toNat
    rw [hall] at hfirst hcount ⊢
    rw [Text.Overflows, and_iff_right hlast]
    omega
  · have hnat : offset.toNat ≠ 4294967295 := fun h => hlast (UInt32.toNat_inj.mp h)
    have hlt := offset.toNat_lt
    have hcount := Text.feedsBefore_le (encodeUtf8 text) offset.toNat
    exact iff_of_true ⟨by omega, by omega⟩ fun h => hlast h.1

/-- The table has a position for every offset unless words are too short, and it is the one that the
index gives. -/
theorem position?_eq_some_iff (hsize : (encodeUtf8 text).length < UInt32.size) {offset : UInt32}
    {p : Position} : (ofText text).table.position? offset = some p ↔
      p = (ofText text).position offset.toNat ∧ ¬ Text.Overflows (encodeUtf8 text) offset := by
  obtain ⟨_, _, _, _, _, hposition⟩ := position?_table hsize offset
  rw [hposition, ← inWords_position_iff hsize]
  exact and_congr_right fun heq => heq ▸ Iff.rfl

end LineIndex

/-! ## Positions in a program -/

namespace Program

variable {p : Program} {offset : Nat}

/-- The table of the text gives the position that the index gives for `offset`. -/
def Tabled (p : Program) (offset : Nat) : Prop :=
  let index := LineIndex.ofText p.text
  ∃ word : UInt32, word.toNat = offset ∧ index.table.position? word = some (index.position offset)

/-- The text of a program has a line feed, and a byte that is none. -/
theorem exists_bytes_eq (p : Program) : ∃ front, encodeUtf8 p.text = front ++ [125, 10] := by
  refine ⟨encodeUtf8 (String.join (p.imports.map useLine) ++ headLine ++
    String.join (p.body.map (· ++ "\n"))), ?_⟩
  have hclosing : encodeChars closingLine.toList = [125, 10] := by decide
  rw [text, encodeUtf8, String.toList_append, Text.encodeChars_append, hclosing, encodeUtf8]

/-- In a program whose text is shorter than a word can count, words hold all positions. -/
theorem tabled (hsize : (encodeUtf8 p.text).length < UInt32.size)
    (hle : offset ≤ (encodeUtf8 p.text).length) : p.Tabled offset := by
  have hword : (UInt32.ofNat offset).toNat = offset := UInt32.toNat_ofNat_of_lt' (by omega)
  refine ⟨.ofNat offset, hword, (LineIndex.position?_eq_some_iff hsize).mpr ⟨by rw [hword], ?_⟩⟩
  obtain ⟨front, hbytes⟩ := p.exists_bytes_eq
  have hgreatest : UInt32.size = 4294967295 + 1 := rfl
  rintro ⟨hlast, hfeeds⟩
  have hnat : offset = 4294967295 := hword.symm.trans (congrArg UInt32.toNat hlast)
  rcases hfeeds with hnone | hall
  · have hfeed : 10 ∈ encodeUtf8 p.text := hbytes ▸ by simp
    exact absurd hfeed (List.count_eq_zero.mp hnone)
  · have hbrace : 125 ∈ encodeUtf8 p.text := hbytes ▸ by simp
    have hlength : (encodeUtf8 p.text).count 10 = (encodeUtf8 p.text).length := by omega
    exact absurd (List.count_eq_length.mp hlength _ hbrace) (by decide)

end Program

namespace LineTable

open LineQuery.Text (Overflows)

/-- The table of a text that is shorter than a word can count finds a line for every offset, also
for one behind the end of the text, which starts at or before it. It gives the position of the
offset, the one at which findings are placed, and none if a word is too short for that. Positions
are in the order of their offsets, so findings in the order of their positions are in the order of
the offsets at which they start. -/
theorem offsets_placed_in_order {text : String} (hsize : (encodeUtf8 text).length < UInt32.size) :
    let bytes := encodeUtf8 text
    let index := LineIndex.ofText text
    let table := index.table
    (∀ offset : UInt32, ∃ line start,
      table.line? offset = some line ∧ table.starts[line]? = some start ∧ start ≤ offset) ∧
    (∀ offset p, table.position? offset = some p ↔
      PositionAt bytes offset.toNat p ∧ ¬ Overflows bytes offset) ∧
    (∀ offset p, table.position? offset = some p → p = index.position offset.toNat) ∧
    (∀ a b p q, table.position? a = some p → table.position? b = some q →
      (a < b ↔ p.Before q)) ∧
    ∀ findings : List Finding,
      Diagnostic.sort (findings.map (Finding.place index)) =
        (findings.mergeSort fun a b => a.span.start ≤ b.span.start).map
          (Finding.place index) := by
  intro bytes index table
  have hposition : ∀ {offset p}, table.position? offset = some p ↔
      p = index.position offset.toNat ∧ ¬ Overflows bytes offset :=
    LineIndex.position?_eq_some_iff hsize
  refine ⟨fun offset => ?_, fun offset p => ?_, fun offset p hp => (hposition.mp hp).1,
    fun a b p q hp hq => ?_, Diagnostic.sort_place index⟩
  · obtain ⟨line, start, hline, hstart, hle, -⟩ := LineIndex.position?_table hsize offset
    exact ⟨line, start, hline, hstart, hle⟩
  · have hplaced := LineIndex.positionAt_position text offset.toNat
    rw [hposition]
    exact and_congr_left fun _ => ⟨fun h => h.symm ▸ hplaced, fun h => h.unique hplaced⟩
  · rw [(hposition.mp hp).1, (hposition.mp hq).1, LineIndex.position_before_iff,
      UInt32.lt_iff_toNat_lt]

/-- On a line end, behind it, on an empty line, and far behind the end of the text. -/
theorem offsets_placed_in_order_past_end :
    let bytes := encodeUtf8 "é\n\nx"
    let table := (LineIndex.ofText "é\n\nx").table
    bytes.length < UInt32.size ∧
    ([2, 3, 4, 4294967295] : List UInt32).map table.position? =
      [some ⟨1, 3⟩, some ⟨2, 1⟩, some ⟨3, 1⟩, some ⟨3, 4294967292⟩] ∧
    PositionAt bytes 4294967295 ⟨3, 4294967292⟩ ∧ Position.Before ⟨2, 1⟩ ⟨3, 4294967292⟩ := by
  intro bytes table
  have hsize : bytes.length < UInt32.size := by decide +kernel
  have hpositions : ([2, 3, 4, 4294967295] : List UInt32).map table.position? =
      [some ⟨1, 3⟩, some ⟨2, 1⟩, some ⟨3, 1⟩, some ⟨3, 4294967292⟩] := by decide +kernel
  obtain ⟨-, hplaced, -, horder, -⟩ := offsets_placed_in_order hsize
  refine ⟨hsize, hpositions, ?_⟩
  simp only [List.map_cons, List.map_nil, List.cons.injEq, and_true] at hpositions
  obtain ⟨-, hsecond, -, hlast⟩ := hpositions
  exact ⟨((hplaced _ _).mp hlast).1, (horder 3 4294967295 _ _ hsecond hlast).mp (by decide)⟩

/-- The greatest offset of a text without line feeds has a column that no word holds, so the table
has no position for it. -/
theorem greatest_offset_not_placed :
    let bytes := encodeUtf8 ""
    let table := (LineIndex.ofText "").table
    bytes.length < UInt32.size ∧ table.position? 0 = some ⟨1, 1⟩ ∧
      PositionAt bytes 4294967295 ⟨1, 4294967296⟩ ∧ table.position? 4294967295 = none := by
  intro bytes table
  refine ⟨by decide, by decide +kernel, ⟨0, ⟨Nat.zero_le _, .inl rfl, nofun⟩, ?_⟩,
    by decide +kernel⟩
  have hfeeds : feedsBefore bytes 4294967295 = 0 := rfl
  rw [hfeeds]

end LineTable

end LineQuery
