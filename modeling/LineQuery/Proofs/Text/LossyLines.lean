import LineQuery.Proofs.Text.LineReading
import LineQuery.Proofs.Text.StrictDecoding
import LineQuery.Script.Program
import LineQuery.Text.Lines

/-! # Lines that are decoded one by one

A byte below 128 is never part of a longer character nor of a malformed piece. So what stands before
a line feed and what stands behind it are decoded apart from each other, and the lines of a decoded
byte string are the lines of the bytes, each decoded by itself.
-/

namespace LineQuery.Text

variable {low : UInt8} {c : Char} {skip : Nat} {bytes line before rest : Bytes}

/-! ## Pieces and low bytes -/

/-- A piece does not reach past the bytes that are there. -/
theorem more_utf8Piece_le (b : UInt8) (bs : Bytes) : (utf8Piece b bs).more ≤ bs.length := by
  unfold utf8Piece
  match bs with
  | [] => dsimp only; split_ifs <;> simp
  | [_] => dsimp only; split_ifs <;> simp
  | [_, _] => dsimp only; split_ifs <;> simp
  | _ :: _ :: _ :: _ => dsimp only; split_ifs <;> simp

theorem isContinuation_low (h : low < 0x80) : isContinuation low = false := by
  rw [isContinuation, Bool.and_eq_false_iff]
  exact .inl (decide_eq_false (UInt8.not_le.mpr h))

/-- A low byte is never the second byte of a character. -/
theorem secondByteRange_low (b : UInt8) (h : low < 0x80) :
    ((secondByteRange b).1 ≤ low && low ≤ (secondByteRange b).2) = false := by
  have hleast : 0x80 ≤ (secondByteRange b).1 := by
    unfold secondByteRange
    split_ifs <;> decide
  rw [Bool.and_eq_false_iff]
  exact .inl (decide_eq_false (UInt8.not_le.mpr (UInt8.lt_of_lt_of_le h hleast)))

/-- A piece is the same whether a low byte stands behind the bytes or nothing: neither of them goes
on with it. -/
theorem utf8Piece_append_low (h : low < 0x80) (b : UInt8) (bs behind : Bytes) :
    utf8Piece b (bs ++ low :: behind) = utf8Piece b bs := by
  have hcontinues := isContinuation_low h
  have hsecond := secondByteRange_low b h
  unfold utf8Piece
  -- a piece looks at three bytes at most, so the bytes count as far as they are shorter
  match bs, behind with
  | [], [] => simp [hcontinues, hsecond]
  | [], [_] => simp [hcontinues, hsecond]
  | [], _ :: _ :: _ => simp [hcontinues, hsecond]
  | [_], [] => simp [hcontinues]
  | [_], _ :: _ => simp [hcontinues]
  | [_, _], _ => simp [hcontinues]
  | _ :: _ :: _ :: _, _ => rfl

/-- What stands before a low byte is decoded apart from it. -/
theorem utf8PiecesFrom_append_low (h : low < 0x80) (behind : Bytes) (hskip : skip ≤ before.length) :
    utf8PiecesFrom skip (before ++ low :: behind) =
      utf8PiecesFrom skip before ++ utf8Pieces (low :: behind) := by
  induction before generalizing skip with
  | nil =>
    obtain rfl := Nat.le_zero.mp hskip
    rfl
  | cons b before ih =>
    cases skip with
    | succ skip => exact ih (Nat.le_of_succ_le_succ hskip)
    | zero =>
      rw [List.cons_append, utf8PiecesFrom, utf8PiecesFrom, utf8Piece_append_low h,
        ih (more_utf8Piece_le b before), List.cons_append]

/-- A low byte is a character of its own. -/
theorem utf8Pieces_low (h : low < 0x80) (behind : Bytes) :
    utf8Pieces (low :: behind) = some (Char.ofNat low.toNat) :: utf8Pieces behind := by
  have hpiece : utf8Piece low behind = ⟨some (Char.ofNat low.toNat), 0⟩ := by
    unfold utf8Piece
    rw [if_pos h]
  rw [utf8Pieces, utf8PiecesFrom, hpiece, utf8Pieces]

/-- A low character comes from its own byte. -/
theorem eq_of_utf8Piece_char {b : UInt8} {bs : Bytes} (h : (utf8Piece b bs).char = some c)
    (hlow : c.toNat < 128) : b.toNat = c.toNat ∧ (utf8Piece b bs).more = 0 := by
  have hbytes := eq_encodeChar_of_piece h
  have hone : String.utf8EncodeChar c = [UInt8.ofNat c.toNat] := by
    rw [← encodeChar_one hlow, Char.ofNat_toNat]
  rw [hone, List.cons_append, List.cons.injEq] at hbytes
  have hb : b.toNat = c.toNat := by
    rw [hbytes.1, toNat_ofNat_of_lt (by omega)]
  refine ⟨hb, ?_⟩
  unfold utf8Piece
  rw [if_pos]
  rw [UInt8.lt_iff_toNat_lt, hb]
  exact hlow

theorem exists_byte_of_mem_pieces (h : some c ∈ utf8PiecesFrom skip bytes) (hlow : c.toNat < 128) :
    ∃ b ∈ bytes, b.toNat = c.toNat := by
  induction bytes generalizing skip with
  | nil => cases skip <;> exact absurd h List.not_mem_nil
  | cons b bytes ih =>
    cases skip with
    | succ skip =>
      obtain ⟨other, hother, heq⟩ := ih h
      exact ⟨other, List.mem_cons_of_mem b hother, heq⟩
    | zero =>
      rcases List.mem_cons.mp h with hfirst | hlater
      · exact ⟨b, List.mem_cons_self, (eq_of_utf8Piece_char hfirst.symm hlow).1⟩
      · obtain ⟨other, hother, heq⟩ := ih hlater
        exact ⟨other, List.mem_cons_of_mem b hother, heq⟩

theorem utf8PiecesFrom_eq_nil_iff : utf8PiecesFrom skip bytes = [] ↔ bytes.length ≤ skip := by
  induction bytes generalizing skip with
  | nil => cases skip <;> simp [utf8PiecesFrom]
  | cons b bytes ih => cases skip <;> simp [utf8PiecesFrom, ih]

/-- A low character at the end comes from the last byte. -/
theorem exists_getLast?_of_pieces (h : (utf8PiecesFrom skip bytes).getLast? = some (some c))
    (hlow : c.toNat < 128) : ∃ b, bytes.getLast? = some b ∧ b.toNat = c.toNat := by
  induction bytes generalizing skip with
  | nil => cases skip <;> exact nomatch h
  | cons b bytes ih =>
    cases skip with
    | succ skip =>
      obtain ⟨last, hlast, heq⟩ := ih h
      exact ⟨last, by rw [List.getLast?_cons, hlast]; rfl, heq⟩
    | zero =>
      rw [utf8PiecesFrom] at h
      by_cases hrest : utf8PiecesFrom (utf8Piece b bytes).more bytes = []
      · -- the character is the whole piece, and nothing stands behind it
        rw [hrest, List.getLast?_singleton] at h
        obtain ⟨heq, hmore⟩ := eq_of_utf8Piece_char (Option.some.inj h) hlow
        rw [hmore, utf8PiecesFrom_eq_nil_iff, Nat.le_zero, List.length_eq_zero_iff] at hrest
        exact ⟨b, by rw [hrest]; rfl, heq⟩
      · obtain ⟨last, hlast, heq⟩ := ih (by rwa [List.getLast?_cons_of_ne_nil hrest] at h)
        exact ⟨last, by rw [List.getLast?_cons, hlast]; rfl, heq⟩

/-! ## Decoded lines -/

def lossyChars (bytes : Bytes) : List Char :=
  (decodeLossy bytes).toList

theorem lossyChars_eq (bytes : Bytes) :
    lossyChars bytes = (utf8Pieces bytes).map fun piece => piece.getD '\uFFFD' :=
  String.toList_ofList

theorem eq_some_of_getD {piece : Option Char} (hlow : c.toNat < 128)
    (h : piece.getD '\uFFFD' = c) : piece = some c := by
  cases piece with
  | some other => exact congrArg some h
  | none =>
    subst h
    exact absurd hlow (by decide)

/-- What stands before a line feed is decoded apart from what stands behind it. -/
theorem lossyChars_append_newline (line behind : Bytes) :
    lossyChars (line ++ 10 :: behind) = lossyChars line ++ '\n' :: lossyChars behind := by
  have hlow : (10 : UInt8) < 0x80 := by decide
  rw [lossyChars_eq, utf8Pieces, utf8PiecesFrom_append_low hlow behind (Nat.zero_le _),
    utf8Pieces_low hlow, List.map_append, List.map_cons, lossyChars_eq, lossyChars_eq]
  rfl

theorem newline_not_mem_lossyChars (h : 10 ∉ line) : '\n' ∉ lossyChars line := by
  intro hmem
  rw [lossyChars_eq] at hmem
  obtain ⟨piece, hpiece, heq⟩ := List.mem_map.mp hmem
  obtain rfl := eq_some_of_getD (by decide) heq
  obtain ⟨b, hb, hten⟩ := exists_byte_of_mem_pieces hpiece (by decide)
  obtain rfl : b = 10 := UInt8.toNat_inj.mp hten
  exact h hb

theorem lossyChars_eq_nil_iff : lossyChars bytes = [] ↔ bytes = [] := by
  rw [lossyChars_eq, List.map_eq_nil_iff, utf8Pieces, utf8PiecesFrom_eq_nil_iff, Nat.le_zero,
    List.length_eq_zero_iff]

/-- A carriage return at the end of a line is one before and after decoding. -/
theorem lossyChars_withoutReturn (line : Bytes) :
    lossyChars (withoutReturn 13 line) = withoutReturn '\r' (lossyChars line) := by
  by_cases hlast : line.getLast? = some 13
  · obtain ⟨front, rfl⟩ := List.getLast?_eq_some_iff.mp hlast
    have hlow : (13 : UInt8) < 0x80 := by decide
    have hchars : lossyChars (front ++ [13]) = lossyChars front ++ ['\r'] := by
      rw [lossyChars_eq, utf8Pieces, utf8PiecesFrom_append_low hlow [] (Nat.zero_le _),
        utf8Pieces_low hlow, List.map_append, lossyChars_eq]
      rfl
    rw [withoutReturn, if_pos hlast, List.dropLast_concat, withoutReturn, hchars,
      if_pos List.getLast?_concat, List.dropLast_concat]
  · rw [withoutReturn, if_neg hlast, withoutReturn, if_neg]
    intro hchars
    rw [lossyChars_eq, List.getLast?_map, Option.map_eq_some_iff] at hchars
    obtain ⟨piece, hpiece, heq⟩ := hchars
    obtain rfl := eq_some_of_getD (by decide) heq
    obtain ⟨b, hb, hthirteen⟩ := exists_getLast?_of_pieces hpiece (by decide)
    obtain rfl : b = 13 := UInt8.toNat_inj.mp hthirteen
    exact hlast hb

/-- The parts of a decoded byte string are the decoded parts of the bytes. -/
theorem HasLines.decoded {ended : List Bytes} (h : HasLines 10 bytes ended rest) :
    HasLines '\n' (lossyChars bytes) (ended.map lossyChars) (lossyChars rest) := by
  obtain ⟨rfl, hended, hrest⟩ := h
  induction ended with
  | nil => exact ⟨rfl, nofun, newline_not_mem_lossyChars hrest⟩
  | cons line ended ih =>
    obtain ⟨hline, hended⟩ := List.forall_mem_cons.mp hended
    rw [List.flatMap_cons, List.append_assoc, List.append_assoc, List.singleton_append,
      lossyChars_append_newline]
    exact (ih hended).cons (newline_not_mem_lossyChars hline)

theorem map_lossyChars_bareLines (ended : List Bytes) (rest : Bytes) :
    (bareLines 13 ended rest).map lossyChars =
      bareLines '\r' (ended.map lossyChars) (lossyChars rest) := by
  have hended : (ended.map (withoutReturn 13)).map lossyChars =
      (ended.map lossyChars).map (withoutReturn '\r') := by
    rw [List.map_map, List.map_map]
    exact List.map_congr_left fun line _ => lossyChars_withoutReturn line
  rw [bareLines, bareLines, List.map_append, hended]
  simp only [lossyChars_eq_nil_iff]
  split <;> rfl

/-- The next line of unchecked bytes, decoded, and the bytes behind it. -/
def nextLossyLine? (bytes : Bytes) : Option (String × Bytes) :=
  (nextLine? 10 13 bytes).map fun next => (decodeLossy next.1, next.2)

/-- Bytes that are read line by line come as the lines that they have, each decoded. -/
theorem yields_lossyLines (bytes : Bytes) : Yields nextLossyLine? bytes (lossyLines bytes) := by
  have hlines := yields_splitLines 10 13 bytes
  rw [lossyLines, byteLines]
  generalize splitLines 10 13 bytes = found at hlines ⊢
  induction hlines with
  | done hnone => exact .done (by rw [nextLossyLine?, hnone, Option.map_none])
  | more hsome _ ih => exact .more (by rw [nextLossyLine?, hsome, Option.map_some]) ih

/-- The lines of unchecked bytes have the parts of the bytes, decoded one by one. -/
theorem lossyLines_eq {ended : List Bytes} (h : HasLines 10 bytes ended rest) :
    lossyLines bytes =
      (bareLines '\r' (ended.map lossyChars) (lossyChars rest)).map String.ofList := by
  rw [lossyLines, byteLines, h.splitLines_eq, ← map_lossyChars_bareLines, List.map_map]
  refine List.map_congr_left fun line _ => ?_
  rw [Function.comp_apply, lossyChars, String.ofList_toList]

theorem lossyLines_eq_lines (bytes : Bytes) : lossyLines bytes = lines (decodeLossy bytes) := by
  obtain ⟨ended, rest, h⟩ := HasLines.exists_parts 10 bytes
  rw [lossyLines_eq h, lines, ← lossyChars, h.decoded.splitLines_eq]

theorem decodeLossy_of_decodeUtf8? {text : String} (h : decodeUtf8? bytes = some text) :
    decodeLossy bytes = text := by
  rw [eq_encodeUtf8_of_decodeUtf8? h, decodeLossy, encodeUtf8, utf8Pieces_encodeChars, List.map_map]
  exact (congrArg String.ofList (List.map_id _)).trans String.ofList_toList

/-- A reader that cuts bytes into lines and decodes each of them gives the lines of the decoded
bytes: as many as the bytes have, one for each. Of a text that is not empty these are the lines that
it adds to the body of a program. -/
theorem decoding_keeps_lines (bytes : Bytes) :
    Yields nextLossyLine? bytes (lossyLines bytes) ∧
    lossyLines bytes = lines (decodeLossy bytes) ∧
    (∃ ended rest, HasLines 10 bytes ended rest ∧
      HasLines '\n' (decodeLossy bytes).toList (ended.map lossyChars) (lossyChars rest) ∧
      lossyLines bytes =
        (bareLines '\r' (ended.map lossyChars) (lossyChars rest)).map String.ofList) ∧
    ∀ text, decodeUtf8? bytes = some text → text ≠ "" →
      ∀ p : Program, (p.addText text).body = p.body ++ lossyLines bytes := by
  refine ⟨yields_lossyLines bytes, lossyLines_eq_lines bytes, ?_, ?_⟩
  · obtain ⟨ended, rest, h⟩ := HasLines.exists_parts 10 bytes
    exact ⟨ended, rest, h, h.decoded, lossyLines_eq h⟩
  · intro text htext hne p
    rw [lossyLines_eq_lines, decodeLossy_of_decodeUtf8? htext, Program.addText, Program.bodyLines,
      if_neg (by simpa using hne)]

/-- Characters that a line feed cuts off stay in their lines, and a text with line ends of both
kinds adds the same lines to a body. -/
theorem decoding_keeps_lines_of_cut_characters :
    let cut : Bytes := [0xE2, 0x82, 10, 0xF0, 0x9F, 13, 10, 0xFF, 13]
    let whole : Bytes := [0xC3, 0xA9, 13, 10, 10, 13, 0x78, 13]
    lossyLines cut = lines (decodeLossy cut) ∧ lossyLines cut = ["\uFFFD", "\uFFFD", "\uFFFD\r"] ∧
    decodeUtf8? whole = some "é\r\n\n\rx\r" ∧ "é\r\n\n\rx\r" ≠ "" ∧
    (Program.empty.addText "é\r\n\n\rx\r").body = Program.empty.body ++ lossyLines whole := by
  intro cut whole
  have hwhole : decodeUtf8? whole = some "é\r\n\n\rx\r" := by decide +kernel
  have hne : "é\r\n\n\rx\r" ≠ "" := by decide +kernel
  exact ⟨(decoding_keeps_lines cut).2.1, by decide +kernel, hwhole, hne,
    (decoding_keeps_lines whole).2.2.2 _ hwhole hne Program.empty⟩

end LineQuery.Text
