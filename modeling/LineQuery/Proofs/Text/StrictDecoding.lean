import LineQuery.Proofs.Text.Utf8

/-! # What strict decoding accepts

A byte string that is decoded strictly is the encoding of the text that comes out, so no text has
two byte strings: a piece that is a character has the bytes of that character and no others.
-/

namespace LineQuery.Text

/-! ## The bytes of a character -/

theorem val_ofNat_of_valid {n : Nat} (h : n < 0xD800 ∨ 0xDFFF < n ∧ n < 0x110000) :
    (Char.ofNat n).val.toNat = n := by
  have hvalid : n.isValidChar := h
  rw [Char.ofNat, dif_pos hvalid]
  rfl

theorem encodeChar_one {n : Nat} (h : n < 0x80) :
    String.utf8EncodeChar (Char.ofNat n) = [UInt8.ofNat n] := by
  unfold String.utf8EncodeChar
  rw [val_ofNat_of_valid (.inl (by omega))]
  exact if_pos (by omega)

theorem encodeChar_two {n : Nat} (hlow : 0x80 ≤ n) (hhigh : n < 0x800) :
    String.utf8EncodeChar (Char.ofNat n) =
      [UInt8.ofNat (n / 64 % 32 + 192), UInt8.ofNat (n % 64 + 128)] := by
  unfold String.utf8EncodeChar
  rw [val_ofNat_of_valid (.inl (by omega))]
  exact (if_neg (by omega)).trans (if_pos (by omega))

theorem encodeChar_three {n : Nat} (hlow : 0x800 ≤ n) (hhigh : n < 0x10000)
    (hvalid : n < 0xD800 ∨ 0xDFFF < n) :
    String.utf8EncodeChar (Char.ofNat n) =
      [UInt8.ofNat (n / 4096 % 16 + 224), UInt8.ofNat (n / 64 % 64 + 128),
        UInt8.ofNat (n % 64 + 128)] := by
  unfold String.utf8EncodeChar
  rw [val_ofNat_of_valid (by omega)]
  exact (if_neg (by omega)).trans ((if_neg (by omega)).trans (if_pos (by omega)))

theorem encodeChar_four {n : Nat} (hlow : 0x10000 ≤ n) (hhigh : n < 0x110000) :
    String.utf8EncodeChar (Char.ofNat n) =
      [UInt8.ofNat (n / 262144 % 8 + 240), UInt8.ofNat (n / 4096 % 64 + 128),
        UInt8.ofNat (n / 64 % 64 + 128), UInt8.ofNat (n % 64 + 128)] := by
  unfold String.utf8EncodeChar
  rw [val_ofNat_of_valid (by omega)]
  exact (if_neg (by omega)).trans ((if_neg (by omega)).trans (if_neg (by omega)))

/-- A byte is the one with its number. -/
theorem ofNat_eq_of_toNat {b : UInt8} {n : Nat} (h : n = b.toNat) : UInt8.ofNat n = b := by
  rw [h, UInt8.ofNat_toNat]

/-! ## Pieces -/

/-- The bounds of the second byte, as numbers. -/
theorem second_bounds {b c : UInt8}
    (h : ((secondByteRange b).1 ≤ c && c ≤ (secondByteRange b).2) = true) :
    128 ≤ c.toNat ∧ c.toNat < 192 ∧ (b.toNat = 224 → 160 ≤ c.toNat) ∧
      (b.toNat = 237 → c.toNat < 160) ∧ (b.toNat = 240 → 144 ≤ c.toNat) ∧
      (b.toNat = 244 → c.toNat < 144) := by
  unfold secondByteRange at h
  simp only [Bool.and_eq_true, decide_eq_true_eq, ← UInt8.toNat_inj, UInt8.reduceToNat] at h
  split_ifs at h <;> simp only [UInt8.le_iff_toNat_le, UInt8.reduceToNat] at h <;> omega

theorem continuation_bounds {b : UInt8} (h : isContinuation b = true) :
    128 ≤ b.toNat ∧ b.toNat < 192 := by
  simp only [isContinuation, Bool.and_eq_true, decide_eq_true_eq, UInt8.le_iff_toNat_le,
    UInt8.reduceToNat] at h
  omega

/-- The character of a lead byte and a continuation byte has these two bytes. -/
theorem encodeChar_of_two {b c : UInt8} (hb : 194 ≤ b.toNat ∧ b.toNat ≤ 223)
    (hc : 128 ≤ c.toNat ∧ c.toNat < 192) :
    String.utf8EncodeChar (Char.ofNat (b.toNat % 32 * 64 + tailBits c)) = [b, c] := by
  rw [tailBits, encodeChar_two (by omega) (by omega), ofNat_eq_of_toNat (b := b) (by omega),
    ofNat_eq_of_toNat (b := c) (by omega)]

theorem encodeChar_of_three {b c d : UInt8} (hb : 224 ≤ b.toNat ∧ b.toNat ≤ 239)
    (hc : 128 ≤ c.toNat ∧ c.toNat < 192) (hleast : b.toNat = 224 → 160 ≤ c.toNat)
    (hvalid : b.toNat = 237 → c.toNat < 160) (hd : 128 ≤ d.toNat ∧ d.toNat < 192) :
    String.utf8EncodeChar (Char.ofNat ((b.toNat % 16 * 64 + tailBits c) * 64 + tailBits d)) =
      [b, c, d] := by
  rw [tailBits, tailBits, encodeChar_three (by omega) (by omega) (by omega),
    ofNat_eq_of_toNat (b := b) (by omega), ofNat_eq_of_toNat (b := c) (by omega),
    ofNat_eq_of_toNat (b := d) (by omega)]

theorem encodeChar_of_four {b c d e : UInt8} (hb : 240 ≤ b.toNat ∧ b.toNat ≤ 244)
    (hc : 128 ≤ c.toNat ∧ c.toNat < 192) (hleast : b.toNat = 240 → 144 ≤ c.toNat)
    (hgreatest : b.toNat = 244 → c.toNat < 144) (hd : 128 ≤ d.toNat ∧ d.toNat < 192)
    (he : 128 ≤ e.toNat ∧ e.toNat < 192) :
    String.utf8EncodeChar (Char.ofNat
      (((b.toNat % 8 * 64 + tailBits c) * 64 + tailBits d) * 64 + tailBits e)) = [b, c, d, e] := by
  rw [tailBits, tailBits, tailBits, encodeChar_four (by omega) (by omega),
    ofNat_eq_of_toNat (b := b) (by omega), ofNat_eq_of_toNat (b := c) (by omega),
    ofNat_eq_of_toNat (b := d) (by omega), ofNat_eq_of_toNat (b := e) (by omega)]

/-- A piece that is a character has the bytes of the character. -/
theorem eq_encodeChar_of_piece {b : UInt8} {bs : Bytes} {c : Char}
    (h : (utf8Piece b bs).char = some c) :
    b :: bs = String.utf8EncodeChar c ++ bs.drop (utf8Piece b bs).more := by
  unfold utf8Piece at h ⊢
  dsimp only at h ⊢
  -- the lead byte says how many bytes there are
  split_ifs at h ⊢ with hone htwo hthree hfour
  · obtain rfl := Option.some.inj h
    rw [UInt8.lt_iff_toNat_lt] at hone
    rw [encodeChar_one hone, UInt8.ofNat_toNat]
    rfl
  · simp only [Bool.and_eq_true, decide_eq_true_eq, UInt8.le_iff_toNat_le, UInt8.reduceToNat]
      at htwo
    match bs with
    | [] => exact nomatch h
    | c :: bs =>
      dsimp only at h ⊢
      split_ifs at h ⊢ with hc
      · obtain rfl := Option.some.inj h
        rw [encodeChar_of_two htwo (continuation_bounds hc)]
        rfl
  · simp only [Bool.and_eq_true, decide_eq_true_eq, UInt8.le_iff_toNat_le, UInt8.reduceToNat]
      at hthree
    match bs with
    | [] => exact nomatch h
    | [c] =>
      dsimp only at h
      split_ifs at h
    | c :: d :: bs =>
      dsimp only at h ⊢
      split_ifs at h ⊢ with hc hd
      · obtain rfl := Option.some.inj h
        obtain ⟨hlow, hhigh, hleast, hvalid, -⟩ := second_bounds hc
        rw [encodeChar_of_three hthree ⟨hlow, hhigh⟩ hleast hvalid (continuation_bounds hd)]
        rfl
  · simp only [Bool.and_eq_true, decide_eq_true_eq, UInt8.le_iff_toNat_le, UInt8.reduceToNat]
      at hfour
    match bs with
    | [] => exact nomatch h
    | [c] =>
      dsimp only at h
      split_ifs at h
    | [c, d] =>
      dsimp only at h
      split_ifs at h
    | c :: d :: e :: bs =>
      dsimp only at h ⊢
      split_ifs at h ⊢ with hc hd he
      · obtain rfl := Option.some.inj h
        obtain ⟨hlow, hhigh, -, -, hleast, hgreatest⟩ := second_bounds hc
        rw [encodeChar_of_four hfour ⟨hlow, hhigh⟩ hleast hgreatest (continuation_bounds hd)
          (continuation_bounds he)]
        rfl

/-! ## Texts -/

theorem utf8PiecesFrom_skip (skip : Nat) (bs : Bytes) :
    utf8PiecesFrom skip bs = utf8PiecesFrom 0 (bs.drop skip) := by
  induction bs generalizing skip with
  | nil => cases skip <;> rfl
  | cons b bs ih =>
    cases skip with
    | zero => rfl
    | succ skip => exact ih skip

/-- Pieces that are all characters make up the encoding of the characters. -/
theorem eq_encodeChars_of_pieces {cs : List Char} {bs : Bytes}
    (h : utf8Pieces bs = cs.map some) : bs = encodeChars cs := by
  induction cs generalizing bs with
  | nil =>
    cases bs with
    | nil => rfl
    | cons b bs => exact nomatch h
  | cons c cs ih =>
    cases bs with
    | nil => exact nomatch h
    | cons b bs =>
      obtain ⟨hchar, hrest⟩ := List.cons.inj h
      rw [utf8PiecesFrom_skip] at hrest
      rw [eq_encodeChar_of_piece hchar, ih hrest]
      rfl

theorem eq_map_some_of_mapM {pieces : List (Option Char)} {cs : List Char}
    (h : pieces.mapM id = some cs) : pieces = cs.map some := by
  induction pieces generalizing cs with
  | nil =>
    obtain rfl := Option.some.inj h
    rfl
  | cons piece pieces ih =>
    rw [List.mapM_cons] at h
    cases piece with
    | none => exact nomatch h
    | some c =>
      change ((pieces.mapM id).bind fun later => some (c :: later)) = some cs at h
      obtain ⟨later, hlater, heq⟩ := Option.bind_eq_some_iff.mp h
      obtain rfl := Option.some.inj heq
      rw [ih hlater, List.map_cons]

/-- A byte string that is decoded strictly is the encoding of what comes out. -/
theorem eq_encodeUtf8_of_decodeUtf8? {bs : Bytes} {s : String} (h : decodeUtf8? bs = some s) :
    bs = encodeUtf8 s := by
  obtain ⟨cs, hpieces, rfl⟩ := Option.map_eq_some_iff.mp h
  rw [encodeUtf8, String.toList_ofList]
  exact eq_encodeChars_of_pieces (eq_map_some_of_mapM hpieces)

end LineQuery.Text
