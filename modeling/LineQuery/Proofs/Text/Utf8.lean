import LineQuery.Text.Utf8
import Mathlib.Tactic.SplitIfs

/-! # Encoded text

The bytes of a text decode to the text, strictly and lossily: each character is read off as one
piece, and none of the pieces is malformed.
-/

namespace LineQuery.Text

/-! ## Numbers of bytes -/

theorem byteLength_append (cs ds : List Char) :
    byteLength (cs ++ ds) = byteLength cs + byteLength ds := by
  induction cs with
  | nil => exact (Nat.zero_add _).symm
  | cons c cs ih => rw [List.cons_append, byteLength, ih, byteLength, Nat.add_assoc]

/-- Of two fronts of a text, the one with fewer bytes is a front of the other. -/
theorem exists_append_of_byteLength_le {xs ys xs' ys' : List Char} (h : xs ++ ys = xs' ++ ys')
    (hle : byteLength xs ≤ byteLength xs') : ∃ more, xs' = xs ++ more ∧ ys = more ++ ys' := by
  rcases List.append_eq_append_iff.mp h with ⟨more, hxs', hys⟩ | ⟨more, hxs, hys'⟩
  · exact ⟨more, hxs', hys⟩
  · rw [hxs, byteLength_append] at hle
    cases more with
    | nil =>
      rw [List.append_nil] at hxs
      exact ⟨[], by rw [hxs, List.append_nil], hys'.symm⟩
    | cons c more =>
      have hsize := c.utf8Size_pos
      rw [byteLength] at hle
      omega

/-- Of two cuts of a text at the same byte there is one only. -/
theorem append_inj_of_byteLength {xs ys xs' ys' : List Char} (h : xs ++ ys = xs' ++ ys')
    (hsize : byteLength xs = byteLength xs') : xs = xs' ∧ ys = ys' := by
  obtain ⟨more, rfl, rfl⟩ := exists_append_of_byteLength_le h (Nat.le_of_eq hsize)
  cases more with
  | nil => exact ⟨(List.append_nil xs).symm, rfl⟩
  | cons c more =>
    have hpos := c.utf8Size_pos
    rw [byteLength_append, byteLength] at hsize
    omega

theorem length_encodeChars_cons (c : Char) (cs : List Char) :
    (encodeChars (c :: cs)).length = c.utf8Size + (encodeChars cs).length := by
  rw [encodeChars, List.flatMap_cons, List.length_append, String.length_utf8EncodeChar]
  rfl

theorem length_encodeChars (cs : List Char) : (encodeChars cs).length = byteLength cs := by
  induction cs with
  | nil => rfl
  | cons c cs ih => rw [length_encodeChars_cons, ih, byteLength]

theorem length_encodeUtf8 (s : String) : (encodeUtf8 s).length = byteLength s.toList :=
  length_encodeChars s.toList

theorem utf8ByteSize_eq (s : String) : s.utf8ByteSize = (encodeUtf8 s).length := by
  rw [← String.size_toByteArray, ← String.utf8Encode_toList, List.utf8Encode,
    List.size_toByteArray]
  rfl

theorem encodeChars_append (cs ds : List Char) :
    encodeChars (cs ++ ds) = encodeChars cs ++ encodeChars ds :=
  List.flatMap_append

/-! ## Bytes as numbers -/

theorem toNat_ofNat_of_lt {n : Nat} (h : n < 256) : (UInt8.ofNat n).toNat = n := by
  rw [UInt8.toNat_ofNat']
  exact Nat.mod_eq_of_lt h

theorem isContinuation_ofNat (n : Nat) : isContinuation (UInt8.ofNat (n % 64 + 128)) = true := by
  have hbyte := toNat_ofNat_of_lt (n := n % 64 + 128) (by omega)
  simp only [isContinuation, Bool.and_eq_true, decide_eq_true_eq, UInt8.le_iff_toNat_le, hbyte,
    UInt8.reduceToNat]
  omega

theorem tailBits_ofNat (n : Nat) : tailBits (UInt8.ofNat (n % 64 + 128)) = n % 64 := by
  rw [tailBits, toNat_ofNat_of_lt (by omega)]
  omega

/-! ## One character -/

/-- The second byte of a character of three bytes is in the range that its first byte sets. -/
theorem second_of_three {n : Nat} (hlow : 2048 ≤ n) (hhigh : n < 65536)
    (hvalid : n < 0xD800 ∨ 0xDFFF < n) :
    (secondByteRange (UInt8.ofNat (n / 4096 % 16 + 224))).1 ≤ UInt8.ofNat (n / 64 % 64 + 128) ∧
      UInt8.ofNat (n / 64 % 64 + 128) ≤
        (secondByteRange (UInt8.ofNat (n / 4096 % 16 + 224))).2 := by
  have hfirst := toNat_ofNat_of_lt (n := n / 4096 % 16 + 224) (by omega)
  have hsecond := toNat_ofNat_of_lt (n := n / 64 % 64 + 128) (by omega)
  simp only [secondByteRange, ← UInt8.toNat_inj, hfirst, UInt8.reduceToNat]
  split_ifs <;> simp only [UInt8.le_iff_toNat_le, hsecond, UInt8.reduceToNat] <;> omega

theorem second_of_four {n : Nat} (hlow : 65536 ≤ n) (hhigh : n < 0x110000) :
    (secondByteRange (UInt8.ofNat (n / 262144 % 8 + 240))).1 ≤ UInt8.ofNat (n / 4096 % 64 + 128) ∧
      UInt8.ofNat (n / 4096 % 64 + 128) ≤
        (secondByteRange (UInt8.ofNat (n / 262144 % 8 + 240))).2 := by
  have hfirst := toNat_ofNat_of_lt (n := n / 262144 % 8 + 240) (by omega)
  have hsecond := toNat_ofNat_of_lt (n := n / 4096 % 64 + 128) (by omega)
  simp only [secondByteRange, ← UInt8.toNat_inj, hfirst, UInt8.reduceToNat]
  split_ifs <;> simp only [UInt8.le_iff_toNat_le, hsecond, UInt8.reduceToNat] <;> omega

theorem utf8Piece_one {n : Nat} (h : n < 128) (bs : Bytes) :
    utf8Piece (UInt8.ofNat n) bs = ⟨some (Char.ofNat n), 0⟩ := by
  have hbyte := toNat_ofNat_of_lt (n := n) (by omega)
  have hlt : UInt8.ofNat n < 0x80 := by
    rw [UInt8.lt_iff_toNat_lt, hbyte]
    exact h
  unfold utf8Piece
  rw [if_pos hlt, hbyte]

theorem utf8Piece_two {n : Nat} (hlow : 128 ≤ n) (hhigh : n < 2048) (bs : Bytes) :
    utf8Piece (UInt8.ofNat (n / 64 % 32 + 192)) (UInt8.ofNat (n % 64 + 128) :: bs) =
      ⟨some (Char.ofNat n), 1⟩ := by
  have hbyte := toNat_ofNat_of_lt (n := n / 64 % 32 + 192) (by omega)
  have hvalue : (n / 64 % 32 + 192) % 32 * 64 + n % 64 = n := by omega
  unfold utf8Piece
  simp only [UInt8.lt_iff_toNat_lt, UInt8.le_iff_toNat_le, hbyte, UInt8.reduceToNat,
    isContinuation_ofNat, tailBits_ofNat, Bool.and_eq_true, decide_eq_true_eq, hvalue, ↓reduceIte]
  rw [if_neg (by omega), if_pos (by omega)]

theorem utf8Piece_three {n : Nat} (hlow : 2048 ≤ n) (hhigh : n < 65536)
    (hvalid : n < 0xD800 ∨ 0xDFFF < n) (bs : Bytes) :
    utf8Piece (UInt8.ofNat (n / 4096 % 16 + 224))
        (UInt8.ofNat (n / 64 % 64 + 128) :: UInt8.ofNat (n % 64 + 128) :: bs) =
      ⟨some (Char.ofNat n), 2⟩ := by
  have hbyte := toNat_ofNat_of_lt (n := n / 4096 % 16 + 224) (by omega)
  have hsecond := second_of_three hlow hhigh hvalid
  have hvalue : ((n / 4096 % 16 + 224) % 16 * 64 + n / 64 % 64) * 64 + n % 64 = n := by omega
  unfold utf8Piece
  simp only [Bool.and_eq_true, decide_eq_true_eq, hsecond, and_self, ↓reduceIte]
  simp only [UInt8.lt_iff_toNat_lt, UInt8.le_iff_toNat_le, hbyte, UInt8.reduceToNat,
    isContinuation_ofNat, tailBits_ofNat, hvalue, ↓reduceIte]
  rw [if_neg (by omega), if_neg (by omega), if_pos (by omega)]

theorem utf8Piece_four {n : Nat} (hlow : 65536 ≤ n) (hhigh : n < 0x110000) (bs : Bytes) :
    utf8Piece (UInt8.ofNat (n / 262144 % 8 + 240))
        (UInt8.ofNat (n / 4096 % 64 + 128) :: UInt8.ofNat (n / 64 % 64 + 128) ::
          UInt8.ofNat (n % 64 + 128) :: bs) =
      ⟨some (Char.ofNat n), 3⟩ := by
  have hbyte := toNat_ofNat_of_lt (n := n / 262144 % 8 + 240) (by omega)
  have hsecond := second_of_four hlow hhigh
  have hvalue : (((n / 262144 % 8 + 240) % 8 * 64 + n / 4096 % 64) * 64 + n / 64 % 64) * 64 +
      n % 64 = n := by omega
  unfold utf8Piece
  simp only [Bool.and_eq_true, decide_eq_true_eq, hsecond, and_self, ↓reduceIte]
  simp only [UInt8.lt_iff_toNat_lt, UInt8.le_iff_toNat_le, hbyte, UInt8.reduceToNat,
    isContinuation_ofNat, tailBits_ofNat, hvalue, ↓reduceIte]
  rw [if_neg (by omega), if_neg (by omega), if_neg (by omega), if_pos (by omega)]

/-- The bytes of a character are read as one piece, which is the character. -/
theorem utf8PiecesFrom_encodeChar (c : Char) (bs : Bytes) :
    utf8PiecesFrom 0 (String.utf8EncodeChar c ++ bs) = some c :: utf8PiecesFrom 0 bs := by
  have hvalid : c.val.toNat < 0xD800 ∨ 0xDFFF < c.val.toNat ∧ c.val.toNat < 0x110000 := c.valid
  have hchar : Char.ofNat c.val.toNat = c := Char.ofNat_toNat c
  unfold String.utf8EncodeChar
  dsimp only
  split_ifs with hone htwo hthree
  · rw [List.singleton_append, utf8PiecesFrom, utf8Piece_one (by omega), hchar]
  · rw [List.cons_append, List.singleton_append, utf8PiecesFrom,
      utf8Piece_two (by omega) (by omega), hchar]
    rfl
  · simp only [List.cons_append, List.nil_append]
    rw [utf8PiecesFrom, utf8Piece_three (by omega) (by omega) (by omega), hchar]
    rfl
  · simp only [List.cons_append, List.nil_append]
    rw [utf8PiecesFrom, utf8Piece_four (by omega) (by omega), hchar]
    rfl

/-! ## Texts -/

/-- The pieces of encoded characters are the characters. -/
theorem utf8Pieces_encodeChars (cs : List Char) : utf8Pieces (encodeChars cs) = cs.map some := by
  induction cs with
  | nil => rfl
  | cons c cs ih =>
    rw [encodeChars, List.flatMap_cons, utf8Pieces, utf8PiecesFrom_encodeChar, List.map_cons]
    exact congrArg (List.cons (some c)) ih

/-- Strict decoding gives back the text that was encoded. -/
theorem decodeUtf8?_encodeUtf8 (s : String) : decodeUtf8? (encodeUtf8 s) = some s := by
  have hpieces : (s.toList.map some).mapM id = some s.toList := by
    induction s.toList with
    | nil => rfl
    | cons c cs ih =>
      rw [List.map_cons, List.mapM_cons, ih]
      rfl
  rw [decodeUtf8?, encodeUtf8, utf8Pieces_encodeChars, hpieces, Option.map_some,
    String.ofList_toList]

end LineQuery.Text
