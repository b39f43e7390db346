import LineQuery.Digest.Fingerprint
import LineQuery.Proofs.Text.Utf8

/-! # Hexadecimal texts

The digits of a byte string are read as the same bytes. A text is read as some bytes exactly if it
is made of their digits, each in either case; so a fingerprint has one written form, but it is read
from others too.
-/

namespace LineQuery.Digest

open LineQuery.Text (Bytes)

/-! ## Digits that are written -/

/-- A digit is read back as the value that it was written for. -/
theorem hexValue?_hexDigit {n : Nat} (h : n < 16) : hexValue? (hexDigit n) = some n := by
  have hall : ∀ n : Fin 16, hexValue? (hexDigit n) = some n.val := by decide
  exact hall ⟨n, h⟩

/-- The digits of a byte string stand for it. -/
theorem readHex?_hexChars (bytes : Bytes) : readHex? (hexChars bytes) = some bytes := by
  induction bytes with
  | nil => rfl
  | cons b bytes ih =>
    have hhigh := hexValue?_hexDigit (n := b.toNat / 16) (by have := b.toNat_lt; omega)
    have hlow := hexValue?_hexDigit (n := b.toNat % 16) (by omega)
    have hbyte : UInt8.ofNat (16 * (b.toNat / 16) + b.toNat % 16) = b := by
      rw [Nat.div_add_mod, UInt8.ofNat_toNat]
    have hchars : hexChars (b :: bytes) =
        hexDigit (b.toNat / 16) :: hexDigit (b.toNat % 16) :: hexChars bytes := rfl
    rw [hchars, readHex?, hhigh, hlow, ih]
    exact congrArg (fun b => some (b :: bytes)) hbyte

theorem hexDigit_ne_slash {n : Nat} (h : n < 16) : '/' ≠ hexDigit n := by
  have hall : ∀ n : Fin 16, '/' ≠ hexDigit n := by decide
  exact hall ⟨n, h⟩

/-- A fingerprint that is written out is one part of a path. -/
theorem slash_not_mem_hexChars (bytes : Bytes) : '/' ∉ hexChars bytes := by
  intro hmem
  obtain ⟨b, -, hb⟩ := List.mem_flatMap.mp hmem
  rcases List.mem_cons.mp hb with hhigh | hlow
  · exact hexDigit_ne_slash (by have := b.toNat_lt; omega) hhigh
  · exact hexDigit_ne_slash (by omega) (List.mem_singleton.mp hlow)

theorem Fingerprint.eq_of_toList_bytes {f g : Fingerprint} (h : f.bytes.toList = g.bytes.toList) :
    f = g := by
  cases f
  cases g
  exact congrArg Fingerprint.mk (Vector.toList_inj.mp h)

/-- Different fingerprints are written differently. -/
theorem Fingerprint.toText_injective {f g : Fingerprint} (h : f.toText = g.toText) : f = g := by
  have hchars : hexChars f.bytes.toList = hexChars g.bytes.toList := by
    simpa [toText, hexText] using congrArg String.toList h
  have hbytes : some f.bytes.toList = some g.bytes.toList := by
    rw [← readHex?_hexChars, ← readHex?_hexChars, hchars]
  exact eq_of_toList_bytes (Option.some.inj hbytes)

/-! ## Digits that are read -/

/-- Reading a digit does not look at its case. -/
theorem hexValue?_toLower (c : Char) : hexValue? c.toLower = hexValue? c := by
  by_cases hlow : c.toNat < 128
  · have hall : ∀ n : Fin 128, hexValue? (Char.ofNat n).toLower = hexValue? (Char.ofNat n) := by
      decide +kernel
    have hc := hall ⟨c.toNat, hlow⟩
    rwa [Char.ofNat_toNat] at hc
  · have hsame : c.toLower = c := by
      refine dif_neg ?_
      rintro ⟨-, hz⟩
      have : c.toNat ≤ 90 := hz
      omega
    rw [hsame]

/-- What is read as a digit is that digit, in either case. -/
theorem toLower_of_hexValue? {c : Char} {n : Nat} (h : hexValue? c = some n) :
    n < 16 ∧ c.toLower = hexDigit n := by
  -- only ASCII characters are read, and over these both sides are tables
  have hlow : c.toNat < 128 := by
    unfold hexValue? at h
    simp only [Char.le_def, Bool.and_eq_true, decide_eq_true_eq, UInt32.le_iff_toNat_le] at h
    split_ifs at h with hdigit hsmall hlarge
    · have : c.toNat ≤ 57 := hdigit.2
      omega
    · have : c.toNat ≤ 102 := hsmall.2
      omega
    · have : c.toNat ≤ 70 := hlarge.2
      omega
  have hall : ∀ m : Fin 128, ∀ n ∈ hexValue? (Char.ofNat m),
      n < 16 ∧ (Char.ofNat m).toLower = hexDigit n := by decide +kernel
  have hc := hall ⟨c.toNat, hlow⟩ n
  rw [Char.ofNat_toNat] at hc
  exact hc h

/-- Letter case has no part in reading digits. -/
theorem readHex?_map_toLower (cs : List Char) : readHex? (cs.map Char.toLower) = readHex? cs := by
  induction cs using readHex?.induct with
  | case1 => rfl
  | case2 => rfl
  | case3 high low cs ih => simp only [List.map_cons, readHex?, hexValue?_toLower, ih]

theorem map_toLower_of_readHex? {cs : List Char} {bytes : Bytes} (h : readHex? cs = some bytes) :
    cs.map Char.toLower = hexChars bytes := by
  induction cs using readHex?.induct generalizing bytes with
  | case1 =>
    obtain rfl := Option.some.inj h
    rfl
  | case2 => exact nomatch h
  | case3 high low cs ih =>
    rw [readHex?] at h
    obtain ⟨x, hx, h⟩ := Option.bind_eq_some_iff.mp h
    obtain ⟨y, hy, h⟩ := Option.bind_eq_some_iff.mp h
    obtain ⟨rest, hrest, h⟩ := Option.bind_eq_some_iff.mp h
    obtain rfl := Option.some.inj h
    obtain ⟨hx, hhigh⟩ := toLower_of_hexValue? hx
    obtain ⟨hy, hlow⟩ := toLower_of_hexValue? hy
    have hbyte : hexByte (UInt8.ofNat (16 * x + y)) = [hexDigit x, hexDigit y] := by
      rw [hexByte, Text.toNat_ofNat_of_lt (by omega), show (16 * x + y) / 16 = x by omega,
        show (16 * x + y) % 16 = y by omega]
    have hchars : hexChars (UInt8.ofNat (16 * x + y) :: rest) =
        hexByte (UInt8.ofNat (16 * x + y)) ++ hexChars rest := rfl
    rw [List.map_cons, List.map_cons, hhigh, hlow, ih hrest, hchars, hbyte]
    rfl

/-- A text is read as some bytes exactly if it has their digits, each in either case. -/
theorem readHex?_eq_some_iff {cs : List Char} {bytes : Bytes} :
    readHex? cs = some bytes ↔ cs.map Char.toLower = hexChars bytes := by
  constructor
  · exact map_toLower_of_readHex?
  · intro h
    rw [← readHex?_map_toLower, h, readHex?_hexChars]

/-- Whatever is read as a fingerprint is how it is written, but for letter case. -/
theorem Fingerprint.read?_eq_some_iff {text : String} {f : Fingerprint} :
    read? text = some f ↔ text.toList.map Char.toLower = f.toText.toList := by
  rw [toText, hexText, String.toList_ofList, ← readHex?_eq_some_iff]
  unfold read?
  constructor
  · intro h
    obtain ⟨bytes, hbytes, h⟩ := Option.bind_eq_some_iff.mp h
    split at h
    · obtain rfl := Option.some.inj h
      exact hbytes
    · exact nomatch h
  · intro h
    have hlength : f.bytes.toList.length = 32 := Vector.length_toList
    rw [h, Option.bind_eq_bind, Option.bind_some, dif_pos hlength]
    rfl

end LineQuery.Digest
