import LineQuery.Proofs.Text.Utf8
import LineQuery.Text.Decimal
import LineQuery.Text.Lines
import Mathlib.Data.List.Basic

/-! # Lines that are written and read

Lines that are written one after another, each with a line feed behind it, are read as the same
lines, if there is no line feed in them and none of them ends in a carriage return. In the bytes of
a text a line feed or a carriage return is always that character, never a part of another one.
-/

namespace LineQuery.Text

/-! ## Any symbols -/

section Symbols

variable {α : Type} [DecidableEq α] {nl cr : α} {line front rest : List α}

/-- Symbols that are no line feeds are added to the line. -/
theorem splitLinesFrom_of_not_mem (h : nl ∉ line) (front rest : List α) :
    splitLinesFrom nl cr front (line ++ rest) =
      splitLinesFrom nl cr (line.reverse ++ front) rest := by
  induction line generalizing front with
  | nil => rfl
  | cons x line ih =>
    obtain ⟨hx, hline⟩ := List.ne_and_not_mem_of_not_mem_cons h
    rw [List.cons_append, splitLinesFrom, if_neg hx.symm, ih hline, List.reverse_cons,
      List.append_assoc, List.singleton_append]

/-- What stands before the first line feed is the first line. -/
theorem splitLinesFrom_append (h : nl ∉ line) :
    splitLinesFrom nl cr front (line ++ nl :: rest) =
      (dropReturn cr (line.reverse ++ front)).reverse :: splitLinesFrom nl cr [] rest := by
  rw [splitLinesFrom_of_not_mem h, splitLinesFrom, if_pos rfl]

/-- A line without a carriage return at its end. -/
def withoutReturn (cr : α) (line : List α) : List α :=
  if line.getLast? = some cr then line.dropLast else line

theorem reverse_dropReturn_reverse (line : List α) :
    (dropReturn cr line.reverse).reverse = withoutReturn cr line := by
  rcases List.eq_nil_or_concat line with rfl | ⟨front, last, rfl⟩
  · rfl
  · rw [List.concat_eq_append, withoutReturn, List.getLast?_concat, List.dropLast_concat,
      List.reverse_concat, dropReturn]
    by_cases hlast : last = cr
    · rw [if_pos hlast, if_pos (congrArg some hlast), List.reverse_reverse]
    · rw [if_neg hlast, if_neg (by simpa using hlast), List.reverse_cons, List.reverse_reverse]

/-- Lines are read as they were written. -/
theorem splitLines_flatMap {lines : List (List α)} (hnl : ∀ line ∈ lines, nl ∉ line)
    (hcr : ∀ line ∈ lines, line.getLast? ≠ some cr) :
    splitLines nl cr (lines.flatMap (· ++ [nl])) = lines := by
  induction lines with
  | nil => rfl
  | cons line lines ih =>
    obtain ⟨hfirst, hnl⟩ := List.forall_mem_cons.mp hnl
    obtain ⟨hlast, hcr⟩ := List.forall_mem_cons.mp hcr
    rw [List.flatMap_cons, List.append_assoc, List.singleton_append, splitLines,
      splitLinesFrom_append hfirst, List.append_nil, reverse_dropReturn_reverse, withoutReturn,
      if_neg hlast]
    exact congrArg (line :: ·) (ih hnl hcr)

end Symbols

/-! ## Bytes of texts -/

/-- A byte below 128 is a character of its own. -/
theorem eq_of_mem_encodeChar {c : Char} {b : UInt8} (hb : b ∈ String.utf8EncodeChar c)
    (hlow : b.toNat < 128) : c.toNat = b.toNat := by
  have hbyte : ∀ n < 256, b = UInt8.ofNat n → b.toNat = n := by
    intro n hn heq
    rw [heq, toNat_ofNat_of_lt hn]
  unfold String.utf8EncodeChar at hb
  dsimp only at hb
  split_ifs at hb with hone htwo hthree
  · have hvalue := hbyte _ (by omega) (List.mem_singleton.mp hb)
    exact hvalue.symm
  -- all bytes of a longer character are 128 or more
  · simp only [List.mem_cons, List.not_mem_nil, or_false] at hb
    rcases hb with h | h <;> have hvalue := hbyte _ (by omega) h <;> omega
  · simp only [List.mem_cons, List.not_mem_nil, or_false] at hb
    rcases hb with h | h | h <;> have hvalue := hbyte _ (by omega) h <;> omega
  · simp only [List.mem_cons, List.not_mem_nil, or_false] at hb
    rcases hb with h | h | h | h <;> have hvalue := hbyte _ (by omega) h <;> omega

theorem encodeChar_ne_nil (c : Char) : String.utf8EncodeChar c ≠ [] := by
  intro h
  have hlength := congrArg List.length h
  rw [String.length_utf8EncodeChar] at hlength
  exact absurd hlength (Nat.ne_of_gt c.utf8Size_pos)

theorem mem_of_mem_encodeUtf8 {s : String} {c : Char} {b : UInt8} (hb : b ∈ encodeUtf8 s)
    (hlow : b.toNat < 128) (hc : c.toNat = b.toNat) : c ∈ s.toList := by
  obtain ⟨c', hc', hmem⟩ := List.mem_flatMap.mp hb
  have hsame : c' = c := Char.toNat_inj.mp ((eq_of_mem_encodeChar hmem hlow).trans hc.symm)
  exact hsame ▸ hc'

/-- The last byte of a text is the last byte of its last character. -/
theorem getLast?_of_getLast?_encodeUtf8 {s : String} {c : Char} {b : UInt8}
    (hb : (encodeUtf8 s).getLast? = some b) (hlow : b.toNat < 128) (hc : c.toNat = b.toNat) :
    s.toList.getLast? = some c := by
  rw [encodeUtf8] at hb
  rcases List.eq_nil_or_concat s.toList with hnil | ⟨cs, last, hlast⟩
  · rw [hnil] at hb
    cases hb
  · rw [hlast] at hb ⊢
    rw [List.concat_eq_append] at hb ⊢
    have hsplit : encodeChars (cs ++ [last]) = encodeChars cs ++ String.utf8EncodeChar last := by
      simp [encodeChars]
    rw [hsplit, List.getLast?_append_of_ne_nil _ (encodeChar_ne_nil last)] at hb
    have hmem := List.mem_of_getLast? hb
    have hsame : last = c :=
      Char.toNat_inj.mp ((eq_of_mem_encodeChar hmem hlow).trans hc.symm)
    rw [List.getLast?_concat, hsame]

theorem newline_not_mem_encodeUtf8 {s : String} (h : '\n' ∉ s.toList) : 10 ∉ encodeUtf8 s := by
  intro hmem
  exact h (mem_of_mem_encodeUtf8 hmem (by decide) rfl)

theorem getLast?_encodeUtf8_ne_return {s : String} (h : s.toList.getLast? ≠ some '\r') :
    (encodeUtf8 s).getLast? ≠ some 13 := by
  intro hlast
  exact h (getLast?_of_getLast?_encodeUtf8 hlast (by decide) rfl)

/-- Texts that are written with line feeds behind them are read as the same lines. -/
theorem byteLines_flatMap {lines : List String} (hnl : ∀ line ∈ lines, '\n' ∉ line.toList)
    (hcr : ∀ line ∈ lines, line.toList.getLast? ≠ some '\r') :
    byteLines (lines.flatMap fun line => encodeUtf8 line ++ [10]) = lines.map encodeUtf8 := by
  have hbytes : (lines.flatMap fun line => encodeUtf8 line ++ [10]) =
      (lines.map encodeUtf8).flatMap (· ++ [10]) := by
    rw [List.flatMap_map]
  rw [hbytes, byteLines]
  refine splitLines_flatMap ?_ ?_
  · intro bytes hbytes
    obtain ⟨line, hline, rfl⟩ := List.mem_map.mp hbytes
    exact newline_not_mem_encodeUtf8 (hnl line hline)
  · intro bytes hbytes
    obtain ⟨line, hline, rfl⟩ := List.mem_map.mp hbytes
    exact getLast?_encodeUtf8_ne_return (hcr line hline)

/-! ## Numbers -/

theorem natText_injective {m n : Nat} (h : natText m = natText n) : m = n := by
  have hdigits : Nat.toDigits 10 m = Nat.toDigits 10 n := String.ofList_inj.mp h
  rw [← Nat.ofDigitChars_ten_toDigits (n := m), hdigits, Nat.ofDigitChars_ten_toDigits]

theorem not_mem_natText {c : Char} (h : c.isDigit = false) (n : Nat) : c ∉ (natText n).toList := by
  intro hmem
  rw [natText, String.toList_ofList] at hmem
  have hdigit : c.isDigit = true := Nat.isDigit_of_mem_toDigits (by decide) (by decide) hmem
  rw [h] at hdigit
  exact nomatch hdigit

theorem encodeUtf8_injective {s t : String} (h : encodeUtf8 s = encodeUtf8 t) : s = t := by
  have hdecoded := congrArg decodeUtf8? h
  rw [decodeUtf8?_encodeUtf8, decodeUtf8?_encodeUtf8] at hdecoded
  exact Option.some.inj hdecoded

end LineQuery.Text
