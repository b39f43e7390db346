import LineQuery.Text.Decimal

/-! # Numerals

What is written for an integer is read as that integer.
-/

namespace LineQuery.Text

theorem isDigit_of_mem_showNat {n : Nat} {c : Char} (h : c ∈ showNat n) : isDigit c = true :=
  Nat.isDigit_of_mem_toDigits (by decide) (by decide) h

theorem showNat_ne_nil (n : Nat) : showNat n ≠ [] :=
  Nat.toDigits_ne_nil

/-- A greater number takes no fewer digits. -/
theorem length_showNat_le {m n : Nat} (h : m ≤ n) : (showNat m).length ≤ (showNat n).length := by
  have hpos : 0 < (showNat n).length := List.length_pos_iff.mpr (showNat_ne_nil n)
  have hbound := (Nat.length_toDigits_le_iff (by decide) hpos).mp (Nat.le_refl (showNat n).length)
  exact (Nat.length_toDigits_le_iff (by decide) hpos).mpr (Nat.lt_of_le_of_lt h hbound)

theorem readDigits_eq_some : ∀ {cs : List Char} (acc : Nat), (∀ c ∈ cs, isDigit c = true) →
    readDigits acc cs = some (Nat.ofDigitChars 10 cs acc)
  | [], _, _ => rfl
  | c :: cs, acc, h => by
    obtain ⟨hc, hcs⟩ := List.forall_mem_cons.mp h
    rw [readDigits, if_pos hc, readDigits_eq_some _ hcs, Nat.ofDigitChars_cons, Nat.mul_comm]

theorem readNat?_showNat (n : Nat) : readNat? (showNat n) = some n := by
  have hread := readDigits_eq_some 0 fun c => isDigit_of_mem_showNat (n := n)
  cases hdigits : showNat n with
  | nil => exact absurd hdigits (showNat_ne_nil n)
  | cons c cs =>
    rw [readNat?, ← hdigits, hread, showNat, Nat.ofDigitChars_ten_toDigits]
    exact nofun

/-- A numeral without a sign is read as a number. -/
theorem readInt?_showNat (n : Nat) : readInt? (showNat n) = some (n : Int) := by
  have hread := readNat?_showNat n
  cases hdigits : showNat n with
  | nil => exact absurd hdigits (showNat_ne_nil n)
  | cons c cs =>
    have hc : isDigit c = true := isDigit_of_mem_showNat (hdigits ▸ List.mem_cons_self)
    rw [hdigits] at hread
    rw [readInt?, hread]
    · rfl
    · rintro _ ⟨⟩
      exact absurd hc (by decide)
    · rintro _ ⟨⟩
      exact absurd hc (by decide)

theorem mem_showInt {n : Int} {c : Char} (h : c ∈ showInt n) : c = '-' ∨ isDigit c = true := by
  unfold showInt at h
  split at h
  · exact (List.mem_cons.mp h).imp_right isDigit_of_mem_showNat
  · exact .inr (isDigit_of_mem_showNat h)

/-- A negative integer is written as a minus sign and what it is below zero. -/
theorem showInt_of_neg {n : Int} (h : n < 0) : showInt n = '-' :: showInt (-n) := by
  rw [showInt, if_pos h, showInt, if_neg (by omega), Int.natAbs_neg]

theorem readInt?_showInt (n : Int) : readInt? (showInt n) = some n := by
  unfold showInt
  split
  · rename_i hneg
    have habs : -(n.natAbs : Int) = n := by omega
    rw [readInt?, readNat?_showNat]
    exact congrArg some habs
  · rename_i hneg
    have habs : (n.natAbs : Int) = n := by omega
    rw [readInt?_showNat, habs]

/-- What is written for an integer of 64 bits is read as it. -/
theorem readInt64?_showInt (n : Int64) : readInt64? (showInt n.toInt) = some n := by
  have hbounds : -0x8000000000000000 ≤ n.toInt ∧ n.toInt < 0x8000000000000000 :=
    ⟨n.le_toInt, n.toInt_lt⟩
  rw [readInt64?, readInt?_showInt, Option.bind_some, toInt64?, if_pos hbounds, Int64.ofInt_toInt]

end LineQuery.Text
