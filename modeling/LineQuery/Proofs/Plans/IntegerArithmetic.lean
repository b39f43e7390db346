import LineQuery.Proofs.Plans.LazyCase
import Mathlib.Algebra.Ring.Int.Defs

/-! # Arithmetic that never wraps

An operator of two integers gives the exact result if 64 bits hold it, and an error otherwise. The
only quotient that 64 bits do not hold is the one of the least integer and -1, so quotients and
remainders are defined for the same operands, which can be put together from them again.
-/

namespace LineQuery

open LineQuery.Syntax (UnaryOp BinaryOp)

def InRange (n : Int) : Prop :=
  -2 ^ 63 ≤ n ∧ n < 2 ^ 63

/-- A result that is an integer. -/
def GivesInt (n : Int) (result : Except EvalError Value) : Prop :=
  ∃ m : Int64, m.toInt = n ∧ result = .ok (.int m)

/-- A result that is an error at a position. -/
def FailsSaying (message : String) (pos : Position) (result : Except EvalError Value) : Prop :=
  ∃ e, result = .error e ∧ e.fault.message = message ∧ e.pos = pos

/-- A result that is the integer `n` if 64 bits hold it, and an overflow otherwise. -/
def IsExact (n : Int) (pos : Position) (result : Except EvalError Value) : Prop :=
  (InRange n → GivesInt n result) ∧ (¬InRange n → FailsSaying "integer overflow" pos result)

/-! ## Quotients and remainders -/

section Division

variable {a b : Int}

/-- A remainder lies between zero and the dividend. -/
theorem tmod_between (a b : Int) : (0 ≤ a → 0 ≤ a.tmod b ∧ a.tmod b ≤ a) ∧
    (a ≤ 0 → a ≤ a.tmod b ∧ a.tmod b ≤ 0) := by
  have hle : (a.tmod b).natAbs ≤ a.natAbs := by
    rw [Int.natAbs_tmod]
    exact Nat.mod_le _ _
  constructor
  · intro ha
    have hsign := Int.tmod_nonneg b ha
    omega
  · intro ha
    have hsign := Int.tmod_nonneg b (Int.neg_nonneg_of_nonpos ha)
    rw [Int.neg_tmod] at hsign
    omega

theorem natAbs_tmod_lt (a : Int) (hb : b ≠ 0) : (a.tmod b).natAbs < b.natAbs := by
  rw [Int.natAbs_tmod]
  exact Nat.mod_lt _ (Int.natAbs_pos.mpr hb)

/-- A remainder is no larger than what it is the remainder of. -/
theorem inRange_tmod (ha : InRange a) (b : Int) : InRange (a.tmod b) := by
  obtain ⟨hpos, hneg⟩ := tmod_between a b
  unfold InRange at *
  omega

/-- What is left of the dividend without the remainder is no further from zero. -/
theorem inRange_tdiv_mul (ha : InRange a) (b : Int) : InRange (a.tdiv b * b) := by
  obtain ⟨hpos, hneg⟩ := tmod_between a b
  have hsum := Int.tdiv_mul_add_tmod a b
  unfold InRange at *
  omega

theorem tdiv_neg_one (a : Int) : a.tdiv (-1) = -a := by
  rw [Int.tdiv_neg, Int.tdiv_one]

/-- A quotient is no further from zero than the dividend, and by a divisor other than 1 and -1 it
is nearer. -/
theorem inRange_tdiv (ha : InRange a) (hb : b ≠ 0) (hleast : ¬(a = -2 ^ 63 ∧ b = -1)) :
    InRange (a.tdiv b) := by
  rcases (by omega : b = 1 ∨ b = -1 ∨ 2 ≤ b.natAbs) with rfl | rfl | htwo
  · rwa [Int.tdiv_one]
  · rw [tdiv_neg_one]
    unfold InRange at *
    omega
  · have hhalf : (a.tdiv b).natAbs ≤ a.natAbs / 2 := by
      rw [Int.natAbs_tdiv]
      exact Nat.div_le_div_left htwo (by decide)
    unfold InRange at *
    omega

end Division

/-! ## Checked results -/

theorem GivesInt.inRange {n : Int} {result : Except EvalError Value} (h : GivesInt n result) :
    InRange n := by
  obtain ⟨m, rfl, -⟩ := h
  exact ⟨m.le_toInt, m.toInt_lt⟩

theorem checked_of_inRange {n : Int} (h : InRange n) : checked n = .ok (.int (Int64.ofInt n)) := by
  have hbounds : -0x8000000000000000 ≤ n ∧ n < 0x8000000000000000 := h
  rw [checked, Text.toInt64?, if_pos hbounds]

/-- What 64 bits do not hold is an error, and no other number takes its place. -/
theorem checked_of_not_inRange {n : Int} (h : ¬InRange n) : checked n = .error .overflow := by
  have hbounds : ¬(-0x8000000000000000 ≤ n ∧ n < 0x8000000000000000) := h
  rw [checked, Text.toInt64?, if_neg hbounds]

/-- A checked number is exact. -/
theorem isExact_checked (n : Int) (pos : Position) :
    IsExact n pos (Eval.located pos (checked n)).result := by
  constructor
  · intro h
    rw [checked_of_inRange h]
    exact ⟨Int64.ofInt n, Int64.toInt_ofInt_of_le h.1 h.2, rfl⟩
  · intro h
    rw [checked_of_not_inRange h]
    exact ⟨_, rfl, rfl, rfl⟩

/-! ## Operators -/

section Operators

variable {row : Row} {left right : Node} {a b : Int}

/-- An operator of one operand that has a value. -/
theorem result_unary {op : UnaryOp} {v : Value} (h : (left.eval row).result = .ok v)
    (pos : Position) : ((Node.unary op left pos).eval row).result =
      (Eval.located pos (applyUnary op v)).result :=
  Traced.result_bind_of_ok h _

/-- An operator of two operands that have values, and that evaluates both. -/
theorem result_binary {op : BinaryOp} {v w : Value} (hop : deciding? op = none)
    (hleft : (left.eval row).result = .ok v) (hright : (right.eval row).result = .ok w)
    (pos : Position) : ((Node.binary op left right pos).eval row).result =
      (Eval.located pos (applyBinary op v w)).result := by
  rw [Node.eval, Traced.result_bind_of_ok hleft, hop]
  exact Traced.result_bind_of_ok hright _

theorem isExact_neg (hleft : GivesInt a (left.eval row).result) (pos : Position) :
    IsExact (-a) pos ((Node.unary .neg left pos).eval row).result := by
  obtain ⟨m, rfl, hm⟩ := hleft
  rw [result_unary hm]
  exact isExact_checked _ pos

/-- An operator that checks the integer that it makes of two integers. -/
theorem isExact_binary {op : BinaryOp} {c : Int} (hop : deciding? op = none)
    (happly : ∀ m n : Int64, m.toInt = a → n.toInt = b →
      applyBinary op (.int m) (.int n) = checked c)
    (hleft : GivesInt a (left.eval row).result) (hright : GivesInt b (right.eval row).result)
    (pos : Position) : IsExact c pos ((Node.binary op left right pos).eval row).result := by
  obtain ⟨m, hma, hm⟩ := hleft
  obtain ⟨n, hnb, hn⟩ := hright
  rw [result_binary hop hm hn, happly m n hma hnb]
  exact isExact_checked c pos

/-- An operator that refuses two integers. -/
theorem failsSaying_binary {op : BinaryOp} {fault : Fault} (hop : deciding? op = none)
    (happly : ∀ m n : Int64, m.toInt = a → n.toInt = b →
      applyBinary op (.int m) (.int n) = .error fault)
    (hleft : GivesInt a (left.eval row).result) (hright : GivesInt b (right.eval row).result)
    (pos : Position) :
    FailsSaying fault.message pos ((Node.binary op left right pos).eval row).result := by
  obtain ⟨m, hma, hm⟩ := hleft
  obtain ⟨n, hnb, hn⟩ := hright
  rw [result_binary hop hm hn, happly m n hma hnb]
  exact ⟨_, rfl, rfl, rfl⟩

theorem isExact_add (hleft : GivesInt a (left.eval row).result)
    (hright : GivesInt b (right.eval row).result) (pos : Position) :
    IsExact (a + b) pos ((Node.binary .add left right pos).eval row).result :=
  isExact_binary rfl (by rintro m n rfl rfl; rfl) hleft hright pos

theorem isExact_sub (hleft : GivesInt a (left.eval row).result)
    (hright : GivesInt b (right.eval row).result) (pos : Position) :
    IsExact (a - b) pos ((Node.binary .sub left right pos).eval row).result :=
  isExact_binary rfl (by rintro m n rfl rfl; rfl) hleft hright pos

theorem isExact_mul (hleft : GivesInt a (left.eval row).result)
    (hright : GivesInt b (right.eval row).result) (pos : Position) :
    IsExact (a * b) pos ((Node.binary .mul left right pos).eval row).result :=
  isExact_binary rfl (by rintro m n rfl rfl; rfl) hleft hright pos

theorem ne_zero_of_toInt {n : Int64} (hb : b ≠ 0) (hn : n.toInt = b) : n ≠ 0 := by
  rintro rfl
  exact hb (hn.symm.trans Int64.toInt_zero)

/-- Of all quotients only one overflows, and it is checked. -/
theorem isExact_div (hb : b ≠ 0) (hleft : GivesInt a (left.eval row).result)
    (hright : GivesInt b (right.eval row).result) (pos : Position) :
    IsExact (a.tdiv b) pos ((Node.binary .div left right pos).eval row).result := by
  refine isExact_binary rfl (fun m n hm hn => ?_) hleft hright pos
  subst hm hn
  exact if_neg (ne_zero_of_toInt hb rfl)

/-- The remainder of a division whose quotient 64 bits hold. -/
theorem isExact_rem (hb : b ≠ 0) (hquotient : InRange (a.tdiv b))
    (hleft : GivesInt a (left.eval row).result) (hright : GivesInt b (right.eval row).result)
    (pos : Position) :
    IsExact (a.tmod b) pos ((Node.binary .rem left right pos).eval row).result := by
  refine isExact_binary rfl (fun m n hm hn => ?_) hleft hright pos
  subst hm hn
  refine (if_neg (ne_zero_of_toInt hb rfl)).trans ?_
  rw [checked_of_inRange hquotient]
  rfl

/-- There is no remainder of a division whose quotient 64 bits do not hold. -/
theorem failsSaying_rem (hb : b ≠ 0) (hquotient : ¬InRange (a.tdiv b))
    (hleft : GivesInt a (left.eval row).result) (hright : GivesInt b (right.eval row).result)
    (pos : Position) : FailsSaying "integer overflow" pos
      ((Node.binary .rem left right pos).eval row).result := by
  show FailsSaying Fault.overflow.message pos _
  refine failsSaying_binary rfl (fun m n hm hn => ?_) hleft hright pos
  subst hm hn
  refine (if_neg (ne_zero_of_toInt hb rfl)).trans ?_
  rw [checked_of_not_inRange hquotient]
  rfl

/-- Nothing is divided by zero. -/
theorem failsSaying_zero {op : BinaryOp} (hop : op = .div ∨ op = .rem)
    (hleft : GivesInt a (left.eval row).result) (hright : GivesInt 0 (right.eval row).result)
    (pos : Position) : FailsSaying "division by zero" pos
      ((Node.binary op left right pos).eval row).result := by
  have hdeciding : deciding? op = none := by
    rcases hop with rfl | rfl <;> rfl
  show FailsSaying Fault.divisionByZero.message pos _
  refine failsSaying_binary hdeciding (fun m n _ hn => ?_) hleft hright pos
  obtain rfl : n = 0 := Int64.toInt_inj.mp hn
  rcases hop with rfl | rfl <;> rfl

/-- A quotient and a remainder make the dividend again, and none of the results on the way
overflows. -/
theorem givesInt_recombined (hb : b ≠ 0) (hquotient : InRange (a.tdiv b))
    (hleft : GivesInt a (left.eval row).result) (hright : GivesInt b (right.eval row).result)
    (p₁ p₂ p₃ p₄ : Position) :
    GivesInt a ((Node.binary .add (.binary .mul (.binary .div left right p₁) right p₂)
      (.binary .rem left right p₃) p₄).eval row).result := by
  have ha := hleft.inRange
  have hdiv := (isExact_div hb hleft hright p₁).1 hquotient
  have hmul := (isExact_mul hdiv hright p₂).1 (inRange_tdiv_mul ha b)
  have hrem := (isExact_rem hb hquotient hleft hright p₃).1 (inRange_tmod ha b)
  have hadd := (isExact_add hmul hrem p₄).1
  rw [Int.tdiv_mul_add_tmod] at hadd
  exact hadd ha

/-- Sums, differences, products and opposites are exact or overflow. Quotients and remainders exist
for the same operands: the divisor is not zero, and the operands are not the least integer and -1.
They are rounded toward zero, and make the dividend again. -/
theorem integer_arithmetic_never_wraps (hleft : GivesInt a (left.eval row).result)
    (hright : GivesInt b (right.eval row).result) :
    (∀ pos, IsExact (a + b) pos ((Node.binary .add left right pos).eval row).result ∧
      IsExact (a - b) pos ((Node.binary .sub left right pos).eval row).result ∧
      IsExact (a * b) pos ((Node.binary .mul left right pos).eval row).result ∧
      IsExact (-a) pos ((Node.unary .neg left pos).eval row).result) ∧
    (∀ op ∈ [BinaryOp.div, .rem], ∀ pos,
      (b = 0 → FailsSaying "division by zero" pos
        ((Node.binary op left right pos).eval row).result) ∧
      (a = -2 ^ 63 ∧ b = -1 → FailsSaying "integer overflow" pos
        ((Node.binary op left right pos).eval row).result)) ∧
    (b ≠ 0 → ¬(a = -2 ^ 63 ∧ b = -1) → ∃ q r,
      (∀ pos, GivesInt q ((Node.binary .div left right pos).eval row).result ∧
        GivesInt r ((Node.binary .rem left right pos).eval row).result) ∧
      q = a.tdiv b ∧ q * b + r = a ∧ r.natAbs < b.natAbs ∧ (0 ≤ a → 0 ≤ r) ∧ (a ≤ 0 → r ≤ 0) ∧
      ∀ p₁ p₂ p₃ p₄, GivesInt a ((Node.binary .add
        (.binary .mul (.binary .div left right p₁) right p₂)
        (.binary .rem left right p₃) p₄).eval row).result) := by
  refine ⟨fun pos => ⟨?_, ?_, ?_, ?_⟩, fun op hop pos => ⟨?_, ?_⟩, fun hb hleast => ?_⟩
  · exact isExact_add hleft hright pos
  · exact isExact_sub hleft hright pos
  · exact isExact_mul hleft hright pos
  · exact isExact_neg hleft pos
  · rintro rfl
    exact failsSaying_zero (by simpa using hop) hleft hright pos
  · rintro ⟨rfl, rfl⟩
    -- the only quotient that 64 bits do not hold
    have hquotient : ¬InRange ((-2 ^ 63 : Int).tdiv (-1)) := by
      rw [tdiv_neg_one]
      unfold InRange
      omega
    rcases List.mem_pair.mp hop with rfl | rfl
    · exact (isExact_div (by decide) hleft hright pos).2 hquotient
    · exact failsSaying_rem (by decide) hquotient hleft hright pos
  · have ha := hleft.inRange
    have hquotient := inRange_tdiv ha hb hleast
    obtain ⟨hpos, hneg⟩ := tmod_between a b
    refine ⟨a.tdiv b, a.tmod b, fun pos => ⟨?_, ?_⟩, rfl, Int.tdiv_mul_add_tmod a b,
      natAbs_tmod_lt a hb, fun h => (hpos h).1, fun h => (hneg h).2, fun p₁ p₂ p₃ p₄ => ?_⟩
    · exact (isExact_div hb hleft hright pos).1 hquotient
    · exact (isExact_rem hb hquotient hleft hright pos).1 (inRange_tmod ha b)
    · exact givesInt_recombined hb hquotient hleft hright p₁ p₂ p₃ p₄

end Operators

/-- The least integer has no quotient by -1, and is made of its quotient and remainder by 3. -/
theorem integer_arithmetic_never_wraps_at_least :
    let least := Node.const (.int Int64.minValue) ⟨1, 24⟩
    let minusOne := Node.const (.int (-1)) ⟨1, 47⟩
    let three := Node.const (.int 3) ⟨1, 47⟩
    (∀ op ∈ [BinaryOp.div, .rem], ∀ pos, FailsSaying "integer overflow" pos
      ((Node.binary op least minusOne pos).eval []).result) ∧
    ∀ p₁ p₂ p₃ p₄, GivesInt (-2 ^ 63) ((Node.binary .add
      (.binary .mul (.binary .div least three p₁) three p₂)
      (.binary .rem least three p₃) p₄).eval []).result := by
  intro least minusOne three
  have hleast : GivesInt (-2 ^ 63) (least.eval []).result := ⟨Int64.minValue, rfl, rfl⟩
  have hminusOne : GivesInt (-1) (minusOne.eval []).result := ⟨-1, rfl, rfl⟩
  have hthree : GivesInt 3 (three.eval []).result := ⟨3, rfl, rfl⟩
  obtain ⟨-, hfails, -⟩ := integer_arithmetic_never_wraps hleast hminusOne
  obtain ⟨-, -, hdivides⟩ := integer_arithmetic_never_wraps hleast hthree
  obtain ⟨q, r, -, -, -, -, -, -, hrecombined⟩ := hdivides (by decide) (by decide)
  exact ⟨fun op hop pos => (hfails op hop pos).2 ⟨rfl, rfl⟩, hrecombined⟩

end LineQuery
