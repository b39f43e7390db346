import LineQuery.Proofs.Plans.IntegerArithmetic
import LineQuery.Proofs.Runs.Selecting

/-! # Integers and their texts

The text of an integer is read back as the integer: by the function `int`, and as an expression. A
minus sign in an expression is an operator, and the digits behind it are a literal of their own. So
the least integer is not written as an expression: its digits alone are too large.
-/

namespace LineQuery

open LineQuery.Syntax
open LineQuery.Text (intText)

namespace Text

/-! ## Texts of integers -/

theorem isBlank_of_isDigit {c : Char} (h : isDigit c = true) : isBlank c = false := by
  obtain ⟨hlow, hhigh⟩ := Bool.and_eq_true_iff.mp h
  have hlow : 48 ≤ c.toNat := UInt32.le_iff_toNat_le.mp (of_decide_eq_true hlow)
  have hhigh : c.toNat ≤ 57 := UInt32.le_iff_toNat_le.mp (of_decide_eq_true hhigh)
  unfold isBlank
  generalize c.toNat = n at hlow hhigh
  simp
  omega

theorem dropWhile_of_not_isBlank {cs : List Char} (h : ∀ c ∈ cs, isBlank c = false) :
    cs.dropWhile isBlank = cs := by
  cases cs with
  | nil => rfl
  | cons c cs => rw [List.dropWhile_cons, h c List.mem_cons_self, if_neg Bool.false_ne_true]

/-- There are no blanks around the text of an integer. -/
theorem trim_showInt (n : Int) : trim (showInt n) = showInt n := by
  have hblank : ∀ c ∈ showInt n, isBlank c = false := by
    intro c hc
    rcases mem_showInt hc with rfl | hdigit
    · decide
    · exact isBlank_of_isDigit hdigit
  have hbackwards : ∀ c ∈ (showInt n).reverse, isBlank c = false :=
    fun c hc => hblank c (List.mem_reverse.mp hc)
  rw [trim, dropWhile_of_not_isBlank hblank, trimEnd, dropWhile_of_not_isBlank hbackwards,
    List.reverse_reverse]

/-- The text of an integer is written between quotes as it is. -/
theorem quotedBody_showInt (n : Int) : quotedBody (showInt n) = showInt n := by
  refine quotedBody_of_plain fun c hc => ?_
  rcases mem_showInt hc with rfl | hdigit
  · decide
  · have hothers : ∀ c ∈ ['\\', '\t', '\n', '\r', '"'], isDigit c = false := by
      simp [isDigit]
    intro hmem
    rw [hothers c hmem] at hdigit
    cases hdigit

end Text

/-! ## The function that reads integers -/

theorem Builtin.apply_int_str (s : String) :
    Builtin.int.apply [.str s] = Builtin.toInt (.str s) :=
  rfl

/-- The function `int` reads what is written for an integer. -/
theorem Builtin.apply_int_intText (n : Int64) :
    Builtin.int.apply [.str (intText n.toInt)] = .ok (.int n) := by
  rw [Builtin.apply_int_str, Builtin.toInt, intText, String.toList_ofList, Text.trim_showInt,
    Text.readInt64?_showInt]

/-- A query that calls `int` with the text of an integer. -/
theorem yields_of_intText (n : Int64) :
    (Program.selecting ("int(\"" ++ intText n.toInt ++ "\")")).Yields (.int n) := by
  let e : Expr := .call ⟨"int", nowhere⟩ [.str (intText n.toInt) nowhere] nowhere
  have htext : e.text = "int(\"" ++ intText n.toInt ++ "\")" := by
    rw [← String.toList_inj, Expr.text]
    simp [e, Expr.written, Expr.writtenAll, Text.quoted, intText, Text.quotedBody_showInt,
      String.toList_ofList]
  have hwritable : e.Writable :=
    ⟨⟨⟨'i', ['n', 't'], rfl, by decide, by decide⟩, by decide⟩, trivial, trivial⟩
  have hclosed : e.Closed :=
    ⟨rfl, List.forall_mem_singleton.mpr ⟨.int, rfl, by decide, rfl⟩⟩
  have hvalue : e.HasValue (.int n) :=
    (Expr.hasValue_str _ nowhere).call rfl (by decide) (Builtin.apply_int_intText n) rfl
  exact htext ▸ Expr.yields_selecting hwritable hclosed hvalue

/-! ## Literals -/

/-- An integer that is not negative is written as a literal. -/
theorem yields_of_nonneg {n : Int64} (h : 0 ≤ n.toInt) :
    (Program.selecting (intText n.toInt)).Yields (.int n) :=
  Expr.yields_selecting (e := .int n nowhere) h ⟨rfl, List.forall_mem_nil _⟩
    (Expr.hasValue_int n nowhere)

/-- Only the least integer cannot be negated. -/
theorem toInt_neg_of_ne_minValue {n : Int64} (h : n ≠ Int64.minValue) :
    (-n).toInt = -n.toInt := by
  have hleast : n.toInt ≠ -2 ^ 63 := fun heq => h (Int64.toInt_inj.mp heq)
  have hlow := n.le_toInt
  have hhigh := n.toInt_lt
  rw [Int64.toInt_neg]
  exact Int.bmod_eq_of_le (by omega) (by omega)

/-- A negative integer is written as a minus sign and a literal, if that fits. -/
theorem yields_of_neg {n : Int64} (h : n.toInt < 0) (hleast : n ≠ Int64.minValue) :
    (Program.selecting (intText n.toInt)).Yields (.int n) := by
  -- the digits are those of a literal only if the integer without its sign is in range
  have hneg : (-n).toInt = -n.toInt := toInt_neg_of_ne_minValue hleast
  let e : Expr := .unary .neg (.int (-n) nowhere) nowhere
  have htext : e.text = intText n.toInt := by
    show String.ofList ('-' :: Text.showInt (-n).toInt) = _
    rw [hneg, ← Text.showInt_of_neg h, intText]
  have hwritable : e.Writable := by
    show 0 ≤ (-n).toInt
    omega
  have hminus : applyUnary .neg (.int (-n)) = .ok (.int n) := by
    show checked (-(-n).toInt) = _
    rw [hneg, Int.neg_neg, checked_of_inRange ⟨n.le_toInt, n.toInt_lt⟩, Int64.ofInt_toInt]
  exact htext ▸ Expr.yields_selecting hwritable ⟨rfl, List.forall_mem_nil _⟩
    ((Expr.hasValue_int (-n) nowhere).unary hminus nowhere)

/-- The digits of the least integer are too large for a literal. -/
theorem compile_selecting_minValue :
    ∃ diagnostics, compile (Program.selecting (intText Int64.minValue.toInt)) = .error diagnostics ∧
      diagnostics.map (·.message) = ["integer literal `9223372036854775808` is too large"] := by
  have hcompile : (match compile (Program.selecting (intText Int64.minValue.toInt)) with
      | .error diagnostics => diagnostics.map (·.message)
      | .ok _ => []) = ["integer literal `9223372036854775808` is too large"] := by
    decide +kernel
  cases herror : compile (Program.selecting (intText Int64.minValue.toInt)) with
  | error diagnostics => exact ⟨diagnostics, rfl, by rwa [herror] at hcompile⟩
  | ok c =>
    rw [herror] at hcompile
    cases hcompile

/-! ## Both ways back -/

/-- The text of an integer is read as the integer by the function `int`. As an expression it has the
integer for its value too, except for the least integer, for which the program is refused. -/
theorem integers_read_back (n : Int64) :
    (Program.selecting ("int(\"" ++ intText n.toInt ++ "\")")).Yields (.int n) ∧
    (n ≠ Int64.minValue → (Program.selecting (intText n.toInt)).Yields (.int n)) ∧
    (n = Int64.minValue → ∃ diagnostics,
      compile (Program.selecting (intText n.toInt)) = .error diagnostics ∧
      diagnostics.map (·.message) = ["integer literal `9223372036854775808` is too large"]) := by
  refine ⟨yields_of_intText n, fun hleast => ?_, ?_⟩
  · rcases Int.lt_or_le n.toInt 0 with hneg | hpos
    · exact yields_of_neg hneg hleast
    · exact yields_of_nonneg hpos
  · rintro rfl
    exact compile_selecting_minValue

/-- The two least integers: the one is read back, the digits of the other are refused. -/
theorem integers_read_back_least :
    ((-9223372036854775807 : Int64) ≠ Int64.minValue ∧
      (Program.selecting (intText (-9223372036854775807 : Int64).toInt)).Yields
        (.int (-9223372036854775807))) ∧
    ∃ diagnostics, compile (Program.selecting (intText Int64.minValue.toInt)) = .error diagnostics ∧
      diagnostics.map (·.message) = ["integer literal `9223372036854775808` is too large"] :=
  ⟨⟨by decide, (integers_read_back (-9223372036854775807)).2.1 (by decide)⟩,
    (integers_read_back Int64.minValue).2.2 rfl⟩

/-- The least integer is not what its own text selects. -/
theorem minValue_not_read_back : intText Int64.minValue.toInt = "-9223372036854775808" ∧
    ¬ (Program.selecting (intText Int64.minValue.toInt)).Yields (.int Int64.minValue) := by
  refine ⟨by decide, ?_⟩
  rintro ⟨c, -, hcompile, -⟩
  obtain ⟨diagnostics, herror, -⟩ := compile_selecting_minValue
  rw [herror] at hcompile
  cases hcompile

end LineQuery
