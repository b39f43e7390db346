import LineQuery.Builtin.Apply

/-! # Arguments of calls

A function looks for an argument only among the least number that it takes, or after it has
seen that there are more. A call with as many arguments as its function takes therefore
never fails for an argument that is not there.
-/

namespace LineQuery.Builtin

/-- A result that is no failure for an argument that is not there. -/
def Finds {α : Type} (x : Except CallError α) : Prop :=
  ∀ f i, x ≠ .error (.missing f i)

namespace Finds

variable {α β : Type}

theorem ok (a : α) : Finds (.ok a) :=
  nofun

/-- A step that finds its arguments, and one that does behind it, find them together. -/
theorem bind {x : Except CallError α} {next : α → Except CallError β} (h : Finds x)
    (hnext : ∀ a, Finds (next a)) : Finds (x >>= next) := by
  cases x with
  | ok a => exact hnext a
  | error e =>
    intro f i heq
    exact h f i (congrArg _ (Except.error.inj heq))

end Finds

/-! ## Looking for arguments -/

variable {f : Builtin} {args : List Value} {i : Nat}

theorem mismatch_ne_missing (h : i < args.length) (expected : Value.Kind) (g : Builtin)
    (j : Nat) : f.mismatch expected args i ≠ .missing g j := by
  rw [mismatch, List.getElem?_eq_getElem h]
  exact nofun

/-- An argument that is there is found. -/
theorem finds_anyArg (h : i < args.length) : Finds (f.anyArg args i) := by
  rw [anyArg, List.getElem?_eq_getElem h]
  exact .ok _

theorem finds_strArg (h : i < args.length) : Finds (f.strArg args i) := by
  intro g j heq
  unfold strArg at heq
  split at heq
  · exact nomatch heq
  · exact mismatch_ne_missing h .string g j (Except.error.inj heq)

theorem finds_intArg (h : i < args.length) : Finds (f.intArg args i) := by
  intro g j heq
  unfold intArg at heq
  split at heq
  · exact nomatch heq
  · exact mismatch_ne_missing h .int g j (Except.error.inj heq)

theorem finds_boolArg (h : i < args.length) : Finds (f.boolArg args i) := by
  intro g j heq
  unfold boolArg at heq
  split at heq
  · exact nomatch heq
  · exact mismatch_ne_missing h .bool g j (Except.error.inj heq)

theorem finds_listArg (h : i < args.length) : Finds (f.listArg args i) := by
  intro g j heq
  unfold listArg at heq
  split at heq
  · exact nomatch heq
  · exact mismatch_ne_missing h .list g j (Except.error.inj heq)

/-! ## Results -/

theorem finds_toInt (v : Value) : Finds (toInt v) := by
  intro g j heq
  unfold toInt at heq
  split at heq
  · exact nomatch heq
  · split at heq <;> exact nomatch heq
  · exact nomatch heq

theorem finds_length (v : Value) : Finds (length v) := by
  intro g j heq
  unfold length at heq
  split at heq <;> exact nomatch heq

theorem finds_difference (a b : Int64) : Finds (difference a b) := by
  intro g j heq
  unfold difference at heq
  split at heq <;> exact nomatch heq

/-- Numbers out of range are reported, but no argument is missed. -/
theorem finds_checkStart (length : Nat) (start : Int64) : Finds (checkStart length start) := by
  intro g j heq
  unfold checkStart at heq
  split at heq <;> exact nomatch heq

/-- A count is looked for only in a call that has a third argument. -/
theorem finds_countArg (args : List Value) (length : Nat) (start : Int64) :
    Finds (countArg args length start) := by
  unfold countArg
  split
  · exact finds_difference _ _
  · exact finds_intArg (by omega)

theorem finds_checkCount (length : Nat) (start count : Int64) :
    Finds (checkCount length start count) := by
  unfold checkCount
  split
  · exact nofun
  · refine (finds_difference _ _).bind fun left => ?_
    split <;> exact nofun

theorem isSome_chooseFrom (v : Value) : ∀ {items : List Value}, items ≠ [] →
    ∃ result, chooseFrom v items = some result
  | [], h => absurd rfl h
  | [default], _ => ⟨default, rfl⟩
  | [_, default], _ => ⟨default, rfl⟩
  | key :: result :: third :: rest, _ => by
    rw [chooseFrom]
    · by_cases h : key = v
      · exact ⟨result, if_pos h⟩
      · rw [if_neg h]
        exact isSome_chooseFrom v (List.cons_ne_nil _ _)
    · exact nofun

/-- `case` has a default to fall back on, if it has its arguments. -/
theorem finds_choose (h : 2 ≤ args.length) : Finds (choose args) := by
  match args, h with
  | v :: first :: rest, _ =>
    obtain ⟨result, hresult⟩ := isSome_chooseFrom v (List.cons_ne_nil first rest)
    rw [choose, hresult]
    exact .ok _

/-- A call with the least number of arguments or more finds all that it looks for. -/
theorem finds_apply (h : f.least ≤ args.length) : Finds (f.apply args) := by
  cases f with
  | str | single => exact (finds_anyArg h).bind fun _ => .ok _
  | int => exact (finds_anyArg h).bind finds_toInt
  | len => exact (finds_anyArg h).bind finds_length
  | error =>
    refine (finds_boolArg (Nat.lt_of_succ_lt h)).bind fun cond => ?_
    refine (finds_strArg h).bind fun message => ?_
    cases cond <;> exact nofun
  | warn =>
    refine (finds_boolArg (Nat.lt_of_succ_lt h)).bind fun cond => ?_
    exact (finds_strArg h).bind fun _ => .ok _
  | getOr =>
    have h' : 2 < args.length := h
    -- The default is looked for only if the list has no such item.
    refine (finds_listArg (by omega)).bind fun items => ?_
    refine (finds_intArg (by omega)).bind fun i => ?_
    cases itemAt? items i with
    | some v => exact .ok _
    | none => exact finds_anyArg h
  | case => exact finds_choose (Nat.le_trans (by decide) h)
  | upper | lower | trim | splitTab | decodeTab | encodeTab =>
    exact (finds_strArg h).bind fun _ => .ok _
  | split =>
    refine (finds_strArg (Nat.lt_of_succ_lt h)).bind fun s => ?_
    refine (finds_strArg h).bind fun sep => ?_
    cases sep <;> exact nofun
  | join =>
    refine (finds_listArg (Nat.lt_of_succ_lt h)).bind fun items => ?_
    exact (finds_strArg h).bind fun _ => .ok _
  | replace =>
    have h' : 2 < args.length := h
    refine (finds_strArg (by omega)).bind fun s => ?_
    refine (finds_strArg (by omega)).bind fun old => ?_
    refine (finds_strArg h).bind fun new => ?_
    cases old <;> exact nofun
  | contains | startsWith | endsWith =>
    refine (finds_strArg (Nat.lt_of_succ_lt h)).bind fun s => ?_
    exact (finds_strArg h).bind fun _ => .ok _
  | substr =>
    refine (finds_strArg (Nat.lt_of_succ_lt h)).bind fun s => ?_
    refine (finds_intArg h).bind fun start => ?_
    refine (finds_checkStart s.length start).bind fun _ => ?_
    refine (finds_countArg args s.length start).bind fun count => ?_
    exact (finds_checkCount s.length start count).bind fun _ => .ok _
  | joinTab => exact (finds_listArg h).bind fun _ => .ok _

/-- A call that the resolver accepts has no fewer arguments than its function needs. -/
theorem least_le_of_accepts {count : Nat} (h : f.accepts count = true) : f.least ≤ count := by
  rw [accepts, Bool.and_eq_true, Bool.and_eq_true] at h
  exact of_decide_eq_true h.1.1

/-- A call with as many arguments as its function takes never fails for an argument that is
not there. -/
theorem apply_ne_missing (h : f.accepts args.length = true) (g : Builtin) (j : Nat) :
    f.apply args ≠ .error (.missing g j) :=
  finds_apply (least_le_of_accepts h) g j

end LineQuery.Builtin
