import LineQuery.Proofs.Plans.IntegerArithmetic
import LineQuery.Proofs.Runs.Reference
import LineQuery.Proofs.Scoping.Lowering
import Mathlib.Data.List.Nodup
import Mathlib.Data.String.Basic

/-! # Rows that agree with environments

Values are shown, and operators and indexes have the results, that the reference says they do.

A row agrees with an environment if each name in scope has the value of its slot. A new name
takes a slot that no name in scope has, so setting it keeps what agreed before. Where a row
and an environment agree, a node has the value of the expression that it stands for, and it
fails with the same fault at the same position.
-/

namespace LineQuery

open LineQuery.Syntax (Ident Expr FromClause Clause UnaryOp BinaryOp)

/-! ## Values -/

theorem Text.intText_eq (n : Int) : intText n = toString n := by
  cases n with
  | ofNat n => rfl
  | negSucc n =>
    have hneg : Int.negSucc n < 0 := Int.negSucc_lt_zero n
    have htext : toString (Int.negSucc n) = "-" ++ String.ofList (showNat (n + 1)) := rfl
    rw [intText, showInt, if_pos hneg, Int.natAbs_negSucc, htext, String.ofList_cons]
    rfl

namespace Value

mutual

theorem display_eq : (v : Value) → v.display = v.shown
  | .str _ => rfl
  | .int n => Text.intText_eq n.toInt
  | .bool true => rfl
  | .bool false => rfl
  | .list items => by rw [display, shown, intercalate_displays items]

theorem intercalate_displays : (vs : List Value) →
    ", ".intercalate (displays vs) = shownItems vs
  | [] => rfl
  | [v] => by rw [displays, displays, String.intercalate_singleton, shownItems, display_eq v]
  | v :: w :: vs => by
    rw [displays, displays, String.intercalate_cons_cons, ← displays,
      intercalate_displays (w :: vs), shownItems, display_eq v]

end

/-- A selected value is written on the lines that it is selected as. -/
theorem outputLines_eq (v : Value) : outputLines v = v.lines := by
  cases v with
  | list items => exact List.map_congr_left fun v _ => v.display_eq
  | _ => exact congrArg (fun text => [text]) (display_eq _)

theorem itemAt?_eq {α : Type} (items : List α) (i : Int64) :
    Builtin.itemAt? items i = if 0 ≤ i.toInt then items[i.toInt.toNat]? else none := by
  have hsign : i < 0 ↔ i.toInt < 0 := Int64.lt_iff_toInt_lt
  rw [Builtin.itemAt?]
  by_cases h : i.toInt < 0
  · rw [if_pos (hsign.mpr h), if_neg (Int.not_le.mpr h)]
  · rw [if_neg (mt hsign.mp h), if_pos (Int.not_lt.mp h)]

/-- Indexing asks for an integer first. -/
theorem at?_eq (v i : Value) : v.at? i = asIndex i >>= indexValue v := by
  cases i with
  | int i =>
    cases v with
    | list items =>
      show _ = indexValue (.list items) i
      rw [indexValue, itemAt?_eq, at?]
      split <;> rfl
    | str s =>
      show _ = indexValue (.str s) i
      rw [indexValue, itemAt?_eq, at?]
      split <;> rfl
    | _ => rfl
  | _ => cases v <;> rfl

theorem checked_eq (n : Int) : checked n = fitted n := by
  have hleast : Int64.minValue.toInt = -0x8000000000000000 := rfl
  have hgreatest : Int64.maxValue.toInt = 0x7fffffffffffffff := rfl
  rw [checked, Text.toInt64?, fitted, hleast, hgreatest]
  by_cases h : -0x8000000000000000 ≤ n ∧ n < 0x8000000000000000
  · rw [if_pos h, if_pos (by omega)]
  · rw [if_neg h, if_neg (by omega)]

end Value

/-! ## Operators -/

theorem applyUnary_eq (op : UnaryOp) (v : Value) : applyUnary op v = op.result v := by
  cases op with
  | not =>
    cases v with
    | bool b => cases b <;> rfl
    | _ => rfl
  | neg =>
    cases v with
    | int n => exact Value.checked_eq _
    | _ => rfl

theorem holds_compare {α : Type} [LinearOrder α] (op : BinaryOp) (a b : α) :
    holds op (compare a b) = op.compares a b := by
  rw [Bool.eq_iff_iff]
  cases op with
  | lt => simp only [holds, BinaryOp.compares, beq_iff_eq, compare_lt_iff_lt, decide_eq_true_iff]
  | le => simp only [holds, BinaryOp.compares, bne_iff_ne, compare_le_iff_le, decide_eq_true_iff]
  | gt => simp only [holds, BinaryOp.compares, beq_iff_eq, compare_gt_iff_gt, decide_eq_true_iff]
  | _ => simp only [holds, BinaryOp.compares, bne_iff_ne, compare_ge_iff_ge, decide_eq_true_iff]

theorem compareValues_int (op : BinaryOp) (a b : Int64) :
    compareValues op (.int a) (.int b) = .ok (.bool (op.compares a.toInt b.toInt)) := by
  rw [compareValues, holds_compare]

theorem compareValues_str (op : BinaryOp) (a b : String) :
    compareValues op (.str a) (.str b) = .ok (.bool (op.compares a b)) := by
  rw [compareValues, holds_compare]

/-- The only quotient that 64 bits do not hold is that of the least integer and -1. -/
theorem arithmetic_rem (a b : Int64) :
    arithmetic .rem (.int a) (.int b) = BinaryOp.rem.calculate a b := by
  have ha : InRange a.toInt := ⟨a.le_toInt, a.toInt_lt⟩
  show (if b = 0 then _ else (checked _).bind _) = if b = 0 then _ else _
  split
  · rfl
  · rename_i hb
    have hb' : b.toInt ≠ 0 := fun h => hb (Int64.toInt_inj.mp h)
    split
    · rename_i hleast
      obtain ⟨rfl, rfl⟩ := hleast
      rfl
    · rename_i hleast
      have hleast' : ¬(a.toInt = -2 ^ 63 ∧ b.toInt = -1) := fun h =>
        hleast ⟨Int64.toInt_inj.mp h.1, Int64.toInt_inj.mp h.2⟩
      rw [checked_of_inRange (inRange_tdiv ha hb' hleast'),
        checked_of_inRange (inRange_tmod ha b.toInt)]
      rfl

/-- An operator that asks for both its operands has the result of the reference. -/
theorem applyBinary_eq {op : BinaryOp} (hop : deciding? op = none) (a b : Value) :
    applyBinary op a b = op.result a b := by
  cases op with
  | or | and => cases hop
  | eq | ne => rfl
  | lt | le | gt | ge =>
    cases a <;> cases b <;>
      first | rfl | exact compareValues_int _ _ _ | exact compareValues_str _ _ _
  | add =>
    cases a <;> cases b <;> first
      | rfl
      | exact Value.checked_eq _
      | exact congrArg (fun text => Except.ok (Value.str (_ ++ text))) (Value.display_eq _)
      | exact congrArg (fun text => Except.ok (Value.str (text ++ _))) (Value.display_eq _)
  | sub | mul =>
    cases a <;> cases b <;> first | rfl | exact Value.checked_eq _
  | div =>
    cases a <;> cases b <;> first | rfl | exact if_congr Iff.rfl rfl (Value.checked_eq _)
  | rem =>
    cases a <;> cases b <;> first | rfl | exact arithmetic_rem _ _

/-! ## Rows and environments -/

/-- A row of `slots` values in which each of the names `bound` has the value of its slot. -/
structure Agrees (bound : List String) (slots : Nat) (row : Row) (env : Env) : Prop where
  length : row.length = slots
  values : ∀ {i x}, bound[i]? = some x → env x = some (row.slot i)

/-- A new name takes the next slot. -/
theorem Agrees.bind {bound : List String} {slots : Nat} {row : Row} {env : Env} {x : String}
    (h : Agrees bound slots row env) (hx : x ∉ bound) (hslots : bound.length < slots)
    (v : Value) : Agrees (bound ++ [x]) slots (row.set bound.length v) (env.bind x v) := by
  refine ⟨by rw [List.length_set, h.length], fun {i y} hy => ?_⟩
  -- An older name, the new one, or none.
  rcases Nat.lt_trichotomy i bound.length with hlt | rfl | hgt
  · rw [List.getElem?_append_left hlt] at hy
    have hne : y ≠ x := fun heq => hx (heq ▸ List.mem_of_getElem? hy)
    rw [Env.bind, if_neg hne, h.values hy, Row.slot, Row.slot, List.getElem?_set_ne (by omega)]
  · rw [List.getElem?_concat_length, Option.some.injEq] at hy
    rw [Env.bind, if_pos hy.symm, Row.slot, List.getElem?_set_self (h.length ▸ hslots)]
    rfl
  · rw [List.getElem?_eq_none (by simp; omega)] at hy
    cases hy

/-! ## Expressions -/

namespace Eval

variable {α β : Type}

/-- The value of a computation or the error it halts with. -/
def outcome (x : Eval α) : Except Halt α :=
  x.result.mapError fun e => .error (.eval e)

theorem outcome_bind (x : Eval α) (f : α → Eval β) :
    (x >>= f).outcome = x.outcome >>= fun a => (f a).outcome := by
  obtain ⟨warnings, result⟩ := x
  cases result <;> rfl

theorem outcome_located (pos : Position) (x : Except Fault α) :
    (located pos x).outcome = Halt.located pos x := by
  cases x <;> rfl

theorem located_bind (pos : Position) (x : Except Fault α) (f : α → Except Fault β) :
    Halt.located pos (x >>= f) = Halt.located pos x >>= fun a => Halt.located pos (f a) := by
  cases x <;> rfl

theorem outcome_callValue (f : Builtin) (args : List Value) (pos : Position) :
    (callValue f args pos).outcome = Halt.located pos ((f.apply args).mapError .call) := by
  unfold callValue
  cases f.apply args <;> rfl

end Eval

variable {ctx : ScopeContext} {bound : List String} {slots : Nat} {row : Row} {env : Env}

theorem eval_call {f : Builtin} (h : f ≠ .case) (args : List Node) (pos : Position) :
    Node.eval row (.call f args pos) = Node.evalAll row args >>= fun vs => callValue f vs pos := by
  cases f <;> first
    | exact absurd rfl h
    | rfl

section

variable {pos : Span → Position} {id : Ident} {span : Span}

theorem value_call {f : Builtin} (hf : Builtin.ofName? id.name = some f) (h : f ≠ .case)
    (args : List Expr) : Expr.value pos env (.call id args span) =
      Expr.values pos env args >>= fun vs =>
        Halt.located (pos span) ((f.apply vs).mapError .call) := by
  unfold Expr.value
  simp only [hf]

theorem value_case (hf : Builtin.ofName? id.name = some .case) (arg : Expr) (rest : List Expr) :
    Expr.value pos env (.call id (arg :: rest) span) =
      Expr.value pos env arg >>= fun v => Expr.chosen pos env v rest := by
  rw [Expr.value, hf]

end

mutual

/-- A node has the value of the expression it stands for. -/
theorem outcome_eval (ha : Agrees bound slots row env) {e : Expr} {node : Node} :
    Lowers ctx bound e node → (node.eval row).outcome = e.value ctx.userPosition env
  | .int => rfl
  | .str => rfl
  | .bool => rfl
  | .name h => by
    rw [Node.eval, Expr.value, ha.values h]
    rfl
  | .list h => by
    rw [Node.eval, Expr.value, Eval.outcome_bind, outcome_evalAll ha h]
    rfl
  | .unary h => by
    rw [Node.eval, Expr.value, Eval.outcome_bind, outcome_eval ha h]
    simp only [Eval.outcome_located, applyUnary_eq]
  | @Lowers.binary _ _ op _ _ _ _ _ hl hr => by
    rw [Node.eval, Expr.value, Eval.outcome_bind, outcome_eval ha hl]
    congr 1
    funext a
    -- The right operand is evaluated only if the left one does not decide.
    cases op with
    | or | and =>
      cases a with
      | bool a =>
        cases a <;> first
          | rfl
          | simp only [deciding?, reduceCtorEq, if_false, Eval.outcome_bind, outcome_eval ha hr]
            congr 1
            funext b
            cases b <;> rfl
      | _ => rfl
    | _ =>
      simp only [deciding?, Eval.outcome_bind, outcome_eval ha hr, Eval.outcome_located]
      refine bind_congr fun b => ?_
      rw [applyBinary_eq rfl]
  | .index hb hp => by
    rw [Node.eval, Expr.value, Eval.outcome_bind, outcome_eval ha hb]
    simp only [Eval.outcome_bind, outcome_eval ha hp, Eval.outcome_located, Value.at?_eq,
      Eval.located_bind]
  | @Lowers.call _ _ _ args _ _ f hf haccepts hargs => by
    by_cases hcase : f = .case
    · subst hcase
      match args, hargs with
      | arg :: rest, .cons h hrest =>
        -- An even number of arguments, at least four, leaves an odd number behind the first.
        have hodd : rest.length % 2 = 1 := by
          simp [Builtin.accepts, Builtin.least, Builtin.most?] at haccepts
          omega
        cases hrest with
        | nil => exact absurd hodd (by simp)
        | cons hfirst hrest =>
          rw [value_case hf, Node.eval, Node.evalCase, Eval.outcome_bind, outcome_eval ha h]
          congr 1
          funext v
          exact outcome_evalChoice ha (.cons hfirst hrest) hodd
    · rw [eval_call hcase, value_call hf hcase, Eval.outcome_bind, outcome_evalAll ha hargs]
      simp only [Eval.outcome_callValue]

theorem outcome_evalAll (ha : Agrees bound slots row env) {es : List Expr}
    {nodes : List Node} : LowersAll ctx bound es nodes →
      (Node.evalAll row nodes).outcome = Expr.values ctx.userPosition env es
  | .nil => rfl
  | .cons h hs => by
    rw [Node.evalAll, Expr.values, Eval.outcome_bind, outcome_eval ha h]
    simp only [Eval.outcome_bind, outcome_evalAll ha hs]
    rfl

/-- An odd number of nodes behind the value of a `case` choose as their expressions do. -/
theorem outcome_evalChoice (ha : Agrees bound slots row env) {pos : Position} {v : Value}
    {es : List Expr} {nodes : List Node} : LowersAll ctx bound es nodes → es.length % 2 = 1 →
      (Node.evalChoice row pos v nodes).outcome = Expr.chosen ctx.userPosition env v es
  | .nil, hodd => absurd hodd (by simp)
  | .cons h .nil, _ => outcome_eval ha h
  | .cons _ (.cons _ .nil), hodd => absurd hodd (by simp)
  | .cons hkey (.cons hresult (@LowersAll.cons _ _ e es _ _ h hs)), hodd => by
    rw [Node.evalChoice, Expr.chosen, Eval.outcome_bind, outcome_eval ha hkey]
    have hodd' : (e :: es).length % 2 = 1 := by
      simp at hodd ⊢
      omega
    have hrest : (Node.evalChoice row pos v _).outcome = Expr.chosen ctx.userPosition env v _ :=
      outcome_evalChoice ha (.cons h hs) hodd'
    congr 1
    funext k
    by_cases hk : k = v
    · simp only [hk, ↓reduceIte]
      exact outcome_eval ha hresult
    · simp only [hk, ↓reduceIte]
      exact hrest

end

theorem outcome_evalItems (ha : Agrees bound slots row env) {e : Expr} {node : Node}
    (h : Lowers ctx bound e node) :
    (evalItems row node).outcome = e.items ctx.userPosition env := by
  rw [evalItems, Expr.items, Eval.outcome_bind, outcome_eval ha h, ← h.pos_eq]
  congr 1
  funext v
  cases v <;> rfl

theorem outcome_evalCondition (ha : Agrees bound slots row env) {e : Expr} {node : Node}
    (h : Lowers ctx bound e node) :
    (evalCondition row node).outcome = e.holds ctx.userPosition env := by
  rw [evalCondition, Expr.holds, Eval.outcome_bind, outcome_eval ha h, ← h.pos_eq]
  congr 1
  funext v
  cases v <;> rfl

theorem outcome_evalCount (ha : Agrees bound slots row env) {e : Expr} {node : Node}
    (h : Lowers ctx bound e node) (clause : CountClause) :
    (evalCount clause none row node).outcome = e.count ctx.userPosition clause env := by
  rw [evalCount, Expr.count, Eval.outcome_bind, outcome_eval ha h, ← h.pos_eq]
  congr 1
  funext v
  cases v with
  | int n =>
    dsimp only
    split <;> rfl
  | _ => rfl

/-! ## Binding clauses -/

/-- The slots of the names of a `from` take an item and its index. -/
theorem Agrees.extend (ha : Agrees bound slots row env) {clause : FromClause}
    (hnew : (bound ++ clause.binders).Nodup) (hslots : (bound ++ clause.binders).length ≤ slots)
    (item : Value) (i : Nat) :
    Agrees (bound ++ clause.binders) slots
      (Row.setIndex (row.set bound.length item) (clause.index.map fun _ => bound.length + 1) i)
      (clause.extend env item i) := by
  unfold FromClause.binders at *
  have hvar : clause.var.name ∉ bound := fun hmem =>
    List.disjoint_of_nodup_append hnew hmem (List.mem_cons_self ..)
  have hfits : bound.length < slots := by
    simp only [List.length_append, List.length_cons] at hslots
    omega
  have hitem := ha.bind hvar hfits item
  unfold FromClause.extend
  cases hindex : clause.index with
  | none => exact hitem
  | some id =>
    simp only [hindex, Option.map_some, Option.toList_some] at hnew hslots ⊢
    rw [List.append_cons] at hnew ⊢
    -- the index is bound behind the variable, so its name has to be new there
    have hid : id.name ∉ bound ++ [clause.var.name] := fun hmem =>
      List.disjoint_of_nodup_append hnew hmem (List.mem_singleton_self _)
    have hfits' : (bound ++ [clause.var.name]).length < slots := by
      simp only [List.length_append, List.length_cons, List.length_nil] at hslots ⊢
      omega
    have hboth := hitem.bind hid hfits' (.int (Int64.ofNat i))
    rw [List.length_append] at hboth
    exact hboth

/-- Names that take the next slots one after another and one value. -/
theorem Agrees.bindAll {v : Value} : ∀ (names : List String) {bound : List String} {row : Row}
    {env : Env}, Agrees bound slots row env → (bound ++ names).Nodup →
      (bound ++ names).length ≤ slots →
      Agrees (bound ++ names) slots
        ((List.range' bound.length names.length).foldl (fun row slot => row.set slot v) row)
        (names.foldl (fun env x => env.bind x v) env)
  | [], bound, row, env, ha, _, _ => by rwa [List.append_nil]
  | x :: names, bound, row, env, ha, hnew, hslots => by
    rw [List.append_cons] at hnew hslots ⊢
    have hx : x ∉ bound := fun hmem =>
      List.disjoint_of_nodup_append hnew.of_append_left hmem (List.mem_singleton_self _)
    have hfits : bound.length < slots := by
      simp only [List.length_append, List.length_cons, List.length_nil] at hslots
      omega
    have hrest := Agrees.bindAll (v := v) names (ha.bind hx hfits v) hnew hslots
    rw [List.length_append] at hrest
    exact hrest

end LineQuery
