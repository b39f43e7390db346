import LineQuery.Plan.Eval
import Mathlib.Data.List.Basic

/-!
# What a `case` evaluates

The evaluator goes through the arguments of `case` as it needs them, and the function of that
name chooses among values that are all there. Where there are values for all arguments both come
to the same one. Which arguments the evaluator does look at is told by their places: the value,
the keys up to the first one that equals it, and the one result that this chooses. The others may
be anything.
-/

namespace LineQuery

/-! ## Computations one after the other -/

section Traced

variable {ε α β γ : Type}

theorem Traced.bind_of_ok {x : Traced ε α} {a : α} (hx : x.result = .ok a)
    (next : α → Traced ε β) : x >>= next = x >>= fun _ => next a := by
  obtain ⟨warnings, result⟩ := x
  cases hx
  rfl

theorem Traced.result_bind_of_ok {x : Traced ε α} {a : α} (hx : x.result = .ok a)
    (next : α → Traced ε β) : (x >>= next).result = (next a).result := by
  obtain ⟨warnings, result⟩ := x
  cases hx
  rfl

/-- Nothing is evaluated behind an error. -/
theorem Traced.bind_of_error {x : Traced ε α} {e : ε} (hx : x.result = .error e)
    (next : α → Traced ε α) : x >>= next = x := by
  obtain ⟨warnings, result⟩ := x
  cases hx
  rfl

theorem Traced.bind_bind (x : Traced ε α) (f : α → Traced ε β) (g : β → Traced ε γ) :
    x >>= f >>= g = x >>= fun a => f a >>= g := by
  obtain ⟨warnings, result⟩ := x
  cases result with
  | error e => rfl
  | ok a =>
    cases hf : (f a).result <;> simp [Bind.bind, Traced.bind, hf]

theorem Traced.pure_bind (a : α) (next : α → Traced ε β) : pure a >>= next = next a :=
  rfl

end Traced

namespace Node

variable {row : Row} {args args' : List Node} {v : Value} {n : Nat}

/-- Expressions are evaluated one after the other. -/
theorem evalAll_concat {α : Type} (nodes : List Node) (node : Node) (next : Eval α) :
    (do let _ ← evalAll row (nodes ++ [node]); next) =
      (do let _ ← evalAll row nodes; let _ ← eval row node; next) := by
  induction nodes with
  | nil => simp only [List.nil_append, evalAll, Traced.bind_bind, Traced.pure_bind]
  | cons first nodes ih =>
    simp only [List.cons_append, evalAll, Traced.bind_bind, Traced.pure_bind, ih]

/-! ## The arguments of a `case` -/

/-- The number of keys, each with a result behind it, between the value and the default. -/
def pairCount (args : List Node) : Nat :=
  (args.length - 2) / 2

def keyPlace (i : Nat) : Nat :=
  2 * i + 1

def resultPlace (i : Nat) : Nat :=
  2 * i + 2

/-- The places of the value and of the first `n` keys, in the order of the arguments. -/
def placesBefore (n : Nat) : List Nat :=
  0 :: (List.range n).map keyPlace

/-- The arguments at some places. -/
def pick (args : List Node) (places : List Nat) : List Node :=
  places.filterMap (args[·]?)

theorem placesBefore_succ (n : Nat) : placesBefore (n + 1) = placesBefore n ++ [keyPlace n] := by
  simp [placesBefore, List.range_succ]

theorem pick_concat {node : Node} {i : Nat} (hnode : args[i]? = some node) (places : List Nat) :
    pick args (places ++ [i]) = pick args places ++ [node] := by
  simp [pick, List.filterMap_append, hnode]

/-- What begins at a key is the key, its result, and all that begins at the next key. -/
theorem exists_pair (hn : n < pairCount args) : ∃ key result third rest,
    args[keyPlace n]? = some key ∧ args[resultPlace n]? = some result ∧
    args.drop (keyPlace n) = key :: result :: third :: rest ∧
    args.drop (keyPlace (n + 1)) = third :: rest := by
  have hlength : keyPlace n + 2 < args.length := by
    unfold pairCount at hn
    unfold keyPlace
    omega
  refine ⟨args[keyPlace n], args[keyPlace n + 1], args[keyPlace n + 2], args.drop (keyPlace n + 3),
    List.getElem?_eq_getElem _, List.getElem?_eq_getElem _, ?_, ?_⟩
  · rw [List.drop_eq_getElem_cons (by omega), List.drop_eq_getElem_cons (i := keyPlace n + 1)
      (by omega), List.drop_eq_getElem_cons (i := keyPlace n + 1 + 1) (by omega)]
  · exact List.drop_eq_getElem_cons hlength

/-- Behind the pairs stands the default, with no more than a key without a result before it. -/
theorem exists_default (hargs : 2 ≤ args.length) : ∃ node,
    args[args.length - 1]? = some node ∧
    (args.drop (keyPlace (pairCount args)) = [node] ∨
      ∃ key, args.drop (keyPlace (pairCount args)) = [key, node]) := by
  have hlength : (args.drop (keyPlace (pairCount args))).length = 1 ∨
      (args.drop (keyPlace (pairCount args))).length = 2 := by
    simp only [List.length_drop, keyPlace, pairCount]
    omega
  have hlast : (args.drop (keyPlace (pairCount args))).getLast? = args[args.length - 1]? := by
    rw [List.getLast?_drop, if_neg, List.getLast?_eq_getElem?]
    simp only [keyPlace, pairCount]
    omega
  rcases hlength with h | h
  · obtain ⟨node, hdrop⟩ := List.length_eq_one_iff.mp h
    refine ⟨node, ?_, .inl hdrop⟩
    rw [← hlast, hdrop]
    rfl
  · obtain ⟨key, node, hdrop⟩ := List.length_eq_two.mp h
    refine ⟨node, ?_, .inr ⟨key, hdrop⟩⟩
    rw [← hlast, hdrop]
    rfl

/-! ## The arguments that are evaluated -/

/-- The argument at a place evaluates to `v`. -/
def YieldsAt (row : Row) (args : List Node) (i : Nat) (v : Value) : Prop :=
  ∃ node, args[i]? = some node ∧ (node.eval row).result = .ok v

/-- The argument at a place fails. -/
def BreaksAt (row : Row) (args : List Node) (i : Nat) : Prop :=
  ∃ node e, args[i]? = some node ∧ (node.eval row).result = .error e

/-- The value of a `case` is `v`, and its first `n` keys are other values. -/
structure Passes (row : Row) (args : List Node) (v : Value) (n : Nat) : Prop where
  value : YieldsAt row args 0 v
  keys : ∀ i < n, ∃ k, YieldsAt row args (keyPlace i) k ∧ k ≠ v

/-- The places of the arguments that a `case` evaluates in a row: some that only decide what
comes next, and the last one, whose outcome is that of the `case`. -/
inductive Consults (row : Row) (args : List Node) : List Nat → Nat → Prop
  /-- The value fails. -/
  | value : BreaksAt row args 0 → Consults row args [] 0
  /-- A key fails before one has equalled the value. -/
  | key {v : Value} {n : Nat} : Passes row args v n → n < pairCount args →
      BreaksAt row args (keyPlace n) → Consults row args (placesBefore n) (keyPlace n)
  /-- A key equals the value and chooses its result. -/
  | result {v : Value} {n : Nat} : Passes row args v n → n < pairCount args →
      YieldsAt row args (keyPlace n) v →
      Consults row args (placesBefore (n + 1)) (resultPlace n)
  /-- No key equals the value. -/
  | default {v : Value} : Passes row args v (pairCount args) →
      Consults row args (placesBefore (pairCount args)) (args.length - 1)

/-- An argument that is there has a value or an error. -/
theorem yields_or_breaks (row : Row) {i : Nat} {node : Node} (hnode : args[i]? = some node) :
    (∃ v, YieldsAt row args i v) ∨ BreaksAt row args i := by
  cases h : (node.eval row).result with
  | ok v => exact .inl ⟨v, node, hnode, h⟩
  | error e => exact .inr ⟨node, e, hnode, h⟩

/-- A key that differs from the value is passed. -/
theorem Passes.succ {k : Value} (h : Passes row args v n) (hk : YieldsAt row args (keyPlace n) k)
    (hne : k ≠ v) : Passes row args v (n + 1) where
  value := h.value
  keys i hi := by
    rcases Nat.lt_succ_iff_lt_or_eq.mp hi with hi | rfl
    · exact h.keys i hi
    · exact ⟨k, hk, hne⟩

/-- From each key that is reached, the arguments that are evaluated are settled. -/
theorem Passes.exists_consults (h : Passes row args v n) (hn : n ≤ pairCount args) :
    ∃ places last, Consults row args places last := by
  obtain ⟨left, hleft⟩ := Nat.exists_eq_add_of_le hn
  induction left generalizing n with
  | zero =>
    obtain rfl : n = pairCount args := hleft.symm
    exact ⟨_, _, .default h⟩
  | succ left ih =>
    have hlt : n < pairCount args := by omega
    obtain ⟨key, -, -, -, hkey, -⟩ := exists_pair hlt
    rcases yields_or_breaks row hkey with ⟨k, hk⟩ | hbreaks
    · by_cases heq : k = v
      · exact ⟨_, _, .result h hlt (heq ▸ hk)⟩
      · exact ih (h.succ hk heq) (by omega) (by omega)
    · exact ⟨_, _, .key h hlt hbreaks⟩

/-- Whatever its arguments are, `case` consults some of them, up to one that decides. -/
theorem exists_consults (row : Row) (hargs : 2 ≤ args.length) :
    ∃ places last, Consults row args places last := by
  rcases yields_or_breaks row (List.getElem?_eq_getElem (l := args) (i := 0) (by omega)) with
    ⟨v, hv⟩ | hbreaks
  · exact Passes.exists_consults ⟨hv, fun i hi => absurd hi (Nat.not_lt_zero i)⟩ (Nat.zero_le _)
  · exact ⟨_, _, .value hbreaks⟩

/-! ## The outcome -/

/-- `case` evaluates its value once, before any key. -/
theorem evalCase_of_value {value : Node} (hargs : 2 ≤ args.length) (hvalue : args[0]? = some value)
    (pos : Position) : evalCase row pos args =
      (do let v ← eval row value; evalChoice row pos v (args.drop (keyPlace 0))) := by
  match args, hargs, hvalue with
  | _ :: _ :: _, _, rfl => rfl

/-- A `case` that has passed some keys has evaluated them and goes on at the next one. -/
theorem Passes.evalCase (h : Passes row args v n) (hargs : 2 ≤ args.length)
    (hn : n ≤ pairCount args) (pos : Position) : evalCase row pos args =
      (do let _ ← evalAll row (pick args (placesBefore n))
          evalChoice row pos v (args.drop (keyPlace n))) := by
  induction n with
  | zero =>
    obtain ⟨value, hvalue, hv⟩ := h.value
    have hpick : pick args (placesBefore 0) = [] ++ [value] := pick_concat hvalue []
    rw [evalCase_of_value hargs hvalue, Traced.bind_of_ok hv, hpick, evalAll_concat]
    rfl
  | succ n ih =>
    obtain ⟨k, ⟨key, hkey, hk⟩, hne⟩ := h.keys n n.lt_succ_self
    obtain ⟨key', result, third, rest, hkey', -, hdrop, hnext⟩ := exists_pair hn
    obtain rfl : key = key' := Option.some.inj (hkey.symm.trans hkey')
    have hbefore : Passes row args v n := ⟨h.value, fun i hi => h.keys i (Nat.lt_succ_of_lt hi)⟩
    -- the key is evaluated, and as it is not the value the rest is gone through
    have hstep : evalChoice row pos v (key :: result :: third :: rest) =
        (do let _ ← eval row key; evalChoice row pos v (third :: rest)) := by
      rw [evalChoice, Traced.bind_of_ok hk, if_neg hne]
    rw [ih hbefore (Nat.le_of_succ_le hn), hdrop, hstep, placesBefore_succ, pick_concat hkey,
      evalAll_concat, hnext]

/-- A `case` evaluates the arguments it consults, from the left, and no other. -/
theorem Consults.evalCase {places : List Nat} {last : Nat} (h : Consults row args places last)
    (hargs : 2 ≤ args.length) (pos : Position) : ∃ node, args[last]? = some node ∧
      evalCase row pos args = (do let _ ← evalAll row (pick args places); eval row node) := by
  cases h with
  | value hbreaks =>
    obtain ⟨value, e, hvalue, he⟩ := hbreaks
    refine ⟨value, hvalue, ?_⟩
    rw [evalCase_of_value hargs hvalue, Traced.bind_of_error he]
    rfl
  | key hpasses hlt hbreaks =>
    obtain ⟨key, e, hkey, he⟩ := hbreaks
    obtain ⟨key', result, third, rest, hkey', -, hdrop, -⟩ := exists_pair hlt
    obtain rfl : key = key' := Option.some.inj (hkey.symm.trans hkey')
    refine ⟨key, hkey, ?_⟩
    rw [hpasses.evalCase hargs (Nat.le_of_lt hlt), hdrop, evalChoice, Traced.bind_of_error he]
  | result hpasses hlt hyields =>
    obtain ⟨key, hkey, hk⟩ := hyields
    obtain ⟨key', result, third, rest, hkey', hresult, hdrop, -⟩ := exists_pair hlt
    -- the result behind the first equal key is the last argument that is looked at
    obtain rfl : key = key' := Option.some.inj (hkey.symm.trans hkey')
    refine ⟨result, hresult, ?_⟩
    rw [hpasses.evalCase hargs (Nat.le_of_lt hlt), hdrop, evalChoice, Traced.bind_of_ok hk,
      if_pos rfl, placesBefore_succ, pick_concat hkey, evalAll_concat]
  | default hpasses =>
    obtain ⟨node, hnode, hdrop⟩ := exists_default hargs
    refine ⟨node, hnode, ?_⟩
    rw [hpasses.evalCase hargs (Nat.le_refl _)]
    rcases hdrop with hdrop | ⟨key, hdrop⟩ <;> rw [hdrop, evalChoice]

/-! ## Other arguments -/

theorem YieldsAt.congr {i : Nat} (h : YieldsAt row args i v) (hat : args'[i]? = args[i]?) :
    YieldsAt row args' i v := by
  obtain ⟨node, hnode, hv⟩ := h
  exact ⟨node, hat.trans hnode, hv⟩

theorem BreaksAt.congr {i : Nat} (h : BreaksAt row args i) (hat : args'[i]? = args[i]?) :
    BreaksAt row args' i := by
  obtain ⟨node, e, hnode, he⟩ := h
  exact ⟨node, e, hat.trans hnode, he⟩

theorem zero_mem_placesBefore (n : Nat) : 0 ∈ placesBefore n :=
  List.mem_cons_self

theorem keyPlace_mem_placesBefore {i : Nat} (hi : i < n) : keyPlace i ∈ placesBefore n :=
  List.mem_cons_of_mem _ (List.mem_map_of_mem (List.mem_range.mpr hi))

/-- Which keys are passed depends on the keys that are evaluated alone. -/
theorem Passes.congr (h : Passes row args v n)
    (hat : ∀ i ∈ placesBefore n, args'[i]? = args[i]?) : Passes row args' v n where
  value := h.value.congr (hat 0 (zero_mem_placesBefore n))
  keys i hi := by
    obtain ⟨k, hk, hne⟩ := h.keys i hi
    exact ⟨k, hk.congr (hat _ (keyPlace_mem_placesBefore hi)), hne⟩

/-- As many arguments with the same ones where a `case` consults them are consulted alike. -/
theorem Consults.congr {places : List Nat} {last : Nat} (h : Consults row args places last)
    (hlength : args'.length = args.length)
    (hat : ∀ i ∈ places ++ [last], args'[i]? = args[i]?) : Consults row args' places last := by
  have hcount : pairCount args' = pairCount args := by rw [pairCount, hlength, pairCount]
  obtain ⟨hplaces, hlast⟩ := List.forall_mem_append.mp hat
  have hlast := hlast last (List.mem_singleton_self last)
  cases h with
  | value hbreaks => exact .value (hbreaks.congr hlast)
  | key hpasses hlt hbreaks =>
    exact .key (hpasses.congr hplaces) (hcount ▸ hlt) (hbreaks.congr hlast)
  | @result v n hpasses hlt hyields =>
    have hbefore : ∀ i ∈ placesBefore n, args'[i]? = args[i]? := fun i hi =>
      hplaces i (placesBefore_succ n ▸ List.mem_append_left _ hi)
    have hkey := hplaces _ (keyPlace_mem_placesBefore n.lt_succ_self)
    exact .result (hpasses.congr hbefore) (hcount ▸ hlt) (hyields.congr hkey)
  | default hpasses =>
    have hpasses' := hpasses.congr hplaces
    rw [← hcount] at hpasses' ⊢
    rw [← hlength]
    exact .default hpasses'

/-! ## Values for all arguments -/

theorem evalAll_cons_eq_ok {node : Node} {nodes : List Node} {vs : List Value}
    (h : (evalAll row (node :: nodes)).result = .ok vs) : ∃ v rest, vs = v :: rest ∧
      (eval row node).result = .ok v ∧ (evalAll row nodes).result = .ok rest := by
  simp only [evalAll, bind, Traced.bind, pure, Traced.of] at h
  cases hv : (eval row node).result with
  | error e => simp [hv] at h
  | ok v =>
    cases hrest : (evalAll row nodes).result with
    | error e => simp [hv, hrest] at h
    | ok rest =>
      simp only [hv, hrest, Except.ok.injEq] at h
      exact ⟨v, rest, h.symm, rfl, rfl⟩

/-- Where all keys and results have values, the one that is evaluated is the one that is chosen
among the values. -/
theorem evalChoice_eq_chooseFrom (pos : Position) (v : Value) : ∀ {nodes : List Node}
    {vs : List Value}, nodes ≠ [] → (evalAll row nodes).result = .ok vs →
    ∃ w, (evalChoice row pos v nodes).result = .ok w ∧ Builtin.chooseFrom v vs = some w
  | [], _, hne, _ => absurd rfl hne
  | [_], _, _, h => by
    obtain ⟨w, rest, rfl, hw, hrest⟩ := evalAll_cons_eq_ok h
    cases hrest
    exact ⟨w, hw, rfl⟩
  | [_, _], _, _, h => by
    obtain ⟨k, rest, rfl, -, h⟩ := evalAll_cons_eq_ok h
    obtain ⟨w, rest, rfl, hw, hrest⟩ := evalAll_cons_eq_ok h
    cases hrest
    exact ⟨w, hw, rfl⟩
  | key :: result :: third :: nodes, _, _, h => by
    obtain ⟨k, rest, rfl, hk, h⟩ := evalAll_cons_eq_ok h
    obtain ⟨w, rest, rfl, hw, h⟩ := evalAll_cons_eq_ok h
    obtain ⟨u, hu, hchosen⟩ := evalChoice_eq_chooseFrom pos v (List.cons_ne_nil third nodes) h
    obtain ⟨x, rest, rfl, -⟩ := evalAll_cons_eq_ok h
    rw [evalChoice, Traced.bind_of_ok hk, Builtin.chooseFrom]
    by_cases heq : k = v
    · refine ⟨w, ?_, if_pos heq⟩
      simp [heq, bind, Traced.bind, hk, hw]
    · refine ⟨u, ?_, (if_neg heq).trans hchosen⟩
      simp [heq, bind, Traced.bind, hk, hu]
    all_goals simp

/-- If all arguments have values it makes no difference that `case` evaluates only some. -/
theorem evalCase_eq_choose {vs : List Value} (hargs : 2 ≤ args.length)
    (h : (evalAll row args).result = .ok vs) (pos : Position) :
    ∃ v, (evalCase row pos args).result = .ok v ∧ Builtin.apply .case vs = .ok v := by
  match args, hargs with
  | value :: first :: rest, _ =>
    obtain ⟨v, vs, rfl, hv, h⟩ := evalAll_cons_eq_ok h
    obtain ⟨w, hw, hchosen⟩ := evalChoice_eq_chooseFrom pos v (List.cons_ne_nil first rest) h
    refine ⟨w, ?_, ?_⟩
    · simp [evalCase, bind, Traced.bind, hv, hw]
    · simp [Builtin.apply, Builtin.choose, hchosen]

end Node

open Node in
/-- A `case` that evaluates on demand agrees with the function that is given all values: where
every argument has a value, both choose the same one. In any row the outcome of `case`, with its
warnings, is that of evaluating the arguments it consults from the left, and it stays the same
whatever stands in the place of the others. -/
theorem lazy_case_agrees_with_strict (row : Row) (args : List Node) (pos : Position)
    (hargs : 2 ≤ args.length) :
    (∀ vs, (evalAll row args).result = .ok vs →
      ∃ v, (eval row (.call .case args pos)).result = .ok v ∧ Builtin.apply .case vs = .ok v) ∧
    ∃ places last node, Consults row args places last ∧ args[last]? = some node ∧
      eval row (.call .case args pos) =
        (do let _ ← evalAll row (pick args places); eval row node) ∧
      ∀ args', args'.length = args.length → (∀ i ∈ places ++ [last], args'[i]? = args[i]?) →
        eval row (.call .case args' pos) = eval row (.call .case args pos) := by
  -- a call of `case` is its own form of evaluation
  have heval : ∀ args, eval row (.call .case args pos) = evalCase row pos args := fun args => by
    rw [eval]
  simp only [heval]
  refine ⟨fun vs hvs => evalCase_eq_choose hargs hvs pos, ?_⟩
  obtain ⟨places, last, hconsults⟩ := exists_consults row hargs
  obtain ⟨node, hnode, heq⟩ := hconsults.evalCase hargs pos
  refine ⟨places, last, node, hconsults, hnode, heq, fun args' hlength hat => ?_⟩
  have hconsults' := hconsults.congr hlength hat
  obtain ⟨node', hnode', heq'⟩ := hconsults'.evalCase (hlength ▸ hargs) pos
  obtain rfl : node' = node := by
    have hlast := hat last (List.mem_append_right _ (List.mem_singleton_self last))
    rw [hnode', hnode] at hlast
    exact Option.some.inj hlast
  have hpick : pick args' places = pick args places :=
    List.filterMap_congr fun i hi => hat i (List.mem_append_left _ hi)
  rw [heq, heq', hpick]

open Node in
/-- A `case` with two keys that equal its value. -/
theorem lazy_case_agrees_with_strict_on_equal_keys :
    let row : Row := [.str "b"]
    let pos : Position := ⟨1, 1⟩
    let args : List Node := [.slot 0 pos, .const (.str "a") pos, .const (.int 1) pos,
      .slot 0 pos, .const (.int 2) pos, .const (.str "b") pos, .const (.int 3) pos,
      .const (.bool true) pos]
    2 ≤ args.length ∧
    (∃ v, (eval row (.call .case args pos)).result = .ok v ∧
      Builtin.apply .case [.str "b", .str "a", .int 1, .str "b", .int 2, .str "b", .int 3,
        .bool true] = .ok v) ∧
    ∃ places last node, Consults row args places last ∧ args[last]? = some node ∧
      eval row (.call .case args pos) =
        (do let _ ← evalAll row (pick args places); eval row node) := by
  intro row pos args
  have hargs : 2 ≤ args.length := by decide
  obtain ⟨hstrict, places, last, node, hconsults, hnode, heq, -⟩ :=
    lazy_case_agrees_with_strict row args pos hargs
  exact ⟨hargs, hstrict _ rfl, places, last, node, hconsults, hnode, heq⟩

end LineQuery
