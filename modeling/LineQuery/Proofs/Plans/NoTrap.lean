import LineQuery.Proofs.Plans.Arguments
import LineQuery.Proofs.Plans.Guarded
import LineQuery.Proofs.Plans.Safety
import LineQuery.Proofs.Runs.Agreement
import LineQuery.Proofs.Runs.Pipeline

/-! # Safe plans meet no trap

The invariant of a guarded run is which slots have been filled (`Cells.Filled`): every step
adds its targets to them, and every node reads among them. A guarded run of a safe plan is
therefore the run itself, request for request.
-/

namespace LineQuery

/-! ## Rows with filled slots -/

namespace Cells

/-- A row of `slots` slots in which those of `filled` hold a value. -/
structure Filled (filled : List Nat) (slots : Nat) (cells : Cells) : Prop where
  length : cells.length = slots
  values : ∀ i ∈ filled, ∃ v, cells[i]? = some (some v)

theorem row_put (cells : Cells) (i : Nat) (v : Value) :
    (cells.put i v).row = cells.row.set i v := by
  rw [put, row, row, List.map_set]
  rfl

variable {filled : List Nat} {slots i : Nat} {cells : Cells}

/-- A slot that has been filled is read as it is without guards. -/
theorem Filled.read (h : Filled filled slots cells) (hi : i ∈ filled) :
    cells.read i = .ok (cells.row.slot i) := by
  obtain ⟨v, hv⟩ := h.values i hi
  have hrow : cells.row.slot i = v := by
    rw [Row.slot, row, List.getElem?_map, hv]
    rfl
  rw [Cells.read, hv, hrow]

/-- Filling a slot of the row keeps what has been filled before. -/
theorem Filled.put (h : Filled filled slots cells) (hi : i < slots) (v : Value) :
    Filled (filled ++ [i]) slots (cells.put i v) := by
  refine ⟨by rw [Cells.put, List.length_set, h.length], fun j hj => ?_⟩
  rw [Cells.put]
  by_cases hij : i = j
  · subst hij
    exact ⟨v, List.getElem?_set_self (h.length ▸ hi)⟩
  · rw [List.getElem?_set_ne hij]
    rcases List.mem_append.mp hj with hj | hj
    · exact h.values j hj
    · exact absurd (List.mem_singleton.mp hj).symm hij

/-- A slot that the plan has can be filled. -/
theorem Filled.fill (h : Filled filled slots cells) (hi : i < slots) (v : Value) :
    cells.fill i v = .ok (cells.put i v) :=
  if_pos (h.length ▸ hi)

/-- An item and its index go to slots of the row. -/
theorem Filled.fillItem (h : Filled filled slots cells) {var : Nat} {index : Option Nat}
    (htargets : ∀ i ∈ var :: index.toList, i < slots) (item : Value) (n : Nat) :
    ∃ cells', cells.fillItem var index item n = .ok cells' ∧
      Filled (filled ++ var :: index.toList) slots cells' ∧
      cells'.row = Row.setIndex (cells.row.set var item) index n := by
  obtain ⟨hvar, hindex⟩ := List.forall_mem_cons.mp htargets
  have hitem := h.put hvar item
  cases index with
  | none =>
    refine ⟨_, ?_, hitem, cells.row_put var item⟩
    rw [Cells.fillItem, h.fill hvar]
    rfl
  | some slot =>
    have hslot : slot < slots := hindex slot (List.mem_singleton_self _)
    refine ⟨(cells.put var item).put slot (.int (Int64.ofNat n)), ?_, ?_, ?_⟩
    · rw [Cells.fillItem, h.fill hvar]
      exact hitem.fill hslot _
    · rw [Option.toList_some, List.append_cons]
      exact hitem.put hslot _
    · rw [row_put, row_put]
      rfl

/-- One value goes to slots of the row, one after another. -/
theorem Filled.fillAll {v : Value} : ∀ {targets filled : List Nat} {cells : Cells},
    Filled filled slots cells → (∀ i ∈ targets, i < slots) →
      ∃ cells', targets.foldlM (fun cells slot => Cells.fill cells slot v) cells = .ok cells' ∧
        Filled (filled ++ targets) slots cells' ∧
        cells'.row = targets.foldl (fun row slot => row.set slot v) cells.row
  | [], filled, cells, h, _ => ⟨cells, rfl, by rwa [List.append_nil], rfl⟩
  | i :: targets, filled, cells, h, hlt => by
    obtain ⟨hi, htargets⟩ := List.forall_mem_cons.mp hlt
    obtain ⟨cells', heq, hfilled, hrow⟩ := Filled.fillAll (v := v) (h.put hi v) htargets
    refine ⟨cells', ?_, by rwa [List.append_cons], ?_⟩
    · rw [List.foldlM_cons, h.fill hi]
      exact heq
    · rw [hrow, row_put, List.foldl_cons]

end Cells

/-! ## Expressions -/

namespace Guarded

variable {α β : Type}

/-- No trap in a computation and none behind its value. -/
theorem bind_eq {x : Guarded α} {y : Eval α} {next : α → Guarded β} {next' : α → Eval β}
    (hx : x = run y) (hnext : ∀ a, y.result = .ok a → next a = run (next' a)) :
    x >>= next = run (y >>= next') := by
  subst hx
  obtain ⟨warnings, result⟩ := y
  cases result with
  | error e => rfl
  | ok a =>
    change Guarded.bind (run ⟨warnings, .ok a⟩) next = _
    simp only [Guarded.bind, run, hnext a rfl]
    rfl

end Guarded

/-- A function that has its arguments is called without a trap. -/
theorem guardedCall_eq {f : Builtin} {args : List Value} (h : f.accepts args.length = true)
    (pos : Position) : guardedCall f args pos = .run (callValue f args pos) := by
  unfold guardedCall
  cases happly : f.apply args with
  | ok v => rfl
  | error e =>
    cases e with
    | missing g i => exact absurd happly (Builtin.apply_ne_missing h g i)
    | _ => rfl

/-- A computation that has a value has one at each of its parts. -/
theorem exists_of_bind_ok {α β : Type} {x : Eval α} {next : α → Eval β} {b : β}
    (h : (x >>= next).result = .ok b) : ∃ a, x.result = .ok a ∧ (next a).result = .ok b := by
  obtain ⟨warnings, result⟩ := x
  cases result with
  | error e => exact nomatch h
  | ok a => exact ⟨a, rfl, h⟩

/-- There is one value for each node. -/
theorem length_evalAll {row : Row} : ∀ {nodes : List Node} {vs : List Value},
    (Node.evalAll row nodes).result = .ok vs → vs.length = nodes.length
  | [], vs, h => by
    cases h
    rfl
  | node :: nodes, vs, h => by
    obtain ⟨v, -, h⟩ := exists_of_bind_ok h
    obtain ⟨vs', hvs, h⟩ := exists_of_bind_ok h
    cases h
    rw [List.length_cons, List.length_cons, length_evalAll hvs]

theorem guardedEval_call {f : Builtin} (h : f ≠ .case) (cells : Cells) (args : List Node)
    (pos : Position) : Node.guardedEval cells (.call f args pos) =
      Node.guardedEvalAll cells args >>= fun vs => guardedCall f vs pos := by
  cases f <;> first
    | exact absurd rfl h
    | rfl

variable {filled : List Nat} {slots : Nat} {cells : Cells}

mutual

/-- A node that reads filled slots, and whose calls have the arguments that they look for,
meets no trap. -/
theorem guardedEval_eq (h : Cells.Filled filled slots cells) : ∀ {node : Node},
    (∀ i ∈ node.reads, i ∈ filled) →
    (∀ call ∈ node.calls, call.f.accepts call.count = true) →
      node.guardedEval cells = .run (node.eval cells.row)
  | .const v _, _, _ => rfl
  | .slot i _, hreads, _ => by
    rw [Node.guardedEval, h.read (hreads i (List.mem_singleton_self i))]
    rfl
  | .list items _, hreads, hcalls =>
    Guarded.bind_eq (guardedEvalAll_eq h hreads hcalls) fun _ _ => rfl
  | .unary op operand _, hreads, hcalls =>
    Guarded.bind_eq (guardedEval_eq h hreads hcalls) fun _ _ => rfl
  | .binary op left right pos, hreads, hcalls => by
    obtain ⟨hleft, hright⟩ := List.forall_mem_append.mp hreads
    obtain ⟨hleft', hright'⟩ := List.forall_mem_append.mp hcalls
    have hr := guardedEval_eq h hright hright'
    refine Guarded.bind_eq (guardedEval_eq h hleft hleft') fun a _ => ?_
    cases deciding? op with
    | none => exact Guarded.bind_eq hr fun _ _ => rfl
    | some decision =>
      cases a with
      | bool a =>
        by_cases hdecides : a = decision
        · simp only [hdecides, ↓reduceIte]
          rfl
        · simp only [hdecides, ↓reduceIte]
          refine Guarded.bind_eq hr fun b _ => ?_
          cases b <;> rfl
      | _ => rfl
  | .index base position _, hreads, hcalls => by
    obtain ⟨hbase, hposition⟩ := List.forall_mem_append.mp hreads
    obtain ⟨hbase', hposition'⟩ := List.forall_mem_append.mp hcalls
    refine Guarded.bind_eq (guardedEval_eq h hbase hbase') fun v _ => ?_
    refine Guarded.bind_eq (guardedEval_eq h hposition hposition') fun i _ => ?_
    exact Guarded.bind_eq rfl fun _ _ => rfl
  | .call f args pos, hreads, hcalls => by
    obtain ⟨haccepts, hargs⟩ := List.forall_mem_cons.mp hcalls
    by_cases hcase : f = .case
    · subst hcase
      -- `case` takes at least four arguments: a value, a key, its result and a default.
      have hleast : 4 ≤ args.length := Builtin.least_le_of_accepts haccepts
      exact guardedCase_eq h hreads hargs (by omega)
    · rw [guardedEval_call hcase, eval_call hcase]
      refine Guarded.bind_eq (guardedEvalAll_eq h hreads hargs) fun vs hvs => ?_
      exact guardedCall_eq (length_evalAll hvs ▸ haccepts) pos

theorem guardedEvalAll_eq (h : Cells.Filled filled slots cells) : ∀ {nodes : List Node},
    (∀ i ∈ Node.readsAll nodes, i ∈ filled) →
    (∀ call ∈ Node.callsAll nodes, call.f.accepts call.count = true) →
      Node.guardedEvalAll cells nodes = .run (Node.evalAll cells.row nodes)
  | [], _, _ => rfl
  | node :: nodes, hreads, hcalls => by
    obtain ⟨hnode, hnodes⟩ := List.forall_mem_append.mp hreads
    obtain ⟨hnode', hnodes'⟩ := List.forall_mem_append.mp hcalls
    refine Guarded.bind_eq (guardedEval_eq h hnode hnode') fun v _ => ?_
    exact Guarded.bind_eq (guardedEvalAll_eq h hnodes hnodes') fun _ _ => rfl

/-- `case` has a value and a default, whatever lies between them. -/
theorem guardedCase_eq (h : Cells.Filled filled slots cells) {pos : Position} :
    ∀ {nodes : List Node}, (∀ i ∈ Node.readsAll nodes, i ∈ filled) →
    (∀ call ∈ Node.callsAll nodes, call.f.accepts call.count = true) → 2 ≤ nodes.length →
      Node.guardedCase cells nodes = .run (Node.evalCase cells.row pos nodes)
  | value :: first :: rest, hreads, hcalls, _ => by
    obtain ⟨hvalue, hrest⟩ := List.forall_mem_append.mp hreads
    obtain ⟨hvalue', hrest'⟩ := List.forall_mem_append.mp hcalls
    refine Guarded.bind_eq (guardedEval_eq h hvalue hvalue') fun v _ => ?_
    exact guardedChoice_eq h hrest hrest' (List.cons_ne_nil _ _)

theorem guardedChoice_eq (h : Cells.Filled filled slots cells) {pos : Position} {v : Value} :
    ∀ {nodes : List Node}, (∀ i ∈ Node.readsAll nodes, i ∈ filled) →
    (∀ call ∈ Node.callsAll nodes, call.f.accepts call.count = true) → nodes ≠ [] →
      Node.guardedChoice cells v nodes = .run (Node.evalChoice cells.row pos v nodes)
  | [], _, _, hne => absurd rfl hne
  | [default], hreads, hcalls, _ => by
    obtain ⟨hreads, -⟩ := List.forall_mem_append.mp hreads
    obtain ⟨hcalls, -⟩ := List.forall_mem_append.mp hcalls
    exact guardedEval_eq h hreads hcalls
  | [key, default], hreads, hcalls, _ => by
    obtain ⟨-, hreads⟩ := List.forall_mem_append.mp hreads
    obtain ⟨-, hcalls⟩ := List.forall_mem_append.mp hcalls
    obtain ⟨hreads, -⟩ := List.forall_mem_append.mp hreads
    obtain ⟨hcalls, -⟩ := List.forall_mem_append.mp hcalls
    exact guardedEval_eq h hreads hcalls
  | key :: result :: third :: rest, hreads, hcalls, _ => by
    obtain ⟨hkey, hreads⟩ := List.forall_mem_append.mp hreads
    obtain ⟨hkey', hcalls⟩ := List.forall_mem_append.mp hcalls
    obtain ⟨hresult, hrest⟩ := List.forall_mem_append.mp hreads
    obtain ⟨hresult', hrest'⟩ := List.forall_mem_append.mp hcalls
    refine Guarded.bind_eq (guardedEval_eq h hkey hkey') fun k _ => ?_
    by_cases hk : k = v
    · simp only [hk, ↓reduceIte]
      exact guardedEval_eq h hresult hresult'
    · simp only [hk, ↓reduceIte]
      exact guardedChoice_eq h hrest hrest' (List.cons_ne_nil _ _)

end

/-! ## Steps -/

theorem guardedItems_eq {source : Node}
    (h : source.guardedEval cells = .run (source.eval cells.row)) :
    guardedItems cells source = .run (evalItems cells.row source) := by
  refine Guarded.bind_eq h fun v _ => ?_
  cases v <;> rfl

/-- A condition that does not trap is a condition as before. -/
theorem guardedCondition_eq {cond : Node}
    (h : cond.guardedEval cells = .run (cond.eval cells.row)) :
    guardedCondition cells cond = .run (evalCondition cells.row cond) := by
  refine Guarded.bind_eq h fun v _ => ?_
  cases v <;> rfl

theorem guardedCount_eq {count : Node} (clause : CountClause) (left : Option Nat)
    (h : count.guardedEval cells = .run (count.eval cells.row)) :
    guardedCount clause left cells count = .run (evalCount clause left cells.row count) := by
  cases left with
  | some n => rfl
  | none =>
    refine Guarded.bind_eq h fun v _ => ?_
    cases v with
    | int n =>
      dsimp only
      split <;> rfl
    | _ => rfl

namespace Passage

variable {α β : Type}

theorem ofGuarded_eq {x : Guarded α} {y : Eval α} {next : α → Except Trap Passage}
    {next' : α → Passage} (hx : x = .run y) (hnext : ∀ a, next a = .ok (next' a))
    (counters : Counters) : ofGuarded counters x next = .ok (ofEval counters y next') := by
  subst hx
  obtain ⟨warnings, result⟩ := y
  cases result with
  | error e => rfl
  | ok a =>
    simp only [ofGuarded, Guarded.run, hnext]
    rfl

/-- A loop over items does not trap if no round does. -/
theorem guardedEach_eq {push : Counters → β → Except Trap Passage}
    {push' : Counters → α → Passage} {f : β → α}
    (h : ∀ counters x, push counters x = .ok (push' counters (f x))) :
    ∀ (xs : List β) (counters : Counters),
      guardedEach push counters xs = .ok (ofEach push' counters (xs.map f))
  | [], _ => rfl
  | x :: xs, counters => by
    have ih := guardedEach_eq h xs (push' counters (f x)).counters
    rw [guardedEach, h, List.map_cons, ofEach]
    unfold andThen
    dsimp only [Bind.bind, Except.bind]
    -- The rows behind are guarded only if the first one leaves the run flowing.
    cases hprogress : (push' counters (f x)).progress with
    | flowing =>
      simp only [ih]
      rfl
    | closed | failed _ => rfl

end Passage

/-- A row with filled slots leads in guarded steps to what it leads to without guards, if the
nodes read filled slots and the targets are slots of the row. -/
theorem guardedPass_eq {select : Node} : ∀ {steps : List Step} {filled : List Nat}
    {cells : Cells}, Cells.Filled filled slots cells →
    (∀ i ∈ steps.flatMap Step.targets, i < slots) →
    (∀ use ∈ usesFrom filled select steps, ∀ i ∈ use.node.reads, i ∈ use.filled) →
    (∀ use ∈ usesFrom filled select steps, ∀ call ∈ use.node.calls,
      call.f.accepts call.count = true) →
    ∀ counters, guardedPass select steps counters cells =
      .ok (passRow select steps counters cells.row)
  | [], filled, cells, h, _, hreads, hcalls, counters => by
    have hselect := guardedEval_eq h (hreads _ (List.mem_singleton_self _))
      (hcalls _ (List.mem_singleton_self _))
    exact Passage.ofGuarded_eq hselect (fun v => rfl) counters
  | step :: steps, filled, cells, h, htargets, hreads, hcalls, counters => by
    rw [List.flatMap_cons] at htargets
    obtain ⟨hown, htargets⟩ := List.forall_mem_append.mp htargets
    obtain ⟨hreads, hreads'⟩ := List.forall_mem_cons.mp hreads
    obtain ⟨hcalls, hcalls'⟩ := List.forall_mem_cons.mp hcalls
    have hnode := guardedEval_eq h hreads hcalls
    -- Rows in which the targets of the step are filled as well go on as they do without guards.
    have hrest : ∀ {cells' : Cells}, Cells.Filled (filled ++ step.targets) slots cells' →
        ∀ counters, guardedPass select steps counters cells' =
          .ok (passRow select steps counters cells'.row) :=
      fun h' => guardedPass_eq h' htargets hreads' hcalls'
    cases step with
    | range var index source =>
      -- Every item goes to the same row in front, in which only the own targets are filled anew.
      refine Passage.ofGuarded_eq (guardedItems_eq hnode) (fun items => ?_) counters
      have hpush : ∀ later (x : Value × Nat), (do
          let cells' ← cells.fillItem var index x.1 x.2
          guardedPass select steps later cells') =
          .ok (passRow select steps later (Row.setIndex (cells.row.set var x.1) index x.2)) := by
        intro later x
        obtain ⟨cells', hfill, hfilled, hrow⟩ := h.fillItem hown x.1 x.2
        rw [hfill, ← hrow]
        exact hrest hfilled later
      have heach := Passage.guardedEach_eq hpush items.zipIdx counters.tail
      simp only [heach]
      rfl
    | filter cond =>
      rw [Step.targets, List.append_nil] at hrest
      refine Passage.ofGuarded_eq (guardedCondition_eq hnode) (fun keep => ?_) counters
      cases keep with
      | true =>
        simp only [hrest h]
        rfl
      | false => rfl
    | bind slot value =>
      have hslot : slot < slots := hown slot (List.mem_singleton_self _)
      refine Passage.ofGuarded_eq hnode (fun v => ?_) counters
      have hput := hrest (h.put hslot v) counters.tail
      rw [Cells.row_put] at hput
      rw [h.fill hslot v]
      change (do return Passage.behind _ (← guardedPass select steps _ (cells.put slot v))) = _
      rw [hput]
      rfl
    | skip count =>
      rw [Step.targets, List.append_nil] at hrest
      refine Passage.ofGuarded_eq (guardedCount_eq .skip _ hnode) (fun n => ?_) counters
      cases n with
      | zero =>
        simp only [hrest h]
        rfl
      | succ n => rfl
    | take count =>
      rw [Step.targets, List.append_nil] at hrest
      refine Passage.ofGuarded_eq (guardedCount_eq .take _ hnode) (fun n => ?_) counters
      cases n with
      | zero => rfl
      | succ n =>
        simp only [hrest h]
        cases n <;> rfl

/-! ## Runs -/

namespace Plan

variable {plan : Plan} {args : List String} {template : Cells}

/-- The slots of the parameters are filled in the row that all rows start from. -/
theorem Safe.guardedTemplate (h : plan.Safe) (args : List String) :
    ∃ template, plan.guardedTemplate args = .ok template ∧
      Cells.Filled plan.params plan.slots template ∧
      template.row = (plan.invoke args).template := by
  have hempty : Cells.Filled [] plan.slots (List.replicate plan.slots none) :=
    ⟨List.length_replicate, nofun⟩
  have hparams : ∀ i ∈ plan.params, i < plan.slots := fun i hi =>
    h.targets_lt i (List.mem_append_left _ (List.mem_append_left _ hi))
  obtain ⟨template, heq, hfilled, hrow⟩ :=
    hempty.fillAll (v := Value.strings args) hparams
  refine ⟨template, heq, hfilled, ?_⟩
  rw [hrow, Cells.row, List.map_replicate]
  rfl

/-- Reading an item, a guarded run meets no trap. -/
theorem Safe.guardedFeed (h : plan.Safe) (htemplate : Cells.Filled plan.params plan.slots template)
    (hrow : template.row = (plan.invoke args).template) (run : Run) (item : InputItem) :
    plan.guardedFeed template run item = .ok ((plan.invoke args).feed run item) := by
  cases item with
  | error message => rfl
  | ok line =>
    have hlt := List.forall_mem_append.mp h.targets_lt
    obtain ⟨-, hinput⟩ := List.forall_mem_append.mp hlt.1
    obtain ⟨cells, hfill, hfilled, hcells⟩ :=
      htemplate.fillItem hinput (.str line) run.pulled
    have hpass := guardedPass_eq hfilled hlt.2 h.reads_filled h.calls run.counters
    rw [hcells, hrow] at hpass
    rw [Plan.guardedFeed]
    simp only [hfill]
    change (do let p ← guardedPass plan.select plan.steps run.counters cells; return _) = _
    rw [hpass]
    rfl

/-- A guarded run gives the answer of the run. -/
theorem Safe.guardedNext (h : plan.Safe) (htemplate : Cells.Filled plan.params plan.slots template)
    (hrow : template.row = (plan.invoke args).template) : ∀ (input : List InputItem) (run : Run),
      plan.guardedNext template run input = .ok ((plan.invoke args).next run input)
  | input, ⟨line :: lines, counters, progress, pulled, warnings⟩ => by
    rw [guardedNext.eq_def, Invocation.next.eq_def]
    rfl
  | input, ⟨[], counters, .failed e, pulled, warnings⟩ => by
    rw [guardedNext.eq_def, Invocation.next.eq_def]
    rfl
  | input, ⟨[], counters, .closed, pulled, warnings⟩ => by
    rw [guardedNext.eq_def, Invocation.next.eq_def]
    rfl
  | [], ⟨[], counters, .flowing, pulled, warnings⟩ => by
    rw [guardedNext.eq_def, Invocation.next.eq_def]
    rfl
  | item :: input, ⟨[], counters, .flowing, pulled, warnings⟩ => by
    rw [Plan.guardedNext, h.guardedFeed htemplate hrow, Invocation.next]
    exact h.guardedNext htemplate hrow input _

/-- A guarded run of a safe plan meets no trap: to each request it gives the answer of the
run. -/
theorem Safe.guardedAnswer (h : plan.Safe) (args : List String) (input : List InputItem)
    (k : Nat) : plan.guardedAnswer args input k =
      .ok ((plan.invoke args).answer (plan.invoke args).start input k) := by
  obtain ⟨template, heq, hfilled, hrow⟩ := h.guardedTemplate args
  -- One request after another: what is left of the run and the input is arbitrary.
  have hfrom : ∀ k input run, plan.guardedAnswerFrom template run input k =
      .ok ((plan.invoke args).answer run input k) := by
    intro k
    induction k with
    | zero => exact fun input run => h.guardedNext hfilled hrow input run
    | succ k ih =>
      intro input run
      rw [guardedAnswerFrom, h.guardedNext hfilled hrow, Invocation.answer]
      exact ih _ _
  rw [Plan.guardedAnswer, heq]
  exact hfrom k input _

/-- A plan that reads a slot in front of the step that fills it is not safe: it is trapped. -/
example : Plan.guardedAnswer
    ⟨2, [], ⟨0, none⟩, [.filter (.slot 1 ⟨1, 1⟩), .bind 1 (.slot 0 ⟨1, 9⟩)], .slot 1 ⟨1, 1⟩⟩
    [] [.ok "a"] 0 = .error (.unfilled 1) := rfl

end Plan

end LineQuery
