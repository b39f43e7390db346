import LineQuery.Plan.Basic
import LineQuery.Proofs.Scoping.Lowering

/-! # Safe plans

What a plan has to obey so that running it touches only what is there: its targets, the slots
that its bindings go to, are distinct slots of its rows; each of its nodes reads only targets
of bindings in front of it; and each call has as many arguments as its function takes. A plan
that stands for an entry has one target for each name, in the order of binding, and is safe.
-/

namespace LineQuery

open LineQuery.Syntax (Expr Clause Entry)

/-! ## What nodes touch -/

/-- A call in a plan: a function and the number of its arguments. -/
structure Call where
  f : Builtin
  count : Nat
deriving DecidableEq, Repr

namespace Node

mutual

/-- The slots that a node reads. -/
def reads : Node → List Nat
  | .const _ _ => []
  | .slot i _ => [i]
  | .list items _ => readsAll items
  | .unary _ operand _ => operand.reads
  | .binary _ left right _ => left.reads ++ right.reads
  | .index base position _ => base.reads ++ position.reads
  | .call _ args _ => readsAll args

def readsAll : List Node → List Nat
  | [] => []
  | node :: nodes => node.reads ++ readsAll nodes

end

mutual

/-- The calls in a node. -/
def calls : Node → List Call
  | .const _ _ | .slot _ _ => []
  | .list items _ => callsAll items
  | .unary _ operand _ => operand.calls
  | .binary _ left right _ => left.calls ++ right.calls
  | .index base position _ => base.calls ++ position.calls
  | .call f args _ => ⟨f, args.length⟩ :: callsAll args

def callsAll : List Node → List Call
  | [] => []
  | node :: nodes => node.calls ++ callsAll nodes

end

end Node

/-- The slots that a line of the input and its index go to. -/
def InputSlots.targets (input : InputSlots) : List Nat :=
  input.var :: input.index.toList

/-- The slots that a step fills. -/
def Step.targets : Step → List Nat
  | .range var index _ => var :: index.toList
  | .bind slot _ => [slot]
  | .filter _ | .skip _ | .take _ => []

def Step.node : Step → Node
  | .range _ _ node | .filter node | .bind _ node | .skip node | .take node => node

/-- A node and the slots that have been filled where it is evaluated. -/
structure Use where
  filled : List Nat
  node : Node

/-- The nodes of steps and of the `select` behind them. What a step fills is filled behind it,
not for its own node. -/
def usesFrom (filled : List Nat) (select : Node) : List Step → List Use
  | [] => [⟨filled, select⟩]
  | step :: steps => ⟨filled, step.node⟩ :: usesFrom (filled ++ step.targets) select steps

namespace Plan

/-- All slots that a plan fills, in the order in which it does. -/
def targets (plan : Plan) : List Nat :=
  plan.params ++ plan.input.targets ++ plan.steps.flatMap Step.targets

def uses (plan : Plan) : List Use :=
  usesFrom (plan.params ++ plan.input.targets) plan.select plan.steps

/-- A plan that touches only what is there. -/
structure Safe (plan : Plan) : Prop where
  targets_lt : ∀ i ∈ plan.targets, i < plan.slots
  targets_distinct : plan.targets.Nodup
  reads_lt : ∀ use ∈ plan.uses, ∀ i ∈ use.node.reads, i < plan.slots
  reads_filled : ∀ use ∈ plan.uses, ∀ i ∈ use.node.reads, i ∈ use.filled
  calls : ∀ use ∈ plan.uses, ∀ call ∈ use.node.calls, call.f.accepts call.count = true

end Plan

/-! ## Nodes of expressions -/

variable {ctx : ScopeContext} {bound : List String}

mutual

/-- The node of an expression reads slots of names bound in front of it. -/
theorem Lowers.reads_lt {e : Expr} {node : Node} :
    Lowers ctx bound e node → ∀ i ∈ node.reads, i < bound.length
  | .int | .str | .bool => nofun
  | .name h => by
    obtain ⟨hlt, -⟩ := List.getElem?_eq_some_iff.mp h
    exact List.forall_mem_singleton.mpr hlt
  | .list h => h.reads_lt
  | .unary h => h.reads_lt
  | .binary hl hr => List.forall_mem_append.mpr ⟨hl.reads_lt, hr.reads_lt⟩
  | .index hb hp => List.forall_mem_append.mpr ⟨hb.reads_lt, hp.reads_lt⟩
  | .call _ _ h => h.reads_lt

/-- Lowered expressions read slots of names that are bound. -/
theorem LowersAll.reads_lt {es : List Expr} {nodes : List Node} :
    LowersAll ctx bound es nodes → ∀ i ∈ Node.readsAll nodes, i < bound.length
  | .nil => nofun
  | .cons h hs => List.forall_mem_append.mpr ⟨h.reads_lt, hs.reads_lt⟩

end

mutual

/-- The calls in the node of an expression have as many arguments as their functions take. -/
theorem Lowers.calls_accept {e : Expr} {node : Node} :
    Lowers ctx bound e node → ∀ call ∈ node.calls, call.f.accepts call.count = true
  | .int | .str | .bool | .name _ => nofun
  | .list h => h.calls_accept
  | .unary h => h.calls_accept
  | .binary hl hr => List.forall_mem_append.mpr ⟨hl.calls_accept, hr.calls_accept⟩
  | .index hb hp => List.forall_mem_append.mpr ⟨hb.calls_accept, hp.calls_accept⟩
  | .call _ haccepts h =>
    List.forall_mem_cons.mpr ⟨h.length_eq.symm ▸ haccepts, h.calls_accept⟩

/-- Lowered expressions call functions with arguments that these take. -/
theorem LowersAll.calls_accept {es : List Expr} {nodes : List Node} :
    LowersAll ctx bound es nodes →
      ∀ call ∈ Node.callsAll nodes, call.f.accepts call.count = true
  | .nil => nofun
  | .cons h hs => List.forall_mem_append.mpr ⟨h.calls_accept, hs.calls_accept⟩

end

/-! ## Steps of clauses -/

/-- The targets of a step are the next slots, one for each name of its clause. -/
theorem LowersClause.targets_eq {clause : Clause} {step : Step}
    (h : LowersClause ctx bound clause step) :
    List.range bound.length ++ step.targets =
      List.range (bound ++ clause.binders).length := by
  cases h with
  | @range clause _ _ =>
    rw [Clause.binders, Step.targets, Syntax.FromClause.binders]
    cases clause.index <;> simp [List.range_succ]
  | filter _ | skip _ | take _ => simp [Step.targets, Clause.binders]
  | bind _ => simp [Step.targets, Clause.binders, List.range_succ]

/-- A node that stands for an expression behind the names `bound`. -/
theorem Lowers.use {e : Expr} {node : Node} (h : Lowers ctx bound e node) :
    (∀ i ∈ node.reads, i ∈ List.range bound.length) ∧
      ∀ call ∈ node.calls, call.f.accepts call.count = true :=
  ⟨fun i hi => List.mem_range.mpr (h.reads_lt i hi), h.calls_accept⟩

theorem LowersClause.lowers {clause : Clause} {step : Step}
    (h : LowersClause ctx bound clause step) : Lowers ctx bound clause.expr step.node := by
  cases h <;> assumption

variable {select : Expr} {node : Node} {slots : Nat} {clauses : List Clause} {steps : List Step}

/-- All slots of a row are targets. -/
theorem LowersClauses.targets_eq (h : LowersClauses ctx select node slots bound clauses steps) :
    List.range bound.length ++ steps.flatMap Step.targets = List.range slots := by
  induction h with
  | nil _ hslots => rw [List.flatMap_nil, List.append_nil, hslots]
  | cons hclause _ ih =>
    rw [List.flatMap_cons, ← List.append_assoc, hclause.targets_eq]
    exact ih

/-- Each node reads slots that have been filled, and its calls are accepted. -/
theorem LowersClauses.uses (h : LowersClauses ctx select node slots bound clauses steps) :
    ∀ use ∈ usesFrom (List.range bound.length) node steps,
      (∀ i ∈ use.node.reads, i ∈ use.filled) ∧
        ∀ call ∈ use.node.calls, call.f.accepts call.count = true := by
  induction h with
  | nil hselect _ => exact List.forall_mem_singleton.mpr hselect.use
  | cons hclause _ ih =>
    rw [usesFrom, hclause.targets_eq]
    exact List.forall_mem_cons.mpr ⟨hclause.lowers.use, ih⟩

/-! ## Plans of entries -/

/-- What has been filled where a node is evaluated is among all targets. -/
theorem filled_subset {use : Use} : ∀ {steps : List Step} {filled : List Nat},
    use ∈ usesFrom filled node steps →
      ∀ i ∈ use.filled, i ∈ filled ++ steps.flatMap Step.targets
  | [], filled, huse, i, hi => by
    cases List.mem_singleton.mp huse
    exact List.mem_append_left _ hi
  | step :: steps, filled, huse, i, hi => by
    rw [List.flatMap_cons]
    rcases List.mem_cons.mp huse with rfl | huse
    · exact List.mem_append_left _ hi
    · rw [← List.append_assoc]
      exact filled_subset huse i hi

variable {e : Entry} {compiled : PlanEntry}

/-- The targets in front of the steps are the slots of the parameters behind the stream and of
the first `from`. -/
theorem LowersEntry.input_targets (h : LowersEntry ctx e compiled) :
    compiled.plan.params ++ compiled.plan.input.targets =
      List.range (e.paramNames.tail ++ e.query.source.binders).length := by
  rw [h.slots, InputSlots.targets, h.var, h.index, Syntax.FromClause.binders]
  cases e.query.source.index <;> simp [List.range_succ]

/-- A plan writes each of its slots once, in order. -/
theorem LowersEntry.targets_eq (h : LowersEntry ctx e compiled) :
    compiled.plan.targets = List.range compiled.plan.slots := by
  rw [Plan.targets, h.input_targets]
  exact h.clauses.targets_eq

/-- Each name of an entry but the stream has a target of its own. -/
theorem LowersEntry.length_targets (h : LowersEntry ctx e compiled) (hparams : e.params ≠ []) :
    compiled.plan.targets.length + 1 = e.binders.length := by
  obtain ⟨stream, params, hcons⟩ := List.exists_cons_of_ne_nil hparams
  rw [h.targets_eq, List.length_range, h.slots_eq, Entry.binders, Entry.paramNames, hcons]
  simp only [List.map_cons, List.tail_cons, List.length_append, List.length_cons]
  omega

/-- The plan that stands for an entry is safe. -/
theorem LowersEntry.safe (h : LowersEntry ctx e compiled) : compiled.plan.Safe := by
  have huses := h.clauses.uses
  rw [← h.input_targets] at huses
  have hlt : ∀ i ∈ compiled.plan.targets, i < compiled.plan.slots := fun i hi => by
    rw [h.targets_eq] at hi
    exact List.mem_range.mp hi
  constructor
  · exact hlt
  · rw [h.targets_eq]
    exact List.nodup_range
  · intro use huse i hi
    exact hlt i (filled_subset huse i ((huses use huse).1 i hi))
  · exact fun use huse => (huses use huse).1
  · exact fun use huse => (huses use huse).2

end LineQuery
