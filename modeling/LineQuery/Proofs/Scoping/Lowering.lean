import LineQuery.Proofs.Scoping.Admissible

/-! # What an expression becomes

The relation between an expression and the node that stands for it in a plan, said without
the scopes that resolving keeps: a name becomes the slot that it has among the names bound
before, a call becomes the function of that name, and every other part keeps its form. A
query becomes steps in which each new name takes the next slot. There is no node for a hole.
-/

namespace LineQuery

open LineQuery.Syntax (Expr Clause Query Entry)

variable (ctx : ScopeContext)

mutual

/-- `node` stands for an expression where the names `bound` have the slots `0, 1, …`. -/
inductive Lowers (bound : List String) : Expr → Node → Prop where
  | int {n span} : Lowers bound (.int n span) (.const (.int n) (ctx.userPosition span))
  | str {s span} : Lowers bound (.str s span) (.const (.str s) (ctx.userPosition span))
  | bool {b span} : Lowers bound (.bool b span) (.const (.bool b) (ctx.userPosition span))
  | name {id i} : bound[i]? = some id.name →
      Lowers bound (.name id) (.slot i (ctx.userPosition id.span))
  | list {items nodes span} : LowersAll bound items nodes →
      Lowers bound (.list items span) (.list nodes (ctx.userPosition span))
  | unary {op e node span} : Lowers bound e node →
      Lowers bound (.unary op e span) (.unary op node (ctx.userPosition span))
  | binary {op left right l r span} : Lowers bound left l → Lowers bound right r →
      Lowers bound (.binary op left right span) (.binary op l r (ctx.userPosition span))
  | index {base position b p span} : Lowers bound base b → Lowers bound position p →
      Lowers bound (.index base position span) (.index b p (ctx.userPosition span))
  | call {id args nodes span f} : Builtin.ofName? id.name = some f →
      f.accepts args.length = true → LowersAll bound args nodes →
      Lowers bound (.call id args span) (.call f nodes (ctx.userPosition span))

inductive LowersAll (bound : List String) : List Expr → List Node → Prop where
  | nil : LowersAll bound [] []
  | cons {e es node nodes} : Lowers bound e node → LowersAll bound es nodes →
      LowersAll bound (e :: es) (node :: nodes)

end

/-- `step` stands for a clause behind the names `bound`; new names take the next slots. -/
inductive LowersClause (bound : List String) : Clause → Step → Prop where
  | range {clause node} : Lowers ctx bound clause.source node →
      LowersClause bound (.range clause)
        (.range bound.length (clause.index.map fun _ => bound.length + 1) node)
  | filter {e node} : Lowers ctx bound e node → LowersClause bound (.filter e) (.filter node)
  | bind {id e node} : Lowers ctx bound e node →
      LowersClause bound (.bind id e) (.bind bound.length node)
  | skip {e node} : Lowers ctx bound e node → LowersClause bound (.skip e) (.skip node)
  | take {e node} : Lowers ctx bound e node → LowersClause bound (.take e) (.take node)

/-- Steps and a node stand for clauses and the `select` behind them, and `slots` is the number
of names bound in the end. -/
inductive LowersClauses (select : Expr) (node : Node) (slots : Nat) :
    List String → List Clause → List Step → Prop where
  | nil {bound} : Lowers ctx bound select node → slots = bound.length →
      LowersClauses select node slots bound [] []
  | cons {bound clause step clauses steps} : LowersClause ctx bound clause step →
      LowersClauses select node slots (bound ++ clause.binders) clauses steps →
      LowersClauses select node slots bound (clause :: clauses) (step :: steps)

/-- A compiled entry stands for an entry: the parameters behind the stream have the first
slots, the names of the first `from` the next ones. -/
structure LowersEntry (e : Entry) (compiled : PlanEntry) : Prop where
  name : compiled.name = e.name.name
  params : compiled.params = e.paramNames
  slots : compiled.plan.params = List.range e.paramNames.tail.length
  var : compiled.plan.input.var = e.paramNames.tail.length
  index : compiled.plan.input.index =
    e.query.source.index.map fun _ => e.paramNames.tail.length + 1
  clauses : LowersClauses ctx e.query.select compiled.plan.select compiled.plan.slots
    (e.paramNames.tail ++ e.query.source.binders) e.query.clauses compiled.plan.steps

variable {ctx}

/-- A node keeps the position of its expression. -/
theorem Lowers.pos_eq {bound : List String} {e : Expr} {node : Node}
    (h : Lowers ctx bound e node) : node.pos = ctx.userPosition e.span := by
  cases h <;> rfl

theorem LowersAll.length_eq {bound : List String} :
    ∀ {es : List Expr} {nodes : List Node}, LowersAll ctx bound es nodes →
      nodes.length = es.length
  | _, _, .nil => rfl
  | _, _, .cons _ h => congrArg (· + 1) h.length_eq

/-- There is a slot for each name that is bound in the end. -/
theorem LowersClauses.slots_eq {select : Expr} {node : Node} {slots : Nat} {bound : List String}
    {clauses : List Clause} {steps : List Step}
    (h : LowersClauses ctx select node slots bound clauses steps) :
    slots = (bound ++ clauses.flatMap Clause.binders).length := by
  induction h with
  | nil _ hslots => rw [hslots, List.flatMap_nil, List.append_nil]
  | cons _ _ ih => rw [ih, List.flatMap_cons, List.append_assoc]

/-- A plan has a slot for each name of its entry but the stream. -/
theorem LowersEntry.slots_eq {e : Entry} {compiled : PlanEntry} (h : LowersEntry ctx e compiled) :
    compiled.plan.slots = (e.paramNames.tail ++ e.query.source.binders ++
      e.query.clauses.flatMap Clause.binders).length :=
  h.clauses.slots_eq

end LineQuery
