import LineQuery.Syntax.Tree

/-! # Whole trees

A tree is whole if nothing in it stands for a part that was missing: no expression is a hole
and no name is the placeholder. Reading a text without a finding gives a whole tree, and
only whole trees are given a meaning.
-/

namespace LineQuery.Syntax

/-- A name that is not the placeholder for a missing one. -/
def Ident.Present (id : Ident) : Prop :=
  ∀ span, id ≠ Ident.missing span

/-- A name that is present is not the placeholder. -/
theorem Ident.isMissing_eq_false {id : Ident} (h : id.Present) : id.isMissing = false := by
  rw [Ident.isMissing, beq_eq_false_iff_ne]
  rintro hname
  obtain ⟨name, span⟩ := id
  obtain rfl : name = "<missing>" := hname
  exact h span rfl

mutual

/-- An expression without holes and placeholders. -/
def Expr.Whole : Expr → Prop
  | .int _ _ | .str _ _ | .bool _ _ => True
  | .name id => id.Present
  | .list items _ => Expr.WholeAll items
  | .unary _ operand _ => operand.Whole
  | .binary _ left right _ => left.Whole ∧ right.Whole
  | .index base position _ => base.Whole ∧ position.Whole
  | .call id args _ => id.Present ∧ Expr.WholeAll args
  | .hole _ => False

def Expr.WholeAll : List Expr → Prop
  | [] => True
  | e :: es => e.Whole ∧ Expr.WholeAll es

end

/-- A whole expression is no hole. -/
theorem Expr.isHole_eq_false {e : Expr} (h : e.Whole) : e.isHole = false := by
  cases e with
  | hole => exact nomatch h
  | _ => rfl

/-! ## The names that are bound -/

/-- The identifiers that a `from` binds: its variable, then its index. -/
def FromClause.idents (clause : FromClause) : List Ident :=
  clause.var :: clause.index.toList

def Clause.idents : Clause → List Ident
  | .range clause => clause.idents
  | .bind name _ => [name]
  | .filter _ | .skip _ | .take _ => []

/-- The identifiers that the clauses of an entry bind, as they stand in the text. Parameters are
not among them. -/
def Entry.idents (e : Entry) : List Ident :=
  e.query.source.idents ++ e.query.clauses.flatMap Clause.idents

/-! ## Whole documents -/

structure FromClause.Whole (clause : FromClause) : Prop where
  var : clause.var.Present
  index : ∀ id ∈ clause.index, id.Present
  source : clause.source.Whole

def Clause.Whole : Clause → Prop
  | .range clause => clause.Whole
  | .bind name value => name.Present ∧ value.Whole
  | .filter e | .skip e | .take e => e.Whole

theorem FromClause.Whole.present {clause : FromClause} (h : clause.Whole) :
    ∀ id ∈ clause.idents, id.Present :=
  List.forall_mem_cons.mpr ⟨h.var, fun id hid => h.index id (Option.mem_toList.mp hid)⟩

theorem Clause.Whole.present {clause : Clause} (h : clause.Whole) :
    ∀ id ∈ clause.idents, id.Present := by
  cases clause with
  | range clause => exact FromClause.Whole.present h
  | bind name value => exact List.forall_mem_singleton.mpr h.1
  | filter => exact nofun
  | skip => exact nofun
  | take => exact nofun

structure Query.Whole (q : Query) : Prop where
  source : q.source.Whole
  clauses : ∀ clause ∈ q.clauses, clause.Whole
  select : q.select.Whole

structure Entry.Whole (e : Entry) : Prop where
  name : e.name.Present
  params : ∀ id ∈ e.params, id.Present
  query : e.query.Whole

/-- All that a whole entry binds is present. -/
theorem Entry.Whole.present {e : Entry} (h : e.Whole) :
    ∀ id ∈ e.params ++ e.idents, id.Present := by
  intro id hid
  rcases List.mem_append.mp hid with hparam | hid
  · exact h.params id hparam
  · rcases List.mem_append.mp hid with hsource | hclause
    · exact h.query.source.present id hsource
    · obtain ⟨clause, hmem, hid⟩ := List.mem_flatMap.mp hclause
      exact (h.query.clauses clause hmem).present id hid

theorem Entry.Whole.present_tail {e : Entry} (h : e.Whole) {param : Ident} {params : List Ident}
    (hparams : e.params = param :: params) : ∀ id ∈ params, id.Present :=
  fun id hid => h.params id (hparams ▸ List.mem_cons_of_mem _ hid)

structure Document.Whole (d : Document) : Prop where
  uses : ∀ id ∈ d.uses, id.Present
  entries : ∀ e ∈ d.entries, e.Whole

end LineQuery.Syntax
