import LineQuery.Proofs.Runs.Agreement
import LineQuery.Proofs.Runs.Pipeline
import LineQuery.Proofs.Scoping.Verdict

/-! # Plans bring what queries mean

A step turns rows that agree with environments into rows that agree with the environments
behind its clause. By the clauses of a query, a plan then brings line by line what its entry
means, and so does a run that asks for the lines one after another.
-/

namespace LineQuery

open LineQuery.Syntax (Ident Expr FromClause Clause Query Entry)

/-- An error of a run and why the query halts there. -/
def Halt.Reports (e : RunError) (h : Halt) : Prop :=
  h = .error e

/-- A trail of a run and what it means: the same values and the same error. -/
abbrev Trail.Means {α β : Type} (R : α → β → Prop) : Trail RunError α → Trail Halt β → Prop :=
  Related Halt.Reports R

namespace Trail.Means

variable {α β α' β' : Type} {R : α → β → Prop} {R' : α' → β' → Prop}

/-- A value that means another is followed by trails that mean one another. -/
theorem ofEval {x : Eval α} {y : Except Halt α} {f : α → Trail RunError α'}
    {g : α → Trail Halt β'} (h : x.outcome = y) (hf : ∀ a, Means R' (f a) (g a)) :
    Means R' (.ofEval x f) (.ofExcept y g) := by
  subst h
  unfold Trail.ofEval Trail.ofExcept Eval.outcome
  cases x.result with
  | ok a => exact hf a
  | error e => exact .fail rfl

theorem counted {s : Trail RunError α} {t : Trail Halt β}
    {f : Nat → Trail RunError α → Trail RunError α} {g : Nat → Trail Halt β → Trail Halt β}
    {count : α → Except RunError Nat} {count' : β → Except Halt Nat}
    (hf : ∀ n s t, Means R s t → Means R (f n s) (g n t))
    (hcount : ∀ a b, R a b → (count a).mapError .error = count' b) (h : Means R s t) :
    Means R (s.counted f count) (t.counted g count') := by
  cases h with
  | done => exact .done
  | fail he => exact .fail he
  | @cons a b s t hab hst =>
    simp only [Trail.counted, ← hcount a b hab]
    cases count a with
    | ok n => exact hf n _ _ (.cons hab hst)
    | error e => exact .fail rfl

/-- Trails that mean one another have the same rows, and end alike. -/
theorem toList {s : Trail RunError α} {t : Trail Halt α} (h : Means Eq s t) :
    t.toList = s.toList.map (Except.mapError .error) := by
  induction h with
  | done => rfl
  | fail he => exact he ▸ rfl
  | cons hab _ ih => exact hab ▸ congrArg (List.cons _) ih

end Trail.Means

/-! ## Clauses -/

variable {ctx : ScopeContext} {bound : List String} {slots : Nat}

/-- A count is checked alike in both interpreters. -/
theorem countOf_outcome (clause : CountClause) (node : Node) (row : Row) :
    (countOf clause none node row).mapError Halt.error =
      (evalCount clause none row node).outcome := by
  unfold countOf Eval.outcome
  cases (evalCount clause none row node).result <;> rfl

/-- A step turns rows as its clause turns environments. -/
theorem means_rows {clause : Clause} {step : Step} (h : LowersClause ctx bound clause step)
    (hnew : (bound ++ clause.binders).Nodup) (hslots : (bound ++ clause.binders).length ≤ slots)
    {rows : Trail RunError Row} {envs : Trail Halt Env}
    (hrows : Trail.Means (Agrees bound slots) rows envs) :
    Trail.Means (Agrees (bound ++ clause.binders) slots) (step.rows none rows)
      (clause.envs ctx.userPosition envs) := by
  cases h with
  | range hsource =>
    refine hrows.bind fun row env ha => ?_
    refine Trail.Means.ofEval (outcome_evalItems ha hsource) fun items => ?_
    refine Trail.Related.ofList_map fun item _ => ?_
    exact ha.extend hnew hslots item.1 item.2
  | filter hcond =>
    rw [Clause.binders, List.append_nil]
    refine hrows.bind fun row env ha => ?_
    refine Trail.Means.ofEval (outcome_evalCondition ha hcond) fun keep => ?_
    cases keep with
    | true => exact .cons ha .done
    | false => exact .done
  | bind hvalue =>
    rw [Clause.binders] at *
    refine hrows.bind fun row env ha => ?_
    refine Trail.Means.ofEval (outcome_eval ha hvalue) fun v => ?_
    -- a new name takes the next slot, and no other name has it
    have hfits : bound.length < slots := by
      rwa [List.length_append, List.length_singleton] at hslots
    refine .cons (ha.bind (fun hmem => ?_) hfits v) .done
    exact List.disjoint_of_nodup_append hnew hmem (List.mem_singleton_self _)
  | skip hcount =>
    rw [Clause.binders, List.append_nil]
    refine Trail.Means.counted (fun n _ _ h => h.drop n) (fun row env ha => ?_) hrows
    rw [countOf_outcome, outcome_evalCount ha hcount]
  | take hcount =>
    rw [Clause.binders, List.append_nil]
    refine Trail.Means.counted (fun n _ _ h => h.take n) (fun row env ha => ?_) hrows
    rw [countOf_outcome, outcome_evalCount ha hcount]

/-- The steps of a plan bring what the clauses that they stand for mean. -/
theorem means_pipe {select : Expr} {node : Node} {clauses : List Clause} {steps : List Step}
    (h : LowersClauses ctx select node slots bound clauses steps)
    (hnew : (bound ++ clauses.flatMap Clause.binders).Nodup) {rows : Trail RunError Row}
    {envs : Trail Halt Env} (hrows : Trail.Means (Agrees bound slots) rows envs) :
    Trail.Means Eq (pipe node steps (steps.map fun _ => none) rows)
      (linesOf ctx.userPosition select clauses envs) := by
  -- The invariant: in front of every clause, rows and environments agree on the names so far.
  induction h generalizing rows envs with
  | nil hselect _ =>
    refine hrows.bind fun row env ha => ?_
    refine Trail.Means.ofEval (outcome_eval ha hselect) fun v => ?_
    rw [v.outputLines_eq]
    have hlines := Trail.Related.ofList_map (E := Halt.Reports) (f := id) (g := id)
      (fun line (_ : line ∈ v.lines) => rfl (a := line))
    rwa [List.map_id] at hlines
  | cons hclause hrest ih =>
    have hslots := hrest.slots_eq
    rw [List.flatMap_cons, ← List.append_assoc] at hnew
    refine ih hnew (means_rows hclause hnew.of_append_left ?_ hrows)
    rw [hslots]
    simp

/-! ## Entries -/

variable {e : Entry} {compiled : PlanEntry}

/-- Before the input, the parameters behind the stream have the extra arguments. -/
theorem agrees_template (h : LowersEntry ctx e compiled) (hnew : e.paramNames.tail.Nodup)
    (args : List String) :
    Agrees e.paramNames.tail compiled.plan.slots (compiled.plan.invoke args).template
      (e.argsEnv args) := by
  have hempty : Agrees [] compiled.plan.slots
      (List.replicate compiled.plan.slots (.bool false)) .empty :=
    ⟨List.length_replicate, fun hx => nomatch hx⟩
  have hslots : e.paramNames.tail.length ≤ compiled.plan.slots := by
    rw [h.slots_eq]
    simp only [List.length_append]
    omega
  have hall := hempty.bindAll (v := Value.strings args) e.paramNames.tail hnew hslots
  rw [List.length_nil, ← List.range_eq_range', ← h.slots] at hall
  exact hall

/-- The rows of the input agree with the environments of the first `from`. -/
theorem means_inputRows (h : LowersEntry ctx e compiled)
    (hnew : (e.paramNames.tail ++ e.query.source.binders).Nodup) (args : List String) :
    ∀ (input : List InputItem) (i : Nat),
      Trail.Means (Agrees (e.paramNames.tail ++ e.query.source.binders) compiled.plan.slots)
        ((compiled.plan.invoke args).inputRows i input) (e.inputEnvs args i input)
  | [], i => .done
  | .error message :: input, i => .fail rfl
  | .ok line :: input, i => by
    refine .cons ?_ (means_inputRows h hnew args input (i + 1))
    have hslots : (e.paramNames.tail ++ e.query.source.binders).length ≤ compiled.plan.slots := by
      rw [h.slots_eq]
      simp only [List.length_append]
      omega
    have hrow := (agrees_template h hnew.of_append_left args).extend hnew hslots (.str line) i
    rw [← h.index, ← h.var] at hrow
    exact hrow

/-- The names of an admissible entry without the stream are distinct. -/
theorem Syntax.Entry.Admissible.tail_distinct {uses : List Ident} (h : e.Admissible uses) :
    (e.paramNames.tail ++ e.query.source.binders ++
      e.query.clauses.flatMap Clause.binders).Nodup := by
  have hdistinct := h.distinct
  rw [Entry.binders] at hdistinct
  cases hnames : e.paramNames with
  | nil => rwa [hnames] at hdistinct
  | cons x xs =>
    rw [hnames] at hdistinct
    exact (List.nodup_cons.mp hdistinct).2

/-- A run of a plan brings what the entry that it stands for means. -/
theorem means_trail (h : LowersEntry ctx e compiled)
    (hnew : (e.paramNames.tail ++ e.query.source.binders ++
      e.query.clauses.flatMap Clause.binders).Nodup)
    (args : List String) (input : List InputItem) :
    Trail.Means Eq ((compiled.plan.invoke args).trail (compiled.plan.invoke args).start input)
      (e.meaning ctx.userPosition args input) :=
  means_pipe h.clauses hnew (means_inputRows h hnew.of_append_left args input 0)

/-! ## Programs -/

/-- Expressions are placed in the lines that the user wrote. -/
theorem Program.position_eq (p : Program) : p.position = p.context.userPosition := by
  funext span
  rw [Program.position, ScopeContext.userPosition, Program.context]
  dsimp only
  cases (LineIndex.ofText p.text).position span.start with
  | mk line column =>
    rw [UserLines.find?, Program.userLines, Program.preambleLines]
    dsimp only
    by_cases hbody : p.imports.length + 1 < line ∧ line ≤ p.imports.length + 1 + p.body.length
    · rw [if_pos hbody, if_pos (by omega)]
      exact congrArg (Position.mk · column) (by omega)
    · rw [if_neg hbody]
      exact congrArg (Position.mk · column) (by split <;> omega)

/-- The plan that is run is that of the first entry that frames a body. -/
theorem Compiled.exists_mainEntry {p : Program} {c : Compilation} {plan : Plan}
    (h : Compiled p c) (hplan : c.artifact.mainPlan = .ok plan) :
    ∃ e ∈ (Syntax.parse p.text).1.entries, p.mainEntry? = some e ∧
      plan = (Scope.resolveEntry p.context e).1.plan := by
  have hentry : c.artifact.entry? Program.entryName =
      p.mainEntry?.map fun e => (Scope.resolveEntry p.context e).1 := by
    rw [Artifact.entry?, h.entries, List.find?_map]
    rfl
  rw [Artifact.mainPlan, hentry] at hplan
  cases hmain : p.mainEntry? with
  | none =>
    rw [hmain] at hplan
    exact absurd hplan (by split <;> exact nofun)
  | some e =>
    refine ⟨e, List.mem_of_find?_eq_some hmain, rfl, ?_⟩
    rw [hmain, if_neg (not_not_intro h.format)] at hplan
    dsimp only [Option.map_some] at hplan
    split at hplan
    · exact (Except.ok.inj hplan).symm
    · exact nomatch hplan

/-- The items that a run of a compiled program gives, one request after another, are those
that the program means: the same lines, and the same error as the last item. -/
theorem run_brings_meaning {p : Program} {c : Compilation} {plan : Plan}
    (hc : compile p = .ok c) (hplan : c.artifact.mainPlan = .ok plan) (args : List String)
    (input : List InputItem) (k : Nat) :
    (plan.item? args input k).map (Except.mapError .error) = (p.meaning args input)[k]? ∧
      ∀ j < k, ∀ e, plan.item? args input j = some (.error e) →
        plan.item? args input k = none := by
  have h := compiled_of_ok hc
  obtain ⟨e, hmem, hmain, rfl⟩ := h.exists_mainEntry hplan
  have htrail := means_trail (h.lowers e hmem) (h.admissible.entries e hmem).tail_distinct
    args input
  refine ⟨?_, fun j hlt e herror => Plan.item?_of_error herror hlt⟩
  have hmeaning : p.meaning args input = (e.meaning p.context.userPosition args input).toList := by
    rw [Program.meaning, hmain, p.position_eq]
  rw [Plan.item?, Invocation.item_answer, hmeaning, htrail.toList, List.getElem?_map]

/-- A program that takes the first words of its numbered lines compiles, and its runs bring what it
means: of one line two words, each on one line, with the number of the line below it. The second
item of the input is not read. -/
theorem run_brings_meaning_of_words :
    let p := Program.empty.addText
      "from l at i in lines\nfrom w in split(l, \" \")\ntake i + 2\nselect [w + args[0], i]"
    ∃ c plan, compile p = .ok c ∧ c.artifact.mainPlan = .ok plan ∧
      (∀ k, (plan.item? ["!"] [.ok "a b c", .error "closed"] k).map Except.toOption =
        [some "a!", some "0", some "b!", some "0"][k]?) ∧
      ∀ args input k,
        (plan.item? args input k).map (Except.mapError .error) = (p.meaning args input)[k]? := by
  intro p
  have hok : ((compile p).toOption.bind fun c => c.artifact.mainPlan.toOption).isSome = true := by
    decide +kernel
  obtain ⟨plan, hplan⟩ := Option.isSome_iff_exists.mp hok
  obtain ⟨c, hc, hplan⟩ := Option.bind_eq_some_iff.mp hplan
  have hmeaning : (p.meaning ["!"] [.ok "a b c", .error "closed"]).map Except.toOption =
      [some "a!", some "0", some "b!", some "0"] := by
    decide +kernel
  clear_value p
  have hrun : ∀ args input k,
      (plan.item? args input k).map (Except.mapError .error) = (p.meaning args input)[k]? :=
    fun args input k =>
      (run_brings_meaning (eq_ok_of_toOption hc) (eq_ok_of_toOption hplan) args input k).1
  have hlines : ∀ k, (plan.item? ["!"] [.ok "a b c", .error "closed"] k).map Except.toOption =
      ((p.meaning ["!"] [.ok "a b c", .error "closed"]).map Except.toOption)[k]? := by
    intro k
    rw [List.getElem?_map, ← hrun, Option.map_map]
    congr 1
    funext item
    cases item <;> rfl
  rw [hmeaning] at hlines
  exact ⟨c, plan, eq_ok_of_toOption hc, eq_ok_of_toOption hplan, hlines, hrun⟩

end LineQuery
