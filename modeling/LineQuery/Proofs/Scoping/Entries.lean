import LineQuery.Proofs.Scoping.Resolution

/-! # Resolving clauses and entries

The clauses of an entry are resolved one after another in one growing scope. Behind every
clause that goes without a finding the scope has the layout of the names bound so far, so
the static semantics of the remaining clauses is stated over that list of names alone. An
entry as a whole is resolved without an error exactly if it is admissible, and the plan made
of an admissible entry stands for it.
-/

namespace LineQuery.Scope

open LineQuery.Syntax (Ident Expr FromClause Clause Query Entry Site sitesFrom)

variable {ctx : ScopeContext} {s : Scope} {stream : String} {bound : List String}

/-! ## The names of a clause -/

theorem Layout.bindVar_findings (h : Layout s stream bound) {id : Ident} (hid : id.Present) :
    (s.bindVar id).2.findings = [] ↔ id.name ∉ stream :: bound :=
  h.bind_findings hid true

/-- A new name of a clause gets the next slot. -/
theorem Layout.bindVar_new (h : Layout s stream bound) {id : Ident} (hid : id.Present)
    (hnew : id.name ∉ stream :: bound) :
    (s.bindVar id).1 = bound.length ∧
      Layout (s.bindVar id).2 stream (bound ++ [id.name]) := by
  obtain ⟨hslot, hlayout⟩ := h.bind_new hid true hnew
  refine ⟨?_, hlayout⟩
  simp [bindVar, hslot]

theorem reports_bindVar (s : Scope) (id : Ident) : Reports s (s.bindVar id).2 :=
  reports_bind s id true

theorem reports_bindIndex (s : Scope) (index : Option Ident) :
    Reports s (s.bindIndex index).2 := by
  cases index with
  | none => exact .refl
  | some id => exact reports_bind s id true

/-- The names of a `from` are bound without a finding exactly if they are new and differ. -/
theorem Layout.bindFrom_findings (h : Layout s stream bound) {clause : FromClause}
    (hw : clause.Whole) :
    ((s.bindVar clause.var).2.bindIndex clause.index).2.findings = [] ↔
      (stream :: bound ++ clause.binders).Nodup := by
  constructor
  · intro hnil
    -- the variable is bound before the index, which has to be new behind it
    have hvar := (h.bindVar_findings hw.var).mp ((reports_bindIndex _ _).nil_of_nil hnil)
    obtain ⟨_, hlayout⟩ := h.bindVar_new hw.var hvar
    cases hindex : clause.index with
    | none =>
        rw [FromClause.binders, hindex]
        simpa using hlayout.distinct
    | some id =>
        rw [hindex] at hnil
        have hid := hw.index id hindex
        have hnew := (hlayout.bind_findings hid true).mp hnil
        have hdistinct := (hlayout.bind_new hid true hnew).2.distinct
        rw [FromClause.binders, hindex]
        simpa using hdistinct
  · intro hdistinct
    rw [FromClause.binders] at hdistinct
    have hvar : clause.var.name ∉ stream :: bound := by
      intro hmem
      exact (List.disjoint_of_nodup_append hdistinct) hmem (List.mem_cons_self ..)
    obtain ⟨_, hlayout⟩ := h.bindVar_new hw.var hvar
    cases hindex : clause.index with
    | none => exact hlayout.findings
    | some id =>
        refine (hlayout.bind_findings (hw.index id hindex) true).mpr ?_
        intro hmem
        rw [hindex, Option.map_some, Option.toList_some, List.append_cons] at hdistinct
        exact (List.disjoint_of_nodup_append hdistinct) hmem (List.mem_singleton_self _)

/-- New names of a `from` take the next slots. -/
theorem Layout.bindFrom_new (h : Layout s stream bound) {clause : FromClause}
    (hw : clause.Whole) (hdistinct : (stream :: bound ++ clause.binders).Nodup) :
    (s.bindVar clause.var).1 = bound.length ∧
      ((s.bindVar clause.var).2.bindIndex clause.index).1 =
        clause.index.map (fun _ => bound.length + 1) ∧
      Layout ((s.bindVar clause.var).2.bindIndex clause.index).2 stream
        (bound ++ clause.binders) := by
  have hnil := (h.bindFrom_findings hw).mpr hdistinct
  have hvar := (h.bindVar_findings hw.var).mp ((reports_bindIndex _ _).nil_of_nil hnil)
  obtain ⟨hslot, hlayout⟩ := h.bindVar_new hw.var hvar
  refine ⟨hslot, ?_⟩
  cases hindex : clause.index with
  | none =>
      rw [FromClause.binders, hindex]
      exact ⟨rfl, hlayout⟩
  | some id =>
      rw [hindex] at hnil
      have hid := hw.index id hindex
      obtain ⟨hslot', hlayout'⟩ :=
        hlayout.bind_new hid true ((hlayout.bind_findings hid true).mp hnil)
      rw [FromClause.binders, hindex]
      rw [List.append_assoc] at hlayout'
      refine ⟨?_, hlayout'⟩
      rw [bindIndex, hslot', List.length_append]
      rfl

/-! ## Clauses -/

/-- A whole clause is resolved without a finding exactly if its expression is resolvable and its
names are new. -/
theorem resolveClause_findings (h : Layout s stream bound) {clause : Clause} (hw : clause.Whole) :
    (resolveClause ctx clause s).2.findings = [] ↔
      Resolvable ctx.imports bound clause.expr ∧
        (stream :: bound ++ clause.binders).Nodup := by
  have hexpr : (resolveExpr ctx clause.expr s).2.findings = [] ↔
      Resolvable ctx.imports bound clause.expr := resolveExpr_findings clause.expr h
  have hlayout : (resolveExpr ctx clause.expr s).2.findings = [] →
      Layout (resolveExpr ctx clause.expr s).2 stream bound := h.resolveExpr clause.expr
  -- a clause that binds nothing leaves the names as they are
  have hsame : (stream :: bound ++ []).Nodup := by simpa using h.distinct
  cases clause with
  | range clause =>
      simp only [Clause.expr, Clause.binders, resolveClause] at hexpr hlayout ⊢
      constructor
      · intro hnil
        have hnil' := (reports_bindVar _ _).nil_of_nil ((reports_bindIndex _ _).nil_of_nil hnil)
        exact ⟨hexpr.mp hnil', ((hlayout hnil').bindFrom_findings hw).mp hnil⟩
      · rintro ⟨hres, hdistinct⟩
        exact ((hlayout (hexpr.mpr hres)).bindFrom_findings hw).mpr hdistinct
  | bind id value =>
      simp only [Clause.expr, Clause.binders, resolveClause] at hexpr hlayout ⊢
      have hnodup : (stream :: bound ++ [id.name]).Nodup ↔ id.name ∉ stream :: bound := by
        rw [← List.concat_eq_append, List.nodup_concat]
        exact and_iff_left h.distinct
      rw [hnodup]
      constructor
      · intro hnil
        have hnil' := (reports_bindVar _ _).nil_of_nil hnil
        exact ⟨hexpr.mp hnil', ((hlayout hnil').bindVar_findings hw.1).mp hnil⟩
      · rintro ⟨hres, hnew⟩
        exact ((hlayout (hexpr.mpr hres)).bindVar_findings hw.1).mpr hnew
  | filter e => exact hexpr.trans (iff_self_and.mpr fun _ => hsame)
  | skip e => exact hexpr.trans (iff_self_and.mpr fun _ => hsame)
  | take e => exact hexpr.trans (iff_self_and.mpr fun _ => hsame)

/-- Behind a clause without findings its names have the next slots. -/
theorem Layout.resolveClause (h : Layout s stream bound) {clause : Clause} (hw : clause.Whole)
    (hnil : (Scope.resolveClause ctx clause s).2.findings = []) :
    Layout (Scope.resolveClause ctx clause s).2 stream (bound ++ clause.binders) := by
  obtain ⟨hres, hdistinct⟩ := (resolveClause_findings h hw).mp hnil
  have hlayout : Layout (Scope.resolveExpr ctx clause.expr s).2 stream bound :=
    h.resolveExpr clause.expr ((resolveExpr_findings _ h).mpr hres)
  cases clause with
  | range clause => exact (hlayout.bindFrom_new hw hdistinct).2.2
  | bind id value =>
      have hnew : id.name ∉ stream :: bound := fun hmem =>
        (List.disjoint_of_nodup_append hdistinct) hmem (List.mem_singleton_self _)
      exact (hlayout.bindVar_new hw.1 hnew).2
  | filter e => exact (List.append_nil bound).symm ▸ hlayout
  | skip e => exact (List.append_nil bound).symm ▸ hlayout
  | take e => exact (List.append_nil bound).symm ▸ hlayout

/-- The step made of a whole clause without findings stands for it. -/
theorem lowersClause_resolveClause (h : Layout s stream bound) {clause : Clause}
    (hw : clause.Whole) (hnil : (resolveClause ctx clause s).2.findings = []) :
    LowersClause ctx bound clause (resolveClause ctx clause s).1 := by
  obtain ⟨hres, hdistinct⟩ := (resolveClause_findings h hw).mp hnil
  have hnil' := (resolveExpr_findings clause.expr h).mpr hres
  have hlayout := h.resolveExpr clause.expr hnil'
  cases clause with
  | range clause =>
      obtain ⟨hvar, hindex, _⟩ := hlayout.bindFrom_new hw hdistinct
      simp only [Clause.expr] at hvar hindex
      simp only [resolveClause, hvar, hindex]
      exact .range (lowers_resolveExpr _ h hw.source hnil')
  | bind id value =>
      have hnew : id.name ∉ stream :: bound := fun hmem =>
        (List.disjoint_of_nodup_append hdistinct) hmem (List.mem_singleton_self _)
      have hslot := (hlayout.bindVar_new hw.1 hnew).1
      simp only [Clause.expr] at hslot
      simp only [resolveClause, hslot]
      exact .bind (lowers_resolveExpr _ h hw.2 hnil')
  | filter e => exact .filter (lowers_resolveExpr _ h hw hnil')
  | skip e => exact .skip (lowers_resolveExpr _ h hw hnil')
  | take e => exact .take (lowers_resolveExpr _ h hw hnil')

theorem reports_resolveClause (s : Scope) (clause : Clause) :
    Reports s (resolveClause ctx clause s).2 := by
  have hexpr := (reads_resolveExpr ctx clause.expr s).reports
  cases clause with
  | range clause => exact (hexpr.trans (reports_bindVar _ _)).trans (reports_bindIndex _ _)
  | bind id value => exact hexpr.trans (reports_bindVar _ _)
  | filter e => exact hexpr
  | skip e => exact hexpr
  | take e => exact hexpr

/-- Whatever was found in one clause is kept through the next ones. -/
theorem reports_resolveClauses : ∀ (clauses : List Clause) (s : Scope),
    Reports s (resolveClauses ctx clauses s).2
  | [], _ => .refl
  | clause :: clauses, s =>
      (reports_resolveClause s clause).trans (reports_resolveClauses clauses _)

/-- The clauses of a query and its `select`, in order. -/
def resolveBody (ctx : ScopeContext) (clauses : List Clause) (select : Expr) (s : Scope) :
    List Step × Node × Scope :=
  let (steps, s) := resolveClauses ctx clauses s
  (steps, resolveExpr ctx select s)

theorem reports_resolveBody (clauses : List Clause) (select : Expr) (s : Scope) :
    Reports s (resolveBody ctx clauses select s).2.2 :=
  (reports_resolveClauses clauses s).trans (reads_resolveExpr ctx select _).reports

/-- The names that clauses bind are new and differ, and their expressions and the `select`
are resolvable where they stand. -/
structure BodyResolvable (imports : List Library) (stream : String) (bound : List String)
    (clauses : List Clause) (select : Expr) : Prop where
  distinct : (stream :: bound ++ clauses.flatMap Clause.binders).Nodup
  sites : ∀ site ∈ sitesFrom bound select clauses, Resolvable imports site.scope site.expr

/-- The static semantics of clauses, one clause at a time. -/
theorem bodyResolvable_cons {imports : List Library} {clause : Clause} {clauses : List Clause}
    {select : Expr} : BodyResolvable imports stream bound (clause :: clauses) select ↔
      (Resolvable imports bound clause.expr ∧ (stream :: bound ++ clause.binders).Nodup) ∧
        BodyResolvable imports stream (bound ++ clause.binders) clauses select := by
  constructor
  · rintro ⟨hdistinct, hsites⟩
    rw [List.flatMap_cons, ← List.append_assoc] at hdistinct
    exact ⟨⟨hsites _ (List.mem_cons_self ..), List.Nodup.of_append_left hdistinct⟩,
      ⟨hdistinct, fun site hsite => hsites site (List.mem_cons_of_mem _ hsite)⟩⟩
  · rintro ⟨⟨hres, _⟩, ⟨hdistinct, hsites⟩⟩
    refine ⟨?_, ?_⟩
    · rw [List.flatMap_cons, ← List.append_assoc]
      exact hdistinct
    · intro site hsite
      rcases List.mem_cons.mp hsite with rfl | hsite
      · exact hres
      · exact hsites site hsite

/-- Whole clauses and a `select` are resolved without a finding exactly if they obey the static
semantics. -/
theorem resolveBody_findings (clauses : List Clause) (select : Expr)
    (hw : ∀ clause ∈ clauses, clause.Whole) :
    ∀ {s : Scope} {bound : List String}, Layout s stream bound →
      ((resolveBody ctx clauses select s).2.2.findings = [] ↔
        BodyResolvable ctx.imports stream bound clauses select) := by
  -- By induction on the clauses, for all scopes: each clause leaves the layout of more names.
  induction clauses with
  | nil =>
      intro s bound h
      rw [resolveBody, resolveClauses, resolveExpr_findings select h]
      constructor
      · intro hres
        refine ⟨by simpa using h.distinct, fun site hsite => ?_⟩
        rw [sitesFrom, List.mem_singleton] at hsite
        exact hsite ▸ hres
      · intro hbody
        exact hbody.sites _ (List.mem_singleton_self _)
  | cons clause clauses ih =>
      intro s bound h
      obtain ⟨hclause, hclauses⟩ := List.forall_mem_cons.mp hw
      rw [bodyResolvable_cons, ← resolveClause_findings h hclause]
      constructor
      · intro hnil
        have hnil' := (reports_resolveBody clauses select _).nil_of_nil hnil
        exact ⟨hnil', (ih hclauses (h.resolveClause hclause hnil')).mp hnil⟩
      · rintro ⟨hnil', hbody⟩
        exact (ih hclauses (h.resolveClause hclause hnil')).mpr hbody

/-- What is made of whole clauses and a whole `select` without findings stands for them. -/
theorem lowersClauses_resolveBody (clauses : List Clause) {select : Expr}
    (hw : ∀ clause ∈ clauses, clause.Whole) (hws : select.Whole) :
    ∀ {s : Scope} {bound : List String}, Layout s stream bound →
      (resolveBody ctx clauses select s).2.2.findings = [] →
      LowersClauses ctx select (resolveBody ctx clauses select s).2.1
        (resolveBody ctx clauses select s).2.2.slots bound clauses
        (resolveBody ctx clauses select s).1 := by
  induction clauses with
  | nil =>
      intro s bound h hnil
      exact .nil (lowers_resolveExpr select h hws hnil) (h.resolveExpr select hnil).slots
  | cons clause clauses ih =>
      intro s bound h hnil
      obtain ⟨hclause, hclauses⟩ := List.forall_mem_cons.mp hw
      have hnil' := (reports_resolveBody clauses select _).nil_of_nil hnil
      exact .cons (lowersClause_resolveClause h hclause hnil')
        (ih hclauses (h.resolveClause hclause hnil') hnil)

/-- Clauses and `select` that are resolved without a finding leave the layout of the names that
the clauses bind. -/
theorem Layout.resolveBody (clauses : List Clause) (select : Expr)
    (hw : ∀ clause ∈ clauses, clause.Whole) :
    ∀ {s : Scope} {bound : List String}, Layout s stream bound →
      (resolveBody ctx clauses select s).2.2.findings = [] →
      Layout (Scope.resolveBody ctx clauses select s).2.2 stream
        (bound ++ clauses.flatMap Clause.binders) := by
  induction clauses with
  | nil =>
      intro s bound h hnil
      rw [List.flatMap_nil, List.append_nil]
      exact h.resolveExpr select hnil
  | cons clause clauses ih =>
      intro s bound h hnil
      obtain ⟨hclause, hclauses⟩ := List.forall_mem_cons.mp hw
      have hnil' := (reports_resolveBody clauses select _).nil_of_nil hnil
      rw [List.flatMap_cons, ← List.append_assoc]
      exact ih hclauses (h.resolveClause hclause hnil') hnil

/-! ## Parameters and the first `from` -/

theorem reports_bindParams : ∀ (ids : List Ident) (s : Scope), Reports s (bindParams ids s).2
  | [], _ => .refl
  | id :: ids, s => (reports_bind s id false).trans (reports_bindParams ids _)

/-- Parameters are bound without a finding exactly if they are new and differ. -/
theorem bindParams_findings : ∀ (ids : List Ident) {s : Scope} {bound : List String},
    (∀ id ∈ ids, id.Present) → Layout s stream bound →
      ((bindParams ids s).2.findings = [] ↔ (stream :: bound ++ ids.map (·.name)).Nodup)
  | [], s, bound, _, h => by
      simpa [bindParams, h.findings] using h.distinct
  | id :: ids, s, bound, hw, h => by
      obtain ⟨hid, hids⟩ := List.forall_mem_cons.mp hw
      rw [List.map_cons, List.append_cons]
      constructor
      · intro hnil
        have hnew := (h.bind_findings hid false).mp ((reports_bindParams ids _).nil_of_nil hnil)
        exact (bindParams_findings ids hids (h.bind_new hid false hnew).2).mp hnil
      · intro hdistinct
        have hnew : id.name ∉ stream :: bound := fun hmem =>
          (List.disjoint_of_nodup_append hdistinct.of_append_left) hmem
            (List.mem_singleton_self _)
        exact (bindParams_findings ids hids (h.bind_new hid false hnew).2).mpr hdistinct

/-- New parameters take the next slots. -/
theorem Layout.bindParams_new : ∀ (ids : List Ident) {s : Scope} {bound : List String},
    (∀ id ∈ ids, id.Present) → Layout s stream bound →
      (stream :: bound ++ ids.map (·.name)).Nodup →
      (bindParams ids s).1 = List.range' bound.length ids.length ∧
        Layout (bindParams ids s).2 stream (bound ++ ids.map (·.name))
  | [], s, bound, _, h, _ => ⟨rfl, (List.append_nil bound).symm ▸ h⟩
  | id :: ids, s, bound, hw, h, hdistinct => by
      obtain ⟨hid, hids⟩ := List.forall_mem_cons.mp hw
      rw [List.map_cons, List.append_cons] at hdistinct ⊢
      have hnew : id.name ∉ stream :: bound := fun hmem =>
        (List.disjoint_of_nodup_append hdistinct.of_append_left) hmem
          (List.mem_singleton_self _)
      obtain ⟨hslot, hlayout⟩ := h.bind_new hid false hnew
      obtain ⟨hslots, hlayout'⟩ := Layout.bindParams_new ids hids hlayout hdistinct
      refine ⟨?_, hlayout'⟩
      simp [bindParams, hslot, hslots, List.range'_succ]

/-- Only a bare name can be the stream. -/
theorem isStream_iff {source : Expr} {param : Ident} :
    isStream source (some param) = true ↔
      ∃ id, source = .name id ∧ id.name = param.name := by
  unfold isStream
  cases source <;> simp

theorem reports_resolveSource (source : Expr) (stream? : Option Ident) (s : Scope) :
    Reports s (resolveSource ctx source stream? s) := by
  unfold resolveSource
  split
  · exact (reads_markStream s).reports
  · split
    · exact .refl
    · exact (reports_report s rfl).trans (reads_resolveExpr ctx source _).reports

/-- A whole source of the first `from` goes without a finding only if it is the stream. -/
theorem isStream_of_resolveSource_nil {source : Expr} {stream? : Option Ident} (hw : source.Whole)
    (hnil : (resolveSource ctx source stream? s).findings = []) :
    isStream source stream? = true := by
  rw [resolveSource, Expr.isHole_eq_false hw, if_neg Bool.false_ne_true] at hnil
  split at hnil
  · assumption
  · exact absurd ((reads_resolveExpr ctx source _).reports.nil_of_nil hnil)
      (List.cons_ne_nil _ _)

theorem reports_resolveInput (clause : FromClause) (stream? : Option Ident) (s : Scope) :
    Reports s (resolveInput ctx clause stream? s).2 :=
  ((reports_resolveSource clause.source stream? s).trans (reports_bindVar _ _)).trans
    (reports_bindIndex _ _)

/-! ## Entries -/

/-- The scope in which an entry is left. -/
def lastScope (ctx : ScopeContext) (e : Entry) : Scope :=
  let input := resolveInput ctx e.query.source e.params.head? (enter e.params).2
  (resolveBody ctx e.query.clauses e.query.select input.2).2.2

/-- The findings about an entry are those of its last scope, and then warnings. -/
theorem resolveEntry_findings (ctx : ScopeContext) (e : Entry) :
    (resolveEntry ctx e).2 = (lastScope ctx e).leave := rfl

/-- Nothing that was found in an entry is lost on the way. -/
theorem reports_lastScope (ctx : ScopeContext) (e : Entry) : Reports empty (lastScope ctx e) := by
  have hinput : Reports (enter e.params).2 (lastScope ctx e) :=
    (reports_resolveInput e.query.source e.params.head? _).trans
      (reports_resolveBody e.query.clauses e.query.select _)
  refine AddsErrors.trans ?_ hinput
  cases e.params with
  | nil => exact .refl
  | cons param params =>
      have hstream : Reports empty (empty.bindStream param) :=
        .refl
      exact hstream.trans (reports_bindParams params _)

/-- What the static semantics asks of an entry with the stream `param` and more parameters
`params`. -/
structure EntryResolvable (imports : List Library) (e : Entry) (param : Ident)
    (params : List Ident) : Prop where
  paramList : e.params = param :: params
  overStream : ∃ id, e.query.source.source = .name id ∧ id.name = param.name
  body : BodyResolvable imports param.name (params.map (·.name) ++ e.query.source.binders)
    e.query.clauses e.query.select

/-- Reading the stream keeps the layout. -/
theorem Layout.markStream (h : Layout s stream bound) : Layout s.markStream stream bound :=
  h.of_reads (reads_markStream s) h.findings

/-- Behind the first `from` of a whole entry over its stream the parameters and the names of the
`from` have the first slots. -/
theorem layout_resolveInput (ctx : ScopeContext) {e : Entry} (hw : e.Whole) {param : Ident}
    {params : List Ident} (hparams : e.params = param :: params)
    (hstream : isStream e.query.source.source (some param) = true)
    (hdistinct : (param.name :: (params.map (·.name) ++ e.query.source.binders)).Nodup) :
    (enter e.params).1 = List.range params.length ∧
      (resolveInput ctx e.query.source e.params.head? (enter e.params).2).1 =
        ⟨params.length, e.query.source.index.map fun _ => params.length + 1⟩ ∧
      Layout (resolveInput ctx e.query.source e.params.head? (enter e.params).2).2 param.name
        (params.map (·.name) ++ e.query.source.binders) := by
  rw [← List.cons_append] at hdistinct
  obtain ⟨hslots, hlayout⟩ := Layout.bindParams_new params (hw.present_tail hparams)
    (layout_bindStream param) (by simpa using hdistinct.of_append_left)
  rw [List.nil_append] at hlayout
  obtain ⟨hvar, hindex, hlayout'⟩ := hlayout.markStream.bindFrom_new hw.query.source hdistinct
  rw [List.length_map] at hvar hindex
  rw [hparams, List.head?_cons]
  simp only [enter, resolveInput, resolveSource, hstream, ↓reduceIte]
  refine ⟨?_, ?_, hlayout'⟩
  · rw [hslots, List.range_eq_range']
    rfl
  · rw [hvar, hindex]

/-- A whole entry is left without a finding exactly if it obeys the static semantics. -/
theorem lastScope_findings (ctx : ScopeContext) {e : Entry} (hw : e.Whole) :
    (lastScope ctx e).findings = [] ↔
      ∃ param params, EntryResolvable ctx.imports e param params := by
  constructor
  · intro hnil
    -- Back from the end: nothing was found in any part, so each part had its layout.
    have hinput := (reports_resolveBody e.query.clauses e.query.select _).nil_of_nil hnil
    have hsource := (reports_bindVar _ _).nil_of_nil ((reports_bindIndex _ _).nil_of_nil hinput)
    have hstream := isStream_of_resolveSource_nil hw.query.source.source hsource
    cases hparams : e.params with
    | nil =>
        rw [hparams] at hstream
        exact absurd hstream (by simp [isStream])
    | cons param params =>
        rw [hparams, List.head?_cons] at hstream
        have hbound := (reports_resolveSource _ _ _).nil_of_nil hsource
        rw [hparams] at hbound
        have hpresent := hw.present_tail hparams
        have hdistinct := (bindParams_findings params hpresent (layout_bindStream param)).mp hbound
        have hlayout :=
          (Layout.bindParams_new params hpresent (layout_bindStream param) hdistinct).2
        have hfrom : (param.name :: (params.map (·.name) ++ e.query.source.binders)).Nodup := by
          have hinput' := hinput
          rw [hparams, List.head?_cons] at hinput'
          simp only [resolveInput, resolveSource, hstream, ↓reduceIte] at hinput'
          exact (hlayout.markStream.bindFrom_findings hw.query.source).mp hinput'
        have hlayout' := (layout_resolveInput ctx hw hparams hstream hfrom).2.2
        refine ⟨param, params, hparams, isStream_iff.mp hstream, ?_⟩
        exact (resolveBody_findings _ _ hw.query.clauses hlayout').mp hnil
  · rintro ⟨param, params, hparams, hstream, hbody⟩
    have hfrom := hbody.distinct.of_append_left
    have hlayout := (layout_resolveInput ctx hw hparams (isStream_iff.mpr hstream) hfrom).2.2
    exact (resolveBody_findings _ _ hw.query.clauses hlayout).mpr hbody

/-- The scope in which a whole entry is left without a finding has the names that the entry
binds. -/
theorem names_lastScope {e : Entry} (hw : e.Whole) (hnil : (lastScope ctx e).findings = []) :
    (lastScope ctx e).bindings.map (·.name) = e.binders := by
  obtain ⟨param, params, hparams, hstream, hbody⟩ := (lastScope_findings ctx hw).mp hnil
  obtain ⟨-, -, hlayout⟩ := layout_resolveInput ctx hw hparams
    (isStream_iff.mpr hstream) hbody.distinct.of_append_left
  have hnames := (hlayout.resolveBody _ e.query.select hw.query.clauses hnil).names
  have hbinders : e.binders = param.name :: (params.map (·.name) ++ e.query.source.binders ++
      e.query.clauses.flatMap Clause.binders) := by
    rw [Entry.binders, Entry.paramNames, hparams]
    rfl
  rw [hbinders]
  exact hnames

/-- The plan made of a whole entry that is left without a finding stands for it. -/
theorem lowersEntry_resolveEntry {e : Entry} (hw : e.Whole)
    (hnil : (lastScope ctx e).findings = []) : LowersEntry ctx e (resolveEntry ctx e).1 := by
  obtain ⟨param, params, hparams, hstream, hbody⟩ := (lastScope_findings ctx hw).mp hnil
  obtain ⟨hslots, hinput, hlayout⟩ := layout_resolveInput ctx hw hparams
    (isStream_iff.mpr hstream) hbody.distinct.of_append_left
  have htail : e.paramNames.tail = params.map (·.name) := by
    rw [Entry.paramNames, hparams, List.map_cons, List.tail_cons]
  have hlength : e.paramNames.tail.length = params.length := by
    rw [htail, List.length_map]
  refine ⟨rfl, rfl, ?_, ?_, ?_, ?_⟩
  · rw [hlength]
    exact hslots
  · rw [hlength]
    exact congrArg InputSlots.var hinput
  · rw [hlength]
    exact congrArg InputSlots.index hinput
  · rw [htail]
    exact lowersClauses_resolveBody _ hw.query.clauses hw.query.select hlayout hnil

end LineQuery.Scope
