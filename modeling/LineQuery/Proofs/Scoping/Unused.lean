import LineQuery.Proofs.Grammar.Placement
import LineQuery.Proofs.Script.BodyTokens
import LineQuery.Proofs.Scoping.Verdict
import Mathlib.Data.List.Flatten

/-! # Bindings that are never read

A scope marks a binding when its name is read, and warns about those without a mark when it is
left. Behind each part of an entry the marks are on the names that the part reads, wherever in its
expressions they stand, so what is warned about can be told from the tree: the names of `from`,
`at` and `let` that no expression of their entry reads. The tree lists them as the text does, which
makes the order of the warnings that of the text.
-/

namespace LineQuery

open LineQuery.Syntax
open LineQuery.Text (encodeUtf8)

/-! ## Names and readers -/

namespace Syntax

namespace Entry

def exprs (e : Entry) : List Expr :=
  e.query.source.source :: e.query.clauses.map Clause.expr ++ [e.query.select]

/-- The identifiers of an entry that have no underscore in front and that no expression of it
reads. -/
def unusedIdents (e : Entry) : List Ident :=
  e.idents.filter fun id =>
    !id.name.startsWith "_" && decide (∀ expr ∈ e.exprs, id.name ∉ expr.namesRead)

end Entry

/-! ## The order of the text -/

variable {ts : List Token}

/-- The identifiers stand in the tokens, in this order. -/
def StandIn (ids : List Ident) (ts : List Token) : Prop :=
  ∃ us : List Token, us.Sublist ts ∧ ids = us.map Token.ident

/-- What stands in two runs of tokens stands in both, one behind the other. -/
theorem StandIn.append {ids js : List Ident} {ts us : List Token} (h : StandIn ids ts)
    (h' : StandIn js us) : StandIn (ids ++ js) (ts ++ us) := by
  obtain ⟨vs, hsub, rfl⟩ := h
  obtain ⟨ws, hsub', rfl⟩ := h'
  exact ⟨vs ++ ws, hsub.append hsub', List.map_append.symm⟩

theorem StandIn.mono {ids : List Ident} {ts us : List Token} (h : StandIn ids ts)
    (hsub : ts.Sublist us) : StandIn ids us := by
  obtain ⟨vs, hvs, rfl⟩ := h
  exact ⟨vs, hvs.trans hsub, rfl⟩

theorem standIn_nil (ts : List Token) : StandIn [] ts :=
  ⟨[], List.nil_sublist ts, rfl⟩

theorem StandIn.exists_token {ids : List Ident} (h : StandIn ids ts) {id : Ident}
    (hid : id ∈ ids) : ∃ t ∈ ts, t.ident = id := by
  obtain ⟨us, hsub, rfl⟩ := h
  obtain ⟨t, ht, heq⟩ := List.mem_map.mp hid
  exact ⟨t, hsub.subset ht, heq⟩

/-- Identifiers that stand in ordered tokens start one behind another. -/
theorem StandIn.ordered {ids : List Ident} (h : StandIn ids ts) (hts : InOrder ts) :
    ids.Pairwise fun a b => a.span.start < b.span.start := by
  obtain ⟨us, hsub, rfl⟩ := h
  exact List.pairwise_map.mpr (hts.sublist hsub)

/-- The names of a `from` stand in its tokens, the variable in front of the index. -/
theorem DerivesRange.standIn {clause : FromClause} (h : DerivesRange ts clause) :
    StandIn clause.idents ts := by
  cases h with
  | @plain x word ts e hx hword he =>
    exact ⟨[x], List.Sublist.cons_cons x (List.nil_sublist _), rfl⟩
  | @indexed x atWord i word ts e hx hat hi hword he =>
    refine ⟨[x, i], ?_, rfl⟩
    exact ((List.nil_sublist (word :: ts)).cons_cons i).cons atWord |>.cons_cons x

theorem DerivesClause.standIn {clause : Clause} (h : DerivesClause ts clause) :
    StandIn clause.idents ts := by
  cases h with
  | range hword hrange => exact hrange.standIn.mono (List.sublist_cons_self _ _)
  | @bind word x assign ts e hword hx hassign he =>
    exact ⟨[x], ((List.nil_sublist (assign :: ts)).cons_cons x).cons word, rfl⟩
  | filter => exact standIn_nil _
  | skip => exact standIn_nil _
  | take => exact standIn_nil _

theorem DerivesBody.standIn {clauses : List Clause} {e : Expr} (h : DerivesBody ts clauses e) :
    StandIn (clauses.flatMap Clause.idents) ts := by
  induction h with
  | select => exact standIn_nil _
  | clause hclause _ ih => exact hclause.standIn.append ih

/-- The names of an entry stand in its tokens as they are bound. -/
theorem DerivesEntry.standIn {e : Entry} (h : DerivesEntry ts e) : StandIn e.idents ts := by
  obtain ⟨us, hus, hquery⟩ := h.exists_query
  obtain ⟨name, params, query⟩ := e
  cases hquery with
  | mk hword hrange hbody =>
    exact ((hrange.standIn.mono (List.sublist_cons_self _ _)).append hbody.standIn).mono hus

/-- The names of a document stand in its tokens, entry by entry. -/
theorem DerivesDocument.standIn {d : Document} (h : DerivesDocument ts d) :
    StandIn (d.entries.flatMap Entry.idents) ts := by
  induction h with
  | nil => exact standIn_nil _
  | @use word x semicolon ts d _ _ _ _ ih =>
    exact ih.mono (((List.sublist_cons_self semicolon ts).cons x).cons word)
  | entry hentry _ ih => exact hentry.standIn.append ih

end Syntax

/-! ## What a scope remembers of its names -/

namespace Scope

variable {ctx : ScopeContext} {s : Scope} {stream : String} {bound : List String}
  {marks : List (Ident × Bool)} {read : List String}

/-- The identifier that a binding is for, and whether it matters that it is read. -/
def markOf (b : Binding) : Ident × Bool :=
  (⟨b.name, b.span⟩, b.mustBeUsed)

/-- A scope binds the identifiers `marks` and has marked those with names in `read`. -/
structure Tracks (s : Scope) (marks : List (Ident × Bool)) (read : List String) : Prop where
  bindings : s.bindings.map markOf = marks
  used : ∀ b ∈ s.bindings, b.used = true ↔ b.name ∈ read

namespace Tracks

theorem report (h : Tracks s marks read) (f : Finding) : Tracks (s.report f) marks read :=
  ⟨h.bindings, h.used⟩

theorem markUsed (h : Tracks s marks read) (name : String) :
    Tracks (s.markUsed name) marks (read ++ [name]) := by
  constructor
  · rw [← h.bindings, Scope.markUsed, List.map_map]
    apply List.map_congr_left
    intro b _
    simp only [Function.comp_apply]
    split <;> rfl
  · intro b' hb'
    obtain ⟨b, hb, rfl⟩ := List.mem_map.mp hb'
    rw [List.mem_append, List.mem_singleton]
    by_cases hname : b.name = name
    · simp [hname]
    · simpa [hname] using h.used b hb

/-- Reading a name marks it, if it is bound at all. -/
theorem lookup (h : Tracks s marks read) (id : Ident) :
    Tracks (s.lookup id).2 marks (read ++ [id.name]) := by
  unfold Scope.lookup
  split
  · rename_i hnone
    refine Tracks.report ⟨h.bindings, fun b hb => ?_⟩ _
    have hne : b.name ≠ id.name := by
      rw [Scope.find?, List.find?_eq_none] at hnone
      simpa using hnone b (List.mem_reverse.mpr hb)
    rw [h.used b hb, List.mem_append, List.mem_singleton, or_iff_left hne]
  · split
    · exact h.markUsed id.name
    · exact (h.markUsed id.name).report _

theorem resolveCall (h : Tracks s marks read) (id : Ident) (args : List Node) (pos : Position) :
    Tracks (resolveCall ctx id args pos s).2 marks read := by
  unfold Scope.resolveCall
  split
  · exact h
  · exact h.report _

mutual

/-- An expression marks the names that it reads, in whatever part of it they stand. -/
theorem resolveExpr : ∀ (e : Expr) {s : Scope} {read : List String}, Tracks s marks read →
    Tracks (resolveExpr ctx e s).2 marks (read ++ e.namesRead)
  | .int _ _, _, _, h | .str _ _, _, _, h | .bool _ _, _, _, h | .hole _, _, _, h => by
    rw [Expr.namesRead, List.append_nil]
    exact h
  | .name id, _, _, h => h.lookup id
  | .list items _, _, _, h => resolveExprs items h
  | .unary _ operand _, _, _, h => resolveExpr operand h
  | .binary _ left right _, _, _, h => by
    rw [Expr.namesRead, ← List.append_assoc]
    exact resolveExpr right (resolveExpr left h)
  | .index base position _, _, _, h => by
    rw [Expr.namesRead, ← List.append_assoc]
    exact resolveExpr position (resolveExpr base h)
  | .call id args _, _, _, h => (resolveExprs args h).resolveCall id _ _

theorem resolveExprs : ∀ (es : List Expr) {s : Scope} {read : List String}, Tracks s marks read →
    Tracks (resolveExprs ctx es s).2 marks (read ++ Expr.namesReadAll es)
  | [], _, _, h => by
    rw [Expr.namesReadAll, List.append_nil]
    exact h
  | e :: es, _, _, h => by
    rw [Expr.namesReadAll, ← List.append_assoc]
    exact resolveExprs es (resolveExpr e h)

end

/-- A name that is bound afresh has not been read. -/
theorem bind (h : Tracks s marks read) (hlayout : Layout s stream bound)
    (hread : read ⊆ stream :: bound) {id : Ident} (hid : id.Present) (must : Bool)
    (hnew : id.name ∉ stream :: bound) :
    Tracks (s.bind id must).2 (marks ++ [(id, must)]) read := by
  have hfree : ¬ (s.bindings.any fun b => b.name == id.name) = true := by
    rw [← hlayout.names] at hnew
    simpa using hnew
  rw [Scope.bind, Ident.isMissing_eq_false hid, if_neg Bool.false_ne_true, if_neg hfree]
  constructor
  · simp [h.bindings, markOf]
  · intro b hb
    rcases List.mem_append.mp hb with hb | hb
    · exact h.used b hb
    · obtain rfl := List.mem_singleton.mp hb
      exact iff_of_false Bool.false_ne_true fun hmem => hnew (hread hmem)

/-- The identifiers of a `from` are bound afresh one after the other. -/
theorem bindFrom (h : Tracks s marks read) (hlayout : Layout s stream bound)
    (hread : read ⊆ stream :: bound) {clause : FromClause} (hw : clause.Whole)
    (hdistinct : (stream :: bound ++ clause.binders).Nodup) :
    Tracks ((s.bindVar clause.var).2.bindIndex clause.index).2
      (marks ++ clause.idents.map (·, true)) read := by
  have hnil := (hlayout.bindFrom_findings hw).mpr hdistinct
  have hvar := (hlayout.bindVar_findings hw.var).mp ((reports_bindIndex _ _).nil_of_nil hnil)
  have htracks : Tracks (s.bindVar clause.var).2 (marks ++ [(clause.var, true)]) read :=
    h.bind hlayout hread hw.var true hvar
  obtain ⟨-, hlayout'⟩ := hlayout.bindVar_new hw.var hvar
  cases hindex : clause.index with
  | none =>
    rw [FromClause.idents, hindex]
    exact htracks
  | some id =>
    rw [hindex] at hnil
    have hid := hw.index id hindex
    have hnew := (hlayout'.bind_findings hid true).mp hnil
    have hread' : read ⊆ stream :: (bound ++ [clause.var.name]) := fun x hx =>
      List.mem_append_left [clause.var.name] (hread hx)
    have htracks' := htracks.bind hlayout' hread' hid true hnew
    rw [List.append_assoc] at htracks'
    rw [FromClause.idents, hindex]
    exact htracks'

/-- A clause without findings binds its identifiers and marks what its expression reads. -/
theorem resolveClause (h : Tracks s marks read) (hlayout : Layout s stream bound)
    (hread : read ⊆ stream :: bound) {clause : Clause} (hw : clause.Whole)
    (hnil : (resolveClause ctx clause s).2.findings = []) :
    Tracks (resolveClause ctx clause s).2 (marks ++ clause.idents.map (·, true))
        (read ++ clause.expr.namesRead) ∧
      read ++ clause.expr.namesRead ⊆ stream :: (bound ++ clause.binders) := by
  obtain ⟨hresolvable, hdistinct⟩ := (resolveClause_findings hlayout hw).mp hnil
  have hscoped : read ++ clause.expr.namesRead ⊆ stream :: bound :=
    List.append_subset.mpr ⟨hread, fun x hx => List.mem_cons_of_mem _ (hresolvable.names x hx)⟩
  refine ⟨?_, fun x hx => List.mem_append_left clause.binders (hscoped hx)⟩
  have hexpr : Tracks (Scope.resolveExpr ctx clause.expr s).2 marks
      (read ++ clause.expr.namesRead) := h.resolveExpr clause.expr
  have hlayout' : Layout (Scope.resolveExpr ctx clause.expr s).2 stream bound :=
    hlayout.resolveExpr clause.expr ((resolveExpr_findings _ hlayout).mpr hresolvable)
  cases clause with
  | range clause => exact hexpr.bindFrom hlayout' hscoped hw hdistinct
  | bind id value =>
    have hnew : id.name ∉ stream :: bound := fun hmem =>
      (List.disjoint_of_nodup_append hdistinct) hmem (List.mem_singleton_self _)
    exact hexpr.bind hlayout' hscoped hw.1 true hnew
  | filter e => exact (List.append_nil marks).symm ▸ hexpr
  | skip e => exact (List.append_nil marks).symm ▸ hexpr
  | take e => exact (List.append_nil marks).symm ▸ hexpr

/-- Clauses and `select` without findings bind the identifiers of the clauses and mark what their
expressions read. -/
theorem resolveBody (clauses : List Clause) (select : Expr)
    (hw : ∀ clause ∈ clauses, clause.Whole) :
    ∀ {s : Scope} {bound : List String} {marks : List (Ident × Bool)} {read : List String},
      Tracks s marks read → Layout s stream bound → read ⊆ stream :: bound →
      (resolveBody ctx clauses select s).2.2.findings = [] →
      Tracks (Scope.resolveBody ctx clauses select s).2.2
        (marks ++ (clauses.flatMap Clause.idents).map (·, true))
        (read ++ (clauses.map Clause.expr ++ [select]).flatMap Expr.namesRead) := by
  induction clauses with
  | nil =>
    intro s bound marks read h _ _ _
    simp only [List.flatMap_nil, List.map_nil, List.append_nil, List.nil_append,
      List.flatMap_singleton]
    exact h.resolveExpr select
  | cons clause clauses ih =>
    intro s bound marks read h hlayout hread hnil
    obtain ⟨hwhole, hwholes⟩ := List.forall_mem_cons.mp hw
    have hnil' := (reports_resolveBody clauses select _).nil_of_nil hnil
    obtain ⟨hclause, hscoped⟩ := h.resolveClause hlayout hread hwhole hnil'
    have hbody := ih hwholes hclause (hlayout.resolveClause hwhole hnil') hscoped hnil
    rw [List.append_assoc, List.append_assoc, ← List.map_append] at hbody
    exact hbody

/-- Parameters are bound without a mark, and need none. -/
theorem bindParams : ∀ (ids : List Ident) {s : Scope} {bound : List String}
    {marks : List (Ident × Bool)}, (∀ id ∈ ids, id.Present) → Tracks s marks [] →
    Layout s stream bound → (stream :: bound ++ ids.map (·.name)).Nodup →
    Tracks (bindParams ids s).2 (marks ++ ids.map (·, false)) []
  | [], _, _, _, _, h, _, _ => (List.append_nil _).symm ▸ h
  | id :: ids, s, bound, marks, hw, h, hlayout, hdistinct => by
    obtain ⟨hid, hids⟩ := List.forall_mem_cons.mp hw
    rw [List.map_cons, List.append_cons] at hdistinct ⊢
    have hnew : id.name ∉ stream :: bound := fun hmem =>
      (List.disjoint_of_nodup_append hdistinct.of_append_left) hmem (List.mem_singleton_self _)
    exact bindParams ids hids (h.bind hlayout (List.nil_subset _) hid false hnew)
      (hlayout.bind_new hid false hnew).2 hdistinct

/-- The stream is the first binding, and the only one without a slot. -/
theorem markStream (h : Tracks s marks []) (hlayout : Layout s stream bound) :
    Tracks s.markStream marks [stream] := by
  obtain ⟨hfresh, -⟩ := List.nodup_cons.mp hlayout.distinct
  have hnames := hlayout.names
  have hshape := hlayout.shape
  obtain ⟨bindings, slots, findings⟩ := s
  cases bindings with
  | nil => exact nomatch hshape
  | cons b bs =>
    have hslot : b.slot = none := congrArg Prod.snd (List.cons.inj hshape).1
    obtain ⟨hname, hrest⟩ := List.cons.inj hnames
    have hmarked : (Scope.markStream ⟨b :: bs, slots, findings⟩).bindings =
        { b with used := true } :: bs := by
      simp [Scope.markStream, List.findIdx_cons, hslot]
    refine ⟨?_, ?_⟩
    · rw [hmarked, ← h.bindings]
      rfl
    · rw [hmarked, List.forall_mem_cons]
      refine ⟨by simp [hname], fun b' hb' => ?_⟩
      have hne : b'.name ≠ stream := fun heq => hfresh (heq ▸ hrest ▸ List.mem_map_of_mem hb')
      rw [h.used b' (List.mem_cons_of_mem b hb'), List.mem_singleton]
      exact iff_of_false List.not_mem_nil hne

end Tracks

/-- The scope in which a whole entry is left without a finding binds its parameters and the
identifiers of its clauses, and has marked what its expressions read. -/
theorem tracks_lastScope {e : Entry} (hw : e.Whole) (hnil : (lastScope ctx e).findings = []) :
    Tracks (lastScope ctx e) (e.params.map (·, false) ++ e.idents.map (·, true))
      (e.exprs.flatMap Expr.namesRead) := by
  obtain ⟨param, params, hparams, hstream, hbody⟩ := (lastScope_findings ctx hw).mp hnil
  have hover := isStream_iff.mpr hstream
  have hdistinct := hbody.distinct.of_append_left
  obtain ⟨-, -, hlayout⟩ := layout_resolveInput ctx hw hparams hover hdistinct
  rw [← List.cons_append] at hdistinct
  have hnames : (param.name :: params.map (·.name)).Nodup := hdistinct.of_append_left
  have hpresent := hw.present_tail hparams
  have hbound := (Layout.bindParams_new params hpresent (layout_bindStream param) hnames).2
  -- the stream and the other parameters, then the source and the names of the first `from`
  have hparam : Tracks (empty.bindStream param) [(param, false)] [] :=
    ⟨rfl, fun b hb => by rw [List.mem_singleton.mp hb]; simp⟩
  have hmarks := hparam.bindParams params hpresent (layout_bindStream param) hnames
  have hsource := hmarks.markStream hbound
  have hscoped : [param.name] ⊆ param.name :: params.map (·.name) :=
    List.cons_subset_cons _ (List.nil_subset _)
  have hfrom := hsource.bindFrom hbound.markStream hscoped hw.query.source hdistinct
  have hinput : Tracks (resolveInput ctx e.query.source e.params.head? (enter e.params).2).2
      (e.params.map (·, false) ++ e.query.source.idents.map (·, true)) [param.name] := by
    rw [hparams, List.head?_cons]
    simp only [enter, resolveInput, resolveSource, hover, ↓reduceIte]
    exact hfrom
  have hlast := hinput.resolveBody _ e.query.select hw.query.clauses hlayout
    (List.cons_subset_cons _ (List.nil_subset _)) hnil
  have hread : e.query.source.source.namesRead = [param.name] := by
    obtain ⟨id, hid, hname⟩ := hstream
    rw [hid, Expr.namesRead, hname]
  rw [List.append_assoc, ← List.map_append, ← hread] at hlast
  exact hlast

/-! ## Warnings -/

/-- What a scope with the marks of `read` holds of an identifier, but for its slot. -/
def boundAs (read : List String) (mark : Ident × Bool) : Binding :=
  ⟨mark.1.name, mark.1.span, none, decide (mark.1.name ∈ read), mark.2⟩

/-- What is warned about is decided by what a scope has bound and what has been read. -/
theorem Tracks.filterMap_unused? (h : Tracks s marks read) :
    s.bindings.filterMap unused? = marks.filterMap fun mark => unused? (boundAs read mark) := by
  rw [← h.bindings, List.filterMap_map]
  refine List.filterMap_congr fun b hb => ?_
  have hused : b.used = decide (b.name ∈ read) := by
    rw [Bool.eq_iff_iff, decide_eq_true_iff]
    exact h.used b hb
  simp only [Function.comp_apply, unused?, boundAs, markOf, hused]
  rfl

end Scope

/-- The warning about an identifier that is never read. -/
def unusedWarning (index : LineIndex) (id : Ident) : Diagnostic :=
  { severity := .warning, code := .unusedBinding, message := "unused binding `" ++ id.name ++ "`",
    position := index.position id.span.start, width := Finding.width index id.span,
    help := ["rename it to `_" ++ id.name ++ "` to silence this warning"] }

theorem filterMap_eq_map_filter {α β : Type} {f : α → Option β} {p : α → Bool} {g : α → β} :
    ∀ {as : List α}, (∀ a ∈ as, f a = if p a then some (g a) else none) →
      as.filterMap f = (as.filter p).map g
  | [], _ => rfl
  | a :: as, h => by
    obtain ⟨ha, has⟩ := List.forall_mem_cons.mp h
    rw [List.filterMap_cons, ha, filterMap_eq_map_filter has, List.filter_cons]
    cases p a <;> rfl

open Scope in
/-- The warnings about an admissible entry are about the identifiers that it never reads. -/
theorem warnings_of_admissible {uses : List Ident} {ctx : ScopeContext} {e : Entry}
    (hw : e.Whole) (himports : ctx.imports = importedLibraries uses) (he : e.Admissible uses) :
    ((lastScope ctx e).bindings.filterMap unused?).map (Finding.place ctx.index) =
      e.unusedIdents.map (unusedWarning ctx.index) := by
  have htracks := tracks_lastScope hw ((lastScope_findings_iff hw himports).mpr he)
  have hread (id : Ident) : (∀ expr ∈ e.exprs, id.name ∉ expr.namesRead) ↔
      id.name ∉ e.exprs.flatMap Expr.namesRead := by
    simp only [List.mem_flatMap, not_exists, not_and]
  have hparams : (e.params.map (·, false)).filterMap
      (fun mark => unused? (boundAs (e.exprs.flatMap Expr.namesRead) mark)) = [] := by
    rw [List.filterMap_map, List.filterMap_eq_nil_iff]
    exact fun id _ => rfl
  rw [htracks.filterMap_unused?, List.filterMap_append, hparams, List.nil_append,
    List.filterMap_map, List.map_filterMap, Entry.unusedIdents]
  refine filterMap_eq_map_filter fun id _ => ?_
  simp only [hread id, Function.comp_apply, unused?, boundAs, Bool.true_and]
  by_cases hunder : id.name.startsWith "_" = true
  · simp [hunder]
  · by_cases hused : id.name ∈ e.exprs.flatMap Expr.namesRead
    · simp [hunder, hused]
    · simp only [hunder, hused]
      rfl

/-- The warnings about a program that compiles, and whose text is shorter than a word of 32 bits can
count, are one for each name of a `from`, an `at` or a `let` that does not start with an underscore
and that no expression of its entry reads as a variable, at the place of the name, which words hold;
their positions go forward. Parameters and the names of functions in calls have no part in it. -/
theorem warnings_are_unused_names {p : Program}
    (hsize : (encodeUtf8 p.text).length < UInt32.size) {c : Compilation} (hc : compile p = .ok c) :
    c.warnings = ((parse p.text).1.entries.flatMap Entry.unusedIdents).map
        (unusedWarning (LineIndex.ofText p.text)) ∧
      (c.warnings.Pairwise fun a b => a.position.Before b.position) ∧
      ∀ id ∈ (parse p.text).1.entries.flatMap Entry.unusedIdents,
        (∃ t ∈ tokens p.text, t.ident = id) ∧ p.Tabled id.span.start := by
  have hcompiled := compiled_of_ok hc
  obtain ⟨hderives, -⟩ := derives_of_parse hcompiled.read
  have hstand := hderives.standIn
  have hsub : ((parse p.text).1.entries.flatMap Entry.unusedIdents).Sublist
      ((parse p.text).1.entries.flatMap Entry.idents) :=
    List.Sublist.flatMap_right _ fun e _ => List.filter_sublist
  have hordered := ((hstand.ordered (inOrder_scanFrom _ _ _)).sublist hsub)
  have hbefore : (((parse p.text).1.entries.flatMap Entry.unusedIdents).map
      (unusedWarning (LineIndex.ofText p.text))).Pairwise
        fun a b => a.position.Before b.position := by
    rw [List.pairwise_map]
    exact hordered.imp fun hlt => LineIndex.position_before hlt _
  have hentries : ((parse p.text).1.entries.flatMap fun e =>
      ((Scope.lastScope p.context e).bindings.filterMap Scope.unused?).map
        (Finding.place p.context.index)) =
      (parse p.text).1.entries.flatMap fun e =>
        e.unusedIdents.map (unusedWarning (LineIndex.ofText p.text)) :=
    List.flatMap_congr fun e he => warnings_of_admissible (hcompiled.whole.entries e he) rfl
      (hcompiled.admissible.entries e he)
  have hwarnings : c.warnings = ((parse p.text).1.entries.flatMap Entry.unusedIdents).map
      (unusedWarning (LineIndex.ofText p.text)) := calc
    c.warnings = Diagnostic.sort ((parse p.text).1.entries.flatMap fun e =>
        ((Scope.lastScope p.context e).bindings.filterMap Scope.unused?).map
          (Finding.place p.context.index)) := by
      rw [warnings_of_compile hc, findings_of_admissible hcompiled.whole hcompiled.admissible,
        List.map_flatMap]
      rfl
    _ = Diagnostic.sort (((parse p.text).1.entries.flatMap Entry.unusedIdents).map
        (unusedWarning (LineIndex.ofText p.text))) := by
      rw [hentries, ← List.map_flatMap]
    -- names that are in the order of the text need no sorting
    _ = _ := List.mergeSort_of_pairwise (hbefore.imp Position.le_of_before)
  refine ⟨hwarnings, hwarnings ▸ hbefore, fun id hid => ?_⟩
  obtain ⟨t, ht, rfl⟩ := hstand.exists_token (hsub.subset hid)
  exact ⟨⟨t, ht, rfl⟩, Program.tabled_of_token hsize ht⟩

/-- A name that is called but not read is warned about; a parameter and a name with an underscore
are not. -/
theorem warnings_are_unused_names_of_call :
    let p : Program := ⟨["text"], ["from l at _i in lines let trim = l select trim(l)"]⟩
    (encodeUtf8 p.text).length < UInt32.size ∧ ∃ c, compile p = .ok c ∧
    c.warnings.map (fun d => (d.message, d.position)) = [("unused binding `trim`", ⟨3, 27⟩)] ∧
    (c.warnings.Pairwise fun a b => a.position.Before b.position) := by
  intro p
  have hsize : (encodeUtf8 p.text).length < UInt32.size := by decide +kernel
  have hok : (compile p).toOption.isSome = true := by decide +kernel
  obtain ⟨c, hc⟩ := Option.isSome_iff_exists.mp hok
  obtain ⟨hwarnings, hbefore, -⟩ := warnings_are_unused_names hsize (eq_ok_of_toOption hc)
  refine ⟨hsize, c, eq_ok_of_toOption hc, ?_, hbefore⟩
  rw [hwarnings]
  decide +kernel

end LineQuery
