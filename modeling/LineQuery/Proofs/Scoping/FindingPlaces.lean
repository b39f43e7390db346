import LineQuery.Proofs.Grammar.FindingPlaces
import LineQuery.Proofs.Plans.Parts
import LineQuery.Proofs.Scoping.Verdict

/-! # Where resolving finds something

What is found when names are resolved is about a name, or about the source of the first `from`, and
the names that a scope holds are warned about when it is left. All of these start with a token of
their entry. And since names are resolved only if the parser found nothing, whatever is said about a
program stands where a token of its text starts, or at the end of the text.
-/

namespace LineQuery

open LineQuery.Syntax

/-! ## Scopes -/

namespace Scope

/-- What has been found in a scope and what it has bound starts with one of the tokens `ts`. -/
structure Placed (ts : List Token) (s : Scope) : Prop where
  findings : ∀ f ∈ s.findings, StartsAt ts f.span.start
  bindings : ∀ b ∈ s.bindings, StartsAt ts b.span.start

variable {ctx : ScopeContext} {ts : List Token} {s : Scope} {id : Ident}

namespace Placed

theorem report (h : Placed ts s) {f : Finding} (hf : StartsAt ts f.span.start) :
    Placed ts (s.report f) :=
  ⟨List.forall_mem_cons.mpr ⟨hf, h.findings⟩, h.bindings⟩

theorem markUsed (h : Placed ts s) (name : String) : Placed ts (s.markUsed name) := by
  refine ⟨h.findings, List.forall_mem_map.mpr fun b hb => ?_⟩
  split
  · exact h.bindings b hb
  · exact h.bindings b hb

/-- Reading the stream binds nothing and finds nothing. -/
theorem markStream (h : Placed ts s) : Placed ts s.markStream := by
  refine ⟨h.findings, fun b hb => ?_⟩
  obtain ⟨i, hi⟩ := List.getElem?_of_mem hb
  simp only [Scope.markStream, List.getElem?_modify, Option.map_eq_map] at hi
  obtain ⟨b', hb', rfl⟩ := Option.map_eq_some_iff.mp hi
  have hplaced := h.bindings b' (List.mem_of_getElem? hb')
  split
  · exact hplaced
  · exact hplaced

/-- A name that cannot be read is reported where it stands. -/
theorem lookup (h : Placed ts s) (hid : StartsAt ts id.span.start) :
    Placed ts (s.lookup id).2 := by
  unfold Scope.lookup
  split
  · exact h.report hid
  · split
    · exact h.markUsed id.name
    · exact (h.markUsed id.name).report hid

/-- A call that cannot be made is reported where the name of its function stands. -/
theorem resolveCall (h : Placed ts s) (hid : StartsAt ts id.span.start) (args : List Node)
    (pos : Position) : Placed ts (resolveCall ctx id args pos s).2 := by
  unfold Scope.resolveCall
  split
  · exact h
  · rename_i finding hfound
    have hspan : finding.span = id.span := by
      unfold findFunction at hfound
      split at hfound
      · exact Except.error.inj hfound ▸ rfl
      · dsimp only at hfound
        split at hfound
        · exact Except.error.inj hfound ▸ rfl
        · split at hfound
          · exact nomatch hfound
          · exact Except.error.inj hfound ▸ rfl
    exact h.report (hspan ▸ hid)

/-- A name that is bound twice is reported where it stands the second time. -/
theorem bind (h : Placed ts s) (hid : StartsAt ts id.span.start) (must : Bool) :
    Placed ts (s.bind id must).2 := by
  unfold Scope.bind
  split
  · exact h
  · split
    · exact h.report hid
    · exact ⟨h.findings, List.forall_mem_append.mpr ⟨h.bindings,
        List.forall_mem_singleton.mpr hid⟩⟩

theorem bindIndex (h : Placed ts s) {index : Option Ident}
    (hindex : ∀ id ∈ index, StartsAt ts id.span.start) : Placed ts (s.bindIndex index).2 := by
  cases index with
  | none => exact h
  | some id => exact h.bind (hindex id rfl) true

end Placed

end Scope

open Scope

/-! ## Expressions -/

namespace Syntax

variable {ctx : ScopeContext} {ts us : List Token} {s : Scope}

theorem startsAt_ident {t : Token} (ht : t ∈ ts) : StartsAt ts t.ident.span.start :=
  ⟨t, ht, rfl⟩

theorem resolveExpr_intExpr (t : Token) : (resolveExpr ctx t.intExpr s).2 = s := by
  unfold Token.intExpr
  split
  · rfl
  · rfl

mutual

/-- Whatever is found in an expression starts with a token of it. -/
theorem DerivesExpr.placed {above : Nat} {us : List Token} {e : Expr} : ∀ {s : Scope},
    DerivesExpr above us e → us ⊆ ts → Placed ts s → Placed ts (resolveExpr ctx e s).2
  | _, .operand h, hus, hs => h.placed hus hs
  | _, .binary _ _ hleft hright, hus, hs => by
    obtain ⟨hfirst, hrest⟩ := List.append_subset.mp hus
    exact hright.placed (List.cons_subset.mp hrest).2 (hleft.placed hfirst hs)

theorem DerivesOperand.placed {us : List Token} {e : Expr} : ∀ {s : Scope},
    DerivesOperand us e → us ⊆ ts → Placed ts s → Placed ts (resolveExpr ctx e s).2
  | _, .indexed h, hus, hs => h.placed hus hs
  | _, .unary _ h, hus, hs => h.placed (s := _) (List.cons_subset.mp hus).2 hs

theorem DerivesIndexed.placed {us : List Token} {e : Expr} : ∀ {s : Scope},
    DerivesIndexed us e → us ⊆ ts → Placed ts s → Placed ts (resolveExpr ctx e s).2
  | _, .primary h, hus, hs => h.placed hus hs
  | _, .index hbase _ hposition _, hus, hs => by
    obtain ⟨hfront, -⟩ := List.append_subset.mp hus
    obtain ⟨hfirst, hrest⟩ := List.append_subset.mp hfront
    exact hposition.placed (List.cons_subset.mp hrest).2 (hbase.placed hfirst hs)

/-- Whatever is found in a primary expression starts with a token of it. -/
theorem DerivesPrimary.placed {us : List Token} {e : Expr} : ∀ {s : Scope},
    DerivesPrimary us e → us ⊆ ts → Placed ts s → Placed ts (resolveExpr ctx e s).2
  | _, .int (t := t) _, _, hs => by
    rw [resolveExpr_intExpr]
    exact hs
  | _, .str _, _, hs => hs
  | _, .true _, _, hs => hs
  | _, .false _, _, hs => hs
  | _, .name _, hus, hs => hs.lookup (startsAt_ident (hus List.mem_cons_self))
  | _, .paren _ h _, hus, hs =>
    h.placed (List.cons_subset.mp (List.append_subset.mp hus).1).2 hs
  | _, .list _ h _, hus, hs =>
    h.placed (s := _) (List.cons_subset.mp (List.append_subset.mp hus).1).2 hs
  | _, .call _ _ h _, hus, hs => by
    obtain ⟨hname, hrest⟩ := List.cons_subset.mp (List.append_subset.mp hus).1
    exact (h.placed (List.cons_subset.mp hrest).2 hs).resolveCall (startsAt_ident hname) _ _

theorem DerivesItems.placed {us : List Token} {items : List Expr} : ∀ {s : Scope},
    DerivesItems us items → us ⊆ ts → Placed ts s → Placed ts (resolveExprs ctx items s).2
  | _, .none, _, hs => hs
  | _, .some h, hus, hs => h.placed hus hs

theorem DerivesItemsFrom.placed {us : List Token} {items : List Expr} : ∀ {s : Scope},
    DerivesItemsFrom us items → us ⊆ ts → Placed ts s → Placed ts (resolveExprs ctx items s).2
  | _, .last h, hus, hs => h.placed hus hs
  | _, .comma h _ hs', hus, hs => by
    obtain ⟨hfirst, hrest⟩ := List.append_subset.mp hus
    exact hs'.placed (List.cons_subset.mp hrest).2 (h.placed hfirst hs)

end

/-! ## Clauses and entries -/

/-- The names of a `from` are tokens of it. -/
theorem DerivesRange.startsAt {clause : FromClause} (h : DerivesRange us clause) (hus : us ⊆ ts) :
    StartsAt ts clause.var.span.start ∧ ∀ id ∈ clause.index, StartsAt ts id.span.start := by
  cases h with
  | plain => exact ⟨startsAt_ident (hus List.mem_cons_self), nofun⟩
  | indexed =>
    refine ⟨startsAt_ident (hus List.mem_cons_self), fun id hid => ?_⟩
    obtain rfl := Option.some.inj hid
    exact startsAt_ident (hus (List.mem_cons_of_mem _ (List.mem_cons_of_mem _ List.mem_cons_self)))

theorem DerivesClause.placed {clause : Clause} (h : DerivesClause us clause) (hus : us ⊆ ts)
    (hs : Placed ts s) : Placed ts (resolveClause ctx clause s).2 := by
  obtain ⟨vs, hvs, hexpr⟩ := h.exists_expr
  have hplaced : Placed ts (Scope.resolveExpr ctx clause.expr s).2 :=
    hexpr.placed (List.Subset.trans hvs.subset hus) hs
  cases h with
  | range _ hrange =>
    obtain ⟨hvar, hindex⟩ := hrange.startsAt (List.cons_subset.mp hus).2
    exact (hplaced.bind hvar true).bindIndex hindex
  | bind =>
    exact hplaced.bind (startsAt_ident (hus (List.mem_cons_of_mem _ List.mem_cons_self))) true
  | filter => exact hplaced
  | skip => exact hplaced
  | take => exact hplaced

/-- Whatever is found in clauses and `select` starts with a token of theirs. -/
theorem DerivesBody.placed {clauses : List Clause} {select : Expr}
    (h : DerivesBody us clauses select) (hus : us ⊆ ts) (hs : Placed ts s) :
    Placed ts (resolveBody ctx clauses select s).2.2 := by
  induction h generalizing s with
  | select _ h => exact h.placed (List.cons_subset.mp hus).2 hs
  | clause h _ ih =>
    obtain ⟨hfirst, hrest⟩ := List.append_subset.mp hus
    exact ih hrest (h.placed hfirst hs)

theorem DerivesParamsFrom.startsAt {params : List Ident} (h : DerivesParamsFrom us params)
    (hus : us ⊆ ts) : ∀ id ∈ params, StartsAt ts id.span.start := by
  induction h with
  | last => exact List.forall_mem_singleton.mpr (startsAt_ident (hus List.mem_cons_self))
  | comma _ _ _ ih =>
    obtain ⟨hfirst, hrest⟩ := List.cons_subset.mp hus
    exact List.forall_mem_cons.mpr ⟨startsAt_ident hfirst, ih (List.cons_subset.mp hrest).2⟩

theorem DerivesParams.startsAt {params : List Ident} (h : DerivesParams us params)
    (hus : us ⊆ ts) : ∀ id ∈ params, StartsAt ts id.span.start := by
  cases h with
  | none => exact nofun
  | some h => exact h.startsAt hus

end Syntax

namespace Scope

variable {ctx : ScopeContext} {ts : List Token} {s : Scope}

theorem placed_bindParams : ∀ (ids : List Ident) {s : Scope},
    (∀ id ∈ ids, StartsAt ts id.span.start) → Placed ts s → Placed ts (bindParams ids s).2
  | [], _, _, hs => hs
  | id :: ids, _, hids, hs => by
    obtain ⟨hid, hids⟩ := List.forall_mem_cons.mp hids
    exact placed_bindParams ids hids (hs.bind hid false)

theorem placed_enter {ids : List Ident} (hids : ∀ id ∈ ids, StartsAt ts id.span.start) :
    Placed ts (enter ids).2 := by
  cases ids with
  | nil => exact ⟨nofun, nofun⟩
  | cons stream params =>
    obtain ⟨hstream, hparams⟩ := List.forall_mem_cons.mp hids
    exact placed_bindParams params hparams ⟨nofun, List.forall_mem_singleton.mpr hstream⟩

/-- The first `from` is reported where its source starts. -/
theorem placed_resolveInput {us : List Token} {clause : FromClause} (h : DerivesRange us clause)
    (hus : us ⊆ ts) (horder : InOrder us) (stream : Option Ident) (hs : Placed ts s) :
    Placed ts (resolveInput ctx clause stream s).2 := by
  obtain ⟨vs, hvs, hsource⟩ := h.exists_source
  obtain ⟨hvar, hindex⟩ := h.startsAt hus
  have hplaced : Placed ts (resolveSource ctx clause.source stream s) := by
    unfold resolveSource
    split
    · exact hs.markStream
    · split
      · exact hs
      obtain ⟨t, ht, hstart⟩ := (hsource.startsIn (horder.sublist hvs.sublist)).exists_mem
      have hreported : Placed ts (s.report (notOverStream clause.source stream)) :=
        hs.report ⟨t, hus (hvs.subset ht), hstart⟩
      exact hsource.placed (List.Subset.trans hvs.subset hus) hreported
  exact (hplaced.bind hvar true).bindIndex hindex

/-- Whatever is found in an entry, and whatever it binds, starts with a token of it. -/
theorem placed_lastScope {e : Entry} (h : DerivesEntry ts e) (horder : InOrder ts) :
    Placed ts (lastScope ctx e) := by
  obtain ⟨ps, hps, hparams⟩ := h.exists_params
  obtain ⟨qs, hqs, hquery⟩ := h.exists_query
  obtain ⟨name, params, query⟩ := e
  cases hquery with
  | @mk word rs bs source clauses select _ hrange hbody =>
    have hrs : rs.Sublist ts :=
      ((List.sublist_cons_self word rs).trans (List.sublist_append_left _ _)).trans hqs
    have hbs : bs.Sublist ts := (List.sublist_append_right _ _).trans hqs
    have hinput : Placed ts (resolveInput ctx source params.head? (enter params).2).2 :=
      placed_resolveInput hrange hrs.subset (horder.sublist hrs) params.head?
        (placed_enter (hparams.startsAt hps.subset))
    exact hbody.placed hbs.subset hinput

/-- Whatever is said about an entry starts with a token of it. -/
theorem startsAt_of_resolveEntry {e : Entry} (h : DerivesEntry ts e) (horder : InOrder ts)
    {f : Finding} (hf : f ∈ (resolveEntry ctx e).2) : StartsAt ts f.span.start := by
  have hplaced : Placed ts (lastScope ctx e) := placed_lastScope h horder
  rw [resolveEntry_findings, leave] at hf
  rcases List.mem_append.mp hf with hf | hf
  · exact hplaced.findings f (List.mem_reverse.mp hf)
  · obtain ⟨b, hb, hunused⟩ := List.mem_filterMap.mp hf
    rw [eq_of_unused? hunused]
    exact hplaced.bindings b hb

end Scope

/-! ## Programs -/

theorem Syntax.StartsAt.mono {ts us : List Token} {n : Nat} (h : StartsAt ts n) (hsub : ts ⊆ us) :
    StartsAt us n := by
  obtain ⟨t, ht, hn⟩ := h
  exact ⟨t, hsub ht, hn⟩

theorem span_of_unknownLibrary? {id : Ident} {f : Finding} (h : unknownLibrary? id = some f) :
    f.span = id.span := by
  unfold unknownLibrary? at h
  split at h
  · exact nomatch h
  · exact Option.some.inj h ▸ rfl

/-- Whatever is said about the libraries or the entries of a document starts with a token of it. -/
theorem startsAt_of_found {ts : List Token} {d : Document} (h : DerivesDocument ts d)
    (horder : InOrder ts) {f : Finding}
    (hfound : (∃ id ∈ d.uses, unknownLibrary? id = some f) ∨
      ∃ ctx, ∃ e ∈ d.entries, f ∈ (resolveEntry ctx e).2) : StartsAt ts f.span.start := by
  induction h with
  | nil =>
    rcases hfound with ⟨id, hid, -⟩ | ⟨_, e, he, -⟩
    · exact nomatch hid
    · exact nomatch he
  | @use word x semicolon ts d _ _ _ _ ih =>
    have hrest := ih (horder.sublist (((List.sublist_cons_self semicolon ts).cons x).cons word))
    have hsub : ts ⊆ word :: x :: semicolon :: ts := fun t ht => by simp [ht]
    rcases hfound with ⟨id, hid, hunknown⟩ | hentry
    · rcases List.mem_cons.mp hid with rfl | hid
      · rw [span_of_unknownLibrary? hunknown]
        exact startsAt_ident (by simp)
      · exact (hrest (.inl ⟨id, hid, hunknown⟩)).mono hsub
    · exact (hrest (.inr hentry)).mono hsub
  | @entry ts us e d hentry _ ih =>
    have hfirst := horder.sublist (List.sublist_append_left ts us)
    have hrest := ih (horder.sublist (List.sublist_append_right ts us))
    rcases hfound with huse | ⟨ctx, e', he', hf⟩
    · exact (hrest (.inl huse)).mono (List.subset_append_right ts us)
    · rcases List.mem_cons.mp he' with rfl | he'
      · exact (startsAt_of_resolveEntry hentry hfirst hf).mono (List.subset_append_left ts us)
      · exact (hrest (.inr ⟨ctx, e', he', hf⟩)).mono (List.subset_append_right ts us)

/-- Whatever is found when the names of a document are resolved starts with a token of it. -/
theorem startsAt_of_resolve {ts : List Token} {d : Document} (h : DerivesDocument ts d)
    (horder : InOrder ts) {index : LineIndex} {lines : UserLines} {f : Finding}
    (hf : f ∈ (resolve index lines d).2) : StartsAt ts f.span.start := by
  refine startsAt_of_found h horder ?_
  rcases List.mem_append.mp hf with hf | hf
  · exact .inl (List.mem_filterMap.mp hf)
  · obtain ⟨_, hmem, hf⟩ := List.mem_flatMap.mp hf
    obtain ⟨e, he, rfl⟩ := List.mem_map.mp hmem
    exact .inr ⟨_, e, he, hf⟩

/-- Whatever compiling says about a program is about a span that starts with a token of its text, or
at the end of the text. -/
theorem exists_place_of_diagnostic {p : Program} {d : Diagnostic} (hd : d ∈ p.diagnostics) :
    ∃ f : Finding, d = f.place (LineIndex.ofText p.text) ∧
      Place (tokens p.text) p.text.utf8ByteSize f.span.start := by
  rw [Program.mem_diagnostics, p.reports_eq] at hd
  split at hd
  · rename_i hnil
    obtain ⟨f, hf, rfl⟩ := List.mem_map.mp hd
    obtain ⟨hderives, -⟩ := derives_of_parse hnil
    exact ⟨f, rfl, .inl (startsAt_of_resolve hderives (inOrder_scanFrom _ _ _) hf)⟩
  · obtain ⟨f, hf, rfl⟩ := List.mem_map.mp hd
    exact ⟨f, rfl, place_of_parse hf⟩

end LineQuery
