import LineQuery.Proofs.Diagnostic.Reports
import LineQuery.Proofs.Grammar.FrontEnd
import LineQuery.Proofs.Scoping.Entries

/-! # What compiling accepts

A program compiles exactly if its text is read without a finding and the document that was
read is admissible; warnings never keep it from compiling. What is compiled stands for the
document: it has one entry for each of the document's, lowered.
-/

namespace LineQuery

open LineQuery.Syntax (Ident Entry Document CallSite Site sitesFrom parse TakesArguments)

/-! ## Libraries and calls -/

theorem Library.ofName?_eq_some_iff {name : String} {l : Library} :
    Library.ofName? name = some l ↔ l.name = name := by
  constructor
  · intro h
    simpa using List.find?_some h
  · rintro rfl
    cases l <;> rfl

/-- Libraries that are declared twice are imported once. -/
theorem mem_foldl_insert {l : Library} : ∀ (ls found : List Library),
    l ∈ ls.foldl (fun found l => if l ∈ found then found else found ++ [l]) found ↔
      l ∈ found ∨ l ∈ ls
  | [], found => by simp
  | l' :: ls, found => by
      rw [List.foldl_cons, mem_foldl_insert ls]
      split
      · rename_i hmem
        constructor
        · rintro (h | h)
          · exact .inl h
          · exact .inr (List.mem_cons_of_mem _ h)
        · rintro (h | h)
          · exact .inl h
          · rcases List.mem_cons.mp h with rfl | h
            · exact .inl hmem
            · exact .inr h
      · simp [or_assoc]

/-- A library is imported exactly if its name is declared. -/
theorem mem_importedLibraries {uses : List Ident} {l : Library} :
    l ∈ importedLibraries uses ↔ ∃ library ∈ uses, library.name = l.name := by
  simp [importedLibraries, mem_foldl_insert, Library.ofName?_eq_some_iff, @eq_comm _ l.name]

/-- The names of the libraries. -/
theorem exists_library_iff {name : String} :
    (∃ l : Library, l.name = name) ↔ name ∈ ["core", "text", "tsv"] := by
  simp only [List.mem_cons, List.not_mem_nil, or_false]
  constructor
  · rintro ⟨l, rfl⟩
    cases l <;> simp [Library.name]
  · rintro (rfl | rfl | rfl)
    · exact ⟨.core, rfl⟩
    · exact ⟨.text, rfl⟩
    · exact ⟨.tsv, rfl⟩

/-- Nothing is reported about a declaration exactly if its library exists. -/
theorem unknownLibrary?_eq_none_iff {id : Ident} :
    unknownLibrary? id = none ↔ id.name ∈ ["core", "text", "tsv"] := by
  have hknown : (∃ l, Library.ofName? id.name = some l) ↔ id.name ∈ ["core", "text", "tsv"] := by
    simp only [Library.ofName?_eq_some_iff, exists_library_iff]
  rw [← hknown, unknownLibrary?]
  cases Library.ofName? id.name <;> simp

/-- The bounds that the resolver looks up admit the arguments that each function takes. -/
theorem accepts_iff {f : Builtin} {count : Nat} :
    f.accepts count = true ↔ TakesArguments f count := by
  have hmost : (f.most?.all fun most => count ≤ most) = true ↔
      ∀ most, f.most? = some most → count ≤ most := by
    cases f.most? <;> simp
  have hpairs : (f != .case || count % 2 == 0) = true ↔ (f = .case → count % 2 = 0) := by
    by_cases h : f = .case <;> simp [h]
  simp only [Builtin.accepts, Bool.and_eq_true, decide_eq_true_eq, hmost, hpairs, and_assoc]
  cases f with
  | case => simp [Builtin.least, Builtin.most?, TakesArguments]
  | _ =>
      simp only [Builtin.least, Builtin.most?, TakesArguments, Option.some.injEq, forall_eq',
        reduceCtorEq, false_implies, and_true]
      omega

/-- The resolver knows the calls that the static semantics admits. -/
theorem known_iff {uses : List Ident} {call : CallSite} :
    call.Known uses ↔ CallKnown (importedLibraries uses) call := by
  simp only [CallSite.Known, CallKnown, Builtin.ofName?_eq_some_iff, mem_importedLibraries,
    accepts_iff]

/-! ## Entries -/

section Sites

open LineQuery.Syntax (Expr Clause)

variable {select : Expr}

/-- One more name in front is in scope everywhere. -/
theorem sitesFrom_cons (x : String) : ∀ (clauses : List Clause) (bound : List String),
    sitesFrom (x :: bound) select clauses =
      (sitesFrom bound select clauses).map fun site => ⟨x :: site.scope, site.expr⟩
  | [], bound => rfl
  | clause :: clauses, bound => by
      rw [sitesFrom, sitesFrom, List.map_cons, List.cons_append, sitesFrom_cons x clauses]

/-- Only names that are bound at all are in scope anywhere. -/
theorem scope_subset : ∀ (clauses : List Clause) {bound : List String} {site : Site},
    site ∈ sitesFrom bound select clauses →
      site.scope ⊆ bound ++ clauses.flatMap Clause.binders
  | [], bound, site, h => by
      rw [List.mem_singleton.mp h, List.flatMap_nil, List.append_nil]
      exact List.Subset.refl _
  | clause :: clauses, bound, site, h => by
      rw [List.flatMap_cons, ← List.append_assoc]
      rcases List.mem_cons.mp h with rfl | h
      · exact List.subset_append_of_subset_left _ (List.subset_append_left _ _)
      · exact scope_subset clauses h

end Sites

/-- An entry with the stream `param` is admissible exactly if it can be resolved. -/
theorem admissible_iff_resolvable {uses : List Ident} {e : Entry} {param : Ident}
    {params : List Ident} (hparams : e.params = param :: params) : e.Admissible uses ↔
      Scope.EntryResolvable (importedLibraries uses) e param params := by
  have hnames : e.paramNames = param.name :: params.map (·.name) := by
    rw [Entry.paramNames, hparams, List.map_cons]
  have hstream : e.stream? = some param.name := by
    rw [Entry.stream?, hnames, List.head?_cons]
  have hsites : e.sites = (sitesFrom (params.map (·.name) ++ e.query.source.binders)
      e.query.select e.query.clauses).map fun site => ⟨param.name :: site.scope, site.expr⟩ := by
    rw [Entry.sites, hnames, List.cons_append, sitesFrom_cons]
  have hbinders : e.binders = param.name :: (params.map (·.name) ++ e.query.source.binders) ++
      e.query.clauses.flatMap Syntax.Clause.binders := by
    rw [Entry.binders, hnames]
    rfl
  constructor
  · intro h
    obtain ⟨id, hid, hname⟩ := h.overStream
    rw [hstream, Option.some.injEq] at hname
    refine ⟨hparams, ⟨id, hid, hname.symm⟩, hbinders ▸ h.distinct, fun site hsite => ⟨?_, ?_⟩⟩
    · intro x hx
      have hmem : (⟨param.name :: site.scope, site.expr⟩ : Site) ∈ e.sites :=
        hsites ▸ List.mem_map_of_mem hsite
      obtain ⟨hscope, hne⟩ := h.references _ hmem x hx
      refine (List.mem_cons.mp hscope).resolve_left fun heq => hne ?_
      rw [hstream, heq]
    · intro call hcall
      have hmem : (⟨param.name :: site.scope, site.expr⟩ : Site) ∈ e.sites :=
        hsites ▸ List.mem_map_of_mem hsite
      exact known_iff.mp (h.calls _ hmem call hcall)
  · intro h
    obtain ⟨id, hid, hname⟩ := h.overStream
    refine ⟨hparams ▸ List.cons_ne_nil _ _, hbinders ▸ h.body.distinct,
      ⟨id, hid, hname ▸ hstream⟩, ?_, ?_⟩
    · intro site hsite x hx
      rw [hsites] at hsite
      obtain ⟨site, hbare, rfl⟩ := List.mem_map.mp hsite
      have hscope := (h.body.sites site hbare).names x hx
      refine ⟨List.mem_cons_of_mem _ hscope, fun heq => ?_⟩
      -- The stream is bound once, so it is no name behind the parameters.
      rw [hstream, Option.some.injEq] at heq
      exact (List.nodup_cons.mp h.body.distinct).1 (heq ▸ scope_subset _ hbare hscope)
    · intro site hsite call hcall
      rw [hsites] at hsite
      obtain ⟨site, hbare, rfl⟩ := List.mem_map.mp hsite
      exact known_iff.mpr ((h.body.sites site hbare).calls call hcall)

/-- Resolving a whole entry goes without a finding exactly if the entry is admissible. -/
theorem lastScope_findings_iff {uses : List Ident} {ctx : ScopeContext} {e : Entry}
    (hw : e.Whole) (himports : ctx.imports = importedLibraries uses) :
    (Scope.lastScope ctx e).findings = [] ↔ e.Admissible uses := by
  rw [Scope.lastScope_findings ctx hw, himports]
  constructor
  · rintro ⟨param, params, h⟩
    exact (admissible_iff_resolvable h.paramList).mpr h
  · intro h
    obtain ⟨param, params, hparams⟩ := List.exists_cons_of_ne_nil h.params
    exact ⟨param, params, (admissible_iff_resolvable hparams).mp h⟩

/-! ## Errors -/

/-- What is said about a binding that is never read. -/
theorem eq_of_unused? {b : Binding} {f : Finding} (h : Scope.unused? b = some f) :
    f = { code := .unusedBinding, message := "unused binding `" ++ b.name ++ "`", span := b.span,
          help := ["rename it to `_" ++ b.name ++ "` to silence this warning"] } := by
  unfold Scope.unused? at h
  split at h
  · exact (Option.some.inj h).symm
  · exact nomatch h

/-- That a binding is never read is a warning. -/
theorem severity_of_unused? {b : Binding} {f : Finding} (h : Scope.unused? b = some f) :
    f.severity = .warning := by
  rw [eq_of_unused? h]
  rfl

/-- An entry is left with an error exactly if something was found in it. -/
theorem exists_error_leave_iff {s : Scope} (h : Scope.Reports Scope.empty s) :
    (∃ f ∈ s.leave, f.severity = .error) ↔ s.findings ≠ [] := by
  constructor
  · rintro ⟨f, hf, hsev⟩ hnil
    -- What is left are warnings about bindings that are never read.
    rw [Scope.leave, hnil, List.reverse_nil, List.nil_append] at hf
    obtain ⟨b, -, hb⟩ := List.mem_filterMap.mp hf
    rw [severity_of_unused? hb] at hsev
    exact nomatch hsev
  · intro hne
    obtain ⟨f, fs, hcons⟩ := List.exists_cons_of_ne_nil hne
    have hmem : f ∈ s.findings := hcons ▸ List.mem_cons_self ..
    exact ⟨f, List.mem_append_left _ (List.mem_reverse.mpr hmem), h.severity_eq hmem⟩

theorem severity_of_unknownLibrary? {id : Ident} {f : Finding} (h : unknownLibrary? id = some f) :
    f.severity = .error := by
  unfold unknownLibrary? at h
  split at h
  · exact nomatch h
  · exact Option.some.inj h ▸ rfl

/-- Resolving a whole document finds no error exactly if the document is admissible. -/
theorem no_error_resolve_iff (index : LineIndex) (lines : UserLines) {d : Document}
    (hw : d.Whole) : (¬ ∃ f ∈ (resolve index lines d).2, f.severity = .error) ↔ d.Admissible := by
  have hentry : ∀ e ∈ d.entries,
      (¬ ∃ f ∈ (Scope.resolveEntry ⟨index, lines, importedLibraries d.uses⟩ e).2,
        f.severity = .error) ↔ e.Admissible d.uses := fun e he => by
    rw [Scope.resolveEntry_findings, exists_error_leave_iff (Scope.reports_lastScope _ e),
      not_not, lastScope_findings_iff (hw.entries e he) rfl]
  constructor
  · intro h
    refine ⟨fun id hid => unknownLibrary?_eq_none_iff.mp ?_, fun e he => (hentry e he).mp ?_⟩
    · cases hlib : unknownLibrary? id with
      | none => rfl
      | some f =>
          refine absurd ⟨f, ?_, severity_of_unknownLibrary? hlib⟩ h
          exact List.mem_append_left _ (List.mem_filterMap.mpr ⟨id, hid, hlib⟩)
    · rintro ⟨f, hf, hsev⟩
      refine h ⟨f, List.mem_append_right _ (List.mem_flatMap.mpr ?_), hsev⟩
      exact ⟨_, List.mem_map_of_mem he, hf⟩
  · rintro ⟨hlibraries, hentries⟩ ⟨f, hf, hsev⟩
    rcases List.mem_append.mp hf with hf | hf
    · obtain ⟨id, hid, hlib⟩ := List.mem_filterMap.mp hf
      rw [unknownLibrary?_eq_none_iff.mpr (hlibraries id hid)] at hlib
      exact nomatch hlib
    · obtain ⟨_, hmem, hf⟩ := List.mem_flatMap.mp hf
      obtain ⟨e, he, rfl⟩ := List.mem_map.mp hmem
      exact (hentry e he).mpr (hentries e he) ⟨f, hf, hsev⟩

/-! ## Compiling -/

/-- A program is compiled if reading and resolving find no error, and then to what resolving
makes of it. -/
theorem compile_eq_ok_iff {p : Program} {c : Compilation} : compile p = .ok c ↔
    ((¬ ∃ f ∈ (parse p.text).2, f.severity = .error) ∧
      ¬ ∃ f ∈ (resolve (LineIndex.ofText p.text) p.userLines (parse p.text).1).2,
        f.severity = .error) ∧
    c = ⟨(resolve (LineIndex.ofText p.text) p.userLines (parse p.text).1).1,
      Diagnostic.sort p.reports⟩ := by
  have hplace : ∀ findings : List Finding,
      (findings.map (Finding.place (LineIndex.ofText p.text))).any Diagnostic.isError = true ↔
        ∃ f ∈ findings, f.severity = .error := fun findings => by
    simp [Diagnostic.isError, Finding.place]
  have hread := hplace (parse p.text).2
  have hresolved := hplace (resolve (LineIndex.ofText p.text) p.userLines (parse p.text).1).2
  rw [← Program.readingReports] at hread
  rw [← Program.resolvingReports] at hresolved
  rw [compile_eq, Program.reports, ← hread, ← hresolved]
  by_cases herror : p.readingReports.any Diagnostic.isError = true
  · simp [herror]
  · rw [if_neg herror, List.any_append, Bool.eq_false_iff.mpr herror, Bool.false_or]
    by_cases herror' : p.resolvingReports.any Diagnostic.isError = true
    · simp [herror']
    · simp [herror', eq_comm]

/-- Reading finds no error exactly if it finds nothing. -/
theorem no_error_parse_iff {text : String} :
    (¬ ∃ f ∈ (parse text).2, f.severity = .error) ↔ (parse text).2 = [] := by
  constructor
  · intro h
    rw [List.eq_nil_iff_forall_not_mem]
    exact fun f hf => h ⟨f, hf, Syntax.severity_of_parse hf⟩
  · rintro h ⟨f, hf, -⟩
    rw [h] at hf
    exact nomatch hf

/-- What is reported is what the parser found, or if it found nothing, what was found when names
were resolved. -/
theorem Program.reports_eq (p : Program) : p.reports =
    if (parse p.text).2 = [] then p.resolvingReports else p.readingReports := by
  have herror : p.readingReports.any Diagnostic.isError = true ↔
      ∃ f ∈ (parse p.text).2, f.severity = .error := by
    simp [Program.readingReports, Diagnostic.isError, Finding.place]
  rw [Program.reports]
  by_cases hnil : (parse p.text).2 = []
  · have hnothing : p.readingReports = [] := by rw [Program.readingReports, hnil, List.map_nil]
    rw [if_neg (fun h => no_error_parse_iff.mpr hnil (herror.mp h)), if_pos hnil, hnothing,
      List.nil_append]
  · rw [if_pos, if_neg hnil]
    by_contra hnone
    exact hnil (no_error_parse_iff.mp fun h => hnone (herror.mpr h))

theorem eq_ok_of_toOption {ε α : Type} {x : Except ε α} {a : α} (h : x.toOption = some a) :
    x = .ok a := by
  cases x with
  | ok b => exact congrArg _ (Option.some.inj h)
  | error e => exact nomatch h

/-- Nothing is missing in a document that was read without a finding. -/
theorem whole_of_parse {text : String} (hread : (parse text).2 = []) :
    (parse text).1.Whole := by
  obtain ⟨hderives, husable⟩ := Syntax.derives_of_parse hread
  exact hderives.whole husable

/-- Where the placeholder stands among the names that an entry binds, or a hole is the source of a
first `from`, names are not resolved at all: what compiling answers is what the parser said. So
the guards of `Scope.bind` and `Scope.resolveSource` against the two are never reached. -/
theorem compile_of_missing {p : Program} {e : Entry} (he : e ∈ (parse p.text).1.entries)
    (hmissing : (∃ id ∈ e.params ++ e.idents, id.isMissing = true) ∨
      e.query.source.source.isHole = true) :
    compile p = .error (Diagnostic.sort p.readingReports) := by
  have hread : (parse p.text).2 ≠ [] := by
    intro hnil
    have hw := (whole_of_parse hnil).entries e he
    rcases hmissing with ⟨id, hid, hname⟩ | hhole
    · rw [Ident.isMissing_eq_false (hw.present id hid)] at hname
      exact nomatch hname
    · rw [Syntax.Expr.isHole_eq_false hw.query.source.source] at hhole
      exact nomatch hhole
  have hreports : p.reports = p.readingReports := by rw [p.reports_eq, if_neg hread]
  obtain ⟨f, hf, herror⟩ := not_not.mp fun hnone => hread (no_error_parse_iff.mp hnone)
  have hany : p.readingReports.any Diagnostic.isError = true :=
    List.any_eq_true.mpr ⟨f.place _, List.mem_map_of_mem hf, by simp [Diagnostic.isError,
      Finding.place, herror]⟩
  rw [compile_eq, hreports, if_pos hany]

/-- A program compiles exactly if its text is read without a finding and the document that
was read is admissible. -/
theorem compiles_iff_admissible (p : Program) :
    (∃ c, compile p = .ok c) ↔ (parse p.text).2 = [] ∧ (parse p.text).1.Admissible := by
  have hresolved (hread : (parse p.text).2 = []) :=
    no_error_resolve_iff (LineIndex.ofText p.text) p.userLines (whole_of_parse hread)
  constructor
  · rintro ⟨c, hc⟩
    obtain ⟨hread, hnone⟩ := (compile_eq_ok_iff.mp hc).1
    rw [no_error_parse_iff] at hread
    exact ⟨hread, (hresolved hread).mp hnone⟩
  · rintro ⟨hread, hadmissible⟩
    have hnone := (hresolved hread).mpr hadmissible
    exact ⟨_, compile_eq_ok_iff.mpr ⟨⟨no_error_parse_iff.mpr hread, hnone⟩, rfl⟩⟩

/-- A call of `case` needs a default beside its pairs, and a name is not in scope in its own
clause. -/
theorem compiles_iff_admissible_of_case :
    let whole : Program := ⟨["core"], ["from l in lines select case(l, \"a\", 1, 0)"]⟩
    let short : Program := ⟨["core"], ["from l in lines select case(l, \"a\", 1)"]⟩
    let early : Program := ⟨["core"], ["from l in lines let _n = _n select l"]⟩
    ((∃ c, compile whole = .ok c) ∧ (parse whole.text).1.Admissible) ∧
    ∀ p ∈ [short, early], (parse p.text).2 = [] ∧ (¬ ∃ c, compile p = .ok c) ∧
      ¬ (parse p.text).1.Admissible := by
  intro whole short early
  have hwhole : (compile whole).toOption.isSome = true := by decide +kernel
  have hparsed : ∀ p ∈ [short, early], (parse p.text).2 = [] := by decide +kernel
  have hrefused : ∀ p ∈ [short, early], (compile p).toOption.isSome = false := by decide +kernel
  constructor
  · obtain ⟨c, hc⟩ := Option.isSome_iff_exists.mp hwhole
    have hcompiles : ∃ c, compile whole = .ok c := ⟨c, eq_ok_of_toOption hc⟩
    exact ⟨hcompiles, ((compiles_iff_admissible whole).mp hcompiles).2⟩
  · intro p hp
    have hfails : ¬ ∃ c, compile p = .ok c := by
      rintro ⟨c, hc⟩
      have hrefused := hrefused p hp
      rw [hc] at hrefused
      exact nomatch hrefused
    exact ⟨hparsed p hp, hfails, fun h =>
      hfails ((compiles_iff_admissible p).mpr ⟨hparsed p hp, h⟩)⟩

/-! ## What is compiled -/

/-- What the names of a program are resolved in. -/
def Program.context (p : Program) : ScopeContext :=
  ⟨LineIndex.ofText p.text, p.userLines, importedLibraries (parse p.text).1.uses⟩

/-- A compiled program: its document derives from its text and is whole and admissible, and
each entry of the artifact stands for one of the document. -/
structure Compiled (p : Program) (c : Compilation) : Prop where
  read : (parse p.text).2 = []
  whole : (parse p.text).1.Whole
  admissible : (parse p.text).1.Admissible
  entries : c.artifact.entries =
    (parse p.text).1.entries.map fun e => (Scope.resolveEntry p.context e).1
  format : c.artifact.formatVersion = Artifact.currentFormat
  lowers : ∀ e ∈ (parse p.text).1.entries,
    LowersEntry p.context e (Scope.resolveEntry p.context e).1

/-- What compiling gives stands for the document that was read. -/
theorem compiled_of_ok {p : Program} {c : Compilation} (h : compile p = .ok c) :
    Compiled p c := by
  obtain ⟨⟨hread, hresolved⟩, rfl⟩ := compile_eq_ok_iff.mp h
  rw [no_error_parse_iff] at hread
  have hwhole := whole_of_parse hread
  rw [no_error_resolve_iff _ _ hwhole] at hresolved
  refine ⟨hread, hwhole, hresolved, by simp [resolve, Program.context], rfl, fun e he => ?_⟩
  exact Scope.lowersEntry_resolveEntry (hwhole.entries e he)
    ((lastScope_findings_iff (hwhole.entries e he) rfl).mpr (hresolved.entries e he))

/-! ## Warnings -/

/-- The warnings about a compiled program are what was found when its names were resolved. -/
theorem warnings_of_compile {p : Program} {c : Compilation} (h : compile p = .ok c) :
    c.warnings = Diagnostic.sort
      ((resolve (LineIndex.ofText p.text) p.userLines (parse p.text).1).2.map
        (Finding.place (LineIndex.ofText p.text))) := by
  have hread := (compiled_of_ok h).read
  obtain ⟨-, rfl⟩ := compile_eq_ok_iff.mp h
  dsimp only
  rw [p.reports_eq, if_pos hread, Program.resolvingReports]

/-- Nothing is found in a whole admissible document but bindings that are never read. -/
theorem findings_of_admissible {index : LineIndex} {lines : UserLines} {d : Document}
    (hw : d.Whole) (h : d.Admissible) : (resolve index lines d).2 = d.entries.flatMap fun e =>
      (Scope.lastScope ⟨index, lines, importedLibraries d.uses⟩ e).bindings.filterMap
        Scope.unused? := by
  have huses : d.uses.filterMap unknownLibrary? = [] :=
    List.filterMap_eq_nil_iff.mpr fun id hid => unknownLibrary?_eq_none_iff.mpr (h.libraries id hid)
  unfold resolve
  dsimp only
  rw [huses, List.nil_append, List.flatMap_map]
  refine List.flatMap_congr fun e he => ?_
  have hnil := (@lastScope_findings_iff _ ⟨index, lines, importedLibraries d.uses⟩ e
    (hw.entries e he) rfl).mpr (h.entries e he)
  rw [Scope.resolveEntry_findings, Scope.leave, hnil, List.reverse_nil, List.nil_append]

end LineQuery
