import LineQuery.Proofs.Grammar.Whole
import LineQuery.Proofs.Scoping.Layout
import LineQuery.Proofs.Scoping.Lowering

/-! # Resolving the names of an entry

What resolving reports and what it makes, for each part of an entry. Each part is described
by two statements over scopes without findings: it stays without a finding exactly if the
part obeys the static semantics, and if it does, the node or step made of it stands for it
and the names that it binds have the next slots.
-/

namespace LineQuery

open LineQuery.Syntax (Ident Expr FromClause Clause Query Entry CallSite Site)

/-! ## Functions -/

theorem Builtin.ofName?_eq_some_iff {name : String} {f : Builtin} :
    Builtin.ofName? name = some f ↔ f.name = name := by
  constructor
  · intro h
    simpa using List.find?_some h
  · rintro rfl
    cases f <;> rfl

/-- A call of a function of one of the libraries `imports` with as many arguments as it
takes. -/
def CallKnown (imports : List Library) (call : CallSite) : Prop :=
  ∃ f, Builtin.ofName? call.function = some f ∧ f.library ∈ imports ∧
    f.accepts call.count = true

namespace Scope

/-- A function is found by its name, its library, and the number of arguments. -/
theorem findFunction_eq_ok_iff {imports : List Library} {id : Ident} {count : Nat}
    {f : Builtin} : findFunction imports id count = .ok f ↔
      Builtin.ofName? id.name = some f ∧ f.library ∈ imports ∧ f.accepts count = true := by
  unfold findFunction
  cases hname : Builtin.ofName? id.name with
  | none => simp
  | some g =>
      by_cases hlib : g.library ∈ imports
      · by_cases hacc : g.accepts count = true
        · simp only [hlib, not_true_eq_false, ↓reduceIte, hacc, Except.ok.injEq, Option.some.injEq]
          exact ⟨fun h => h ▸ ⟨rfl, hlib, hacc⟩, fun h => h.1⟩
        · simp only [hlib, not_true_eq_false, ↓reduceIte, hacc, Bool.false_eq_true, reduceCtorEq,
            Option.some.injEq, false_iff, not_and]
          rintro rfl _
          exact hacc
      · simp only [hlib, not_false_eq_true, ↓reduceIte, reduceCtorEq, Option.some.injEq, false_iff,
          not_and]
        rintro rfl h
        exact absurd h hlib

theorem severity_of_findFunction {imports : List Library} {id : Ident} {count : Nat}
    {finding : Finding} (h : findFunction imports id count = .error finding) :
    finding.severity = .error := by
  unfold findFunction at h
  split at h
  · exact Except.error.inj h ▸ rfl
  · split at h
    · exact Except.error.inj h ▸ rfl
    · split at h
      · exact absurd h nofun
      · exact Except.error.inj h ▸ rfl

/-- A call is known exactly if its function is found. -/
theorem callKnown_iff {imports : List Library} {id : Ident} {count : Nat} :
    CallKnown imports ⟨id.name, count⟩ ↔ ∃ f, findFunction imports id count = .ok f := by
  simp only [CallKnown, findFunction_eq_ok_iff]

/-! ## Expressions -/

/-- An expression that can be resolved where `bound` are the names with slots. -/
structure Resolvable (imports : List Library) (bound : List String) (e : Expr) : Prop where
  names : ∀ x ∈ e.namesRead, x ∈ bound
  calls : ∀ call ∈ e.calls, CallKnown imports call

structure ResolvableAll (imports : List Library) (bound : List String) (es : List Expr) :
    Prop where
  names : ∀ x ∈ Expr.namesReadAll es, x ∈ bound
  calls : ∀ call ∈ Expr.callsAll es, CallKnown imports call

section Forms

variable {imports : List Library} {bound : List String}

/-- Two operands are resolvable if each of them is. -/
theorem resolvable_binary {op left right span} :
    Resolvable imports bound (.binary op left right span) ↔
      Resolvable imports bound left ∧ Resolvable imports bound right := by
  constructor
  · rintro ⟨hv, hc⟩
    simp only [Expr.namesRead, Expr.calls, List.mem_append] at hv hc
    exact ⟨⟨fun x h => hv x (Or.inl h), fun c h => hc c (Or.inl h)⟩,
      ⟨fun x h => hv x (Or.inr h), fun c h => hc c (Or.inr h)⟩⟩
  · rintro ⟨⟨hv, hc⟩, ⟨hv', hc'⟩⟩
    constructor <;> simp only [Expr.namesRead, Expr.calls, List.mem_append]
    · exact fun x h => h.elim (hv x) (hv' x)
    · exact fun c h => h.elim (hc c) (hc' c)

/-- Indexing reads and calls what an operator of two operands does. -/
theorem resolvable_index {base position span} :
    Resolvable imports bound (.index base position span) ↔
      Resolvable imports bound base ∧ Resolvable imports bound position := by
  have hbinary : Resolvable imports bound (.binary .add base position span) ↔
      Resolvable imports bound base ∧ Resolvable imports bound position := resolvable_binary
  rw [← hbinary]
  exact ⟨fun h => ⟨h.names, h.calls⟩, fun h => ⟨h.names, h.calls⟩⟩

theorem resolvable_call {id args span} :
    Resolvable imports bound (.call id args span) ↔
      ResolvableAll imports bound args ∧ CallKnown imports ⟨id.name, args.length⟩ := by
  constructor
  · rintro ⟨hv, hc⟩
    simp only [Expr.namesRead, Expr.calls, List.mem_append, List.mem_singleton] at hv hc
    exact ⟨⟨hv, fun c h => hc c (Or.inl h)⟩, hc _ (Or.inr rfl)⟩
  · rintro ⟨⟨hv, hc⟩, hknown⟩
    constructor <;> simp only [Expr.namesRead, Expr.calls, List.mem_append, List.mem_singleton]
    · exact hv
    · exact fun c h => h.elim (hc c) (fun heq => heq ▸ hknown)

theorem resolvableAll_cons {e es} :
    ResolvableAll imports bound (e :: es) ↔
      Resolvable imports bound e ∧ ResolvableAll imports bound es := by
  constructor
  · rintro ⟨hv, hc⟩
    simp only [Expr.namesReadAll, Expr.callsAll, List.mem_append] at hv hc
    exact ⟨⟨fun x h => hv x (Or.inl h), fun c h => hc c (Or.inl h)⟩,
      ⟨fun x h => hv x (Or.inr h), fun c h => hc c (Or.inr h)⟩⟩
  · rintro ⟨⟨hv, hc⟩, ⟨hv', hc'⟩⟩
    constructor <;> simp only [Expr.namesReadAll, Expr.callsAll, List.mem_append]
    · exact fun x h => h.elim (hv x) (hv' x)
    · exact fun c h => h.elim (hc c) (hc' c)

end Forms

theorem reads_resolveCall (ctx : ScopeContext) (id : Ident) (args : List Node)
    (pos : Position) (s : Scope) : Reads s (resolveCall ctx id args pos s).2 := by
  unfold resolveCall
  split
  · exact Reads.refl s
  · rename_i finding hfound
    exact reads_report s (severity_of_findFunction hfound)

/-- A call goes without a finding exactly if it is known. -/
theorem resolveCall_findings {ctx : ScopeContext} {id : Ident} {args : List Node}
    {pos : Position} {s : Scope} : (resolveCall ctx id args pos s).2.findings = [] ↔
      s.findings = [] ∧ CallKnown ctx.imports ⟨id.name, args.length⟩ := by
  rw [callKnown_iff]
  unfold resolveCall
  cases findFunction ctx.imports id args.length with
  | ok f => simp
  | error finding => simp [report]

mutual

/-- Expressions bind no names. -/
theorem reads_resolveExpr (ctx : ScopeContext) :
    ∀ (e : Expr) (s : Scope), Reads s (resolveExpr ctx e s).2
  | .int _ _, s | .str _ _, s | .bool _ _, s | .hole _, s => Reads.refl s
  | .name id, s => reads_lookup s id
  | .list items _, s => reads_resolveExprs ctx items s
  | .unary _ operand _, s => reads_resolveExpr ctx operand s
  | .binary _ left right _, s =>
      (reads_resolveExpr ctx left s).trans (reads_resolveExpr ctx right _)
  | .index base position _, s =>
      (reads_resolveExpr ctx base s).trans (reads_resolveExpr ctx position _)
  | .call id args _, s =>
      (reads_resolveExprs ctx args s).trans (reads_resolveCall ctx id _ _ _)

theorem reads_resolveExprs (ctx : ScopeContext) :
    ∀ (es : List Expr) (s : Scope), Reads s (resolveExprs ctx es s).2
  | [], s => Reads.refl s
  | e :: es, s => (reads_resolveExpr ctx e s).trans (reads_resolveExprs ctx es _)

end

theorem length_resolveExprs (ctx : ScopeContext) :
    ∀ (es : List Expr) (s : Scope), (resolveExprs ctx es s).1.length = es.length
  | [], _ => rfl
  | _ :: es, _ => congrArg (· + 1) (length_resolveExprs ctx es _)

/-- Two readings one after the other stay without a finding exactly if each does. -/
theorem Layout.nil_iff_and {s s' s'' : Scope} {stream : String} {bound : List String}
    {P Q : Prop} (h : Layout s stream bound) (hr : Reads s s') (hr' : Reads s' s'')
    (hfirst : s'.findings = [] ↔ P)
    (hsecond : Layout s' stream bound → (s''.findings = [] ↔ Q)) :
    s''.findings = [] ↔ P ∧ Q := by
  constructor
  · intro hnil
    -- The second reading takes nothing back, so the first one has kept the layout.
    have hnil' := hr'.reports.nil_of_nil hnil
    exact ⟨hfirst.mp hnil', (hsecond (h.of_reads hr hnil')).mp hnil⟩
  · rintro ⟨hp, hq⟩
    exact (hsecond (h.of_reads hr (hfirst.mpr hp))).mpr hq

section Expressions

variable {ctx : ScopeContext} {stream : String} {bound : List String}

mutual

/-- An expression is resolved without a finding exactly if its names have slots and its calls
are known. -/
theorem resolveExpr_findings : ∀ (e : Expr) {s : Scope}, Layout s stream bound →
    ((resolveExpr ctx e s).2.findings = [] ↔ Resolvable ctx.imports bound e)
  | .int _ _, s, h | .str _ _, s, h | .bool _ _, s, h | .hole _, s, h => by
      simp only [resolveExpr, h.findings, true_iff]
      exact ⟨fun x hx => absurd hx (List.not_mem_nil), fun c hc => absurd hc (List.not_mem_nil)⟩
  | .name id, s, h => by
      simp only [resolveExpr, h.lookup_findings]
      constructor
      · intro hmem
        refine ⟨fun x hx => ?_, fun c hc => absurd hc (List.not_mem_nil)⟩
        rw [Expr.namesRead, List.mem_singleton] at hx
        exact hx ▸ hmem
      · intro hres
        exact hres.names id.name (List.mem_singleton_self _)
  | .list items _, s, h => by
      rw [resolveExpr, resolveExprs_findings items h]
      exact ⟨fun hr => ⟨hr.names, hr.calls⟩, fun hr => ⟨hr.names, hr.calls⟩⟩
  | .unary _ operand _, s, h => by
      rw [resolveExpr, resolveExpr_findings operand h]
      exact ⟨fun hr => ⟨hr.names, hr.calls⟩, fun hr => ⟨hr.names, hr.calls⟩⟩
  -- the right operand is resolved in the scope that the left one leaves
  | .binary _ left right _, s, h => by
      rw [resolveExpr, resolvable_binary]
      exact h.nil_iff_and (reads_resolveExpr ctx left s) (reads_resolveExpr ctx right _)
        (resolveExpr_findings left h) (resolveExpr_findings right)
  | .index base position _, s, h => by
      rw [resolveExpr, resolvable_index]
      exact h.nil_iff_and (reads_resolveExpr ctx base s) (reads_resolveExpr ctx position _)
        (resolveExpr_findings base h) (resolveExpr_findings position)
  | .call id args _, s, h => by
      rw [resolveExpr, resolvable_call, resolveCall_findings, resolveExprs_findings args h,
        length_resolveExprs]

/-- Expressions are resolved without a finding exactly if each of them is. -/
theorem resolveExprs_findings : ∀ (es : List Expr) {s : Scope}, Layout s stream bound →
    ((resolveExprs ctx es s).2.findings = [] ↔ ResolvableAll ctx.imports bound es)
  | [], s, h => by
      simp only [resolveExprs, h.findings, true_iff]
      exact ⟨fun x hx => absurd hx (List.not_mem_nil), fun c hc => absurd hc (List.not_mem_nil)⟩
  | e :: es, s, h => by
      rw [resolveExprs, resolvableAll_cons]
      exact h.nil_iff_and (reads_resolveExpr ctx e s) (reads_resolveExprs ctx es _)
        (resolveExpr_findings e h) (resolveExprs_findings es)

end

/-- The scope behind an expression that is resolved without a finding. -/
theorem Layout.resolveExpr {s : Scope} (h : Layout s stream bound) (e : Expr)
    (hnil : (Scope.resolveExpr ctx e s).2.findings = []) :
    Layout (Scope.resolveExpr ctx e s).2 stream bound :=
  h.of_reads (reads_resolveExpr ctx e s) hnil

mutual

/-- The node made of a whole expression without a finding stands for it. -/
theorem lowers_resolveExpr : ∀ (e : Expr) {s : Scope}, Layout s stream bound → e.Whole →
    (resolveExpr ctx e s).2.findings = [] → Lowers ctx bound e (resolveExpr ctx e s).1
  | .int _ _, _, _, _, _ => .int
  | .str _ _, _, _, _, _ => .str
  | .bool _ _, _, _, _, _ => .bool
  | .hole _, _, _, hw, _ => absurd hw (by simp [Expr.Whole])
  | .name id, s, h, _, hnil => by
      obtain ⟨i, hi⟩ := List.getElem?_of_mem ((h.lookup_findings id).mp hnil)
      simp only [resolveExpr, h.lookup_slot hi]
      exact .name hi
  | .list items _, s, h, hw, hnil => .list (lowersAll_resolveExprs items h hw hnil)
  | .unary _ operand _, s, h, hw, hnil => .unary (lowers_resolveExpr operand h hw hnil)
  | .binary _ left right _, s, h, hw, hnil => by
      have hnil' := (reads_resolveExpr ctx right _).reports.nil_of_nil hnil
      exact .binary (lowers_resolveExpr left h hw.1 hnil')
        (lowers_resolveExpr right (h.resolveExpr left hnil') hw.2 hnil)
  | .index base position _, s, h, hw, hnil => by
      have hnil' := (reads_resolveExpr ctx position _).reports.nil_of_nil hnil
      exact .index (lowers_resolveExpr base h hw.1 hnil')
        (lowers_resolveExpr position (h.resolveExpr base hnil') hw.2 hnil)
  | .call id args span, s, h, hw, hnil => by
      -- The function is looked up behind the arguments, by their number.
      simp only [resolveExpr] at hnil ⊢
      obtain ⟨hargs, hknown⟩ := resolveCall_findings.mp hnil
      obtain ⟨f, hf⟩ := callKnown_iff.mp hknown
      obtain ⟨hname, _, hacc⟩ := findFunction_eq_ok_iff.mp hf
      rw [length_resolveExprs] at hacc
      rw [resolveCall, hf]
      exact .call hname hacc (lowersAll_resolveExprs args h hw.2 hargs)

theorem lowersAll_resolveExprs : ∀ (es : List Expr) {s : Scope}, Layout s stream bound →
    Expr.WholeAll es → (resolveExprs ctx es s).2.findings = [] →
    LowersAll ctx bound es (resolveExprs ctx es s).1
  | [], _, _, _, _ => .nil
  | e :: es, s, h, hw, hnil => by
      have hnil' := (reads_resolveExprs ctx es _).reports.nil_of_nil hnil
      exact .cons (lowers_resolveExpr e h hw.1 hnil')
        (lowersAll_resolveExprs es (h.resolveExpr e hnil') hw.2 hnil)

end

end Expressions

end Scope

end LineQuery
