import LineQuery.Proofs.Grammar.Sizes
import LineQuery.Proofs.Scoping.Verdict
import LineQuery.Proofs.Store.Plans

/-! # Compiled programs fit in their files

The lengths in a compiled program are bounded by the size of its text, so they have room in their
fields, even if a hundred bytes come on top for the message that a name stands in. Of lines and
columns nothing is known but that they are refused if they are too large.
-/

namespace LineQuery

open LineQuery.Syntax (Ident Expr Clause Entry Document parse)

/-- How many bytes a text in memory has at most: no more than can be told apart by signed offsets
of eight bytes. -/
abbrev longestText : Nat := 0x7FFFFFFFFFFFFFFF

variable {n : Nat} {ctx : ScopeContext} {bound : List String}

theorem Position.fits_true (p : Position) : p.Fits fun _ => True := ⟨trivial, trivial⟩

theorem textFits_of_size_le {s : String} (h : Text.size s ≤ n) (hn : n + 100 < eightBytes) :
    TextFits s := by
  unfold TextFits
  unfold Text.size at h
  omega

/-! ## Plans -/

mutual

/-- What an expression becomes fits. -/
theorem Lowers.fits (hn : n + 100 < eightBytes) (hbound : bound.length ≤ n) {e : Expr}
    {node : Node} : Lowers ctx bound e node → e.Within n → node.Fits fun _ => True
  | .int, _ => ⟨trivial, Position.fits_true _⟩
  | .str, h => ⟨textFits_of_size_le h hn, Position.fits_true _⟩
  | .bool, _ => ⟨trivial, Position.fits_true _⟩
  | .name hslot, _ => by
    obtain ⟨hlt, -⟩ := List.getElem?_eq_some_iff.mp hslot
    exact ⟨by omega, Position.fits_true _⟩
  | .list hitems, h => by
    obtain ⟨hlength, hall⟩ := h
    have hnodes := hitems.length_eq
    exact ⟨by omega, hitems.fits hn hbound hall, Position.fits_true _⟩
  | .unary he, h => ⟨he.fits hn hbound h, Position.fits_true _⟩
  | .binary hl hr, h => ⟨hl.fits hn hbound h.1, hr.fits hn hbound h.2, Position.fits_true _⟩
  | .index hb hp, h => ⟨hb.fits hn hbound h.1, hp.fits hn hbound h.2, Position.fits_true _⟩
  | .call _ _ hargs, h => by
    obtain ⟨hlength, hall⟩ := h
    have hnodes := hargs.length_eq
    exact ⟨by omega, hargs.fits hn hbound hall, Position.fits_true _⟩

theorem LowersAll.fits (hn : n + 100 < eightBytes) (hbound : bound.length ≤ n) {es : List Expr}
    {nodes : List Node} :
    LowersAll ctx bound es nodes → Expr.AllWithin n es → Node.AllFit (fun _ => True) nodes
  | .nil, _ => trivial
  | .cons he hes, h => ⟨he.fits hn hbound h.1, hes.fits hn hbound h.2⟩

end

theorem LowersClause.fits (hn : n + 100 < eightBytes) (hbound : bound.length ≤ n)
    {clause : Clause} {step : Step} (h : LowersClause ctx bound clause step)
    (hclause : clause.Within n) : step.Fits fun _ => True := by
  cases h with
  | @range clause node h =>
    refine ⟨by omega, ?_, h.fits hn hbound hclause.expr⟩
    intro i hi
    obtain ⟨-, -, rfl⟩ := Option.map_eq_some_iff.mp hi
    omega
  | filter h | skip h | take h => exact h.fits hn hbound hclause.expr
  | bind h => exact ⟨by omega, h.fits hn hbound hclause.expr⟩

theorem LowersClauses.fits (hn : n + 100 < eightBytes) {select : Expr} {node : Node} {slots : Nat}
    {clauses : List Clause} {steps : List Step}
    (h : LowersClauses ctx select node slots bound clauses steps)
    (hcount : (bound ++ clauses.flatMap Clause.binders).length ≤ n)
    (hclauses : ∀ clause ∈ clauses, clause.Within n) (hselect : select.Within n) :
    steps.length = clauses.length ∧ (∀ step ∈ steps, step.Fits fun _ => True) ∧
      node.Fits fun _ => True := by
  induction h with
  | @nil bound h _ =>
    rw [List.flatMap_nil, List.append_nil] at hcount
    exact ⟨rfl, nofun, h.fits hn hcount hselect⟩
  | @cons bound clause step clauses steps h _ ih =>
    rw [List.flatMap_cons, ← List.append_assoc] at hcount
    obtain ⟨hclause, hclauses⟩ := List.forall_mem_cons.mp hclauses
    obtain ⟨hlength, hsteps, hnode⟩ := ih hcount hclauses
    have hbound : bound.length ≤ n := by
      simp only [List.length_append] at hcount
      omega
    refine ⟨congrArg (· + 1) hlength, ?_, hnode⟩
    exact List.forall_mem_cons.mpr ⟨h.fits hn hbound hclause, hsteps⟩

/-- What an entry becomes fits. -/
theorem LowersEntry.fits (hn : n + 100 < eightBytes) {e : Entry} {compiled : PlanEntry}
    (h : LowersEntry ctx e compiled) (he : e.Within n) : compiled.Fits fun _ => True := by
  -- each slot is for a name that the entry binds, so there are no more slots than names
  have hcount : e.paramNames.length + e.query.source.binders.length +
      (e.query.clauses.flatMap Clause.binders).length ≤ n := by
    have hall := he.count
    rwa [Entry.binders, List.length_append, List.length_append] at hall
  have htail : e.paramNames.tail.length ≤ e.paramNames.length := by
    rw [List.length_tail]
    omega
  have hparams : compiled.params = e.paramNames := h.params
  obtain ⟨hlength, hsteps, hselect⟩ := h.clauses.fits hn (by
    simp only [List.length_append]
    omega) he.clauses he.select
  have hslots := h.slots_eq
  simp only [List.length_append] at hslots
  refine ⟨?_, ⟨?_, ?_⟩, ⟨?_, ?_, ?_, ⟨?_, ?_⟩, ?_, hsteps, hselect⟩⟩
  · rw [h.name]
    exact textFits_of_size_le he.name hn
  · rw [hparams]
    omega
  · rw [hparams]
    intro x hx
    have hx : x ∈ e.binders := List.mem_append_left _ (List.mem_append_left _ hx)
    exact textFits_of_size_le (he.names x hx) hn
  · omega
  · rw [h.slots, List.length_range]
    omega
  · rw [h.slots]
    intro slot hslot
    have hlt := List.mem_range.mp hslot
    omega
  · rw [h.var]
    omega
  · rw [h.index]
    intro i hi
    obtain ⟨-, -, rfl⟩ := Option.map_eq_some_iff.mp hi
    omega
  · have hclauses := he.length
    omega

/-! ## Warnings -/

/-- What is reported about a binding that is never read fits. -/
theorem fits_of_unused? (hn : n + 100 < eightBytes) {b : Binding} {f : Finding}
    (index : LineIndex) (h : Scope.unused? b = some f) (hname : Text.size b.name ≤ n) :
    (f.place index).Fits fun _ => True := by
  obtain rfl := eq_of_unused? h
  -- the texts around the name in the message and in the help are short
  have hmessage : Text.size ("unused binding `" ++ b.name ++ "`") = Text.size b.name + 17 := by
    simp only [Text.size_append]
    have hbefore : Text.size "unused binding `" = 16 := by decide +kernel
    have hbehind : Text.size "`" = 1 := by decide +kernel
    omega
  have hhelp : Text.size ("rename it to `_" ++ b.name ++ "` to silence this warning") =
      Text.size b.name + 40 := by
    simp only [Text.size_append]
    have hbefore : Text.size "rename it to `_" = 15 := by decide +kernel
    have hbehind : Text.size "` to silence this warning" = 25 := by decide +kernel
    omega
  have hroom : ∀ {s : String} {extra : Nat}, Text.size s = Text.size b.name + extra →
      extra ≤ 100 → TextFits s := by
    intro s extra hs hextra
    unfold TextFits
    unfold Text.size at hs hname
    omega
  have hnone : 0 < eightBytes := by decide
  have hone : 1 < eightBytes := by decide
  have hnumber : Code.unusedBinding.number < twoBytes := by decide
  refine ⟨hnumber, hroom hmessage (by decide), Position.fits_true _, trivial,
    ⟨hnone, nofun⟩, ⟨hone, ?_⟩⟩
  intro s hs
  obtain rfl := List.mem_singleton.mp hs
  exact hroom hhelp (by decide)

/-! ## Whole programs -/

/-- A list in which each name is put once is not longer than the names. -/
theorem length_foldl_insert_le (ls : List Library) (found : List Library) :
    (ls.foldl (fun found l => if l ∈ found then found else found ++ [l]) found).length ≤
      found.length + ls.length := by
  induction ls generalizing found with
  | nil => exact Nat.le_refl _
  | cons l ls ih =>
    rw [List.foldl_cons, List.length_cons]
    split
    · have hrest := ih found
      omega
    · have hrest := ih (found ++ [l])
      rw [List.length_append, List.length_singleton] at hrest
      omega

theorem length_importedLibraries_le (uses : List Ident) :
    (importedLibraries uses).length ≤ uses.length := by
  have hnames := List.length_filterMap_le (fun id : Ident => Library.ofName? id.name) uses
  have hfolded := length_foldl_insert_le (uses.filterMap fun id => Library.ofName? id.name) []
  rw [List.length_nil, Nat.zero_add] at hfolded
  exact Nat.le_trans hfolded hnames

/-- There is one warning at most for each name that a program binds, and it is about the name. -/
theorem Compiled.warnings {p : Program} {c : Compilation} (hcompiled : Compiled p c)
    (h : compile p = .ok c) :
    c.warnings.length ≤ ((parse p.text).1.entries.flatMap Entry.binders).length ∧
      ∀ d ∈ c.warnings, ∃ e ∈ (parse p.text).1.entries, ∃ b : Binding, b.name ∈ e.binders ∧
        ∃ f, Scope.unused? b = some f ∧ d = f.place (LineIndex.ofText p.text) := by
  -- sorting keeps the warnings, and they are those of the scopes in which the entries are left
  have hwarnings := (List.Perm.of_eq (warnings_of_compile h)).trans
    (List.mergeSort_perm _ Diagnostic.le)
  rw [findings_of_admissible hcompiled.whole hcompiled.admissible] at hwarnings
  have hnames : ∀ e ∈ (parse p.text).1.entries,
      (Scope.lastScope p.context e).bindings.map (·.name) = e.binders := fun e he =>
    have hw := hcompiled.whole.entries e he
    Scope.names_lastScope hw ((@lastScope_findings_iff _ p.context e hw rfl).mpr
      (hcompiled.admissible.entries e he))
  constructor
  · rw [hwarnings.length_eq, List.length_map, ← List.flatMap_congr hnames, ← List.map_flatMap,
      List.length_map, ← List.filterMap_flatMap]
    exact List.length_filterMap_le _ _
  · intro d hd
    obtain ⟨f, hf, rfl⟩ := List.mem_map.mp (hwarnings.mem_iff.mp hd)
    obtain ⟨e, he, hf⟩ := List.mem_flatMap.mp hf
    obtain ⟨b, hb, hunused⟩ := List.mem_filterMap.mp hf
    have hname : b.name ∈ e.binders := by
      rw [← hnames e he]
      exact List.mem_map_of_mem hb
    exact ⟨e, he, b, hname, f, hunused, rfl⟩

/-- A program that is compiled fits in its file. -/
theorem fits_of_compile {p : Program} {c : Compilation} (h : compile p = .ok c)
    (hsize : Text.size p.text ≤ longestText) : c.Fits fun _ => True := by
  have hcompiled := compiled_of_ok h
  have hwithin := Syntax.within_of_parse hcompiled.read
  -- everything in a plan comes from the text, which is far shorter than eight bytes can count
  have hroom : Text.size p.text + 100 < eightBytes := by
    have hlongest : longestText + 100 < eightBytes := by decide
    omega
  have himports : c.artifact.imports =
      (importedLibraries (parse p.text).1.uses).map Library.name := by
    obtain ⟨-, rfl⟩ := compile_eq_ok_iff.mp h
    rfl
  obtain ⟨hcount, hwarnings⟩ := hcompiled.warnings h
  refine ⟨?_, ⟨?_, ?_⟩, ?_, ?_, ?_, ?_⟩
  · rw [hcompiled.format]
    decide
  · have huses := hwithin.uses
    have hlibraries := length_importedLibraries_le (parse p.text).1.uses
    rw [himports, List.length_map]
    omega
  · rw [himports]
    intro s hs
    obtain ⟨l, -, rfl⟩ := List.mem_map.mp hs
    cases l <;> decide +kernel
  · have hentries := hwithin.length
    rw [hcompiled.entries, List.length_map]
    omega
  · rw [hcompiled.entries]
    intro compiled hmem
    obtain ⟨e, he, rfl⟩ := List.mem_map.mp hmem
    exact (hcompiled.lowers e he).fits hroom (hwithin.entries e he)
  · have hnames := hwithin.names
    omega
  · intro d hd
    obtain ⟨e, he, b, hb, f, hf, rfl⟩ := hwarnings d hd
    exact fits_of_unused? hroom _ hf ((hwithin.entries e he).names b.name hb)

end LineQuery
