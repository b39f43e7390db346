import LineQuery.Proofs.Findings
import LineQuery.Proofs.Grammar.Whole
import LineQuery.Proofs.Scoping.Admissible
import Mathlib.Data.List.Nodup
import Mathlib.Tactic.ByContra

/-! # Scopes while names are resolved

Three facts carry every proof about resolving. No step takes a finding back, and all that
is found on the way are errors (`Scope.Reports`). Reading names changes neither which names
are bound nor their slots (`Scope.Reads`). And as long as nothing has been reported, the
stream is the first binding and the other names have the slots `0, 1, …` in the order in
which they were bound (`Scope.Layout`), so a name is found at its own slot.
-/

namespace LineQuery.Scope

open LineQuery.Syntax (Ident)

/-! ## Findings -/

/-- Resolving from `s` to `s'` takes no finding back. -/
abbrev Reports (s s' : Scope) : Prop :=
  AddsErrors s.findings s'.findings

theorem reports_report (s : Scope) {f : Finding} (hf : f.severity = .error) :
    Reports s (s.report f) :=
  .cons hf

/-- Binding a name may find that it is taken. -/
theorem reports_bind (s : Scope) (id : Ident) (must : Bool) : Reports s (s.bind id must).2 := by
  unfold Scope.bind
  split
  · exact .refl
  · split
    · exact reports_report s rfl
    · exact .refl

/-! ## Reading names -/

/-- The names of a scope and their slots, without what has been read. -/
def shape (s : Scope) : List (String × Option Nat) :=
  s.bindings.map fun b => (b.name, b.slot)

/-- What reading names keeps of a scope `s`: its bindings up to their use, its slots, and its
findings, to which it may add. -/
structure Reads (s s' : Scope) : Prop where
  shape : s'.shape = s.shape
  slots : s'.slots = s.slots
  reports : Reports s s'

namespace Reads

variable {s s' s'' : Scope}

theorem refl (s : Scope) : Reads s s :=
  ⟨rfl, rfl, .refl⟩

theorem trans (h : Reads s s') (h' : Reads s' s'') : Reads s s'' :=
  ⟨h'.shape.trans h.shape, h'.slots.trans h.slots, h.reports.trans h'.reports⟩

end Reads

theorem reads_report (s : Scope) {f : Finding} (hf : f.severity = .error) :
    Reads s (s.report f) :=
  ⟨rfl, rfl, reports_report s hf⟩

theorem reads_markUsed (s : Scope) (name : String) : Reads s (s.markUsed name) := by
  refine ⟨?_, rfl, .refl⟩
  simp only [shape, markUsed, List.map_map]
  apply List.map_congr_left
  intro b _
  simp only [Function.comp_apply]
  split <;> rfl

/-- Reading the stream leaves its name and that it has no slot. -/
theorem reads_markStream (s : Scope) : Reads s s.markStream := by
  refine ⟨List.ext_getElem? fun i => ?_, rfl, .refl⟩
  simp only [shape, markStream, List.getElem?_map, List.getElem?_modify]
  cases s.bindings[i]? with
  | none => rfl
  | some b =>
    simp only [Option.map_some, Option.map_eq_map, Option.some.injEq]
    split <;> rfl

/-- Looking a name up binds nothing. -/
theorem reads_lookup (s : Scope) (id : Ident) : Reads s (s.lookup id).2 := by
  unfold lookup
  split
  · exact reads_report _ rfl
  · split
    · exact reads_markUsed _ _
    · exact (reads_markUsed _ _).trans (reads_report _ rfl)

/-! ## Scopes without findings -/

/-- A scope in which nothing has been reported: the stream is bound first, and then the names
`bound`, each once, with slots in order. -/
structure Layout (s : Scope) (stream : String) (bound : List String) : Prop where
  shape : s.shape = (stream, none) :: bound.mapIdx fun i x => (x, some i)
  slots : s.slots = bound.length
  distinct : (stream :: bound).Nodup
  findings : s.findings = []

namespace Layout

variable {s s' : Scope} {stream : String} {bound : List String}

/-- Reading names without a finding keeps the layout. -/
theorem of_reads (h : Layout s stream bound) (hr : Reads s s') (hnil : s'.findings = []) :
    Layout s' stream bound :=
  ⟨hr.shape.trans h.shape, hr.slots.trans h.slots, h.distinct, hnil⟩

/-- The names of a scope are the stream and those that were bound behind it. -/
theorem names (h : Layout s stream bound) :
    s.bindings.map (·.name) = stream :: bound := by
  have hfst := congrArg (List.map Prod.fst) h.shape
  have hbound : (bound.mapIdx fun i x => (x, some i)).map Prod.fst = bound := by
    apply List.ext_getElem <;> simp
  simpa [Scope.shape, Function.comp_def, hbound] using hfst

/-- A binding of the scope is the stream's or has the slot of its name. -/
theorem mem_bindings (h : Layout s stream bound) {b : Binding} (hb : b ∈ s.bindings) :
    (b.name = stream ∧ b.slot = none) ∨ ∃ i, bound[i]? = some b.name ∧ b.slot = some i := by
  have hmem : (b.name, b.slot) ∈ s.shape := List.mem_map.mpr ⟨b, hb, rfl⟩
  rw [h.shape, List.mem_cons, List.mem_mapIdx] at hmem
  rcases hmem with hstream | ⟨i, hi, heq⟩
  · exact Or.inl ⟨congrArg Prod.fst hstream, congrArg Prod.snd hstream⟩
  · refine Or.inr ⟨i, ?_, (congrArg Prod.snd heq).symm⟩
    rw [List.getElem?_eq_getElem hi]
    exact congrArg some (congrArg Prod.fst heq)

/-- A name that is not bound is not found. -/
theorem find?_eq_none (h : Layout s stream bound) {x : String} (hx : x ∉ stream :: bound) :
    s.find? x = none := by
  rw [Scope.find?, List.find?_eq_none]
  intro b hb hname
  apply hx
  rw [← h.names]
  exact List.mem_map.mpr ⟨b, List.mem_reverse.mp hb, by simpa using hname⟩

/-- A name that is bound is found. -/
theorem find?_isSome (h : Layout s stream bound) {x : String} (hx : x ∈ stream :: bound) :
    ∃ b ∈ s.bindings, s.find? x = some b ∧ b.name = x := by
  rw [← h.names, List.mem_map] at hx
  obtain ⟨b, hb, hname⟩ := hx
  cases hfind : s.find? x with
  | none =>
      rw [Scope.find?, List.find?_eq_none] at hfind
      exact absurd hname (by simpa using hfind b (List.mem_reverse.mpr hb))
  | some b' =>
      have hmem := List.mem_reverse.mp (List.mem_of_find?_eq_some hfind)
      exact ⟨b', hmem, rfl, by simpa using List.find?_some hfind⟩

/-- The stream is found without a slot. -/
theorem find?_stream (h : Layout s stream bound) :
    ∃ b, s.find? stream = some b ∧ b.slot = none := by
  obtain ⟨b, hb, hfind, hname⟩ := h.find?_isSome (List.mem_cons_self ..)
  rcases h.mem_bindings hb with ⟨_, hslot⟩ | ⟨i, hi, _⟩
  · exact ⟨b, hfind, hslot⟩
  · exact absurd (hname ▸ List.mem_of_getElem? hi) (List.nodup_cons.mp h.distinct).1

/-- Any other name is found at its own slot. -/
theorem find?_bound (h : Layout s stream bound) {x : String} {i : Nat}
    (hi : bound[i]? = some x) : ∃ b, s.find? x = some b ∧ b.slot = some i := by
  have hmem : x ∈ bound := List.mem_of_getElem? hi
  obtain ⟨hfresh, hnodup⟩ := List.nodup_cons.mp h.distinct
  obtain ⟨b, hb, hfind, hname⟩ := h.find?_isSome (List.mem_cons_of_mem _ hmem)
  rcases h.mem_bindings hb with ⟨hstream, _⟩ | ⟨j, hj, hslot⟩
  · exact absurd (hstream ▸ hname ▸ hmem) hfresh
  · obtain ⟨hlt, _⟩ := List.getElem?_eq_some_iff.mp hi
    -- Names differ, so the name has one slot.
    have hij : i = j := (List.getElem?_inj hlt hnodup).mp (by rw [hi, hj, hname])
    exact ⟨b, hfind, hij ▸ hslot⟩

/-- Reading a name goes without a finding exactly if the name has a slot. -/
theorem lookup_findings (h : Layout s stream bound) (id : Ident) :
    (s.lookup id).2.findings = [] ↔ id.name ∈ bound := by
  unfold lookup
  constructor
  · intro hnil
    by_contra hmem
    by_cases hstream : id.name = stream
    · obtain ⟨b, hfind, hslot⟩ := h.find?_stream
      simp [hstream, hfind, hslot, report] at hnil
    · have hnone := h.find?_eq_none (x := id.name) (by simp [hstream, hmem])
      simp [hnone, report] at hnil
  · intro hmem
    obtain ⟨i, hi⟩ := List.getElem?_of_mem hmem
    obtain ⟨b, hfind, hslot⟩ := h.find?_bound hi
    simpa [hfind, hslot, markUsed] using h.findings

/-- A name is read from the slot that it has. -/
theorem lookup_slot (h : Layout s stream bound) {id : Ident} {i : Nat}
    (hi : bound[i]? = some id.name) : (s.lookup id).1 = i := by
  obtain ⟨b, hfind, hslot⟩ := h.find?_bound hi
  simp [lookup, hfind, hslot]

/-! ## Binding names -/

/-- Binding a name that is present goes without a finding exactly if the name is new. -/
theorem bind_findings (h : Layout s stream bound) {id : Ident} (hid : id.Present) (must : Bool) :
    (s.bind id must).2.findings = [] ↔ id.name ∉ stream :: bound := by
  rw [← h.names, Scope.bind, Ident.isMissing_eq_false hid, if_neg Bool.false_ne_true]
  split
  · rename_i htaken
    have hmem : id.name ∈ s.bindings.map (·.name) := by simpa using htaken
    simp only [report, hmem, not_true_eq_false, iff_false]
    exact List.cons_ne_nil _ _
  · rename_i hfree
    have hmem : id.name ∉ s.bindings.map (·.name) := by simpa using hfree
    simpa only [hmem, not_false_eq_true, iff_true] using h.findings

/-- A new name gets the next slot. -/
theorem bind_new (h : Layout s stream bound) {id : Ident} (hid : id.Present) (must : Bool)
    (hnew : id.name ∉ stream :: bound) :
    (s.bind id must).1 = some bound.length ∧
      Layout (s.bind id must).2 stream (bound ++ [id.name]) := by
  have hfree : ¬ (s.bindings.any fun b => b.name == id.name) = true := by
    rw [← h.names] at hnew
    simpa using hnew
  rw [Scope.bind, Ident.isMissing_eq_false hid, if_neg Bool.false_ne_true, if_neg hfree]
  refine ⟨congrArg some h.slots, ?_, ?_, ?_, h.findings⟩
  · have hshape := h.shape
    simp only [Scope.shape] at hshape ⊢
    simp [hshape, h.slots, List.mapIdx_append]
  · simp [h.slots]
  · have hdistinct := h.distinct
    rw [← List.cons_append]
    exact List.Nodup.append hdistinct (List.nodup_singleton _) (by simpa using hnew)

end Layout

/-- The scope of the stream alone. -/
theorem layout_bindStream (id : Ident) : Layout (empty.bindStream id) id.name [] :=
  ⟨rfl, rfl, List.nodup_singleton _, rfl⟩

end LineQuery.Scope
