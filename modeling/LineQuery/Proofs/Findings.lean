import LineQuery.Diagnostic.Basic

/-! # What has been found so far

Reading a text and resolving its names collect findings, the latest first. No step of either
takes a finding back, and all that is added on the way are errors: so what is found nowhere in
the end was found nowhere before.
-/

namespace LineQuery

/-- Findings behind a step, for those in front of it: errors may have been added. -/
def AddsErrors (found found' : List Finding) : Prop :=
  ∃ new, found' = new ++ found ∧ ∀ f ∈ new, f.severity = .error

namespace AddsErrors

variable {found found' found'' : List Finding}

theorem refl : AddsErrors found found :=
  ⟨[], rfl, nofun⟩

theorem of_eq (h : found' = found) : AddsErrors found found' :=
  ⟨[], h, nofun⟩

theorem cons {f : Finding} (h : f.severity = .error) : AddsErrors found (f :: found) :=
  ⟨[f], rfl, fun _ hg => List.mem_singleton.mp hg ▸ h⟩

theorem trans (h : AddsErrors found found') (h' : AddsErrors found' found'') :
    AddsErrors found found'' := by
  obtain ⟨new, heq, herror⟩ := h
  obtain ⟨new', heq', herror'⟩ := h'
  refine ⟨new' ++ new, by rw [heq', heq, List.append_assoc], fun f hf => ?_⟩
  rcases List.mem_append.mp hf with hf | hf
  · exact herror' f hf
  · exact herror f hf

/-- Where nothing has been found, nothing was found before. -/
theorem nil_of_nil (h : AddsErrors found found') (hnil : found' = []) : found = [] := by
  obtain ⟨new, heq, -⟩ := h
  rw [hnil] at heq
  exact (List.append_eq_nil_iff.mp heq.symm).2

/-- All that is found from the start is an error. -/
theorem severity_eq (h : AddsErrors [] found) {f : Finding} (hf : f ∈ found) :
    f.severity = .error := by
  obtain ⟨new, rfl, herror⟩ := h
  rw [List.append_nil] at hf
  exact herror f hf

end AddsErrors

end LineQuery
