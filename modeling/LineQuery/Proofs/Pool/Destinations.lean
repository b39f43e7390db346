import LineQuery.Pool.Destination

/-! # What a destination takes

A destination takes one record after another, each as a whole, until it closes; from then on it
takes none. A record without bytes takes no write, and so it never fails.
-/

namespace LineQuery.Pool.Destination

open LineQuery.Text (Bytes)

variable {d : Destination} {record : Bytes} {records : List Bytes} {i : Nat}

/-- The write that comes behind `i` more succeeds. -/
def Accepts (d : Destination) (i : Nat) : Prop :=
  ∀ n, d.closesAfter = some n → d.records.length + i < n

/-- The destination with more records written to it. -/
def taking (d : Destination) (records : List Bytes) : Destination :=
  { d with records := records.reverse ++ d.records }

theorem taking_taking (d : Destination) (records more : List Bytes) :
    (d.taking records).taking more = d.taking (records ++ more) := by
  simp [taking]

theorem written_taking (d : Destination) (records : List Bytes) :
    (d.taking records).written = d.written ++ records := by
  simp [taking, written]

theorem bytes_taking (d : Destination) (records : List Bytes) :
    (d.taking records).bytes = d.bytes ++ records.flatten := by
  rw [bytes, written_taking, List.flatten_append, bytes]

/-- A write behind some others succeeds if as many more would have succeeded before. -/
theorem accepts_taking : (d.taking records).Accepts i ↔ d.Accepts (records.length + i) := by
  simp only [Accepts, taking, List.length_append, List.length_reverse]
  refine forall₂_congr fun n _ => ?_
  omega

/-- A destination is open as long as the next write succeeds. -/
theorem isClosed_eq_false_iff : d.isClosed = false ↔ d.Accepts 0 := by
  unfold isClosed Accepts
  cases d.closesAfter with
  | none => simp
  | some n => simp

/-! ## One write -/

theorem write_nil (d : Destination) : d.write [] = .ok d := rfl

/-- A write that succeeds takes the record as a whole. -/
theorem write_of_accepts (hrecord : record ≠ []) (h : d.Accepts 0) :
    d.write record = .ok (d.taking [record]) := by
  rw [write, List.isEmpty_eq_false_iff.mpr hrecord, isClosed_eq_false_iff.mpr h]
  rfl

/-- A write that fails takes nothing. -/
theorem write_of_not_accepts (hrecord : record ≠ []) (h : ¬ d.Accepts 0) :
    d.write record = .error .closed := by
  have hclosed : d.isClosed = true := by
    rw [← Bool.not_eq_false, isClosed_eq_false_iff]
    exact h
  rw [write, List.isEmpty_eq_false_iff.mpr hrecord, hclosed]
  rfl

/-- A write that succeeds adds the record, if there are bytes in it. -/
theorem write_cases (d : Destination) (record : Bytes) :
    d.write record = .ok (d.taking ([record].filter (· ≠ []))) ∧
        (∀ i < ([record].filter (· ≠ [])).length, d.Accepts i) ∨
      d.write record = .error .closed ∧ record ≠ [] ∧ ¬ d.Accepts 0 := by
  by_cases hrecord : record = []
  · subst hrecord
    exact .inl ⟨d.write_nil, nofun⟩
  · have hone : [record].filter (· ≠ []) = [record] := by simpa using hrecord
    rw [hone]
    by_cases haccepts : d.Accepts 0
    · refine .inl ⟨write_of_accepts hrecord haccepts, fun i hi => ?_⟩
      obtain rfl := Nat.lt_one_iff.mp hi
      exact haccepts
    · exact .inr ⟨write_of_not_accepts hrecord haccepts, hrecord, haccepts⟩

end LineQuery.Pool.Destination
