import LineQuery.Diagnostic.Log
import LineQuery.Proofs.Script.LinePositions
import Mathlib.Data.List.Forall2

/-! # What a log gives back

Findings are written to a log and taken from it in any order of calls. Each taking gives what was
written since the one before it, in the order of positions; findings at one position stay in the
order in which they were written. The count of errors goes on over the takings.
-/

namespace LineQuery

/-! ## The order of reports -/

namespace Position

/-- The order of the sort is that of positions, line before column. -/
theorem le_iff {a b : Position} : a.le b = true ↔ a = b ∨ a.Before b := by
  obtain ⟨line, column⟩ := a
  obtain ⟨line', column'⟩ := b
  simp only [le, Before, mk.injEq, Bool.or_eq_true, Bool.and_eq_true, decide_eq_true_eq,
    beq_iff_eq]
  omega

theorem le_trans {a b c : Position} (hab : a.le b = true) (hbc : b.le c = true) :
    a.le c = true := by
  simp only [le, Bool.or_eq_true, Bool.and_eq_true, decide_eq_true_eq, beq_iff_eq] at *
  omega

theorem le_total (a b : Position) : (a.le b || b.le a) = true := by
  simp only [le, Bool.or_eq_true, Bool.and_eq_true, decide_eq_true_eq, beq_iff_eq]
  omega

end Position

namespace Diagnostic

/-- Findings put in the order of their positions: those at each position are what they were, in the
order in which they were. -/
structure Ordered (ds sorted : List Diagnostic) : Prop where
  ascending : sorted.Pairwise fun a b => a.position = b.position ∨ a.position.Before b.position
  kept : ∀ p : Position,
    (sorted.filter fun d => d.position = p) = ds.filter fun d => d.position = p

/-- Nothing is lost by the order, and nothing is repeated. -/
theorem Ordered.perm {ds sorted : List Diagnostic} (h : Ordered ds sorted) : sorted.Perm ds := by
  rw [List.perm_iff_count]
  intro d
  have hcount : ∀ es : List Diagnostic,
      (es.filter fun e => e.position = d.position).count d = es.count d :=
    fun _ => List.count_filter (decide_eq_true rfl)
  rw [← hcount sorted, h.kept, hcount]

/-- Sorting by position is stable and loses nothing. -/
theorem ordered_sort (ds : List Diagnostic) : Ordered ds (sort ds) := by
  have htrans : ∀ a b c : Diagnostic, a.le b = true → b.le c = true → a.le c = true :=
    fun _ _ _ => Position.le_trans
  have htotal : ∀ a b : Diagnostic, (a.le b || b.le a) = true :=
    fun a b => Position.le_total a.position b.position
  constructor
  · exact (List.pairwise_mergeSort htrans htotal ds).imp Position.le_iff.mp
  · intro p
    -- The findings at one position are in order already, so sorting keeps them as a sublist.
    have hsame : (ds.filter fun d => d.position = p).Pairwise fun a b => a.le b = true := by
      rw [List.pairwise_filter]
      refine List.pairwise_of_forall fun a b ha hb => ?_
      rw [decide_eq_true_eq] at ha hb
      exact Position.le_iff.mpr (.inl (ha.trans hb.symm))
    have hsub := (List.sublist_mergeSort htrans htotal hsame List.filter_sublist).filter
      fun d => decide (d.position = p)
    rw [List.filter_filter] at hsub
    simp only [Bool.and_self] at hsub
    refine (hsub.eq_of_length ?_).symm
    exact ((List.mergeSort_perm ds le).filter _).length_eq.symm

theorem not_isWarning (d : Diagnostic) : (!d.isWarning) = d.isError := by
  obtain ⟨severity, _, _, _, _, _, _⟩ := d
  cases severity <;> rfl

end Diagnostic

open Diagnostic (Ordered ordered_sort)

namespace DiagnosticLog

/-! ## Several findings -/

/-- The log behind findings has them all, and the errors among them are counted. -/
theorem emitAll_eq (ds : List Diagnostic) (log : DiagnosticLog) :
    log.emitAll ds = ⟨log.pending ++ ds, log.errors + ds.countP Diagnostic.isError⟩ := by
  induction ds generalizing log with
  | nil => simp [emitAll]
  | cons d ds ih =>
    rw [emitAll, List.foldl_cons, ← emitAll, ih, emit, List.append_assoc, List.countP_cons]
    by_cases herror : d.isError = true
    · simp [herror, Nat.add_assoc, Nat.add_comm 1]
    · simp [herror]

/-- What is written to a log waits behind what waited before. -/
theorem pending_emitAll (ds : List Diagnostic) (log : DiagnosticLog) :
    (log.emitAll ds).pending = log.pending ++ ds :=
  congrArg pending (emitAll_eq ds log)

/-- A log has errors exactly if it had some before or was given one. -/
theorem hasErrors_emitAll (ds : List Diagnostic) (log : DiagnosticLog) :
    (log.emitAll ds).hasErrors = true ↔ log.hasErrors = true ∨ ∃ d ∈ ds, d.isError = true := by
  rw [emitAll_eq, hasErrors, hasErrors, decide_eq_true_eq, decide_eq_true_eq,
    ← List.countP_pos_iff]
  exact Nat.add_pos_iff_pos_or_pos

/-- What is taken has an error in it exactly if one is pending. -/
theorem any_takeAll_iff (log : DiagnosticLog) :
    (log.takeAll.1.any fun d => !d.isWarning) = true ↔ ∃ d ∈ log.pending, d.isError = true := by
  simp only [takeAll, List.any_eq_true, Diagnostic.not_isWarning, Diagnostic.sort,
    List.mem_mergeSort]

/-! ## Calls in any order -/

/-- A call to a log. -/
inductive Call where
  | emit (d : Diagnostic)
  | take
deriving DecidableEq, Repr

def Call.isTake : Call → Bool
  | emit _ => false
  | take => true

/-- What a call writes to the log. -/
def Call.emitted? : Call → Option Diagnostic
  | emit d => some d
  | take => none

def emitted (calls : List Call) : List Diagnostic :=
  calls.filterMap Call.emitted?

def after (log : DiagnosticLog) : Call → DiagnosticLog
  | .emit d => log.emit d
  | .take => log.takeAll.2

def afterAll (log : DiagnosticLog) (calls : List Call) : DiagnosticLog :=
  calls.foldl after log

/-- What the takings among some calls give, in turn. -/
def takings (log : DiagnosticLog) : List Call → List (List Diagnostic)
  | [] => []
  | .emit d :: calls => takings (log.emit d) calls
  | .take :: calls => log.takeAll.1 :: takings log.takeAll.2 calls

/-- What some calls write before the first taking among them, between two of them, and behind the
last one. -/
def batches (calls : List Call) : List (List Diagnostic) :=
  (calls.splitOnP Call.isTake).map emitted

theorem batches_ne_nil (calls : List Call) : batches calls ≠ [] := by
  intro hnil
  exact List.splitOnP_ne_nil _ _ (List.map_eq_nil_iff.mp hnil)

/-- What is written before any taking belongs to the first batch. -/
theorem batches_emit (d : Diagnostic) (calls : List Call) :
    batches (.emit d :: calls) = (batches calls).modifyHead (d :: ·) := by
  rw [batches, List.splitOnP_cons_eq_if_modifyHead, batches]
  cases calls.splitOnP Call.isTake <;> rfl

theorem batches_take (calls : List Call) : batches (.take :: calls) = [] :: batches calls := by
  rw [batches, List.splitOnP_cons_eq_if_modifyHead]
  rfl

/-- Every finding that is written is in one batch. -/
theorem flatten_batches (calls : List Call) : (batches calls).flatten = emitted calls := by
  induction calls with
  | nil => rfl
  | cons call calls ih =>
    cases call with
    | emit d =>
      obtain ⟨first, others, heq⟩ := List.exists_cons_of_ne_nil (batches_ne_nil calls)
      rw [heq] at ih
      rw [batches_emit, heq, List.modifyHead_cons, List.flatten_cons, List.cons_append]
      exact congrArg (d :: ·) ih
    | take =>
      rw [batches_take, List.flatten_cons, List.nil_append]
      exact ih

/-- Only what is written changes the count of errors. -/
theorem errors_afterAll (calls : List Call) (log : DiagnosticLog) :
    (log.afterAll calls).errors = log.errors + (emitted calls).countP Diagnostic.isError := by
  induction calls generalizing log with
  | nil => rfl
  | cons call calls ih =>
    rw [afterAll, List.foldl_cons, ← afterAll, ih]
    cases call with
    | emit d =>
      have hone : (log.emit d).errors = log.errors + [d].countP Diagnostic.isError :=
        congrArg errors (emitAll_eq [d] log)
      have hemitted : emitted (.emit d :: calls) = [d] ++ emitted calls := rfl
      rw [after, hone, hemitted, List.countP_append, Nat.add_assoc]
    | take => rfl

/-- Each taking gives the batch in front of it, and what is pending in the end is the last one. -/
theorem forall₂_takings (calls : List Call) (log : DiagnosticLog) :
    List.Forall₂ Ordered ((batches calls).modifyHead (log.pending ++ ·))
      (log.takings calls ++ [(log.afterAll calls).takeAll.1]) := by
  induction calls generalizing log with
  | nil =>
    have hbatches : (batches []).modifyHead (log.pending ++ ·) = [log.pending] := by
      simp [batches, emitted]
    rw [hbatches]
    exact .cons (ordered_sort log.pending) .nil
  | cons call calls ih =>
    rw [afterAll, List.foldl_cons, ← afterAll]
    cases call with
    | emit d =>
      obtain ⟨first, others, heq⟩ := List.exists_cons_of_ne_nil (batches_ne_nil calls)
      have hnext := ih (log.emit d)
      rw [heq, List.modifyHead_cons, emit, List.append_assoc] at hnext
      rw [batches_emit, heq]
      exact hnext
    | take =>
      have hnext := ih log.takeAll.2
      have hnone : (batches calls).modifyHead (log.takeAll.2.pending ++ ·) = batches calls :=
        congrFun List.modifyHead_id _
      rw [hnone] at hnext
      rw [batches_take, List.modifyHead_cons, List.append_nil]
      exact .cons (ordered_sort log.pending) hnext

end DiagnosticLog

end LineQuery
