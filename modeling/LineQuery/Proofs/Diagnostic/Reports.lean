import LineQuery.Compile
import LineQuery.Proofs.Diagnostic.Log

/-! # What compiling reports

All passes over a program write to one log. Compiling looks at its count of errors once and at what
is taken from it once, and the two agree: it fails exactly if some pass has reported an error, and
it gives back all that was reported, in the order of positions.
-/

namespace LineQuery

open Diagnostic (Ordered ordered_sort)
open Syntax (parse)

namespace DiagnosticLog

/-- Findings wait in a log with the positions of their spans. -/
theorem pending_place (log : DiagnosticLog) (index : LineIndex) (findings : List Finding) :
    (log.place index findings).pending = log.pending ++ findings.map (Finding.place index) :=
  pending_emitAll _ log

end DiagnosticLog

namespace Program

/-- What reading a program reports. -/
def readingReports (p : Program) : List Diagnostic :=
  (parse p.text).2.map (Finding.place (LineIndex.ofText p.text))

/-- What resolving the names of a program reports. -/
def resolvingReports (p : Program) : List Diagnostic :=
  (resolve (LineIndex.ofText p.text) p.userLines (parse p.text).1).2.map
    (Finding.place (LineIndex.ofText p.text))

/-- What the passes over a program report, in the order in which they do. Names are resolved only
if reading reports no error. -/
def reports (p : Program) : List Diagnostic :=
  if p.readingReports.any Diagnostic.isError then p.readingReports
  else p.readingReports ++ p.resolvingReports

/-- All that compiling says about a program: the warnings beside its plans, or what stands in their
place. -/
def diagnostics (p : Program) : List Diagnostic :=
  match compile p with
  | .ok c => c.warnings
  | .error ds => ds

end Program

/-- Compiling gives what was reported, as an error exactly if there is one in it. -/
theorem compile_eq (p : Program) : compile p =
    if p.reports.any Diagnostic.isError then .error (Diagnostic.sort p.reports)
    else .ok ⟨(resolve (LineIndex.ofText p.text) p.userLines (parse p.text).1).1,
      Diagnostic.sort p.reports⟩ := by
  have hread : (DiagnosticLog.empty.place (LineIndex.ofText p.text) (parse p.text).2).hasErrors =
      p.readingReports.any Diagnostic.isError := by
    rw [Bool.eq_iff_iff, DiagnosticLog.place, DiagnosticLog.hasErrors_emitAll, List.any_eq_true]
    exact or_iff_right (by decide)
  have hpending : (DiagnosticLog.empty.place (LineIndex.ofText p.text) (parse p.text).2).pending =
      p.readingReports :=
    DiagnosticLog.pending_place ..
  unfold compile
  dsimp only
  rw [hread]
  -- names are only resolved if reading has reported no error
  by_cases herror : p.readingReports.any Diagnostic.isError = true
  · have hreports : p.reports = p.readingReports := if_pos herror
    rw [if_pos herror, hreports, if_pos herror, DiagnosticLog.takeAll, hpending]
  · have hreports : p.reports = p.readingReports ++ p.resolvingReports := if_neg herror
    have hall := DiagnosticLog.pending_place
      (DiagnosticLog.empty.place (LineIndex.ofText p.text) (parse p.text).2)
      (LineIndex.ofText p.text) (resolve (LineIndex.ofText p.text) p.userLines (parse p.text).1).2
    rw [hpending, ← Program.resolvingReports, ← hreports] at hall
    have htaken : ((DiagnosticLog.place (DiagnosticLog.empty.place (LineIndex.ofText p.text)
        (parse p.text).2) (LineIndex.ofText p.text)
        (resolve (LineIndex.ofText p.text) p.userLines (parse p.text).1).2).takeAll.1.any
          fun d => !d.isWarning) = p.reports.any Diagnostic.isError := by
      rw [Bool.eq_iff_iff, DiagnosticLog.any_takeAll_iff, hall, List.any_eq_true]
    rw [if_neg herror, htaken, DiagnosticLog.takeAll, hall]

/-- Whether a program compiles or not, all that is said about it is what the passes report, sorted.
-/
theorem Program.diagnostics_eq (p : Program) : p.diagnostics = Diagnostic.sort p.reports := by
  rw [diagnostics, compile_eq]
  split <;> rename_i heq <;> split at heq <;> cases heq <;> rfl

theorem Program.mem_diagnostics {p : Program} {d : Diagnostic} :
    d ∈ p.diagnostics ↔ d ∈ p.reports := by
  rw [p.diagnostics_eq, Diagnostic.sort, List.mem_mergeSort]

/-- For all calls to a log, in any order: each taking gives exactly what was written since the one
before it, in the order of positions and else in the order of writing, and so would one more taking;
nothing that was written is in no batch or in two; and the errors counted are all that were ever
written, which a taking does not change. So for every program compiling fails exactly if a pass has
reported an error, and what it gives is all that was reported, ordered in the same way. -/
theorem log_gives_back_what_was_written :
    (∀ calls : List DiagnosticLog.Call,
      let log := DiagnosticLog.empty.afterAll calls
      List.Forall₂ Ordered (DiagnosticLog.batches calls)
        (DiagnosticLog.empty.takings calls ++ [log.takeAll.1]) ∧
      (DiagnosticLog.batches calls).flatten = DiagnosticLog.emitted calls ∧
      log.errors = (DiagnosticLog.emitted calls).countP Diagnostic.isError ∧
      log.takeAll.2.errors = log.errors ∧
      (log.hasErrors = true ↔ ∃ d ∈ DiagnosticLog.emitted calls, d.isError = true)) ∧
    ∀ p : Program,
      ((∃ ds, compile p = .error ds) ↔ ∃ d ∈ p.reports, d.isError = true) ∧
      Ordered p.reports p.diagnostics := by
  constructor
  · intro calls log
    -- a log that starts empty has nothing pending in front of the first batch
    have htakings := DiagnosticLog.forall₂_takings calls .empty
    have hfirst : (DiagnosticLog.batches calls).modifyHead (DiagnosticLog.empty.pending ++ ·) =
        DiagnosticLog.batches calls :=
      congrFun List.modifyHead_id _
    have herrors : log.errors = (DiagnosticLog.emitted calls).countP Diagnostic.isError :=
      (DiagnosticLog.errors_afterAll calls .empty).trans (Nat.zero_add _)
    rw [hfirst] at htakings
    refine ⟨htakings, DiagnosticLog.flatten_batches calls, herrors, rfl, ?_⟩
    rw [DiagnosticLog.hasErrors, decide_eq_true_eq, herrors, List.countP_pos_iff]
  · intro p
    constructor
    · rw [compile_eq, ← List.any_eq_true]
      split
      · rename_i herror
        exact iff_of_true ⟨_, rfl⟩ herror
      · rename_i hnone
        exact iff_of_false (by simp) hnone
    · rw [p.diagnostics_eq]
      exact ordered_sort p.reports

end LineQuery
