import LineQuery.Diagnostic.Log
import LineQuery.Plan.Scope
import LineQuery.Syntax.Parser

/-!
# Compiling programs

A program is read and, if the log has counted no errors then, its names are resolved. What
is reported on the way comes back in the order of positions: as warnings beside the compiled
program, or instead of it if an error is among it.
-/

namespace LineQuery

/-- A log with findings placed in a text. -/
def DiagnosticLog.place (log : DiagnosticLog) (index : LineIndex) (findings : List Finding) :
    DiagnosticLog :=
  log.emitAll (findings.map (Finding.place index))

/-- A program compiled, or everything reported about it. -/
def compile (p : Program) : Except (List Diagnostic) Compilation :=
  let index := LineIndex.ofText p.text
  let (document, findings) := Syntax.parse p.text
  let read := DiagnosticLog.empty.place index findings
  if read.hasErrors then .error read.takeAll.1
  else
    let (artifact, findings) := resolve index p.userLines document
    let reported := (read.place index findings).takeAll.1
    if reported.any fun d => !d.isWarning then .error reported
    else .ok ⟨artifact, reported⟩

end LineQuery
