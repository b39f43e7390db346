import LineQuery.Diagnostic.Basic

/-!
# The diagnostic log

Collects the findings of all passes over one program. Taking them empties the log but
does not change the count of errors.
-/

namespace LineQuery

/-- The findings not yet taken, in the order in which they came, and the number of errors
ever reported. -/
structure DiagnosticLog where
  pending : List Diagnostic
  errors : Nat
deriving DecidableEq, Repr

namespace DiagnosticLog

def empty : DiagnosticLog := ⟨[], 0⟩

def emit (log : DiagnosticLog) (d : Diagnostic) : DiagnosticLog :=
  ⟨log.pending ++ [d], if d.isError then log.errors + 1 else log.errors⟩

/-- The log with more findings, in order. -/
def emitAll (log : DiagnosticLog) (ds : List Diagnostic) : DiagnosticLog :=
  ds.foldl emit log

def hasErrors (log : DiagnosticLog) : Bool :=
  0 < log.errors

/-- The pending findings in the order of their positions, and the log without them. -/
def takeAll (log : DiagnosticLog) : List Diagnostic × DiagnosticLog :=
  (Diagnostic.sort log.pending, { log with pending := [] })

end DiagnosticLog

end LineQuery
