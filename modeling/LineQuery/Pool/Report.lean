/-!
# Reports

What became of the lines handed to each worker of a pool.
-/

namespace LineQuery.Pool

/-- The lines that one slot took, lost and gave, and the exit code of its worker; a worker
ended by a signal has none. -/
structure SlotReport where
  slot : Nat
  sent : Nat
  dropped : Nat
  stdoutLines : Nat
  stderrLines : Nat
  exitCode : Option Int
deriving DecidableEq, Repr

/-- Whether a worker lost lines or did not exit with zero. -/
def SlotReport.isDegraded (r : SlotReport) : Bool :=
  0 < r.dropped || r.exitCode != some 0

/-- The reports of all slots, in order. -/
structure Report where
  slots : List SlotReport
deriving DecidableEq, Repr

namespace Report

def sent (r : Report) : Nat :=
  r.slots.foldr (fun slot n => slot.sent + n) 0

def dropped (r : Report) : Nat :=
  r.slots.foldr (fun slot n => slot.dropped + n) 0

/-- The slots whose workers lost lines or failed. -/
def degraded (r : Report) : List SlotReport :=
  r.slots.filter SlotReport.isDegraded

end Report

end LineQuery.Pool
