import LineQuery.Text.Utf8

/-!
# Destinations

Where records are written, each as a whole. A destination may be closed at its other end
after a number of writes, and from then on every write fails; it may also fail to flush.
-/

namespace LineQuery.Pool

open LineQuery.Text (Bytes)

/-- What has been written, the latest first, how often it was flushed, and when it fails. -/
structure Destination where
  records : List Bytes := []
  flushes : Nat := 0
  /-- The number of writes that succeed, if not all do. -/
  closesAfter : Option Nat := none
  flushFails : Bool := false
deriving DecidableEq, Repr

/-- Why writing fails. -/
inductive WriteError where
  | closed
  | flush
deriving DecidableEq, Repr

namespace WriteError

def cause : WriteError → String
  | closed => "closed"
  | flush => "flush failed"

def message (e : WriteError) : String :=
  "failed to write output: " ++ e.cause

end WriteError

namespace Destination

/-- A destination that never fails. -/
def unlimited : Destination := {}

def isClosed (d : Destination) : Bool :=
  match d.closesAfter with
  | some n => n ≤ d.records.length
  | none => false

/-- The destination after a record. An empty record takes no write. -/
def write (d : Destination) (record : Bytes) : Except WriteError Destination :=
  if record.isEmpty then .ok d
  else if d.isClosed then .error .closed
  else .ok { d with records := record :: d.records }

/-- The destination after a flush, and why it failed if it did. -/
def flush (d : Destination) : Option WriteError × Destination :=
  (if d.flushFails then some .flush else none, { d with flushes := d.flushes + 1 })

/-- The records in the order in which they were written. -/
def written (d : Destination) : List Bytes :=
  d.records.reverse

def bytes (d : Destination) : Bytes :=
  d.written.flatten

end Destination

end LineQuery.Pool
