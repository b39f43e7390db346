import LineQuery.Pool.Destination
import LineQuery.Text.Decimal
import LineQuery.Text.Lines

/-!
# Drains

A drain reads all that a worker writes to one of its streams and passes it on line by line,
each line marked with the number of the worker's slot. When the destination fails it writes
no more but reads on, so that the worker never waits.
-/

namespace LineQuery.Pool

open LineQuery.Text (Bytes)

/-- A line that a worker wrote. -/
structure OutputLine where
  slot : Nat
  text : Bytes
deriving DecidableEq, Repr

/-- The record of a line: the number of the slot, a tab, the text and a line feed. -/
def OutputLine.record (line : OutputLine) : Bytes :=
  Text.encodeUtf8 (Text.natText line.slot ++ "\t") ++ line.text ++ [10]

/-- What a drain has seen: the number of lines and the first failure to write. -/
structure DrainStats where
  lines : Nat
  failure : Option WriteError
deriving DecidableEq, Repr

/-- Passes on one line, unless writing has failed. -/
def drainLine (slot : Nat) (state : DrainStats × Destination) (text : Bytes) :
    DrainStats × Destination :=
  let (stats, d) := state
  let lines := stats.lines + 1
  match stats.failure with
  | some e => (⟨lines, some e⟩, d)
  | none =>
    match d.write (OutputLine.record ⟨slot, text⟩) with
    | .ok d => (⟨lines, none⟩, d)
    | .error e => (⟨lines, some e⟩, d)

/-- Passes on all lines of a stream. -/
def drain (slot : Nat) (d : Destination) (stream : Bytes) : DrainStats × Destination :=
  (Text.byteLines stream).foldl (drainLine slot) (⟨0, none⟩, d)

end LineQuery.Pool
