import LineQuery.Pool.Destination

/-!
# Line sinks

Writes lines to a destination with a separator between them, each line with the separator
before it as one record. The first error of the source or of a write ends the writing; the
destination is flushed in every case.
-/

namespace LineQuery.Pool

open LineQuery.Text (Bytes)

variable {ε : Type}

/-- Why lines were not all written. -/
inductive SinkError (ε : Type) where
  | source (e : ε)
  | output (e : WriteError)

/-- What came of writing lines: how many were written or why not all, the lines not
looked at, and the destination. -/
structure Writing (ε : Type) where
  result : Except (SinkError ε) Nat
  rest : List (Except ε String)
  destination : Destination

namespace LineSink

/-- The record of a line, `count` lines after the first. -/
def record (separator : Bytes) (count : Nat) (line : String) : Bytes :=
  (if count = 0 then [] else separator) ++ Text.encodeUtf8 line

/-- Writes lines, `count` of them being written already. -/
def writeFrom (separator : Bytes) (count : Nat) (d : Destination) :
    List (Except ε String) → Writing ε
  | [] => ⟨.ok count, [], d⟩
  | .error e :: rest => ⟨.error (.source e), rest, d⟩
  | .ok line :: rest =>
    match d.write (record separator count line) with
    | .error e => ⟨.error (.output e), rest, d⟩
    | .ok d => writeFrom separator (count + 1) d rest

/-- Writes lines and flushes the destination. An error on the way takes precedence over one
of the flush. -/
def write (separator : Bytes) (d : Destination) (lines : List (Except ε String)) : Writing ε :=
  let w := writeFrom separator 0 d lines
  let (failure, d) := w.destination.flush
  let result :=
    match w.result, failure with
    | .ok _, some e => .error (.output e)
    | result, _ => result
  ⟨result, w.rest, d⟩

end LineSink

end LineQuery.Pool
