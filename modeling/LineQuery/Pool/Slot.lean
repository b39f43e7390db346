import LineQuery.Text.Utf8

/-!
# Worker slots

A worker reads its standard input through a pipe and writes two streams. What it does is a
function of its input. A slot holds the writing end of the pipe, with a buffer before it: a
line counts as sent when the buffer has taken it. Once a write to the pipe fails, the slot
is dead and every later line is dropped.
-/

namespace LineQuery.Pool

open LineQuery.Text (Bytes)

/-! ## Workers -/

/-- What a worker does with an input. -/
structure Response where
  /-- How much of the input it reads, unless it reads to the end. -/
  stopsAfter : Option Nat
  stdout : Bytes
  stderr : Bytes
  /-- The exit code, unless a signal ended it. -/
  exitCode : Option Int
deriving DecidableEq, Repr

/-- A program, as what it does with each input. -/
abbrev Worker := Bytes → Response

/-- The worker that writes what it reads. -/
def Worker.copy : Worker := fun input => ⟨none, input, [], some 0⟩

/-! ## Bytes in pieces -/

/-- Bytes that came piece by piece, the latest piece first. -/
structure Pieces where
  pieces : List Bytes
  size : Nat
  size_eq : size = pieces.flatten.length

namespace Pieces

def empty : Pieces := ⟨[], 0, rfl⟩

def bytes (b : Pieces) : Bytes :=
  b.pieces.reverse.flatten

/-- The bytes with more of them at the end. -/
def push (b : Pieces) (bytes : Bytes) : Pieces :=
  ⟨bytes :: b.pieces, bytes.length + b.size, by simp [b.size_eq]⟩

end Pieces

/-! ## Pipes -/

def pipeCapacity : Nat := 65536

/-- The writing end of a pipe: what was written, and how many bytes it takes before its
reader is gone, unless the reader stays. -/
structure Pipe where
  taken : Pieces
  room : Option Nat

namespace Pipe

/-- The pipe before a worker that will be offered `input`. -/
def before (worker : Worker) (input : Bytes) : Pipe :=
  ⟨.empty, (worker input).stopsAfter.map (· + pipeCapacity)⟩

/-- Whether bytes could be written, and the pipe after that. What there is room for is written in
any case. -/
def write (p : Pipe) (bytes : Bytes) : Bool × Pipe :=
  match p.room with
  | none => (true, { p with taken := p.taken.push bytes })
  | some room =>
    if bytes.length + p.taken.size ≤ room then (true, { p with taken := p.taken.push bytes })
    else (false, { p with taken := p.taken.push (bytes.take (room - p.taken.size)) })

end Pipe

/-! ## Buffers -/

/-- The number of bytes that a buffer holds. -/
def bufferCapacity : Nat := 8192

/-- Bytes that wait to be written to a pipe. -/
abbrev Buffer := Pieces

/-- Puts bytes into a buffer before a pipe. A full buffer is written first, and bytes that
would fill an empty one are written at once; none is left if a write fails. -/
def putBytes (b : Buffer) (p : Pipe) (bytes : Bytes) : Option Buffer × Pipe :=
  if bytes.length + b.size < bufferCapacity then (some (b.push bytes), p)
  else
    let (flushed, b, p) :=
      if bufferCapacity < bytes.length + b.size then
        let (ok, p) := p.write b.bytes
        (ok, Pieces.empty, p)
      else (true, b, p)
    if flushed then
      if bytes.length < bufferCapacity then (some (b.push bytes), p)
      else
        let (ok, p) := p.write bytes
        (if ok then some b else none, p)
    else (none, p)

/-! ## Slots -/

/-- A slot: its number from one, its worker, the buffer unless the input is closed, the
pipe, the status of the worker once it has been waited for, and the lines sent and
dropped. -/
structure Slot where
  number : Nat
  worker : Worker
  stdin : Option Buffer
  pipe : Pipe
  status : Option (Option Int)
  sent : Nat
  dropped : Nat

namespace Slot

/-- A slot whose worker has just been started. -/
def start (number : Nat) (worker : Worker) (pipe : Pipe) : Slot :=
  ⟨number, worker, some .empty, pipe, none, 0, 0⟩

def isAlive (s : Slot) : Bool :=
  s.stdin.isSome

/-- The slot after a line that is dropped. -/
def drop (s : Slot) : Slot :=
  { s with stdin := none, dropped := s.dropped + 1 }

/-- The slot after a line with a separator behind it, and whether the line was sent. -/
def send (s : Slot) (line separator : Bytes) : Bool × Slot :=
  match s.stdin with
  | none => (false, s.drop)
  | some buffer =>
    match putBytes buffer s.pipe line with
    | (none, pipe) => (false, { s with pipe }.drop)
    | (some buffer, pipe) =>
      match putBytes buffer pipe separator with
      | (none, pipe) => (false, { s with pipe }.drop)
      | (some buffer, pipe) => (true, { s with stdin := some buffer, pipe, sent := s.sent + 1 })

/-- The slot after the end of its input. What waits in the buffer is written first; whether
that succeeds makes no difference. -/
def close (s : Slot) : Slot :=
  match s.stdin with
  | none => s
  | some buffer => { s with stdin := none, pipe := (s.pipe.write buffer.bytes).2 }

/-- What the worker did with the input that reached it. -/
def response (s : Slot) : Response :=
  s.worker s.pipe.taken.bytes

/-- The slot after its input has been closed and the worker waited for, and what the worker
did. -/
def finish (s : Slot) : Slot × Response :=
  let s := s.close
  let r := s.response
  ({ s with status := s.status.or (some r.exitCode) }, r)

/-- The exit code of the worker, and the slot after the worker has been waited for. -/
def wait (s : Slot) : Option Int × Slot :=
  let (s, _) := s.finish
  (s.status.join, s)

/-- The slot after its worker has been ended by a signal, unless it had been waited for. -/
def kill (s : Slot) : Slot :=
  { s.close with status := s.status.or (some none) }

end Slot

end LineQuery.Pool
