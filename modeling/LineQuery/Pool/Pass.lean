import LineQuery.Pool.Drain
import LineQuery.Pool.Report
import LineQuery.Pool.Slot

/-!
# Passes

A pass hands the lines of a source to the slots of a pool in turn, closes their inputs,
waits for the workers and passes on what they wrote. A worker that dies does not end the
pass: the lines that fall to it later are dropped. An error of the source ends the handing
out, and the workers are shut down all the same.
-/

namespace LineQuery.Pool

open LineQuery.Text (Bytes)

/-- Why a pass fails. -/
inductive PassError where
  | spawn (program cause : String)
  | source (message : String)
  | output (e : WriteError)
deriving DecidableEq, Repr

namespace PassError

def message : PassError → String
  | spawn program cause => "failed to start worker `" ++ program ++ "`: " ++ cause
  | source message => message
  | output e => e.message

def isBrokenPipe : PassError → Bool
  | output .closed => true
  | _ => false

end PassError

/-- An item of a source: a line, or the text of an error. -/
abbrev SourceItem := Except String String

/-- What came of a pass: the slots of all workers started, what was written, the items of
the source not looked at, and the report or the error. -/
structure Pass where
  slots : List Slot
  stdout : Destination
  stderr : Destination
  rest : List SourceItem
  result : Except PassError Report

/-! ## Handing out -/

/-- The slots after lines have been sent, the first of them to the slot at place `i`, the
error that ended this, and the items after it. -/
def distribute (separator : Bytes) (slots : List Slot) (i : Nat) :
    List SourceItem → List Slot × Option String × List SourceItem
  | [] => (slots, none, [])
  | .error message :: rest => (slots, some message, rest)
  | .ok line :: rest =>
    let slots := slots.modify i fun s => (s.send (Text.encodeUtf8 line) separator).2
    distribute separator slots (if i + 1 < slots.length then i + 1 else 0) rest

/-! ## Draining -/

/-- Drains one stream of each worker, in the order of the slots. -/
def drainAll (stream : Response → Bytes) : List (Slot × Response) → Destination →
    List DrainStats × Destination
  | [], d => ([], d)
  | (s, r) :: ended, d =>
    let (stats, d) := drain s.number d (stream r)
    let (more, d) := drainAll stream ended d
    (stats :: more, d)

/-- The report of a slot whose worker has been waited for. -/
def Slot.report (s : Slot) (out err : DrainStats) : SlotReport :=
  ⟨s.number, s.sent, s.dropped, out.lines, err.lines, s.status.join⟩

/-- The first failure of a drain, in the order of the slots, standard output first. -/
def firstFailure (out err : List DrainStats) : Option WriteError :=
  ((out.zip err).flatMap fun (o, e) => [o.failure, e.failure]).findSome? id

/-! ## Passes -/

/-- The result of a pass whose workers have ended, after all drains. An error of the source takes
precedence over one of the output, and that over one of a flush. -/
def conclude (ended : List (Slot × Response)) (sourceError : Option String)
    (rest : List SourceItem) (out err : Destination) : Pass :=
  let slots := ended.map (·.1)
  let (outStats, out) := drainAll (·.stdout) ended out
  let (errStats, err) := drainAll (·.stderr) ended err
  let failed := fun (e : PassError) => (⟨slots, out, err, rest, .error e⟩ : Pass)
  match sourceError, firstFailure outStats errStats with
  | some message, _ => failed (.source message)
  | none, some e => failed (.output e)
  | none, none =>
    match out.flush with
    | (some e, out) => ⟨slots, out, err, rest, .error (.output e)⟩
    | (none, out) =>
      match err.flush with
      | (some e, err) => ⟨slots, out, err, rest, .error (.output e)⟩
      | (none, err) =>
        let reports := (slots.zip (outStats.zip errStats)).map fun (s, o, e) => s.report o e
        ⟨slots, out, err, rest, .ok ⟨reports⟩⟩

/-- The slots of workers started up to the first that cannot be, and why it cannot. -/
def startAll : List (Except String Slot) → List Slot × Option String
  | [] => ([], none)
  | .error cause :: _ => ([], some cause)
  | .ok s :: starts =>
    let (slots, failure) := startAll starts
    (s :: slots, failure)

/-- A pass over a source, with a slot for each worker that is to be started or why it cannot
be. If one cannot, those started before it are ended and nothing is read or written. -/
def Pass.run (program : String) (starts : List (Except String Slot)) (separator : Bytes)
    (source : List SourceItem) (out err : Destination) : Pass :=
  let (slots, failure) := startAll starts
  match failure with
  | some cause => ⟨slots.map Slot.kill, out, err, source, .error (.spawn program cause)⟩
  | none =>
    let (slots, sourceError, rest) := distribute separator slots 0 source
    conclude (slots.map Slot.finish) sourceError rest out err

/-! ## Pools of one program -/

/-- The lines of a source before its first error. -/
def linesBeforeError : List SourceItem → List String
  | .ok line :: rest => line :: linesBeforeError rest
  | _ => []

/-- The lines that fall to place `i` of `n`, the first of `lines` falling to place `j`. -/
def share (n i : Nat) (j : Nat) : List String → List String
  | [] => []
  | line :: lines =>
    let more := share n i (if j + 1 < n then j + 1 else 0) lines
    if i = j then line :: more else more

/-- What is offered to the worker at place `i` of `n`. -/
def offered (n i : Nat) (separator : Bytes) (source : List SourceItem) : Bytes :=
  (share n i 0 (linesBeforeError source)).flatMap fun line => Text.encodeUtf8 line ++ separator

/-- What is offered to each of `n` workers, in the order of their places. -/
def offers (n : Nat) (separator : Bytes) (source : List SourceItem) : List Bytes :=
  (List.range n).map fun i => offered n i separator source

/-- The slots of workers, numbered from `number`, with what each will be offered. -/
def slotsFrom (number : Nat) : List (Worker × Bytes) → List Slot
  | [] => []
  | (worker, input) :: more =>
    Slot.start number worker (Pipe.before worker input) :: slotsFrom (number + 1) more

/-- The slots of workers before a source. -/
def slotsOf (workers : List Worker) (separator : Bytes) (source : List SourceItem) : List Slot :=
  slotsFrom 1 (workers.zip (offers workers.length separator source))

end LineQuery.Pool
