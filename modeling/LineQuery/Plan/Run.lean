import LineQuery.Plan.Eval
import LineQuery.Script.Program

/-!
# Running plans

A run takes items of the input one at a time, and no item before it is needed for the next
line. A row passes through the steps one after another; each line it leads to waits until
it is asked for. A `take` that has had its last row closes the run: nothing is read after
it. The first error is the last thing a run gives.
-/

namespace LineQuery

/-- An item of the input: a line, or the text of the error that reading it met. -/
abbrev InputItem := Except String String

/-- Why a run ends before its input does. -/
inductive RunError where
  | input (message : String)
  | eval (e : EvalError)
deriving Repr

def RunError.message : RunError → String
  | input message => "failed to read input: " ++ message
  | eval e =>
    "query:" ++ Text.natText e.pos.line ++ ":" ++ Text.natText e.pos.column ++ ": " ++
      e.fault.message

/-- Whether a run wants more input, has ended, or has failed and will say so. -/
inductive Progress where
  | flowing
  | closed
  | failed (e : RunError)
deriving Repr

/-- For each step, how many rows it has still to skip or take, once that is known. -/
abbrev Counters := List (Option Nat)

/-- What comes of rows put into the steps of a plan: the lines they lead to, the counters
after them, and the warnings on the way. -/
structure Passage where
  lines : List String
  counters : Counters
  progress : Progress
  warnings : List String

namespace Passage

def nothing (counters : Counters) : Passage :=
  ⟨[], counters, .flowing, []⟩

/-- Rows put in one after another, until one closes the run or fails. -/
def andThen (p : Passage) (next : Counters → Passage) : Passage :=
  match p.progress with
  | .flowing =>
    let q := next p.counters
    ⟨p.lines ++ q.lines, q.counters, q.progress, p.warnings ++ q.warnings⟩
  | _ => p

/-- What comes of the values of a computation. -/
def ofEval (counters : Counters) (x : Eval α) (next : α → Passage) : Passage :=
  match x.result with
  | .ok a => { next a with warnings := x.warnings ++ (next a).warnings }
  | .error e => ⟨[], counters, .failed (.eval e), x.warnings⟩

/-- What comes of a row that a step with counter `own` lets through to later steps. -/
def behind (own : Option Nat) (p : Passage) : Passage :=
  { p with counters := own :: p.counters }

/-- The passage of the last row that a step lets through. -/
def close (p : Passage) : Passage :=
  match p.progress with
  | .flowing => { p with progress := .closed }
  | _ => p

/-- The passage of rows one after another. -/
def ofEach (push : Counters → α → Passage) (counters : Counters) : List α → Passage
  | [] => nothing counters
  | x :: xs => (push counters x).andThen fun counters => ofEach push counters xs

end Passage

/-! ## Steps -/

def evalItems (row : Row) (source : Node) : Eval (List Value) := do
  match ← source.eval row with
  | .list items => return items
  | v => .fail ⟨.rangeOver v.kind, source.pos⟩

/-- Whether the condition of a `where` holds. -/
def evalCondition (row : Row) (cond : Node) : Eval Bool := do
  match ← cond.eval row with
  | .bool b => return b
  | v => .fail ⟨.condition v.kind, cond.pos⟩

/-- The count of a clause that skips or takes rows: what is left of it, or its value if this
is the first row that reaches it. -/
def evalCount (clause : CountClause) (left : Option Nat) (row : Row) (count : Node) :
    Eval Nat :=
  match left with
  | some n => pure n
  | none => do
    match ← count.eval row with
    | .int n =>
      if n < 0 then .fail ⟨.count clause (.int n), count.pos⟩ else return n.toInt.toNat
    | v => .fail ⟨.count clause v, count.pos⟩

/-- A row with an index in its slot, if it has one. -/
def Row.setIndex (row : Row) (slot : Option Nat) (i : Nat) : Row :=
  match slot with
  | some slot => row.set slot (.int (Int64.ofNat i))
  | none => row

/-- The rows of a nested `from`. -/
def expandRow (row : Row) (var : Nat) (index : Option Nat) (items : List Value) : List Row :=
  items.zipIdx.map fun (item, i) => Row.setIndex (row.set var item) index i

/-- The lines that a selected value is written on. -/
def outputLines : Value → List String
  | .list items => items.map Value.display
  | v => [v.display]

/-- What comes of a row in the steps of a plan that selects `select`. -/
def passRow (select : Node) : List Step → Counters → Row → Passage
  | [], counters, row =>
    .ofEval counters (select.eval row) fun v => ⟨outputLines v, counters, .flowing, []⟩
  | step :: steps, counters, row =>
    let own := counters.head?.join
    let rest := counters.tail
    match step with
    | .range var index source =>
      .ofEval counters (evalItems row source) fun items =>
        (Passage.ofEach (passRow select steps) rest (expandRow row var index items)).behind own
    | .filter cond =>
      .ofEval counters (evalCondition row cond) fun keep =>
        if keep then (passRow select steps rest row).behind own else .nothing counters
    | .bind slot value =>
      .ofEval counters (value.eval row) fun v =>
        (passRow select steps rest (row.set slot v)).behind own
    | .skip count =>
      .ofEval counters (evalCount .skip own row count) fun n =>
        match n with
        | 0 => (passRow select steps rest row).behind (some 0)
        | n + 1 => .nothing (some n :: rest)
    | .take count =>
      .ofEval counters (evalCount .take own row count) fun n =>
        match n with
        | 0 => (Passage.nothing (some 0 :: rest)).close
        | 1 => ((passRow select steps rest row).behind (some 0)).close
        | n + 2 => (passRow select steps rest row).behind (some (n + 1))

/-! ## Runs -/

/-- A plan with the values of its parameters. -/
structure Invocation where
  plan : Plan
  template : Row

/-- A run between two lines: the lines that wait, the counters of the steps, the number of
items read, and the warnings so far, the latest first. -/
structure Run where
  waiting : List String
  counters : Counters
  progress : Progress
  pulled : Nat
  warnings : List String

/-- What asking a run for a line brings: a line or an error, unless the run is over. -/
structure Answer where
  item : Option (Except RunError String)
  run : Run
  rest : List InputItem

namespace Plan

/-- The plan with extra arguments for its second parameter. -/
def invoke (plan : Plan) (args : List String) : Invocation :=
  { plan
    template := plan.params.foldl (fun row slot => row.set slot (Value.strings args))
      (List.replicate plan.slots (.bool false)) }

end Plan

namespace Invocation

def start (q : Invocation) : Run :=
  ⟨[], q.plan.steps.map fun _ => none, .flowing, 0, []⟩

/-- The row of an input line. -/
def inputRow (q : Invocation) (line : String) (i : Nat) : Row :=
  Row.setIndex (q.template.set q.plan.input.var (.str line)) q.plan.input.index i

/-- The run after it has read an item. -/
def feed (q : Invocation) (run : Run) (item : InputItem) : Run :=
  match item with
  | .error message =>
    { run with progress := .failed (.input message), pulled := run.pulled + 1 }
  | .ok line =>
    let p := passRow q.plan.select q.plan.steps run.counters (q.inputRow line run.pulled)
    { waiting := run.waiting ++ p.lines, counters := p.counters, progress := p.progress,
      pulled := run.pulled + 1, warnings := p.warnings.reverse ++ run.warnings }

/-- The next line of a run, with as much input as it takes. -/
def next (q : Invocation) (run : Run) (input : List InputItem) : Answer :=
  match run.waiting with
  | line :: lines => ⟨some (.ok line), { run with waiting := lines }, input⟩
  | [] =>
    match run.progress with
    | .failed e => ⟨some (.error e), { run with progress := .closed }, input⟩
    | .closed => ⟨none, run, input⟩
    | .flowing =>
      match input with
      | [] => ⟨none, { run with progress := .closed }, []⟩
      | item :: rest => q.next (q.feed run item) rest

/-- The lines that a run still brings, behind those of `done`, the latest first, and the run after
it has read as much as it wants. -/
def finish (q : Invocation) (done : List String) (run : Run) :
    List InputItem → List String × Run
  | [] => (run.waiting.reverse ++ done, { run with waiting := [] })
  | item :: rest =>
    let done := run.waiting.reverse ++ done
    let run := { run with waiting := [] }
    match run.progress with
    | .flowing => q.finish done (q.feed run item) rest
    | _ => (done, run)

/-- All lines of a query for an input, the error it ends with if it ends with one, and its
warnings. -/
def run (q : Invocation) (input : List InputItem) :
    List String × Option RunError × List String :=
  let (done, last) := q.finish [] q.start input
  let error :=
    match last.progress with
    | .failed e => some e
    | _ => none
  (done.reverse, error, last.warnings.reverse)

end Invocation

/-! ## Finding the entry to run -/

/-- Why a compiled program cannot be run. -/
inductive ResolveError where
  | formatVersion (found : Nat)
  | missingEntry
  | signature (name : String) (found : Nat)
deriving DecidableEq, Repr

/-- The number of parameters of an entry that can be run: the input and the arguments. -/
def entryParams : Nat := 2

def ResolveError.message : ResolveError → String
  | formatVersion found =>
    "compiled query uses plan format " ++ Text.natText found ++ ", this build understands " ++
      Text.natText Artifact.currentFormat
  | missingEntry => "compiled query has no entry named `" ++ Program.entryName ++ "`"
  | signature name found =>
    "entry `" ++ name ++ "` takes " ++ Text.natText found ++ " parameters, expected " ++
      Text.natText entryParams

def Artifact.mainPlan (a : Artifact) : Except ResolveError Plan :=
  if a.formatVersion ≠ Artifact.currentFormat then .error (.formatVersion a.formatVersion)
  else
    match a.entry? Program.entryName with
    | none => .error .missingEntry
    | some e =>
      if e.params.length = entryParams ∧ e.plan.params.length + 1 = entryParams then .ok e.plan
      else .error (.signature e.name e.params.length)

end LineQuery
