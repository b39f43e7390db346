import LineQuery.Plan.Run

/-! # Runs that look before they touch

The rows of a run hold a value in every slot from the start, and reading past their end or an
argument that is not there brings something as well. A guarded run does the same work and
stops at a trap wherever the other one would go on with a value that nobody gave:

* a slot is read or filled that the row does not have
* a slot is read that nothing has filled before
* a function looks for an argument that its call does not have.

Everything else is as in a run without guards, step by step.
-/

namespace LineQuery

open LineQuery.Syntax (BinaryOp)

/-- What a guarded run stops at. -/
inductive Trap where
  | outside (slot slots : Nat)
  | unfilled (slot : Nat)
  | argument (f : Builtin) (index : Nat)
deriving DecidableEq, Repr

/-! ## Guarded rows -/

/-- A row in which a slot that nothing has filled holds nothing. -/
abbrev Cells := List (Option Value)

namespace Cells

/-- The row in which slots that nothing has filled hold what a run starts with. -/
def row (cells : Cells) : Row :=
  cells.map fun cell => cell.getD (.bool false)

def read (cells : Cells) (i : Nat) : Except Trap Value :=
  match cells[i]? with
  | some (some v) => .ok v
  | some none => .error (.unfilled i)
  | none => .error (.outside i cells.length)

def put (cells : Cells) (i : Nat) (v : Value) : Cells :=
  cells.set i (some v)

/-- The row with a value in a slot that it has. -/
def fill (cells : Cells) (i : Nat) (v : Value) : Except Trap Cells :=
  if i < cells.length then .ok (cells.put i v) else .error (.outside i cells.length)

/-- The row with an item and its index in their slots. -/
def fillItem (cells : Cells) (var : Nat) (index : Option Nat) (item : Value) (i : Nat) :
    Except Trap Cells := do
  let cells ← cells.fill var item
  match index with
  | some slot => cells.fill slot (.int (Int64.ofNat i))
  | none => return cells

end Cells

/-! ## Guarded expressions -/

/-- A computation for a row, or the trap at which it stops. -/
def Guarded (α : Type) : Type :=
  Except Trap (Eval α)

namespace Guarded

variable {α β : Type}

def run (x : Eval α) : Guarded α :=
  Except.ok x

/-- A value that may not be there. -/
def guard (x : Except Trap α) : Guarded α :=
  x.map pure

def bind (x : Guarded α) (next : α → Guarded β) : Guarded β :=
  match x with
  | .error trap => .error trap
  | .ok x =>
    match x.result with
    | .error e => run ⟨x.warnings, .error e⟩
    | .ok a =>
      match next a with
      | .error trap => .error trap
      | .ok y => run ⟨x.warnings ++ y.warnings, y.result⟩

instance : Monad Guarded where
  pure a := run (pure a)
  bind := bind

end Guarded

/-- The value of a call whose function finds its arguments. -/
def guardedCall (f : Builtin) (args : List Value) (pos : Position) : Guarded Value :=
  match f.apply args with
  | .error (.missing f i) => .error (.argument f i)
  | _ => .run (callValue f args pos)

namespace Node

mutual

def guardedEval (cells : Cells) : Node → Guarded Value
  | .const v _ => return v
  | .slot i _ => .guard (cells.read i)
  | .list items _ => do return .list (← guardedEvalAll cells items)
  | .unary op operand pos => do
    let v ← guardedEval cells operand
    .run (.located pos (applyUnary op v))
  | .binary op left right pos => do
    let a ← guardedEval cells left
    match deciding? op with
    | none =>
      let b ← guardedEval cells right
      .run (.located pos (applyBinary op a b))
    | some decision =>
      -- A right operand that the left one makes needless may hold a trap.
      match a with
      | .bool a =>
        if a = decision then return .bool a
        else
          match ← guardedEval cells right with
          | .bool b => return .bool b
          | b => .run (.fail ⟨.operands op .bool b.kind, pos⟩)
      | a => .run (.fail ⟨.operands op a.kind .bool, pos⟩)
  | .index base position pos => do
    let v ← guardedEval cells base
    let i ← guardedEval cells position
    let i ← .run (.located pos (asIndex i))
    .run (.located pos (indexValue v i))
  | .call .case args _ => guardedCase cells args
  | .call f args pos => do guardedCall f (← guardedEvalAll cells args) pos

def guardedEvalAll (cells : Cells) : List Node → Guarded (List Value)
  | [] => return []
  | node :: nodes => do
    let v ← guardedEval cells node
    let vs ← guardedEvalAll cells nodes
    return v :: vs

def guardedCase (cells : Cells) : List Node → Guarded Value
  | [] => .error (.argument .case 0)
  | [_] => .error (.argument .case 1)
  | value :: first :: rest => do
    let v ← guardedEval cells value
    guardedChoice cells v (first :: rest)

/-- The result that `v` chooses among pairs of keys and results and a default. -/
def guardedChoice (cells : Cells) (v : Value) : List Node → Guarded Value
  | [] => .error (.argument .case 1)
  | [default] => guardedEval cells default
  | [_, default] => guardedEval cells default
  | key :: result :: third :: rest => do
    let k ← guardedEval cells key
    if k = v then guardedEval cells result else guardedChoice cells v (third :: rest)

end

end Node

/-! ## Guarded steps -/

def guardedItems (cells : Cells) (source : Node) : Guarded (List Value) := do
  match ← source.guardedEval cells with
  | .list items => return items
  | v => .run (.fail ⟨.rangeOver v.kind, source.pos⟩)

def guardedCondition (cells : Cells) (cond : Node) : Guarded Bool := do
  match ← cond.guardedEval cells with
  | .bool b => return b
  | v => .run (.fail ⟨.condition v.kind, cond.pos⟩)

/-- The count of a clause that skips or takes rows. -/
def guardedCount (clause : CountClause) (left : Option Nat) (cells : Cells) (count : Node) :
    Guarded Nat :=
  match left with
  | some n => return n
  | none => do
    match ← count.guardedEval cells with
    | .int n =>
      if n < 0 then .run (.fail ⟨.count clause (.int n), count.pos⟩) else return n.toInt.toNat
    | v => .run (.fail ⟨.count clause v, count.pos⟩)

namespace Passage

variable {α : Type}

/-- What comes of the values of a guarded computation. -/
def ofGuarded (counters : Counters) (x : Guarded α) (next : α → Except Trap Passage) :
    Except Trap Passage :=
  match x with
  | .error trap => .error trap
  | .ok x =>
    match x.result with
    | .ok a => (next a).map fun p => .ofEval counters x fun _ => p
    | .error _ => .ok (.ofEval counters x fun _ => .nothing counters)

def guardedEach (push : Counters → α → Except Trap Passage) (counters : Counters) :
    List α → Except Trap Passage
  | [] => return nothing counters
  | x :: xs => do
    let p ← push counters x
    match p.progress with
    | .flowing =>
      let q ← guardedEach push p.counters xs
      return p.andThen fun _ => q
    | _ => return p

end Passage

/-- What comes of a guarded row in the steps of a plan that selects `select`. -/
def guardedPass (select : Node) : List Step → Counters → Cells → Except Trap Passage
  | [], counters, cells =>
    Passage.ofGuarded counters (select.guardedEval cells) fun v =>
      return ⟨outputLines v, counters, .flowing, []⟩
  | step :: steps, counters, cells =>
    let own := counters.head?.join
    let rest := counters.tail
    match step with
    | .range var index source =>
      Passage.ofGuarded counters (guardedItems cells source) fun items => do
        let push := fun counters (item, i) => do
          guardedPass select steps counters (← cells.fillItem var index item i)
        return (← Passage.guardedEach push rest items.zipIdx).behind own
    | .filter cond =>
      Passage.ofGuarded counters (guardedCondition cells cond) fun keep => do
        if keep then return (← guardedPass select steps rest cells).behind own
        else return .nothing counters
    | .bind slot value =>
      Passage.ofGuarded counters (value.guardedEval cells) fun v => do
        return (← guardedPass select steps rest (← cells.fill slot v)).behind own
    | .skip count =>
      Passage.ofGuarded counters (guardedCount .skip own cells count) fun n => do
        match n with
        | 0 => return (← guardedPass select steps rest cells).behind (some 0)
        | n + 1 => return .nothing (some n :: rest)
    | .take count =>
      Passage.ofGuarded counters (guardedCount .take own cells count) fun n => do
        match n with
        -- Nothing is evaluated behind a `take` that has no rows left.
      | 0 => return (Passage.nothing (some 0 :: rest)).close
        | 1 => return ((← guardedPass select steps rest cells).behind (some 0)).close
        | n + 2 => return (← guardedPass select steps rest cells).behind (some (n + 1))

/-! ## Guarded runs -/

namespace Plan

/-- The guarded row that all rows of a run start from. -/
def guardedTemplate (plan : Plan) (args : List String) : Except Trap Cells :=
  plan.params.foldlM (fun cells slot => cells.fill slot (Value.strings args))
    (List.replicate plan.slots none)

/-- A guarded run after it has read an item. -/
def guardedFeed (plan : Plan) (template : Cells) (run : Run) (item : InputItem) :
    Except Trap Run :=
  match item with
  | .error message =>
    return { run with progress := .failed (.input message), pulled := run.pulled + 1 }
  | .ok line => do
    let cells ← template.fillItem plan.input.var plan.input.index (.str line) run.pulled
    let p ← guardedPass plan.select plan.steps run.counters cells
    return { waiting := run.waiting ++ p.lines, counters := p.counters, progress := p.progress,
             pulled := run.pulled + 1, warnings := p.warnings.reverse ++ run.warnings }

/-- The next line of a guarded run, with as much input as it takes. -/
def guardedNext (plan : Plan) (template : Cells) (run : Run) (input : List InputItem) :
    Except Trap Answer :=
  match run.waiting with
  | line :: lines => return ⟨some (.ok line), { run with waiting := lines }, input⟩
  | [] =>
    match run.progress with
    | .failed e => return ⟨some (.error e), { run with progress := .closed }, input⟩
    | .closed => return ⟨none, run, input⟩
    | .flowing =>
      match input with
      | [] => return ⟨none, { run with progress := .closed }, []⟩
      | item :: rest => do
        plan.guardedNext template (← plan.guardedFeed template run item) rest

/-- What a guarded run answers to the request with number `k`, counted from zero. -/
def guardedAnswerFrom (plan : Plan) (template : Cells) (run : Run) (input : List InputItem) :
    Nat → Except Trap Answer
  | 0 => plan.guardedNext template run input
  | k + 1 => do
    let answer ← plan.guardedNext template run input
    plan.guardedAnswerFrom template answer.run answer.rest k

/-- What a guarded run of a plan with extra arguments answers to the request with number
`k`. -/
def guardedAnswer (plan : Plan) (args : List String) (input : List InputItem) (k : Nat) :
    Except Trap Answer := do
  plan.guardedAnswerFrom (← plan.guardedTemplate args) (plan.invoke args).start input k

end Plan

end LineQuery
