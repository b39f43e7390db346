import LineQuery.Plan.Run
import LineQuery.Proofs.Scoping.Admissible
import LineQuery.Proofs.Runs.Trail
import LineQuery.Syntax.Parser

/-! # What a query means

The lines of a query, said without slots, counters and runs, and without the operators and the
output of the program that runs plans. An environment gives values to names; a clause turns the
trail of environments in front of it into the one behind it:

* the first `from` has one environment for each line of the input, with its position
* a nested `from` has one for each item of its list, in order, with a fresh index for each
  environment in front of it
* `where` keeps those for which its condition holds, `let` gives a value to one more name
* `skip` and `take` drop or keep a number of them, which the first one determines
* `select` writes a value on one line, and a list on one line for each item.

A part that has no meaning, such as a name without a value, is stuck.
-/

namespace LineQuery

open LineQuery.Syntax (Ident Expr FromClause Clause Query Entry UnaryOp BinaryOp)

/-! ## Values -/

namespace Value

mutual

/-- How a value is shown: a string as it is, an integer in base ten, a truth value as a word, and a
list in brackets with a comma and a space between its items. -/
def shown : Value → String
  | .str s => s
  | .int n => toString n.toInt
  | .bool true => "true"
  | .bool false => "false"
  | .list items => "[" ++ shownItems items ++ "]"

/-- How the items of a list are shown, without the brackets. -/
def shownItems : List Value → String
  | [] => ""
  | [v] => v.shown
  | v :: w :: vs => v.shown ++ ", " ++ shownItems (w :: vs)

end

/-- The lines that a value is selected as: one for each item of a list, in order, and one for any
other value. -/
def lines : Value → List String
  | .list items => items.map shown
  | v => [v.shown]

/-- What stands at an index, counted from zero: an item of a list, or a character of a string. -/
def at? : Value → Value → Except Fault Value
  | .list items, .int i =>
    if 0 ≤ i.toInt then
      match items[i.toInt.toNat]? with
      | some v => .ok v
      | none => .error (.outOfRange i items.length)
    else .error (.outOfRange i items.length)
  | .str s, .int i =>
    if 0 ≤ i.toInt then
      match s.toList[i.toInt.toNat]? with
      | some c => .ok (.str (String.ofList [c]))
      | none => .error (.outOfRange i s.length)
    else .error (.outOfRange i s.length)
  | v, .int _ => .error (.notIndexable v.kind)
  | _, i => .error (.indexType i.kind)

/-- An integer that has to be one of 64 bits. -/
def fitted (n : Int) : Except Fault Value :=
  if Int64.minValue.toInt ≤ n ∧ n ≤ Int64.maxValue.toInt then .ok (.int (Int64.ofInt n))
  else .error .overflow

end Value

/-! ## Operators -/

/-- The result of a prefix operator. -/
def Syntax.UnaryOp.result : UnaryOp → Value → Except Fault Value
  | .not, .bool true => .ok (.bool false)
  | .not, .bool false => .ok (.bool true)
  | .neg, .int n => Value.fitted (-n.toInt)
  | op, v => .error (.operand op v.kind)

namespace Syntax.BinaryOp

/-- The result of an arithmetic operator of two integers. Quotients are rounded toward zero, and a
remainder is defined where the quotient is. -/
def calculate (op : BinaryOp) (a b : Int64) : Except Fault Value :=
  match op with
  | .add => Value.fitted (a.toInt + b.toInt)
  | .sub => Value.fitted (a.toInt - b.toInt)
  | .mul => Value.fitted (a.toInt * b.toInt)
  | .div => if b = 0 then .error .divisionByZero else Value.fitted (a.toInt.tdiv b.toInt)
  | .rem =>
    if b = 0 then .error .divisionByZero
    else if a = Int64.minValue ∧ b = -1 then .error .overflow
    else .ok (.int (Int64.ofInt (a.toInt.tmod b.toInt)))
  | op => .error (.operands op .int .int)

def compares {α : Type} [LT α] [LE α] [DecidableLT α] [DecidableLE α] (op : BinaryOp)
    (a b : α) : Bool :=
  match op with
  | .lt => decide (a < b)
  | .le => decide (a ≤ b)
  | .gt => decide (b < a)
  | _ => decide (b ≤ a)

/-- The result of an operator that has the values of both its operands. -/
def result (op : BinaryOp) (a b : Value) : Except Fault Value :=
  match op, a, b with
  | .eq, a, b => .ok (.bool (decide (a = b)))
  | .ne, a, b => .ok (.bool (decide (a ≠ b)))
  | .add, .list as, .list bs => .ok (.list (as ++ bs))
  | .add, .str a, b => .ok (.str (a ++ b.shown))
  | .add, a, .str b => .ok (.str (a.shown ++ b))
  | .lt, .int a, .int b | .le, .int a, .int b | .gt, .int a, .int b | .ge, .int a, .int b =>
    .ok (.bool (op.compares a.toInt b.toInt))
  | .lt, .str a, .str b | .le, .str a, .str b | .gt, .str a, .str b | .ge, .str a, .str b =>
    .ok (.bool (op.compares a b))
  | op, .int a, .int b => op.calculate a b
  | op, a, b => .error (.operands op a.kind b.kind)

end Syntax.BinaryOp

/-! ## Environments -/

/-- The values of names. -/
abbrev Env := String → Option Value

namespace Env

def empty : Env := fun _ => none

/-- The environment in which `x` has the value `v`. -/
def bind (env : Env) (x : String) (v : Value) : Env :=
  fun y => if y = x then some v else env y

end Env

/-- Why a query brings no more lines before its input ends: an error, or a part that has no
meaning. -/
inductive Halt where
  | error (e : RunError)
  | stuck
deriving Repr

namespace Halt

def fault (pos : Position) (f : Fault) : Halt :=
  .error (.eval ⟨f, pos⟩)

/-- A result that may be a fault at `pos`. -/
def located {α : Type} (pos : Position) (x : Except Fault α) : Except Halt α :=
  x.mapError (fault pos)

end Halt

variable (pos : Span → Position)

/-! ## Expressions -/

namespace Syntax.Expr

mutual

def value (env : Env) : Expr → Except Halt Value
  | .int n _ => return .int n
  | .str s _ => return .str s
  | .bool b _ => return .bool b
  | .name id =>
    match env id.name with
    | some v => return v
    | none => throw .stuck
  | .list items _ => do return .list (← values env items)
  | .unary op operand span => do
    let v ← value env operand
    Halt.located (pos span) (op.result v)
  | .binary op left right span => do
    let a ← value env left
    match op, a with
    | .and, .bool false => return .bool false
    | .or, .bool true => return .bool true
    | .and, .bool true | .or, .bool false =>
      match ← value env right with
      | .bool b => return .bool b
      | b => throw (.fault (pos span) (.operands op .bool b.kind))
    | .and, a | .or, a => throw (.fault (pos span) (.operands op a.kind .bool))
    | op, a =>
      let b ← value env right
      Halt.located (pos span) (op.result a b)
  | .index base position span => do
    let v ← value env base
    let i ← value env position
    Halt.located (pos span) (v.at? i)
  | .call id args span =>
    match Builtin.ofName? id.name with
    | none => throw .stuck
    | some .case =>
      match args with
      | [] => throw .stuck
      | arg :: rest => do
        let v ← value env arg
        chosen env v rest
    | some f => do
      let vs ← values env args
      Halt.located (pos span) ((f.apply vs).mapError .call)
  | .hole _ => throw .stuck

def values (env : Env) : List Expr → Except Halt (List Value)
  | [] => return []
  | e :: es => do
    let v ← value env e
    let vs ← values env es
    return v :: vs

/-- The value of the result behind the first key that has the value `v`, or of the default. -/
def chosen (env : Env) (v : Value) : List Expr → Except Halt Value
  | [] => throw .stuck
  | [default] => value env default
  | key :: result :: rest => do
    let k ← value env key
    if k = v then value env result else chosen env v rest

end

def items (env : Env) (source : Expr) : Except Halt (List Value) := do
  match ← source.value pos env with
  | .list items => return items
  | v => throw (.fault (pos source.span) (.rangeOver v.kind))

def holds (env : Env) (cond : Expr) : Except Halt Bool := do
  match ← cond.value pos env with
  | .bool b => return b
  | v => throw (.fault (pos cond.span) (.condition v.kind))

def count (clause : CountClause) (env : Env) (count : Expr) : Except Halt Nat := do
  match ← count.value pos env with
  | .int n =>
    if n < 0 then throw (.fault (pos count.span) (.count clause (.int n)))
    else return n.toInt.toNat
  | v => throw (.fault (pos count.span) (.count clause v))

/-- The lines of a selected expression. -/
def lines (env : Env) (select : Expr) : Trail Halt String :=
  .ofExcept (select.value pos env) fun v => .ofList v.lines

end Syntax.Expr

/-! ## Clauses -/

/-- The environment of an item in a `from`, with its index if that has a name. -/
def Syntax.FromClause.extend (clause : FromClause) (env : Env) (item : Value) (i : Nat) : Env :=
  let env := env.bind clause.var.name item
  match clause.index with
  | some id => env.bind id.name (.int (Int64.ofNat i))
  | none => env

/-- The environments behind a clause, for those in front of it. -/
def Syntax.Clause.envs (clause : Clause) (t : Trail Halt Env) : Trail Halt Env :=
  match clause with
  | .range clause =>
    t.bind fun env => .ofExcept (clause.source.items pos env) fun items =>
      .ofList (items.zipIdx.map fun (item, i) => clause.extend env item i)
  | .filter cond =>
    t.bind fun env => .ofExcept (cond.holds pos env) fun keep =>
      if keep then .cons env .done else .done
  | .bind name value =>
    t.bind fun env => .ofExcept (value.value pos env) fun v => .cons (env.bind name.name v) .done
  | .skip count => t.counted .drop fun env => count.count pos .skip env
  | .take count => t.counted .take fun env => count.count pos .take env

/-- The lines of clauses and the `select` behind them. -/
def linesOf (select : Expr) : List Clause → Trail Halt Env → Trail Halt String
  | [], t => t.bind fun env => select.lines pos env
  | clause :: clauses, t => linesOf select clauses (clause.envs pos t)

/-! ## Entries and programs -/

namespace Syntax.Entry

/-- The parameters behind the stream have the extra arguments as their value. -/
def argsEnv (e : Entry) (args : List String) : Env :=
  e.paramNames.tail.foldl (fun env x => env.bind x (Value.strings args)) .empty

/-- The environments of the first `from`, for the input from position `i` on. -/
def inputEnvs (e : Entry) (args : List String) : Nat → List InputItem → Trail Halt Env
  | _, [] => .done
  | i, .ok line :: input =>
    .cons (e.query.source.extend (e.argsEnv args) (.str line) i) (e.inputEnvs args (i + 1) input)
  | _, .error message :: _ => .fail (.error (.input message))

/-- All that an entry brings for extra arguments and an input. -/
def meaning (e : Entry) (args : List String) (input : List InputItem) : Trail Halt String :=
  linesOf pos e.query.select e.query.clauses (e.inputEnvs args 0 input)

end Syntax.Entry

namespace Program

/-- The position of a span in the lines that the user wrote. In front of them stand a line for each
library and the line that opens the entry. What starts in none of them is in line 0. -/
def position (p : Program) (span : Span) : Position :=
  let place := (LineIndex.ofText p.text).position span.start
  let line := place.line - (p.imports.length + 1)
  ⟨if line ≤ p.body.length then line else 0, place.column⟩

/-- The first entry of a program with the name of one that frames a body. -/
def mainEntry? (p : Program) : Option Entry :=
  (Syntax.parse p.text).1.entries.find? fun e => e.name.name == "query"

/-- What a program brings for extra arguments and an input: lines, and an error as the last
item if it halts with one. -/
def meaning (p : Program) (args : List String) (input : List InputItem) :
    List (Except Halt String) :=
  match p.mainEntry? with
  | some e => (e.meaning p.position args input).toList
  | none => []

end Program

end LineQuery
