import LineQuery.Builtin.Apply
import LineQuery.Plan.Basic
import LineQuery.Traced

/-!
# Evaluating expressions

The value of an expression in a row. Operands are evaluated from the left; `&&` and `||`
evaluate the right one only if the left one does not decide, and `case` evaluates keys up
to the one it chooses and then the chosen result. Arithmetic never wraps.
-/

namespace LineQuery

open LineQuery.Syntax (UnaryOp BinaryOp)

/-- The clauses that count rows. -/
inductive CountClause where
  | skip
  | take
deriving DecidableEq, Repr

def CountClause.label : CountClause → String
  | skip => "skip"
  | take => "take"

/-- Why a query fails for a row. -/
inductive Fault where
  | call (e : CallError)
  | overflow
  | divisionByZero
  | operands (op : BinaryOp) (left right : Value.Kind)
  | operand (op : UnaryOp) (found : Value.Kind)
  | indexType (found : Value.Kind)
  | outOfRange (index : Int64) (length : Nat)
  | notIndexable (found : Value.Kind)
  | incompleteCase
  | rangeOver (found : Value.Kind)
  | condition (found : Value.Kind)
  | count (clause : CountClause) (found : Value)
deriving Repr

namespace Fault

def message : Fault → String
  | call e => e.message
  | overflow => "integer overflow"
  | divisionByZero => "division by zero"
  | operands op left right =>
    "operator `" ++ op.symbol ++ "` cannot be applied to " ++ left.label ++ " and " ++ right.label
  | operand .not found => "`!` expects a bool, found " ++ found.label
  | operand .neg found => "`-` expects an int, found " ++ found.label
  | indexType found => "index must be an int, found " ++ found.label
  | outOfRange index length =>
    "index " ++ Text.intText index.toInt ++ " out of range for length " ++ Text.natText length
  | notIndexable found => "cannot index into " ++ found.label
  | incompleteCase => "`case` needs a value and a default"
  | rangeOver found => "`from` expects a list, found " ++ found.label
  | condition found => "`where` expects a bool, found " ++ found.label
  | count clause found =>
    "`" ++ clause.label ++ "` expects a non-negative int, found " ++ found.display

end Fault

/-- A fault and the position of the expression at which it arose. -/
structure EvalError where
  fault : Fault
  pos : Position
deriving Repr

/-- A computation for a row. -/
abbrev Eval := Traced EvalError

namespace Eval

/-- A result that may be a fault at `pos`. -/
def located (pos : Position) (x : Except Fault α) : Eval α :=
  match x with
  | .ok a => pure a
  | .error fault => .fail ⟨fault, pos⟩

end Eval

/-- The values of the slots. -/
abbrev Row := List Value

def Row.slot (row : Row) (i : Nat) : Value :=
  (row[i]?).getD (.bool false)

/-! ## Operators -/

/-- An integer if it fits in 64 bits. -/
def checked (n : Int) : Except Fault Value :=
  match Text.toInt64? n with
  | some n => .ok (.int n)
  | none => .error .overflow

/-- The value of an operator of one operand. -/
def applyUnary : UnaryOp → Value → Except Fault Value
  | .not, .bool b => .ok (.bool !b)
  | .neg, .int n => checked (-n.toInt)
  | op, v => .error (.operand op v.kind)

/-- The truth value of the left operand that decides a logical operator. -/
def deciding? : BinaryOp → Option Bool
  | .or => some true
  | .and => some false
  | _ => none

def holds : BinaryOp → Ordering → Bool
  | .lt, o => o == .lt
  | .le, o => o != .gt
  | .gt, o => o == .gt
  | _, o => o != .lt

/-- The value of a comparison. Integers compare as numbers, strings character by
character. -/
def compareValues (op : BinaryOp) : Value → Value → Except Fault Value
  | .int a, .int b => .ok (.bool (holds op (compare a.toInt b.toInt)))
  | .str a, .str b => .ok (.bool (holds op (compare a b)))
  | a, b => .error (.operands op a.kind b.kind)

/-- The value of `+`: a sum, two lists in one, or the text of both operands. -/
def addValues : Value → Value → Except Fault Value
  | .int a, .int b => checked (a.toInt + b.toInt)
  | .list as, .list bs => .ok (.list (as ++ bs))
  | .str a, b => .ok (.str (a ++ b.display))
  | a, .str b => .ok (.str (a.display ++ b))
  | a, b => .error (.operands .add a.kind b.kind)

/-- The value of `-`, `*`, `/` or `%`; quotients are rounded toward zero. -/
def arithmetic (op : BinaryOp) : Value → Value → Except Fault Value
  | .int a, .int b =>
    match op with
    | .sub => checked (a.toInt - b.toInt)
    | .mul => checked (a.toInt * b.toInt)
    | .div => if b = 0 then .error .divisionByZero else checked (a.toInt.tdiv b.toInt)
    | _ =>
      if b = 0 then .error .divisionByZero
      -- The remainder is defined where the quotient is.
      else (checked (a.toInt.tdiv b.toInt)).bind fun _ => checked (a.toInt.tmod b.toInt)
  | a, b => .error (.operands op a.kind b.kind)

/-- The value of an operator that evaluates both operands. -/
def applyBinary (op : BinaryOp) (a b : Value) : Except Fault Value :=
  match op with
  | .eq => .ok (.bool (decide (a = b)))
  | .ne => .ok (.bool (decide (a ≠ b)))
  | .lt | .le | .gt | .ge => compareValues op a b
  | .add => addValues a b
  | _ => arithmetic op a b

/-- The item of a list or the character of a string at an index. -/
def indexValue (base : Value) (i : Int64) : Except Fault Value :=
  match base with
  | .list items =>
    match Builtin.itemAt? items i with
    | some v => .ok v
    | none => .error (.outOfRange i items.length)
  | .str s =>
    match Builtin.itemAt? s.toList i with
    | some c => .ok (.str (String.ofList [c]))
    | none => .error (.outOfRange i s.length)
  | v => .error (.notIndexable v.kind)

/-- The index that a value is. -/
def asIndex : Value → Except Fault Int64
  | .int n => .ok n
  | v => .error (.indexType v.kind)

/-- The value of a call, with the warning it gives. -/
def callValue (f : Builtin) (args : List Value) (pos : Position) : Eval Value :=
  match f.apply args with
  | .ok v => ⟨(f.warning? args).toList, .ok v⟩
  | .error e => .fail ⟨.call e, pos⟩

/-! ## Expressions -/

namespace Node

mutual

/-- The value of an expression in a row. -/
def eval (row : Row) : Node → Eval Value
  | .const v _ => pure v
  | .slot i _ => pure (row.slot i)
  | .list items _ => do return .list (← evalAll row items)
  | .unary op operand pos => do
    let v ← eval row operand
    .located pos (applyUnary op v)
  | .binary op left right pos => do
    let a ← eval row left
    match deciding? op with
    | none =>
      let b ← eval row right
      .located pos (applyBinary op a b)
    | some decision =>
      match a with
      | .bool a =>
        if a = decision then return .bool a
        else
          match ← eval row right with
          | .bool b => return .bool b
          | b => .fail ⟨.operands op .bool b.kind, pos⟩
      | a => .fail ⟨.operands op a.kind .bool, pos⟩
  | .index base position pos => do
    let v ← eval row base
    let i ← eval row position
    let i ← .located pos (asIndex i)
    .located pos (indexValue v i)
  | .call .case args pos => evalCase row pos args
  | .call f args pos => do callValue f (← evalAll row args) pos

def evalAll (row : Row) : List Node → Eval (List Value)
  | [] => pure []
  | node :: nodes => do
    let v ← eval row node
    let vs ← evalAll row nodes
    return v :: vs

/-- The value of a `case` with these arguments. -/
def evalCase (row : Row) (pos : Position) : List Node → Eval Value
  | [] | [_] => .fail ⟨.incompleteCase, pos⟩
  | value :: first :: rest => do
    let v ← eval row value
    evalChoice row pos v (first :: rest)

/-- The result that `v` chooses among pairs of keys and results and a default. A key without
a result before the default is passed over. -/
def evalChoice (row : Row) (pos : Position) (v : Value) : List Node → Eval Value
  | [] => .fail ⟨.incompleteCase, pos⟩
  | [default] => eval row default
  | [_, default] => eval row default
  | key :: result :: third :: rest => do
    let k ← eval row key
    if k = v then eval row result else evalChoice row pos v (third :: rest)

end

end Node

end LineQuery
