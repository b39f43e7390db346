import LineQuery.Text.Decimal

/-!
# Values

What an expression of a query evaluates to, and how a value is written in a line.
-/

namespace LineQuery

/-- Strings, signed 64-bit integers, truth values and lists of values. -/
inductive Value where
  | str (s : String)
  | int (n : Int64)
  | bool (b : Bool)
  | list (items : List Value)
deriving Repr, Inhabited

namespace Value

mutual

def decEq : (a b : Value) → Decidable (a = b)
  | .str s, .str t => if h : s = t then .isTrue (by rw [h]) else .isFalse (by simp [h])
  | .int m, .int n => if h : m = n then .isTrue (by rw [h]) else .isFalse (by simp [h])
  | .bool a, .bool b => if h : a = b then .isTrue (by rw [h]) else .isFalse (by simp [h])
  | .list as, .list bs =>
    match decEqList as bs with
    | .isTrue h => .isTrue (by rw [h])
    | .isFalse h => .isFalse (by simp [h])
  | .str _, .int _ | .str _, .bool _ | .str _, .list _
  | .int _, .str _ | .int _, .bool _ | .int _, .list _
  | .bool _, .str _ | .bool _, .int _ | .bool _, .list _
  | .list _, .str _ | .list _, .int _ | .list _, .bool _ => .isFalse (by simp)

def decEqList : (as bs : List Value) → Decidable (as = bs)
  | [], [] => .isTrue rfl
  | a :: as, b :: bs =>
    match decEq a b with
    | .isTrue h =>
      match decEqList as bs with
      | .isTrue h' => .isTrue (by rw [h, h'])
      | .isFalse h' => .isFalse (by simp [h'])
    | .isFalse h => .isFalse (by simp [h])
  | [], _ :: _ | _ :: _, [] => .isFalse (by simp)

end

instance : DecidableEq Value := decEq

/-- The types of values. -/
inductive Kind where
  | string
  | int
  | bool
  | list
deriving DecidableEq, Repr

def Kind.label : Kind → String
  | .string => "string"
  | .int => "int"
  | .bool => "bool"
  | .list => "list"

def kind : Value → Kind
  | .str _ => .string
  | .int _ => .int
  | .bool _ => .bool
  | .list _ => .list

def boolText (b : Bool) : String :=
  if b then "true" else "false"

mutual

/-- How a value is written: a string as it is, a list in brackets. -/
def display : Value → String
  | .str s => s
  | .int n => Text.intText n.toInt
  | .bool b => boolText b
  | .list items => "[" ++ ", ".intercalate (displays items) ++ "]"

/-- How each of some values is written. -/
def displays : List Value → List String
  | [] => []
  | v :: vs => v.display :: displays vs

end

/-- A list of strings. -/
def strings (items : List String) : Value :=
  .list (items.map .str)

end Value

end LineQuery
