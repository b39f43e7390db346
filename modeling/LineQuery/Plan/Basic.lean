import LineQuery.Builtin.Basic
import LineQuery.Diagnostic.Basic
import LineQuery.Syntax.Tree
import LineQuery.Value

/-!
# Plans

A compiled query. Names are gone: a row holds one value for each binding of the query, in
a slot of its own, and expressions read slots. Each expression keeps the position in the
user's lines at which it was written, for the errors of a run.
-/

namespace LineQuery

open LineQuery.Syntax (UnaryOp BinaryOp)

/-- Expressions over the slots of a row. -/
inductive Node where
  | const (value : Value) (pos : Position)
  | slot (i : Nat) (pos : Position)
  | list (items : List Node) (pos : Position)
  | unary (op : UnaryOp) (operand : Node) (pos : Position)
  | binary (op : BinaryOp) (left right : Node) (pos : Position)
  | index (base position : Node) (pos : Position)
  | call (f : Builtin) (args : List Node) (pos : Position)
deriving Repr

/-- The position at which an expression was written; line zero stands for a place outside
the user's lines. -/
def Node.pos : Node → Position
  | const _ p | slot _ p | list _ p | unary _ _ p | binary _ _ _ p | index _ _ p
  | call _ _ p => p

/-- The steps between the input and the output of a query. -/
inductive Step where
  /-- One row for each item of a list; the item and its index go to slots. -/
  | range (var : Nat) (index : Option Nat) (source : Node)
  /-- The rows for which a condition holds. -/
  | filter (cond : Node)
  /-- Each row with one more slot filled. -/
  | bind (slot : Nat) (value : Node)
  /-- The rows after the first few. -/
  | skip (count : Node)
  /-- The first few rows. -/
  | take (count : Node)
deriving Repr

/-- Where a line of the input and its index go. -/
structure InputSlots where
  var : Nat
  index : Option Nat
deriving DecidableEq, Repr

/-- A compiled query. -/
structure Plan where
  slots : Nat
  params : List Nat
  input : InputSlots
  steps : List Step
  select : Node
deriving Repr

/-- A compiled entry: its name, the names of its parameters, and its plan. -/
structure PlanEntry where
  name : String
  params : List String
  plan : Plan
deriving Repr

/-- A compiled program. -/
structure Artifact where
  formatVersion : Nat
  imports : List String
  entries : List PlanEntry
deriving Repr

namespace Artifact

/-- The version of the plans that this library makes and runs. -/
def currentFormat : Nat := 1

/-- The first entry with a name. -/
def entry? (a : Artifact) (name : String) : Option PlanEntry :=
  a.entries.find? fun e => e.name == name

end Artifact

/-- A compiled program and the warnings about it. -/
structure Compilation where
  artifact : Artifact
  warnings : List Diagnostic
deriving Repr

end LineQuery
