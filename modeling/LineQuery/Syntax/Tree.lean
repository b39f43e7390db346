import LineQuery.Script.Position

/-!
# Syntax trees

A document declares libraries and entries; an entry is a named query with parameters. Every
name and expression carries its span. Where an expression is missing or malformed the tree
has a hole, which only a document with errors has.
-/

namespace LineQuery.Syntax

/-- A name and where it stands. -/
structure Ident where
  name : String
  span : Span
deriving DecidableEq, Repr

/-- What stands where a name is missing. -/
def Ident.missing (span : Span) : Ident :=
  ⟨"<missing>", span⟩

/-- Whether a name is the placeholder. No name of a text is: it is not spelled like one. -/
def Ident.isMissing (id : Ident) : Bool :=
  id.name == "<missing>"

inductive UnaryOp where
  | not
  | neg
deriving DecidableEq, Repr

inductive BinaryOp where
  | or
  | and
  | eq
  | ne
  | lt
  | le
  | gt
  | ge
  | add
  | sub
  | mul
  | div
  | rem
deriving DecidableEq, Repr

def BinaryOp.symbol : BinaryOp → String
  | or => "||"
  | and => "&&"
  | eq => "=="
  | ne => "!="
  | lt => "<"
  | le => "<="
  | gt => ">"
  | ge => ">="
  | add => "+"
  | sub => "-"
  | mul => "*"
  | div => "/"
  | rem => "%"

/-- How tightly an operator binds its operands, from one for the loosest. -/
def BinaryOp.level : BinaryOp → Nat
  | or => 1
  | and => 2
  | eq | ne => 3
  | lt | le | gt | ge => 4
  | add | sub => 5
  | mul | div | rem => 6

inductive Expr where
  | int (value : Int64) (span : Span)
  | str (value : String) (span : Span)
  | bool (value : Bool) (span : Span)
  | name (id : Ident)
  | list (items : List Expr) (span : Span)
  | unary (op : UnaryOp) (operand : Expr) (span : Span)
  | binary (op : BinaryOp) (left right : Expr) (span : Span)
  | index (base position : Expr) (span : Span)
  | call (function : Ident) (args : List Expr) (span : Span)
  | hole (span : Span)
deriving Repr

/-- Where an expression stands. Parentheses around it do not count. -/
def Expr.span : Expr → Span
  | int _ s | str _ s | bool _ s | list _ s | unary _ _ s | binary _ _ _ s | index _ _ s
  | call _ _ s | hole s => s
  | name id => id.span

def Expr.isHole : Expr → Bool
  | hole _ => true
  | _ => false

/-- A clause that lets a name, and perhaps a second one for the index, range over a list. -/
structure FromClause where
  var : Ident
  index : Option Ident
  source : Expr
deriving Repr

/-- The clauses between the first `from` and the `select` of a query. -/
inductive Clause where
  | range (clause : FromClause)
  | filter (cond : Expr)
  | bind (name : Ident) (value : Expr)
  | skip (count : Expr)
  | take (count : Expr)
deriving Repr

/-- A query. -/
structure Query where
  source : FromClause
  clauses : List Clause
  select : Expr
deriving Repr

/-- A named query with parameters. -/
structure Entry where
  name : Ident
  params : List Ident
  query : Query
deriving Repr

structure Document where
  uses : List Ident
  entries : List Entry
deriving Repr

end LineQuery.Syntax
