import LineQuery.Compile

/-! # Static semantics

Which documents have a meaning, said without the scopes that resolving keeps. The names of
an entry are listed in the order in which they come into scope, every expression is listed
with the names that are in scope where it stands, and a document is *admissible* if its
libraries exist and each of its entries

* has parameters and binds no name twice,
* starts with a `from` over its first parameter, the stream,
* reads only names bound before, and never the stream,
* calls only functions of imported libraries, with as many arguments as they take.

What a hole stands for is left open: it reads nothing and calls nothing.
-/

namespace LineQuery.Syntax

/-- A call as it is written: the name of the function and the number of arguments. -/
structure CallSite where
  function : String
  count : Nat
deriving DecidableEq, Repr

namespace Expr

mutual

/-- The names that an expression reads as variables. -/
def namesRead : Expr → List String
  | .int _ _ | .str _ _ | .bool _ _ | .hole _ => []
  | .name id => [id.name]
  | .list items _ => namesReadAll items
  | .unary _ operand _ => operand.namesRead
  | .binary _ left right _ => left.namesRead ++ right.namesRead
  | .index base position _ => base.namesRead ++ position.namesRead
  | .call _ args _ => namesReadAll args

def namesReadAll : List Expr → List String
  | [] => []
  | e :: es => e.namesRead ++ namesReadAll es

end

mutual

def calls : Expr → List CallSite
  | .int _ _ | .str _ _ | .bool _ _ | .hole _ | .name _ => []
  | .list items _ => callsAll items
  | .unary _ operand _ => operand.calls
  | .binary _ left right _ => left.calls ++ right.calls
  | .index base position _ => base.calls ++ position.calls
  | .call id args _ => callsAll args ++ [⟨id.name, args.length⟩]

def callsAll : List Expr → List CallSite
  | [] => []
  | e :: es => e.calls ++ callsAll es

end

end Expr

/-! ## Names in the order of their binding -/

/-- The names that a `from` binds: its variable, then its index. -/
def FromClause.binders (clause : FromClause) : List String :=
  clause.var.name :: (clause.index.map (·.name)).toList

/-- The names that a clause binds. -/
def Clause.binders : Clause → List String
  | .range clause => clause.binders
  | .bind name _ => [name.name]
  | .filter _ | .skip _ | .take _ => []

def Clause.expr : Clause → Expr
  | .range clause => clause.source
  | .filter e | .bind _ e | .skip e | .take e => e

/-- An expression and the names that are in scope where it stands. -/
structure Site where
  scope : List String
  expr : Expr

/-- The expressions of clauses and of the `select` behind them. The names of a clause are in
scope behind it, not in its own expression. -/
def sitesFrom (scope : List String) (select : Expr) : List Clause → List Site
  | [] => [⟨scope, select⟩]
  | clause :: clauses =>
    ⟨scope, clause.expr⟩ :: sitesFrom (scope ++ clause.binders) select clauses

namespace Entry

def paramNames (e : Entry) : List String :=
  e.params.map (·.name)

/-- The name of the input stream: the first parameter. -/
def stream? (e : Entry) : Option String :=
  e.paramNames.head?

/-- All names that an entry binds, in the order of their binding. -/
def binders (e : Entry) : List String :=
  e.paramNames ++ e.query.source.binders ++ e.query.clauses.flatMap Clause.binders

/-- The expressions of an entry behind its first `from`. -/
def sites (e : Entry) : List Site :=
  sitesFrom (e.paramNames ++ e.query.source.binders) e.query.select e.query.clauses

end Entry

/-! ## Admissible documents -/

/-- Whether a function takes `count` arguments. The length of `substr` can be left out, and `case`
takes a value, one or more pairs of a key and a result, and a default. -/
def TakesArguments (f : Builtin) (count : Nat) : Prop :=
  match f with
  | .str | .int | .len | .single | .upper | .lower | .trim | .splitTab | .decodeTab | .encodeTab
  | .joinTab => count = 1
  | .error | .warn | .split | .join | .contains | .startsWith | .endsWith => count = 2
  | .substr => count = 2 ∨ count = 3
  | .getOr | .replace => count = 3
  | .case => 4 ≤ count ∧ count % 2 = 0

/-- A call of a function of an imported library with as many arguments as it takes. -/
def CallSite.Known (uses : List Ident) (call : CallSite) : Prop :=
  ∃ f : Builtin, f.name = call.function ∧ (∃ library ∈ uses, library.name = f.library.name) ∧
    TakesArguments f call.count

/-- What an entry of a document with the libraries `uses` has to obey. -/
structure Entry.Admissible (uses : List Ident) (e : Entry) : Prop where
  params : e.params ≠ []
  distinct : e.binders.Nodup
  overStream : ∃ id, e.query.source.source = .name id ∧ e.stream? = some id.name
  references : ∀ site ∈ e.sites, ∀ x ∈ site.expr.namesRead,
    x ∈ site.scope ∧ e.stream? ≠ some x
  calls : ∀ site ∈ e.sites, ∀ call ∈ site.expr.calls, call.Known uses

/-- What a document has to obey: its libraries exist, and each entry is admissible. -/
structure Document.Admissible (d : Document) : Prop where
  libraries : ∀ library ∈ d.uses, library.name ∈ ["core", "text", "tsv"]
  entries : ∀ e ∈ d.entries, e.Admissible d.uses

end LineQuery.Syntax
