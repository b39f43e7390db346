import LineQuery.Diagnostic.Basic
import LineQuery.Plan.Basic
import LineQuery.Script.Program

/-!
# Names and slots

Bindings come into scope clause by clause and stay to the end of their entry, so one list
of bindings is enough. Each binding has a slot of its own, but for the input stream: it has
none, and may only be the source of the first `from`. A name that cannot be resolved is
reported and stands for slot zero, a call that cannot be resolved for a constant; such a
plan is never run.
-/

namespace LineQuery

open LineQuery.Syntax (Ident Expr FromClause Clause Query Entry Document)

/-- A name in scope. -/
structure Binding where
  name : String
  span : Span
  /-- The slot of the value, none for the input stream. -/
  slot : Option Nat
  /-- Whether the name has been read. -/
  used : Bool
  /-- Whether it matters that the name is never read. -/
  mustBeUsed : Bool
deriving DecidableEq, Repr

/-- The names in scope, the earliest first, the number of slots given out, and the findings
so far, the latest first. -/
structure Scope where
  bindings : List Binding
  slots : Nat
  findings : List Finding
deriving DecidableEq, Repr

/-- What resolving depends on beside the scope: where the text's lines start, where the
user's lines stand, and the libraries imported. -/
structure ScopeContext where
  index : LineIndex
  userLines : UserLines
  imports : List Library
deriving Repr

namespace ScopeContext

/-- The position of a span in the user's lines, counted from one. -/
def userPosition (ctx : ScopeContext) (span : Span) : Position :=
  let p := ctx.index.position span.start
  match ctx.userLines.find? p.line with
  | some k => ⟨k + 1, p.column⟩
  | none => ⟨0, p.column⟩

end ScopeContext

namespace Scope

def empty : Scope := ⟨[], 0, []⟩

def report (s : Scope) (f : Finding) : Scope :=
  { s with findings := f :: s.findings }

/-- The scope with the input stream bound to a name. -/
def bindStream (s : Scope) (id : Ident) : Scope :=
  { s with bindings := s.bindings ++ [⟨id.name, id.span, none, false, false⟩] }

/-- The scope with a name bound to a fresh slot, and the slot. A name that is bound already is
reported. The placeholder for a missing name is not bound: the parser has reported it. -/
def bind (s : Scope) (id : Ident) (mustBeUsed : Bool) : Option Nat × Scope :=
  if id.isMissing then (none, s)
  else if s.bindings.any fun b => b.name == id.name then
    (none, s.report
      { code := .duplicateBinding, message := "`" ++ id.name ++ "` is already bound",
        span := id.span })
  else
    (some s.slots,
      { s with
        bindings := s.bindings ++ [⟨id.name, id.span, some s.slots, false, mustBeUsed⟩]
        slots := s.slots + 1 })

def find? (s : Scope) (name : String) : Option Binding :=
  s.bindings.reverse.find? fun b => b.name == name

/-- The scope in which the bindings of a name have been read. -/
def markUsed (s : Scope) (name : String) : Scope :=
  let mark := fun (b : Binding) => if b.name == name then { b with used := true } else b
  { s with bindings := s.bindings.map mark }

/-- The scope in which the input stream has been read. -/
def markStream (s : Scope) : Scope :=
  { s with
    bindings := s.bindings.modify (s.bindings.findIdx (·.slot.isNone)) ({ · with used := true }) }

def unknownVariable (id : Ident) : Finding :=
  { code := .unknownVariable, message := "unknown variable `" ++ id.name ++ "`", span := id.span,
    help :=
      if (Builtin.ofName? id.name).isSome then
        ["`" ++ id.name ++ "` is a function; call it as `" ++ id.name ++ "(...)`"]
      else [] }

/-- What is reported about the input stream where a value is needed. -/
def streamAsValue (id : Ident) : Finding :=
  { code := .linesMisuse,
    message := "`" ++ id.name ++
      "` is the input stream and can only be the source of the first `from`",
    span := id.span }

/-- The slot of a name that is read. -/
def lookup (s : Scope) (id : Ident) : Nat × Scope :=
  match s.find? id.name with
  | none => (0, s.report (unknownVariable id))
  | some b =>
    match b.slot with
    | some slot => (slot, s.markUsed id.name)
    | none => (0, (s.markUsed id.name).report (streamAsValue id))

/-- The function that is called, or what is wrong with the call. -/
def findFunction (imports : List Library) (id : Ident) (count : Nat) : Except Finding Builtin :=
  match Builtin.ofName? id.name with
  | none =>
    .error
      { code := .unknownFunction, message := "unknown function `" ++ id.name ++ "`",
        span := id.span }
  | some f =>
    let library := f.library.name
    if f.library ∉ imports then
      .error
        { code := .unknownFunction, span := id.span,
          message := "function `" ++ id.name ++ "` is provided by library `" ++ library ++
            "`, which is not imported",
          help := ["import it with `-u " ++ library ++ "`"] }
    else if f.accepts count then .ok f
    else
      .error
        { code := .arity, span := id.span,
          message := "`" ++ id.name ++ "` takes " ++ f.arityText ++ ", found " ++
            Text.natText count }

/-- The call of a resolved function, or a constant in place of one that is reported. -/
def resolveCall (ctx : ScopeContext) (id : Ident) (args : List Node) (pos : Position)
    (s : Scope) : Node × Scope :=
  match findFunction ctx.imports id args.length with
  | .ok f => (.call f args pos, s)
  | .error finding => (.const (.bool false) pos, s.report finding)

mutual

/-- An expression with its names resolved. -/
def resolveExpr (ctx : ScopeContext) : Expr → Scope → Node × Scope
  | .int n span, s => (.const (.int n) (ctx.userPosition span), s)
  | .str text span, s => (.const (.str text) (ctx.userPosition span), s)
  | .bool b span, s => (.const (.bool b) (ctx.userPosition span), s)
  | .name id, s =>
    let (slot, s) := s.lookup id
    (.slot slot (ctx.userPosition id.span), s)
  | .list items span, s =>
    let (items, s) := resolveExprs ctx items s
    (.list items (ctx.userPosition span), s)
  | .unary op operand span, s =>
    let (operand, s) := resolveExpr ctx operand s
    (.unary op operand (ctx.userPosition span), s)
  | .binary op left right span, s =>
    let (left, s) := resolveExpr ctx left s
    let (right, s) := resolveExpr ctx right s
    (.binary op left right (ctx.userPosition span), s)
  | .index base position span, s =>
    let (base, s) := resolveExpr ctx base s
    let (position, s) := resolveExpr ctx position s
    (.index base position (ctx.userPosition span), s)
  | .call id args span, s =>
    let (args, s) := resolveExprs ctx args s
    resolveCall ctx id args (ctx.userPosition span) s
  | .hole span, s => (.const (.bool false) (ctx.userPosition span), s)

def resolveExprs (ctx : ScopeContext) : List Expr → Scope → List Node × Scope
  | [], s => ([], s)
  | e :: es, s =>
    let (node, s) := resolveExpr ctx e s
    let (nodes, s) := resolveExprs ctx es s
    (node :: nodes, s)

end

/-- The slot of a name that a clause binds. -/
def bindVar (s : Scope) (id : Ident) : Nat × Scope :=
  let (slot, s) := s.bind id true
  (slot.getD 0, s)

/-- The slot of the index that a clause binds, if it binds one. -/
def bindIndex (s : Scope) : Option Ident → Option Nat × Scope
  | none => (none, s)
  | some id => s.bind id true

def isStream (source : Expr) (stream : Option Ident) : Bool :=
  match source, stream with
  | .name id, some param => id.name == param.name
  | _, _ => false

/-- What is reported about a first `from` over anything but the input stream. -/
def notOverStream (source : Expr) (stream : Option Ident) : Finding :=
  let name := (stream.map (·.name)).getD "lines"
  { code := .linesMisuse, message := "the first `from` must range over `" ++ name ++ "`",
    span := source.span, help := ["start the query with `from line in " ++ name ++ "`"] }

/-- The scope in which the source of the first `from` has been read. A source that is not the
stream is reported and read for what is wrong with it beside that; a hole has been reported by
the parser. -/
def resolveSource (ctx : ScopeContext) (source : Expr) (stream : Option Ident) (s : Scope) :
    Scope :=
  if isStream source stream then s.markStream
  else if source.isHole then s
  else (resolveExpr ctx source (s.report (notOverStream source stream))).2

/-- The first `from`. -/
def resolveInput (ctx : ScopeContext) (clause : FromClause) (stream : Option Ident) (s : Scope) :
    InputSlots × Scope :=
  let s := resolveSource ctx clause.source stream s
  let (var, s) := s.bindVar clause.var
  let (index, s) := s.bindIndex clause.index
  (⟨var, index⟩, s)

/-- A clause. Its own names are not in scope in its expression. -/
def resolveClause (ctx : ScopeContext) (clause : Clause) (s : Scope) : Step × Scope :=
  match clause with
  | .range clause =>
    let (source, s) := resolveExpr ctx clause.source s
    let (var, s) := s.bindVar clause.var
    let (index, s) := s.bindIndex clause.index
    (.range var index source, s)
  | .filter cond =>
    let (cond, s) := resolveExpr ctx cond s
    (.filter cond, s)
  | .bind name value =>
    let (value, s) := resolveExpr ctx value s
    let (slot, s) := s.bindVar name
    (.bind slot value, s)
  | .skip count =>
    let (count, s) := resolveExpr ctx count s
    (.skip count, s)
  | .take count =>
    let (count, s) := resolveExpr ctx count s
    (.take count, s)

/-- The clauses of a query in order. -/
def resolveClauses (ctx : ScopeContext) : List Clause → Scope → List Step × Scope
  | [], s => ([], s)
  | clause :: clauses, s =>
    let (step, s) := resolveClause ctx clause s
    let (steps, s) := resolveClauses ctx clauses s
    (step :: steps, s)

/-- The parameters after the first, and their slots. -/
def bindParams : List Ident → Scope → List Nat × Scope
  | [], s => ([], s)
  | id :: ids, s =>
    let (slot, s) := s.bind id false
    let (slots, s) := bindParams ids s
    (slot.toList ++ slots, s)

/-- The scope of an entry's parameters, and the slots of all but the first, which is the
input stream. -/
def enter : List Ident → List Nat × Scope
  | [] => ([], empty)
  | stream :: params => bindParams params (empty.bindStream stream)

/-- What is reported about a binding that is never read. -/
def unused? (b : Binding) : Option Finding :=
  if b.mustBeUsed && !b.used && !b.name.startsWith "_" then
    some
      { code := .unusedBinding, message := "unused binding `" ++ b.name ++ "`", span := b.span,
        help := ["rename it to `_" ++ b.name ++ "` to silence this warning"] }
  else none

/-- The findings about a scope that is left, in the order in which they arose. -/
def leave (s : Scope) : List Finding :=
  s.findings.reverse ++ s.bindings.filterMap unused?

/-- An entry with its names resolved, and the findings about it. -/
def resolveEntry (ctx : ScopeContext) (entry : Entry) : PlanEntry × List Finding :=
  let (params, s) := enter entry.params
  let (input, s) := resolveInput ctx entry.query.source entry.params.head? s
  let (steps, s) := resolveClauses ctx entry.query.clauses s
  let (select, s) := resolveExpr ctx entry.query.select s
  ({ name := entry.name.name, params := entry.params.map (·.name),
     plan := { slots := s.slots, params, input, steps, select } },
    s.leave)

end Scope

/-! ## Documents -/

/-- What is reported about a library that does not exist. -/
def unknownLibrary? (id : Ident) : Option Finding :=
  match Library.ofName? id.name with
  | some _ => none
  | none =>
    some
      { code := .unknownLibrary, message := "unknown library `" ++ id.name ++ "`", span := id.span,
        help := ["available libraries: " ++ ", ".intercalate (Library.all.map (·.name))] }

/-- The libraries that exist among those declared, each at its first place. -/
def importedLibraries (uses : List Ident) : List Library :=
  (uses.filterMap fun id => Library.ofName? id.name).foldl
    (fun found l => if l ∈ found then found else found ++ [l]) []

/-- A document with its names resolved, and the findings about it in the order in which they
arose. -/
def resolve (index : LineIndex) (userLines : UserLines) (d : Document) :
    Artifact × List Finding :=
  let imports := importedLibraries d.uses
  let entries := d.entries.map (Scope.resolveEntry ⟨index, userLines, imports⟩)
  ({ formatVersion := Artifact.currentFormat, imports := imports.map (·.name),
     entries := entries.map (·.1) },
    d.uses.filterMap unknownLibrary? ++ entries.flatMap (·.2))

end LineQuery
