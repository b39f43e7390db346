import LineQuery.Plan.Basic
import LineQuery.Store.Codec

/-!
# Compiled programs as bytes

The codec of compiled programs and the warnings about them. Records are written field by
field. Values and expressions nest, so their readers take a bound on the depth; each level
takes a byte at least, and the length of what is read is bound enough.
-/

namespace LineQuery.Store

open LineQuery.Syntax (UnaryOp BinaryOp)
open LineQuery.Text (Bytes)

/-! ## Diagnostics -/

def severity : Codec Severity := .oneOf [.warning, .error]

def category : Codec Category := .oneOf [.error, .warning]

def code : Codec Code :=
  (category.pair (natural 2)).via (fun c => (c.category, c.number)) fun (category, number) =>
    ⟨category, number⟩

def linePosition : Codec Position :=
  ((natural 4).pair (natural 4)).via (fun p => (p.line, p.column)) fun (line, column) =>
    ⟨line, column⟩

def diagnostic : Codec Diagnostic :=
  (severity.pair (code.pair (string.pair (linePosition.pair ((natural 4).pair
    (string.list.pair string.list)))))).via
    (fun d => (d.severity, d.code, d.message, d.position, d.width, d.notes, d.help))
    fun (severity, code, message, position, width, notes, help) =>
      { severity, code, message, position, width, notes, help }

/-! ## Values -/

mutual

/-- A value as bytes. -/
def writeValue : Value → Bytes
  | .str s => writeNat 0 ++ string.write s
  | .int n => writeNat 1 ++ integer.write n
  | .bool b => writeNat 2 ++ boolean.write b
  | .list items => writeNat 3 ++ writeNat items.length ++ writeValues items

/-- Values as bytes, one after another. -/
def writeValues : List Value → Bytes
  | [] => []
  | v :: vs => writeValue v ++ writeValues vs

end

/-- Reads a value of a depth less than `depth`. -/
def readValue : (depth : Nat) → Reader Value
  | 0 => failure
  | depth + 1 => do
    match ← readNat 4 with
    | 0 => return .str (← string.read)
    | 1 => return .int (← integer.read)
    | 2 => return .bool (← boolean.read)
    | 3 => return .list (← readList (readValue depth))
    | _ => failure

/-! ## Expressions -/

def unaryOp : Codec UnaryOp := .oneOf [.not, .neg]

def binaryOp : Codec BinaryOp :=
  .oneOf [.or, .and, .eq, .ne, .lt, .le, .gt, .ge, .add, .sub, .mul, .div, .rem]

def builtin : Codec Builtin := .oneOf Builtin.all

mutual

/-- An expression as bytes; its position comes last. -/
def writeNode : Node → Bytes
  | .const v pos => writeNat 0 ++ writeValue v ++ linePosition.write pos
  | .slot i pos => writeNat 1 ++ writeNat i ++ linePosition.write pos
  | .list items pos =>
    writeNat 2 ++ writeNat items.length ++ writeNodes items ++ linePosition.write pos
  | .unary op e pos => writeNat 3 ++ unaryOp.write op ++ writeNode e ++ linePosition.write pos
  | .binary op a b pos =>
    writeNat 4 ++ binaryOp.write op ++ writeNode a ++ writeNode b ++ linePosition.write pos
  | .index base i pos =>
    writeNat 5 ++ writeNode base ++ writeNode i ++ linePosition.write pos
  | .call f args pos =>
    writeNat 6 ++ builtin.write f ++ writeNat args.length ++ writeNodes args ++
      linePosition.write pos

def writeNodes : List Node → Bytes
  | [] => []
  | n :: ns => writeNode n ++ writeNodes ns

end

/-- Reads an expression of a depth less than `depth`. -/
def readNode : (depth : Nat) → Reader Node
  | 0 => failure
  | depth + 1 => do
    match ← readNat 4 with
    | 0 =>
      let v ← readValue depth
      return .const v (← linePosition.read)
    | 1 =>
      let i ← readNat 8
      return .slot i (← linePosition.read)
    | 2 =>
      let items ← readList (readNode depth)
      return .list items (← linePosition.read)
    | 3 =>
      let op ← unaryOp.read
      let e ← readNode depth
      return .unary op e (← linePosition.read)
    | 4 =>
      let op ← binaryOp.read
      let a ← readNode depth
      let b ← readNode depth
      return .binary op a b (← linePosition.read)
    | 5 =>
      let base ← readNode depth
      let i ← readNode depth
      return .index base i (← linePosition.read)
    | 6 =>
      let f ← builtin.read
      let args ← readList (readNode depth)
      return .call f args (← linePosition.read)
    | _ => failure

def node : Codec Node where
  write := writeNode
  read bs := readNode bs.length bs

/-! ## Plans -/

/-- Numbers of slots. -/
def slotNumber : Codec Nat := natural 8

def step : Codec Step where
  write
    | .range var index source =>
      writeNat 0 ++ slotNumber.write var ++ slotNumber.option.write index ++ node.write source
    | .filter cond => writeNat 1 ++ node.write cond
    | .bind slot value => writeNat 2 ++ slotNumber.write slot ++ node.write value
    | .skip count => writeNat 3 ++ node.write count
    | .take count => writeNat 4 ++ node.write count
  read := do
    match ← readNat 4 with
    | 0 =>
      let var ← slotNumber.read
      let index ← slotNumber.option.read
      return .range var index (← node.read)
    | 1 => return .filter (← node.read)
    | 2 =>
      let slot ← slotNumber.read
      return .bind slot (← node.read)
    | 3 => return .skip (← node.read)
    | 4 => return .take (← node.read)
    | _ => failure

def inputSlots : Codec InputSlots :=
  (slotNumber.pair slotNumber.option).via (fun s => (s.var, s.index)) fun (var, index) =>
    ⟨var, index⟩

def plan : Codec Plan :=
  (slotNumber.pair (slotNumber.list.pair (inputSlots.pair (step.list.pair node)))).via
    (fun p => (p.slots, p.params, p.input, p.steps, p.select))
    fun (slots, params, input, steps, select) => { slots, params, input, steps, select }

def entry : Codec PlanEntry :=
  (string.pair (string.list.pair plan)).via (fun e => (e.name, e.params, e.plan))
    fun (name, params, plan) => ⟨name, params, plan⟩

def artifact : Codec Artifact :=
  ((natural 4).pair (string.list.pair entry.list)).via
    (fun a => (a.formatVersion, a.imports, a.entries))
    fun (formatVersion, imports, entries) => ⟨formatVersion, imports, entries⟩

/-- Compiled programs with their warnings. -/
def compilation : Codec Compilation :=
  (artifact.pair diagnostic.list).via (fun c => (c.artifact, c.warnings))
    fun (artifact, warnings) => ⟨artifact, warnings⟩

end LineQuery.Store
