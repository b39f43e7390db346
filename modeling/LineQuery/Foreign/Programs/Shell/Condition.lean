import LineQuery.Foreign.Programs.Shell.Variables

/-!
# Conditions

What the command for tests holds of texts, numbers and files. Its arguments are an expression
with operators for "and", "or" and "not" and with brackets, which bind in this order: "not",
"and", "or". Each reader takes the arguments from the one that has been come to, and a bound on the
depth.
-/

namespace LineQuery.Shell

open LineQuery.Files (Device Entry)
open LineQuery.Text (Bytes encodeUtf8 decodeLossy)

/-! ## Numbers -/

/-- The integer of 64 bits that a text writes in base ten, with blanks around it or not. -/
def readDecimal? (text : String) : Option Int :=
  let cs := text.toList.dropWhile isNumberBlank
  let cs := (cs.reverse.dropWhile isNumberBlank).reverse
  (Text.readInt? cs).filter fun n => -0x8000000000000000 ≤ n && n ≤ 0x7fffffffffffffff

/-- The number that an argument writes. -/
def decimalOf (arg : Bytes) : InShell Int := do
  let text := decodeLossy arg
  match readDecimal? text with
  | some n => return n
  | none => badNumber text

/-! ## Operators -/

/-- What an argument is in an expression. -/
inductive TestToken where
  | operand
  | unary (op : String)
  | binary (op : String)
  | both
  | either
  | not
  | opening
  | closing
  | ending
deriving DecidableEq, Repr

/-- The operators before an operand. -/
def unaryTests : List String :=
  ["-r", "-w", "-x", "-e", "-f", "-d", "-c", "-b", "-p", "-u", "-g", "-k", "-s", "-t", "-z", "-n",
    "-h", "-O", "-G", "-L", "-S"]

/-- The operators between operands. -/
def binaryTests : List String :=
  ["=", "!=", "<", ">", "-eq", "-ne", "-ge", "-gt", "-le", "-lt", "-nt", "-ot", "-ef"]

/-- The operator that an argument is, if it is one. -/
def testOperator? (arg : Bytes) : Option TestToken :=
  let text := decodeLossy arg
  if unaryTests.contains text then some (.unary text)
  else if binaryTests.contains text then some (.binary text)
  else
    match text with
    | "-a" => some .both
    | "-o" => some .either
    | "!" => some .not
    | "(" => some .opening
    | ")" => some .closing
    | _ => none

/-- Whether an operator is one between operands. -/
def TestToken.isBinary : TestToken → Bool
  | binary _ => true
  | _ => false

/-- What the first of some arguments is. An operator that has nothing to stand before is an
operand, and so is one before an operator between operands. -/
def testToken : List Bytes → TestToken
  | [] => .ending
  | arg :: args =>
    let standsAlone : Bool :=
      match args with
      | [] => true
      | [_] => false
      | next :: _ => (testOperator? next).any (·.isBinary)
    match testOperator? arg with
    | some (.unary op) => if standsAlone then .operand else .unary op
    | some .opening => if args.isEmpty then .operand else .opening
    | some t => t
    | none => .operand

/-! ## Files and values -/

/-- What an operator holds of the file of a name. -/
def fileTest (op : String) (name : String) : InShell Bool := do
  let s ← get
  match s.world.disk.locate s.memory.folder name with
  | .error _ => return false
  | .ok (_, e) =>
    match op, e with
    | "-e", _ | "-r", _ | "-w", _ | "-O", _ | "-G", _ => return true
    | "-f", .file _ | "-f", .program _ => return true
    | "-d", .folder => return true
    | "-x", .folder | "-x", .program _ => return true
    | "-s", .file bytes => return !bytes.isEmpty
    | "-s", .folder | "-s", .program _ => return true
    | "-c", .device (.descriptor _) => return false
    | "-c", .device _ => return true
    | "-p", .device (.descriptor _) => return true
    | _, _ => return false

/-- What an operator holds of an operand. -/
def unaryTest (op : String) (arg : Bytes) : InShell Bool := do
  match op with
  | "-n" => return !arg.isEmpty
  | "-z" => return arg.isEmpty
  | "-t" =>
    let _ ← decimalOf arg
    return false
  | op => fileTest op (decodeLossy arg)

/-- Whether two names are those of one file. -/
def sameFile (a b : Bytes) : InShell Bool := do
  let s ← get
  let find := fun (name : Bytes) => s.world.disk.locate s.memory.folder (decodeLossy name)
  match find a, find b with
  | .ok (path, _), .ok (other, _) => return path == other
  | _, _ => return false

/-- What an operator holds between operands. How old files are is not known. -/
def binaryTest (op : String) (a b : Bytes) : InShell Bool := do
  let compare := fun (holds : Int → Int → Bool) => do
    return holds (← decimalOf a) (← decimalOf b)
  match op with
  | "=" => return a == b
  | "!=" => return a != b
  | "<" => return decide (a < b)
  | ">" => return decide (b < a)
  | "-eq" => compare fun m n => m == n
  | "-ne" => compare fun m n => m != n
  | "-lt" => compare fun m n => decide (m < n)
  | "-le" => compare fun m n => decide (m ≤ n)
  | "-gt" => compare fun m n => decide (n < m)
  | "-ge" => compare fun m n => decide (n ≤ m)
  | "-ef" => sameFile a b
  | _ => return false

/-! ## Expressions -/

/-- Gives up on an operator. -/
def refuseTest (op message : String) : InShell α :=
  giveUp (if op.isEmpty then message else op ++ ": " ++ message)

mutual

/-- What holds of operands joined by "or", and the arguments from the last of them on. -/
def testEither : (depth : Nat) → List Bytes → InShell (Bool × List Bytes)
  | 0, args => return (false, args)
  | depth + 1, args => do
    let (a, rest) ← testBoth depth args
    if testToken (rest.drop 1) = .either then
      let (b, rest) ← testEither depth (rest.drop 2)
      return (a || b, rest)
    else return (a, rest)

/-- What holds of operands joined by "and", and the arguments from the last of them on. -/
def testBoth : (depth : Nat) → List Bytes → InShell (Bool × List Bytes)
  | 0, args => return (false, args)
  | depth + 1, args => do
    let (a, rest) ← testNegated depth args
    if testToken (rest.drop 1) = .both then
      let (b, rest) ← testBoth depth (rest.drop 2)
      return (a && b, rest)
    else return (a, rest)

/-- What holds of an operand that may be negated, and the arguments from its end on. -/
def testNegated : (depth : Nat) → List Bytes → InShell (Bool × List Bytes)
  | 0, args => return (false, args)
  | depth + 1, args => do
    if testToken args = .not then
      if args.drop 1 = [] then return (true, args)
      else
        let (a, rest) ← testNegated depth (args.drop 1)
        return (!a, rest)
    else testPrimary depth args

/-- What holds of one operand or of what stands between brackets, and the arguments from its end
on. -/
def testPrimary : (depth : Nat) → List Bytes → InShell (Bool × List Bytes)
  | 0, args => return (false, args)
  | depth + 1, args => do
    match testToken args, args with
    | .ending, _ => return (false, args)
    | .opening, _ :: inner =>
      if testToken inner = .closing then return (false, inner)
      else
        let (a, rest) ← testEither depth inner
        if testToken (rest.drop 1) = .closing then return (a, rest.drop 1)
        else refuseTest "" "closing paren expected"
    | .unary op, _ :: rest =>
      match rest with
      | [] => refuseTest op "argument expected"
      | arg :: _ => return (← unaryTest op arg, rest)
    | _, a :: rest =>
      match testToken rest, rest with
      | .binary op, _ :: b :: more => return (← binaryTest op a b, b :: more)
      | .binary op, _ => refuseTest op "argument expected"
      | _, _ => return (!a.isEmpty, a :: rest)
    | _, [] => return (false, [])

end

/-- What holds of the arguments of a test; `negated` turns it round. An expression of three
arguments with an operator between operands is one, whatever they are. -/
def testArgs (negated : Bool) : (count : Nat) → List Bytes → InShell Bool
  | 0, _ => return negated
  | count + 1, args => do
    let evaluate := fun (args : List Bytes) => do
      let (a, rest) ← testEither (6 * args.length + 6) args
      match rest.drop 1 with
      | [] => return a != negated
      | _ => refuseTest (decodeLossy (rest.headD [])) "unexpected operator"
    let bracketed : Bool :=
      args.head? == some (encodeUtf8 "(") && args.getLast? == some (encodeUtf8 ")")
    match args with
    | [] => return negated
    | [a, op, b] =>
      match testOperator? op with
      | some (.binary op) => return (← binaryTest op a b) != negated
      | _ =>
        if bracketed then evaluate [op]
        else if a = encodeUtf8 "!" then testArgs (!negated) count [op, b]
        else evaluate args
    | [a, b, c, _] =>
      if bracketed then evaluate [b, c]
      else if a = encodeUtf8 "!" then testArgs (!negated) count (args.drop 1)
      else evaluate args
    | _ => evaluate args

/-- The status of a test. -/
def runTest (args : List Bytes) : InShell Nat := do
  return if ← testArgs false (args.length + 1) args then 0 else 1

/-- The status of a test between square brackets. -/
def runBracketTest (args : List Bytes) : InShell Nat := do
  if args.getLast? = some [93] then runTest args.dropLast else giveUp "missing ]"

end LineQuery.Shell
