import LineQuery.Text.Decimal

/-!
# Arithmetic in shell scripts

Expressions over integers of 64 bits and variables. A number that does not fit is the nearest
one that does; what is computed wraps around. Each reader takes a bound on the depth.
-/

namespace LineQuery.Shell

/-! ## Expressions -/

inductive BinaryOp where
  | multiply
  | divide
  | remainder
  | add
  | subtract
  | shiftLeft
  | shiftRight
  | less
  | lessEqual
  | greater
  | greaterEqual
  | equal
  | unequal
  | bitAnd
  | bitXor
  | bitOr
deriving DecidableEq, Repr

inductive UnaryOp where
  | negate
  | not
  | complement
deriving DecidableEq, Repr

/-- Expressions. -/
inductive Formula where
  | number (n : Int64)
  | named (name : String)
  | unary (op : UnaryOp) (a : Formula)
  | binary (op : BinaryOp) (a b : Formula)
  | both (a b : Formula)
  | either (a b : Formula)
  | choose (cond yes no : Formula)
  /-- Gives a value to a variable, that of `op` with the one it had if there is an operator. -/
  | assign (name : String) (op : Option BinaryOp) (value : Formula)
deriving DecidableEq, Repr

/-- Why an expression has no value. -/
inductive FormulaError where
  | expected (what : String)
  | divisionByZero
  | notANumber (text : String)
deriving DecidableEq, Repr

/-! ## Numbers -/

/-- The integer of 64 bits that is nearest to one. -/
def nearestInt64 (n : Int) : Int64 :=
  Int64.ofInt (max (-0x8000000000000000) (min n 0x7fffffffffffffff))

/-- The digit that a character stands for. -/
def digitValue? (c : Char) : Option Nat :=
  if '0' ≤ c ∧ c ≤ '9' then some (c.toNat - '0'.toNat)
  else if 'a' ≤ c ∧ c ≤ 'z' then some (c.toNat - 'a'.toNat + 10)
  else if 'A' ≤ c ∧ c ≤ 'Z' then some (c.toNat - 'A'.toNat + 10)
  else none

/-- The number that digits in a base stand for behind `acc`, and what is left. -/
def readBase (base acc : Nat) : List Char → Nat × List Char
  | [] => (acc, [])
  | c :: cs =>
    match digitValue? c with
    | some d => if d < base then readBase base (base * acc + d) cs else (acc, c :: cs)
    | none => (acc, c :: cs)

/-- The number at the front of characters, and what is left: octal behind a zero, hexadecimal
behind a zero and an `x`. -/
def readUnsigned (cs : List Char) : Nat × List Char :=
  match cs with
  | '0' :: x :: d :: rest =>
    if (x = 'x' || x = 'X') && ((digitValue? d).any (· < 16)) then readBase 16 0 (d :: rest)
    else readBase 8 0 cs
  | '0' :: _ => readBase 8 0 cs
  | cs => readBase 10 0 cs

/-- Whether a character may stand around a number. -/
def isNumberBlank (c : Char) : Bool :=
  c == ' ' || c == '\t' || c == '\n' || c == '\x0b' || c == '\x0c' || c == '\r'

/-- The number that a whole text writes; one without digits writes zero. -/
def readNumber? (text : String) : Option Int64 :=
  let cs := text.toList.dropWhile isNumberBlank
  let (negative, cs) :=
    match cs with
    | '-' :: cs => (true, cs)
    | '+' :: cs => (false, cs)
    | cs => (false, cs)
  let (n, rest) := readUnsigned cs
  if rest.all isNumberBlank then some (nearestInt64 (if negative then -(n : Int) else n)) else none

/-! ## Tokens -/

inductive FormulaToken where
  | number (n : Int64)
  | name (text : String)
  | symbol (text : String)
  | ending
deriving DecidableEq, Repr

/-- The symbols, a longer one before its own beginning. -/
def formulaSymbols : List String :=
  ["<<=", ">>=", "<<", ">>", "<=", ">=", "==", "!=", "&&", "||", "+=", "-=", "*=", "/=", "%=", "&=",
    "|=", "^=", "<", ">", "=", "!", "&", "|", "^", "+", "-", "*", "/", "%", "~", "?", ":", "(", ")"]

/-- Whether a character may stand in the name of a variable. -/
def isFormulaName (c : Char) : Bool :=
  ('a' ≤ c && c ≤ 'z') || ('A' ≤ c && c ≤ 'Z') || c == '_' || Text.isDigit c

/-- The token at the front of an expression, and what is left. What is no token is a symbol of its
own. -/
def nextToken (cs : List Char) : FormulaToken × List Char :=
  match cs.dropWhile fun c => c = ' ' || c = '\t' || c = '\n' with
  | [] => (.ending, [])
  | c :: cs =>
    if Text.isDigit c then
      let (n, rest) := readUnsigned (c :: cs)
      (.number (nearestInt64 n), rest)
    else if isFormulaName c then
      (.name (String.ofList (c :: cs.takeWhile isFormulaName)), cs.dropWhile isFormulaName)
    else
      match formulaSymbols.find? fun symbol => symbol.toList.isPrefixOf (c :: cs) with
      | some symbol => (.symbol symbol, (c :: cs).drop symbol.length)
      | none => (.symbol "", cs)

/-- The tokens of an expression of `count` characters at most. -/
def formulaTokens : (count : Nat) → List Char → List FormulaToken
  | 0, _ => [.ending]
  | count + 1, cs =>
    match nextToken cs with
    | (.ending, _) => [.ending]
    | (t, rest) => t :: formulaTokens count rest

/-! ## Reading -/

/-- The operator of a symbol, and how tightly it binds. -/
def binaryOf? : String → Option (BinaryOp × Nat)
  | "*" => some (.multiply, 10)
  | "/" => some (.divide, 10)
  | "%" => some (.remainder, 10)
  | "+" => some (.add, 9)
  | "-" => some (.subtract, 9)
  | "<<" => some (.shiftLeft, 8)
  | ">>" => some (.shiftRight, 8)
  | "<" => some (.less, 7)
  | "<=" => some (.lessEqual, 7)
  | ">" => some (.greater, 7)
  | ">=" => some (.greaterEqual, 7)
  | "==" => some (.equal, 6)
  | "!=" => some (.unequal, 6)
  | "&" => some (.bitAnd, 5)
  | "^" => some (.bitXor, 4)
  | "|" => some (.bitOr, 3)
  | _ => none

/-- The operator of a symbol that gives a value to a variable. -/
def assignmentOf? (symbol : String) : Option (Option BinaryOp) :=
  if symbol = "=" then some none
  else if ["*=", "/=", "%=", "+=", "-=", "<<=", ">>=", "&=", "^=", "|="].contains symbol then
    (binaryOf? (String.ofList symbol.toList.dropLast)).map fun (op, _) => some op
  else none

/-- Reads something off the front of tokens. -/
abbrev FormulaReader := StateT (List FormulaToken) (Except FormulaError)

namespace FormulaReader

def peek : FormulaReader FormulaToken :=
  return (← get).headD .ending

def advance : FormulaReader Unit :=
  modify (·.drop 1)

/-- Passes over a symbol if it comes next, and says whether it did. -/
def takeSymbol (symbol : String) : FormulaReader Bool := do
  if (← peek) = .symbol symbol then
    advance
    return true
  else return false

end FormulaReader

mutual

def readAssignment : (depth : Nat) → FormulaReader Formula
  | 0 => throw (.expected "primary")
  | depth + 1 => do
    match ← get with
    | .name name :: .symbol symbol :: rest =>
      match assignmentOf? symbol with
      | some op =>
        set rest
        return .assign name op (← readAssignment depth)
      | none => readChoiceFormula depth
    | _ => readChoiceFormula depth

/-- Reads an expression that may choose between two. -/
def readChoiceFormula : (depth : Nat) → FormulaReader Formula
  | 0 => throw (.expected "primary")
  | depth + 1 => do
    let cond ← readEither depth
    if ← FormulaReader.takeSymbol "?" then
      let yes ← readAssignment depth
      if ← FormulaReader.takeSymbol ":" then
        return .choose cond yes (← readChoiceFormula depth)
      else throw (.expected "':'")
    else return cond

/-- Reads expressions of which one has to hold. -/
def readEither : (depth : Nat) → FormulaReader Formula
  | 0 => throw (.expected "primary")
  | depth + 1 => do
    let a ← readBoth depth
    if ← FormulaReader.takeSymbol "||" then return .either a (← readEither depth) else return a

/-- Reads expressions all of which have to hold. -/
def readBoth : (depth : Nat) → FormulaReader Formula
  | 0 => throw (.expected "primary")
  | depth + 1 => do
    let a ← readBinary 0 (← readPrimary depth) depth
    if ← FormulaReader.takeSymbol "&&" then return .both a (← readBoth depth) else return a

/-- Reads operators that bind more tightly than `least`, and what they stand before, behind
`a`. -/
def readBinary (least : Nat) (a : Formula) : (depth : Nat) → FormulaReader Formula
  | 0 => throw (.expected "primary")
  | depth + 1 => do
    match ← FormulaReader.peek with
    | .symbol symbol =>
      match binaryOf? symbol with
      | some (op, strength) =>
        if least < strength then
          FormulaReader.advance
          let b ← readBinary strength (← readPrimary depth) depth
          readBinary least (.binary op a b) depth
        else return a
      | none => return a
    | _ => return a

def readPrimary : (depth : Nat) → FormulaReader Formula
  | 0 => throw (.expected "primary")
  | depth + 1 => do
    match ← FormulaReader.peek with
    | .number n =>
      FormulaReader.advance
      return .number n
    | .name name =>
      FormulaReader.advance
      return .named name
    | .symbol "(" =>
      FormulaReader.advance
      let a ← readAssignment depth
      if ← FormulaReader.takeSymbol ")" then return a else throw (.expected "')'")
    | .symbol "+" =>
      FormulaReader.advance
      readPrimary depth
    | .symbol "-" =>
      FormulaReader.advance
      return .unary .negate (← readPrimary depth)
    | .symbol "!" =>
      FormulaReader.advance
      return .unary .not (← readPrimary depth)
    | .symbol "~" =>
      FormulaReader.advance
      return .unary .complement (← readPrimary depth)
    | _ => throw (.expected "primary")

end

/-- The expression that a text is. -/
def Formula.ofText (text : String) : Except FormulaError Formula := do
  let cs := text.toList
  let (f, rest) ← (readAssignment (8 * cs.length + 8)).run (formulaTokens (cs.length + 1) cs)
  if rest.headD .ending = .ending then return f else throw (.expected "EOF")

/-! ## Values -/

def truthNumber (b : Bool) : Int64 :=
  if b then 1 else 0

def BinaryOp.apply (op : BinaryOp) (a b : Int64) : Except FormulaError Int64 :=
  match op with
  | multiply => .ok (a * b)
  | divide => if b = 0 then .error .divisionByZero else .ok (a / b)
  | remainder => if b = 0 then .error .divisionByZero else .ok (a % b)
  | add => .ok (a + b)
  | subtract => .ok (a - b)
  | shiftLeft => .ok (a <<< b)
  | shiftRight => .ok (a >>> b)
  | less => .ok (truthNumber (a < b))
  | lessEqual => .ok (truthNumber (a ≤ b))
  | greater => .ok (truthNumber (b < a))
  | greaterEqual => .ok (truthNumber (b ≤ a))
  | equal => .ok (truthNumber (a = b))
  | unequal => .ok (truthNumber (a ≠ b))
  | bitAnd => .ok (a &&& b)
  | bitXor => .ok (a ^^^ b)
  | bitOr => .ok (a ||| b)

def UnaryOp.apply (op : UnaryOp) (a : Int64) : Int64 :=
  match op with
  | negate => -a
  | not => truthNumber (a = 0)
  | complement => ~~~a

def Formula.eval {m : Type → Type} [Monad m] (refuse : FormulaError → m Int64)
    (read : String → m Int64) (write : String → Int64 → m Unit) : Formula → m Int64
  | number n => return n
  | named name => read name
  | unary op a => return op.apply (← a.eval refuse read write)
  | binary op a b => do
    match op.apply (← a.eval refuse read write) (← b.eval refuse read write) with
    | .ok n => return n
    | .error e => refuse e
  | both a b => do
    if (← a.eval refuse read write) = 0 then return 0
    else return truthNumber ((← b.eval refuse read write) ≠ 0)
  | either a b => do
    if (← a.eval refuse read write) = 0 then
      return truthNumber ((← b.eval refuse read write) ≠ 0)
    else return 1
  | choose cond yes no => do
    if (← cond.eval refuse read write) = 0 then no.eval refuse read write
    else yes.eval refuse read write
  | assign name op value => do
    let v ← value.eval refuse read write
    let result ←
      match op with
      | none => pure v
      | some op =>
        match op.apply (← read name) v with
        | .ok n => pure n
        | .error e => refuse e
    write name result
    return result

end LineQuery.Shell
