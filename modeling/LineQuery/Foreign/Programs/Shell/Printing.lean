import LineQuery.Foreign.Programs.ByteSet
import LineQuery.Foreign.Programs.Shell.Condition
import LineQuery.Foreign.Programs.Shell.Real

/-!
# Printing

What the commands that print make of their arguments. A format is used again as long as
arguments are left. A conversion in it takes one argument, and more for a width or a precision
that is an argument too.
-/

namespace LineQuery.Shell

open LineQuery.Programs (octalDigit?)
open LineQuery.Text (Bytes encodeUtf8 decodeLossy natText)

/-! ## Escapes -/

def readOctal (acc : Nat) : (count : Nat) → Bytes → UInt8 × Bytes
  | 0, bs => (UInt8.ofNat acc, bs)
  | _ + 1, [] => (UInt8.ofNat acc, [])
  | count + 1, b :: bs =>
    match octalDigit? b with
    | some d => readOctal (8 * acc + d) count bs
    | none => (UInt8.ofNat acc, b :: bs)

/-- The byte that a letter behind a backslash stands for. -/
def letterByte? (b : UInt8) : Option UInt8 :=
  [(92, 92), (97, 7), (98, 8), (101, 27), (102, 12), (110, 10), (114, 13), (116, 9),
    (118, 11)].lookup b

/-- What an escape behind its backslash stands for, and what is left. What is no escape stands for
itself. -/
def readEscape (bs : Bytes) : Bytes × Bytes :=
  match bs with
  | [] => ([92], [])
  | b :: rest =>
    match letterByte? b, octalDigit? b with
    | some byte, _ => ([byte], rest)
    | none, some _ =>
      let (byte, rest) := readOctal 0 3 bs
      ([byte], rest)
    | none, none => ([92, b], rest)

/-- Bytes of `count` at most with their escapes read, and whether `\c` ended them. A zero may stand
before the digits of a byte. -/
def unescapeUpTo : (count : Nat) → Bytes → Bytes × Bool
  | 0, _ => ([], false)
  | _ + 1, [] => ([], false)
  | count + 1, b :: bs =>
    if b ≠ 92 then
      let (more, stopped) := unescapeUpTo count bs
      (b :: more, stopped)
    else
      match bs with
      | 99 :: _ => ([], true)
      | bs =>
        let digits :=
          match bs with
          | 48 :: d :: more => if (octalDigit? d).isSome then d :: more else bs
          | bs => bs
        let (bytes, rest) := readEscape digits
        let (more, stopped) := unescapeUpTo count rest
        (bytes ++ more, stopped)

/-- Bytes with their escapes read, and whether `\c` ended them. -/
def unescaped (bs : Bytes) : Bytes × Bool :=
  unescapeUpTo bs.length bs

/-- What the command writes that prints its arguments. -/
def echoed (args : List Bytes) : Bytes :=
  let (plain, args) :=
    match args with
    | [45, 110] :: args => (true, args)
    | args => (false, args)
  let (text, stopped) := unescaped ([32].intercalate args)
  if plain || stopped then text else text ++ [10]

/-! ## Conversions -/

/-- A conversion of a format: its flags, how wide it is at least, how many bytes or digits it
takes, and its letter. -/
structure Conversion where
  flags : Bytes
  width : Nat
  precision : Option Nat
  kind : UInt8
deriving DecidableEq, Repr

namespace Conversion

/-- Whether a conversion has a flag. -/
def has (c : Conversion) (flag : UInt8) : Bool :=
  c.flags.contains flag

/-- Bytes in the width of a conversion. -/
def pad (c : Conversion) (bs : Bytes) : Bytes :=
  let missing := List.replicate (c.width - bs.length) 32
  if c.has 45 then bs ++ missing else missing ++ bs

/-- A sign or other bytes and the digits behind them in the width of a conversion, with zeros
between them if it says so. -/
def padNumber (c : Conversion) (sign digits : Bytes) (zeros : Bool) : Bytes :=
  let missing := if zeros && !c.has 45 then c.width - sign.length - digits.length else 0
  c.pad (sign ++ List.replicate missing 48 ++ digits)

/-- The sign before a number. -/
def signOf (c : Conversion) (negative : Bool) : Bytes :=
  if negative then [45] else if c.has 43 then [43] else if c.has 32 then [32] else []

def digits (c : Conversion) (base n : Nat) : Bytes :=
  let ds := if n = 0 && c.precision = some 0 then [] else Nat.toDigits base n
  encodeUtf8 (String.ofList (List.replicate (c.precision.getD 1 - ds.length) '0' ++ ds))

/-- An integer in the form of a conversion. Without a sign it is one of 64 bits that wraps
around. -/
def integer (c : Conversion) (n : Int) : Bytes :=
  let zeros := c.has 48 && c.precision.isNone
  let wrapped := (n % 0x10000000000000000).toNat
  if c.kind = 100 ∨ c.kind = 105 then
    c.padNumber (c.signOf (n < 0)) (c.digits 10 n.natAbs) zeros
  else if c.kind = 117 then c.padNumber [] (c.digits 10 wrapped) zeros
  else if c.kind = 111 then
    let ds := c.digits 8 wrapped
    c.padNumber [] (if c.has 35 && ds.head? != some 48 then 48 :: ds else ds) zeros
  else
    let ds := c.digits 16 wrapped
    let ds := if c.kind = 88 then ds.map fun b => if 97 ≤ b then b - 32 else b else ds
    c.padNumber (if c.has 35 && wrapped ≠ 0 then [48, c.kind] else []) ds zeros

/-- A fraction in the form of a conversion. -/
def real (c : Conversion) (r : Real) : Bytes :=
  let kind := Char.ofNat c.kind.toNat
  let (negative, text) := r.form kind (c.precision.getD 6) (c.has 35)
  let text := if 'A' ≤ kind && kind ≤ 'Z' then text.map Char.toUpper else text
  let isFinite :=
    match r with
    | .finite _ _ _ => true
    | _ => false
  c.padNumber (c.signOf negative) (encodeUtf8 text) (c.has 48 && isFinite)

def text (c : Conversion) (bs : Bytes) : Bytes :=
  c.pad ((c.precision.map bs.take).getD bs)

end Conversion

/-! ## Formats -/

/-- Why printing stops before its end. -/
inductive PrintStop where
  | ended
  | refused (message : String)
deriving DecidableEq, Repr

/-- The arguments that are left, what has been printed and what has been complained of, the latest
first. -/
structure PrintState where
  args : List Bytes
  pieces : List Bytes := []
  complaints : List String := []

/-- A step of printing. -/
abbrev Printing := ExceptT PrintStop (StateM PrintState)

namespace Printing

/-- Prints bytes. -/
def put (bs : Bytes) : Printing Unit :=
  modify fun s => { s with pieces := bs :: s.pieces }

def complain (message : String) : Printing Unit :=
  modify fun s => { s with complaints := message :: s.complaints }

def next? : Printing (Option Bytes) := do
  let s ← get
  set { s with args := s.args.drop 1 }
  return s.args.head?

/-- Complains of an argument of which something is left when its number has been read. -/
def checkNumber (text : String) (left : List Char) : Printing Unit := do
  if left.isEmpty then return
  else if left.length = text.length then complain (text ++ ": expected numeric value")
  else complain (text ++ ": not completely converted")

/-- The number of the byte behind a quote at the front of an argument. -/
def quotedByte? : Bytes → Option Nat
  | b :: bs => if b = 39 ∨ b = 34 then some ((bs.headD 0).toNat) else none
  | [] => none

/-- The integer that the next argument writes. -/
def nextInteger (signed : Bool) : Printing Int := do
  match ← next? with
  | none => return 0
  | some arg =>
    match quotedByte? arg with
    | some n => return n
    | none =>
      let text := decodeLossy arg
      let (negative, cs) :=
        match text.toList.dropWhile isNumberBlank with
        | '-' :: cs => (true, cs)
        | '+' :: cs => (false, cs)
        | cs => (false, cs)
      let hasDigits := cs.head?.any Text.isDigit
      let (n, left) := if hasDigits then readUnsigned cs else (0, text.toList)
      let value : Int := if negative then -(n : Int) else n
      let low : Int := if signed then -0x8000000000000000 else -0xffffffffffffffff
      let high : Int := if signed then 0x7fffffffffffffff else 0xffffffffffffffff
      checkNumber text left
      if left.isEmpty && !(low ≤ value && value ≤ high) then
        complain (text ++ ": Numerical result out of range")
      return max low (min high value)

/-- The fraction that the next argument writes. -/
def nextReal : Printing Real := do
  match ← next? with
  | none => return .finite false 0 1
  | some arg =>
    match quotedByte? arg with
    | some n => return .finite false n 1
    | none =>
      let text := decodeLossy arg
      let (r, left) := readReal text.toList
      checkNumber text left
      return r

/-- The number at the front of bytes, be it an argument or digits, and what is left. -/
def readSize (bs : Bytes) : Printing (Int × Bytes) := do
  match bs with
  | 42 :: rest => return (← nextInteger true, rest)
  | bs =>
    let ds := bs.takeWhile fun b => 48 ≤ b && b ≤ 57
    let n : Nat := ds.foldl (fun n b => 10 * n + (b.toNat - 48)) 0
    return (n, bs.drop ds.length)

/-- Prints the next argument in the form of a conversion. -/
def convert (c : Conversion) (written : String) : Printing Unit := do
  let kind := Char.ofNat c.kind.toNat
  if "dioxXu".toList.contains kind then
    put (c.integer (← nextInteger (kind = 'd' || kind = 'i')))
  else if "eEfFgG".toList.contains kind then put (c.real (← nextReal))
  else
    match kind with
    | 's' => put (c.text ((← next?).getD []))
    | 'c' => put (c.pad [((← next?).getD []).headD 0])
    | 'b' =>
      let (text, stopped) := unescaped ((← next?).getD [])
      put (c.text text)
      if stopped then throw .ended
    | _ => throw (.refused (written ++ ": invalid directive"))

/-- Prints what stands behind a percent sign, and what is left behind that. -/
def runConversion (bs : Bytes) : Printing Bytes := do
  let flags := bs.takeWhile fun b => b ∈ [45, 48, 43, 32, 35]
  let (width, rest) ← readSize (bs.drop flags.length)
  let flags := if width < 0 then 45 :: flags else flags
  let (precision, rest) ←
    match rest with
    | 46 :: rest => do
      let (n, rest) ← readSize rest
      pure (if n < 0 then none else some n.toNat, rest)
    | rest => pure (none, rest)
  match rest with
  | [] => throw (.refused "missing format character")
  | kind :: rest =>
    let written := 37 :: bs.take (bs.length - rest.length)
    convert ⟨flags, width.natAbs, precision, kind⟩ (decodeLossy written)
    return rest

/-- Uses a format of `count` bytes at most once. -/
def formatOnce : (count : Nat) → Bytes → Printing Unit
  | 0, _ => return
  | _ + 1, [] => return
  | count + 1, b :: bs => do
    if b = 92 then
      let (bytes, rest) := readEscape bs
      put bytes
      formatOnce count rest
    else if b = 37 then
      if bs.head? = some 37 then
        put [37]
        formatOnce count (bs.drop 1)
      else formatOnce count (← runConversion bs)
    else
      put [b]
      formatOnce count bs

/-- Uses a format as long as it takes arguments and some are left, `count` times at most. -/
def formatAll (format : Bytes) : (count : Nat) → Printing Unit
  | 0 => return
  | count + 1 => do
    let before := (← get).args.length
    formatOnce format.length format
    let after := (← get).args.length
    if after = 0 ∨ after = before then return else formatAll format count

end Printing

/-! ## Commands -/

/-- Writes the output of a command of the shell itself, and its status. -/
def writeOutput (bytes : Bytes) (status : Nat) : InShell Nat := do
  if bytes.isEmpty then return status
  else
    match ← writeBytes 1 bytes with
    | .ok () => return status
    | .error _ =>
      complain (((← memory).command.getD "") ++ ": I/O error")
      return if status = 0 then 1 else status

def runEcho (args : List Bytes) : InShell Nat :=
  writeOutput (echoed args) 0

def runPrintf (args : List Bytes) : InShell Nat := do
  let ended := args.head? = some [45, 45]
  match if ended then args.drop 1 else args with
  | [] => giveUp "usage: printf format [arg ...]"
  | format :: rest =>
    if !ended && format.head? = some 45 && 1 < format.length then
      giveUp ("Illegal option -" ++ decodeLossy ((format.drop 1).take 1))
    else
      let (result, s) := (Printing.formatAll format (rest.length + 1)).run ⟨rest, [], []⟩
      for message in s.complaints.reverse do complain message
      let bytes := s.pieces.reverse.flatten
      match result with
      | .error (.refused message) =>
        complain message
        let status ← writeOutput bytes 2
        finish status
        throw .failed
      | _ => writeOutput bytes (if s.complaints.isEmpty then 0 else 1)

end LineQuery.Shell
