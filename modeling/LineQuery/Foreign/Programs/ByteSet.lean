import LineQuery.Text.Decimal
import LineQuery.Text.Utf8

/-!
# Written sets of bytes

A set is a sequence of bytes, written with escapes, ranges, classes and repetitions. It
knows bytes only, so a character of several bytes is several members.
-/

namespace LineQuery.Programs

open LineQuery.Text (Bytes encodeUtf8 decodeLossy natText)

/-! ## Escapes -/

/-- A byte of a written set, and whether it was escaped. -/
structure SetByte where
  byte : UInt8
  escaped : Bool
deriving DecidableEq, Repr

/-- The digit that a byte stands for in base eight. -/
def octalDigit? (b : UInt8) : Option Nat :=
  if 48 ≤ b ∧ b ≤ 55 then some (b.toNat - 48) else none

/-- The byte that a backslash before a letter stands for. -/
def escapedByte (b : UInt8) : UInt8 :=
  if b = 97 then 7
  else if b = 98 then 8
  else if b = 102 then 12
  else if b = 110 then 10
  else if b = 114 then 13
  else if b = 116 then 9
  else if b = 118 then 11
  else b

/-- A byte whose number has up to three octal digits, the first of which is `d`, and what is
left. -/
def octalByte (d : Nat) (bs : Bytes) : UInt8 × Bytes :=
  match bs with
  | b :: c :: rest =>
    match octalDigit? b, octalDigit? c with
    | some e, some f =>
      if 64 * d + 8 * e + f < 256 then (UInt8.ofNat (64 * d + 8 * e + f), rest)
      else (UInt8.ofNat (8 * d + e), c :: rest)
    | some e, none => (UInt8.ofNat (8 * d + e), c :: rest)
    | none, _ => (UInt8.ofNat d, bs)
  | [b] =>
    match octalDigit? b with
    | some e => (UInt8.ofNat (8 * d + e), [])
    | none => (UInt8.ofNat d, bs)
  | [] => (UInt8.ofNat d, [])

/-- The bytes of a set with its escapes read, of `count` bytes at most. -/
def readEscapes : (count : Nat) → Bytes → List SetByte
  | 0, _ => []
  | _ + 1, [] => []
  | count + 1, b :: bs =>
    if b = 92 then
      match bs with
      | [] => [⟨92, false⟩]
      | c :: rest =>
        match octalDigit? c with
        | some d =>
          let (byte, rest) := octalByte d rest
          ⟨byte, true⟩ :: readEscapes count rest
        | none => ⟨escapedByte c, true⟩ :: readEscapes count rest
    else ⟨b, false⟩ :: readEscapes count bs

/-- Whether a backslash at the end of bytes escapes nothing. -/
def endsInBackslash : Bytes → Bool
  | [] => false
  | [b] => b == 92
  | b :: c :: bs => if b = 92 then endsInBackslash bs else endsInBackslash (c :: bs)

/-! ## Classes -/

def byteRange (low high : Nat) : Bytes :=
  (List.range (high + 1 - low)).map fun i => UInt8.ofNat (low + i)

/-- A class of bytes. -/
inductive ByteClass where
  | alnum
  | alpha
  | blank
  | cntrl
  | digit
  | graph
  | lower
  | print
  | punct
  | space
  | upper
  | xdigit
deriving DecidableEq, Repr

namespace ByteClass

/-- The class of a name. -/
def ofName? : String → Option ByteClass
  | "alnum" => some alnum
  | "alpha" => some alpha
  | "blank" => some blank
  | "cntrl" => some cntrl
  | "digit" => some digit
  | "graph" => some graph
  | "lower" => some lower
  | "print" => some print
  | "punct" => some punct
  | "space" => some space
  | "upper" => some upper
  | "xdigit" => some xdigit
  | _ => none

/-- The bytes of a class in ascending order. -/
def bytes : ByteClass → Bytes
  | alnum => byteRange 48 57 ++ byteRange 65 90 ++ byteRange 97 122
  | alpha => byteRange 65 90 ++ byteRange 97 122
  | blank => [9, 32]
  | cntrl => byteRange 0 31 ++ [127]
  | digit => byteRange 48 57
  | graph => byteRange 33 126
  | lower => byteRange 97 122
  | print => byteRange 32 126
  | punct => byteRange 33 47 ++ byteRange 58 64 ++ byteRange 91 96 ++ byteRange 123 126
  | space => byteRange 9 13 ++ [32]
  | upper => byteRange 65 90
  | xdigit => byteRange 48 57 ++ byteRange 65 70 ++ byteRange 97 102

/-- Whether a class is one of those that a change of case maps to each other. -/
def isCase (c : ByteClass) : Bool :=
  c = lower || c = upper

end ByteClass

/-! ## Items -/

/-- An item of a written set. -/
inductive SetItem where
  | byte (b : UInt8)
  | range (low high : UInt8)
  | ofClass (c : ByteClass)
  /-- The bytes that sort as `b` does, which is `b` alone. -/
  | equivalent (b : UInt8)
  /-- A byte repeated; without a count as often as is needed. -/
  | repeated (b : UInt8) (count : Option Nat)
deriving DecidableEq, Repr

/-- A written set. -/
abbrev ByteSet := List SetItem

/-- How often a byte is repeated at most. No set needs more of it. -/
def mostRepeated : Nat := 4096

/-- The bytes of an item; a repetition without a count has none. -/
def SetItem.bytes : SetItem → Bytes
  | byte b | equivalent b => [b]
  | range low high => byteRange low.toNat high.toNat
  | ofClass c => c.bytes
  | repeated b count => List.replicate (min (count.getD 0) mostRepeated) b

namespace ByteSet

/-- The bytes of a set; a repetition without a count has none. -/
def bytes (set : ByteSet) : Bytes :=
  set.flatMap SetItem.bytes

/-- The set in which a repetition without a count brings the number of bytes to `size`. -/
def filled (set : ByteSet) (size : Nat) : ByteSet :=
  set.map fun item =>
    match item with
    | .repeated b none => .repeated b (some (size - set.bytes.length))
    | item => item

/-- The number of repetitions without a count. -/
def openRepetitions (set : ByteSet) : Nat :=
  set.countP fun item =>
    match item with
    | .repeated _ none => true
    | _ => false

def hasClass (set : ByteSet) : Bool :=
  set.any fun item =>
    match item with
    | .ofClass _ => true
    | _ => false

/-- Whether there is a class among the items that is not one of case. -/
def hasOtherClass (set : ByteSet) : Bool :=
  set.any fun item =>
    match item with
    | .ofClass c => !c.isCase
    | _ => false

/-- Whether there is an item of equivalent bytes. -/
def hasEquivalent (set : ByteSet) : Bool :=
  set.any fun item =>
    match item with
    | .equivalent _ => true
    | _ => false

def endsInClass (set : ByteSet) : Bool :=
  match set.getLast? with
  | some (.ofClass _) => true
  | _ => false

end ByteSet

/-! ## Reading -/

/-- What is wrong with a written set. -/
inductive SetError where
  | reversed (low high : UInt8)
  | noClass
  | unknownClass (name : Bytes)
  | noEquivalent
  | longEquivalent (text : Bytes)
  | count (digits : Bytes)
deriving DecidableEq, Repr

/-- A byte for a message: itself if it can be shown. -/
def shownByte (b : UInt8) : String :=
  if 32 ≤ b ∧ b ≤ 126 then String.ofList [Char.ofNat b.toNat]
  else "\\" ++ natText (b.toNat / 64) ++ natText (b.toNat / 8 % 8) ++ natText (b.toNat % 8)

def quotedByte (b : UInt8) : String :=
  if b = 92 then "\\\\"
  else if b = 39 then "\\'"
  else if b = 7 then "\\a"
  else if b = 8 then "\\b"
  else if b = 12 then "\\f"
  else if b = 10 then "\\n"
  else if b = 13 then "\\r"
  else if b = 9 then "\\t"
  else if b = 11 then "\\v"
  else shownByte b

/-- Bytes within quotes in a message. -/
def quoted (bs : Bytes) : String :=
  "'" ++ String.join (bs.map quotedByte) ++ "'"

def SetError.message : SetError → String
  | reversed low high =>
    "range-endpoints of '" ++ shownByte low ++ "-" ++ shownByte high ++
      "' are in reverse collating sequence order"
  | noClass => "missing character class name '[::]'"
  | unknownClass name => "invalid character class " ++ quoted name
  | noEquivalent => "missing equivalence class character '[==]'"
  | longEquivalent text =>
    decodeLossy text ++ ": equivalence class operand must be a single character"
  | count digits => "invalid repeat count " ++ quoted digits ++ " in [c*n] construct"

/-- What stands before the first `delimiter` with a bracket behind it, and what stands behind
both. -/
def splitDelimited? (delimiter : UInt8) : List SetByte → Option (Bytes × List SetByte)
  | a :: b :: rest =>
    if a = ⟨delimiter, false⟩ ∧ b = ⟨93, false⟩ then some ([], rest)
    else (splitDelimited? delimiter (b :: rest)).map fun (before, rest) => (a.byte :: before, rest)
  | _ => none

/-- Whether a star, digits and a bracket come next. -/
def startsWithRepetition : List SetByte → Bool
  | ⟨42, false⟩ :: rest =>
    (rest.dropWhile fun b => 48 ≤ b.byte && b.byte ≤ 57).head? == some ⟨93, false⟩
  | _ => false

/-- The item that colons or equals signs and brackets make, behind the opening bracket, and
what is left. -/
def readNamed? : List SetByte → Except SetError (Option (SetItem × List SetByte))
  | [] => .ok none
  | d :: rest =>
    if d ≠ ⟨58, false⟩ ∧ d ≠ ⟨61, false⟩ then .ok none
    else
      match splitDelimited? d.byte rest with
      | none => .ok none
      | some ([], _) => .error (if d.byte = 58 then .noClass else .noEquivalent)
      | some (name, after) =>
        let item :=
          if d.byte = 58 then (ByteClass.ofName? (decodeLossy name)).map .ofClass
          else
            match name with
            | [b] => some (.equivalent b)
            | _ => none
        match item with
        | some item => .ok (some (item, after))
        | none =>
          if startsWithRepetition rest then .ok none
          else .error (if d.byte = 58 then .unknownClass name else .longEquivalent name)

/-- The number that digits write, in base eight if the first one is zero. -/
def repetitions? (digits : Bytes) : Option Nat :=
  let base := if digits.head? == some 48 then 8 else 10
  digits.foldl
    (fun n? b => do
      let n ← n?
      if 48 ≤ b ∧ b.toNat < 48 + base then some (n * base + (b.toNat - 48)) else none)
    (some 0)

/-- The repetition behind an opening bracket, and what is left. -/
def readRepetition? : List SetByte → Except SetError (Option (SetItem × List SetByte))
  | b :: ⟨42, false⟩ :: rest =>
    let digits := rest.takeWhile fun b => !b.escaped && b.byte != 93
    match rest.drop digits.length with
    | ⟨93, false⟩ :: after =>
      let digits := digits.map (·.byte)
      match repetitions? digits with
      | some n =>
        .ok (some (.repeated b.byte (if n = 0 then none else some n), after))
      | none => .error (.count digits)
    | _ => .ok none
  | _ => .ok none

/-- The item behind an opening bracket, and what is left. -/
def readBracketed? (bs : List SetByte) : Except SetError (Option (SetItem × List SetByte)) := do
  match ← readNamed? bs with
  | some found => return some found
  | none => readRepetition? bs

/-- The items of a set of `count` bytes at most. The last two bytes stand for themselves. -/
def readItems : (count : Nat) → List SetByte → Except SetError ByteSet
  | 0, _ => .ok []
  | _ + 1, [] => .ok []
  | _ + 1, [b] => .ok [.byte b.byte]
  | _ + 1, [b, c] => .ok [.byte b.byte, .byte c.byte]
  | count + 1, b :: c :: d :: rest => do
    let found ← if b = ⟨91, false⟩ then readBracketed? (c :: d :: rest) else pure none
    match found with
    | some (item, rest) => return item :: (← readItems count rest)
    | none =>
      if c = ⟨45, false⟩ then
        if d.byte < b.byte then .error (.reversed b.byte d.byte)
        else return .range b.byte d.byte :: (← readItems count rest)
      else return .byte b.byte :: (← readItems count (c :: d :: rest))

/-- The set that a text writes. -/
def ByteSet.ofText (text : String) : Except SetError ByteSet :=
  let raw := encodeUtf8 text
  readItems raw.length (readEscapes raw.length raw)

end LineQuery.Programs
