import LineQuery.Foreign.Programs.ByteSet

/-!
# Patterns of shell scripts

A pattern stands for texts: `*` for any bytes, `?` for one byte, and brackets for one byte
out of several. A byte that was quoted stands for itself. Patterns choose a branch, shorten
values and find files.
-/

namespace LineQuery.Shell

open LineQuery.Programs (ByteClass)
open LineQuery.Text (Bytes decodeLossy)

/-! ## Marked bytes -/

/-- How a byte has come into a word, which decides what it means there. -/
inductive Mark where
  /-- Between quotes: stands for itself. -/
  | quoted
  /-- In the script itself: may be part of a pattern. -/
  | written
  /-- In a value: may be part of a pattern, and may separate fields. -/
  | value
deriving DecidableEq, Repr

/-- A byte and how it has come into a word. -/
structure MarkedByte where
  byte : UInt8
  mark : Mark
deriving DecidableEq, Repr

/-- Whether a byte is a given one that was not quoted. -/
def MarkedByte.isPlain (b : MarkedByte) (byte : UInt8) : Bool :=
  b.byte == byte && b.mark != .quoted

/-- Bytes without their marks. -/
def plainBytes (bs : List MarkedByte) : Bytes :=
  bs.map (·.byte)

/-- Whether bytes may be a pattern for more than themselves. -/
def mayMatch (bs : List MarkedByte) : Bool :=
  bs.any fun b => b.isPlain 42 || b.isPlain 63 || b.isPlain 91

/-! ## Patterns -/

/-- A member of a set between brackets. -/
inductive SetMember where
  | range (low high : UInt8)
  | named (c : ByteClass)
deriving DecidableEq, Repr

/-- Whether a byte is one of those that a member stands for. -/
def SetMember.has (b : UInt8) : SetMember → Bool
  | range low high => low ≤ b && b ≤ high
  | named c => c.bytes.contains b

/-- A piece of a pattern. -/
inductive PatternPiece where
  | byte (b : UInt8)
  | anyByte
  | anyBytes
  /-- One of the bytes between brackets, or one that is not. -/
  | among (inside : Bool) (members : List SetMember)
deriving DecidableEq, Repr

abbrev Pattern := List PatternPiece

/-- The class whose name stands between colons and brackets at the front of bytes, and what is
left. -/
def readClass? : List MarkedByte → Option (ByteClass × List MarkedByte)
  | ⟨91, _⟩ :: ⟨58, _⟩ :: bs =>
    let name := bs.takeWhile fun b => b.byte != 58
    match bs.drop name.length with
    | ⟨58, _⟩ :: ⟨93, _⟩ :: rest =>
      (ByteClass.ofName? (decodeLossy (plainBytes name))).map (·, rest)
    | _ => none
  | _ => none

/-- The byte at the front of bytes, and what is left. A backslash leaves the byte behind it. -/
def readMember? : List MarkedByte → Option (UInt8 × List MarkedByte)
  | b :: c :: bs => if b.isPlain 92 then some (c.byte, bs) else some (b.byte, c :: bs)
  | [b] => some (b.byte, [])
  | [] => none

/-- The members of a set, of `count` bytes at most, up to the bracket that closes it, and what is
left. The first byte is a member in any case. -/
def readSet? (isFirst : Bool) : (count : Nat) → List MarkedByte →
    Option (List SetMember × List MarkedByte)
  | 0, _ => none
  | _ + 1, [] => none
  | count + 1, b :: bs =>
    if b.isPlain 93 && !isFirst then some ([], bs)
    else
      match readClass? (b :: bs) with
      | some (c, rest) =>
        (readSet? false count rest).map fun (members, rest) => (.named c :: members, rest)
      | none => do
        let (low, rest) ← readMember? (b :: bs)
        let (high, rest) :=
          match rest with
          | h :: e :: more =>
            if h.isPlain 45 && !e.isPlain 93 then
              (readMember? (e :: more)).getD (low, rest)
            else (low, rest)
          | rest => (low, rest)
        let (members, rest) ← readSet? false count rest
        return (.range low high :: members, rest)

/-- The pattern that `count` bytes at most stand for. A backslash in a value leaves the byte behind
it. -/
def patternUpTo : (count : Nat) → List MarkedByte → Pattern
  | 0, _ => []
  | _ + 1, [] => []
  | count + 1, b :: bs =>
    if b.isPlain 42 then .anyBytes :: patternUpTo count bs
    else if b.isPlain 63 then .anyByte :: patternUpTo count bs
    else if b.isPlain 91 then
      let (inside, inner) :=
        match bs with
        | c :: cs => if c.isPlain 33 || c.isPlain 94 then (false, cs) else (true, c :: cs)
        | [] => (true, [])
      match readSet? true (inner.length + 1) inner with
      | some (members, rest) => .among inside members :: patternUpTo count rest
      | none => .byte b.byte :: patternUpTo count bs
    else
      match b.isPlain 92, bs with
      | true, c :: cs => .byte c.byte :: patternUpTo count cs
      | _, _ => .byte b.byte :: patternUpTo count bs

namespace Pattern

/-- The pattern that bytes stand for. -/
def ofBytes (bs : List MarkedByte) : Pattern :=
  patternUpTo bs.length bs

def covers : Pattern → Bytes → Bool
  | [], bs => bs.isEmpty
  | .anyBytes :: p, [] => covers p []
  | .anyBytes :: p, b :: bs => covers p (b :: bs) || covers (.anyBytes :: p) bs
  | _ :: _, [] => false
  | .byte c :: p, b :: bs => c == b && covers p bs
  | .anyByte :: p, _ :: bs => covers p bs
  | .among inside members :: p, b :: bs => members.any (·.has b) == inside && covers p bs
termination_by p bs => p.length + bs.length

/-- Bytes up to a zero byte, which stands between values only: a pattern is held against one of
them. -/
def firstValue (bs : Bytes) : Bytes :=
  bs.takeWhile (· ≠ 0)

/-- Bytes without what a pattern stands for at their front, be it the longest or the
shortest. -/
def dropFront (p : Pattern) (longest : Bool) (bs : Bytes) : Bytes :=
  let sizes := if longest then (List.range (bs.length + 1)).reverse
    else List.range ((firstValue bs).length + 1)
  bs.drop ((sizes.find? fun n => p.covers (firstValue (bs.take n))).getD 0)

/-- Bytes without what a pattern stands for at their end, be it the longest or the
shortest. -/
def dropEnd (p : Pattern) (longest : Bool) (bs : Bytes) : Bytes :=
  let sizes := if longest then List.range ((firstValue bs).length + 1)
    else (List.range (bs.length + 1)).reverse
  bs.take ((sizes.find? fun n => p.covers (firstValue (bs.drop n))).getD bs.length)

end Pattern

end LineQuery.Shell
