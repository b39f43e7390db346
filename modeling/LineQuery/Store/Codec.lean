import LineQuery.Text.Utf8

/-!
# Binary codecs

How the values of a type are written as bytes, and how one is read off the front of a byte
string. Naturals take one byte below 251; above, a byte that tells the width comes before
the number in little-endian order. Lists and strings start with their length, options with
zero or one, and the cases of a type are numbered.
-/

namespace LineQuery.Store

open LineQuery.Text (Bytes)

/-- Reads a value off the front of a byte string, and leaves the rest. -/
abbrev Reader := StateT Bytes Option

/-- A way to write the values of a type, and to read them. -/
structure Codec (α : Type) where
  write : α → Bytes
  read : Reader α

/-! ## Bytes and words -/

def readByte : Reader UInt8
  | [] => none
  | b :: bs => some (b, bs)

/-- Reads `count` bytes. -/
def readBytes (count : Nat) : Reader Bytes := fun bs =>
  if count ≤ bs.length then some (bs.take count, bs.drop count) else none

/-- The lowest `width` bytes of `n`, the lowest first. -/
def littleEndian : (width : Nat) → (n : Nat) → Bytes
  | 0, _ => []
  | width + 1, n => UInt8.ofNat (n % 256) :: littleEndian width (n / 256)

/-- The number whose bytes, the lowest first, are `bs`. -/
def ofLittleEndian : Bytes → Nat
  | [] => 0
  | b :: bs => b.toNat + 256 * ofLittleEndian bs

/-- Reads a number of `width` bytes. -/
def readWord (width : Nat) : Reader Nat := do
  return ofLittleEndian (← readBytes width)

/-- Bytes of a fixed number. -/
def fixedBytes (count : Nat) : Codec (Vector UInt8 count) where
  write v := v.toList
  read bs :=
    if h : count ≤ bs.length then
      some (⟨(bs.take count).toArray, by simp [h]⟩, bs.drop count)
    else none

/-! ## Numbers -/

/-- A number below `2 ^ 64`. -/
def writeNat (n : Nat) : Bytes :=
  if n < 251 then [UInt8.ofNat n]
  else if n < 0x10000 then 251 :: littleEndian 2 n
  else if n < 0x100000000 then 252 :: littleEndian 4 n
  else 253 :: littleEndian 8 n

/-- Reads a number of at most `width` bytes. A small number may have been written in a wide
form. -/
def readNat (width : Nat) : Reader Nat := do
  let b ← readByte
  if b < 251 then return b.toNat
  else if b = 251 then readWord 2
  else if b = 252 ∧ 4 ≤ width then readWord 4
  else if b = 253 ∧ 8 ≤ width then readWord 8
  else failure

/-- Numbers of at most `width` bytes. -/
def natural (width : Nat) : Codec Nat where
  write := writeNat
  read := readNat width

/-- The integers in the order 0, -1, 1, -2, 2, … -/
def zigzag (n : Int) : Nat :=
  if 0 ≤ n then 2 * n.natAbs else 2 * n.natAbs - 1

/-- The integer at a place of that order. -/
def unzigzag (n : Nat) : Int :=
  if n % 2 = 0 then (n / 2 : Nat) else -((n + 1) / 2 : Nat)

/-- Signed 64-bit integers. -/
def integer : Codec Int64 where
  write n := writeNat (zigzag n.toInt)
  read := do return Int64.ofInt (unzigzag (← readNat 8))

/-! ## Composite values -/

def boolean : Codec Bool where
  write b := [if b then 1 else 0]
  read := do
    match ← readByte with
    | 0 => return false
    | 1 => return true
    | _ => failure

def string : Codec String where
  write s :=
    let bytes := Text.encodeUtf8 s
    writeNat bytes.length ++ bytes
  read := do
    let bytes ← readBytes (← readNat 8)
    StateT.lift (Text.decodeUtf8? bytes)

/-- Reads `count` values. -/
def readMany (read : Reader α) : (count : Nat) → Reader (List α)
  | 0 => return []
  | count + 1 => do
    let v ← read
    return v :: (← readMany read count)

/-- Reads a list with its length. -/
def readList (read : Reader α) : Reader (List α) := do
  readMany read (← readNat 8)

namespace Codec

def list (c : Codec α) : Codec (List α) where
  write vs := writeNat vs.length ++ vs.flatMap c.write
  read := readList c.read

def option (c : Codec α) : Codec (Option α) where
  write
    | none => [0]
    | some v => 1 :: c.write v
  read := do
    match ← readByte with
    | 0 => return none
    | 1 => return some (← c.read)
    | _ => failure

def pair (c : Codec α) (d : Codec β) : Codec (α × β) where
  write v := c.write v.1 ++ d.write v.2
  read := do
    let a ← c.read
    return (a, ← d.read)

/-- Values of a type that are written as values of another. -/
def via (c : Codec α) (toParts : β → α) (ofParts : α → β) : Codec β where
  write v := c.write (toParts v)
  read := do return ofParts (← c.read)

/-- The values of a type without parts, numbered as in a list of all of them. -/
def oneOf [DecidableEq α] (all : List α) : Codec α where
  write v := writeNat (all.idxOf v)
  read := do
    match all[← readNat 4]? with
    | some v => return v
    | none => failure

end Codec

end LineQuery.Store
