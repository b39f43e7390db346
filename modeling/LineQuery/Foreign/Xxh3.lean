import LineQuery.Text.Utf8

/-!
# XXH3, 128 bits

The XXH3 checksum of a byte string with seed 0 and the default secret. Inputs of up to
16, 128 and 240 bytes have a formula each; longer ones are read in stripes of 64 bytes
into eight accumulators, which are scrambled after every sixteen stripes. The checksum is a standard
one and not the tool's own.
-/

namespace LineQuery.Digest.Xxh3

open LineQuery.Text (Bytes)

def secret : Array UInt8 :=
  #[0xb8, 0xfe, 0x6c, 0x39, 0x23, 0xa4, 0x4b, 0xbe, 0x7c, 0x01, 0x81, 0x2c, 0xf7, 0x21, 0xad, 0x1c,
    0xde, 0xd4, 0x6d, 0xe9, 0x83, 0x90, 0x97, 0xdb, 0x72, 0x40, 0xa4, 0xa4, 0xb7, 0xb3, 0x67, 0x1f,
    0xcb, 0x79, 0xe6, 0x4e, 0xcc, 0xc0, 0xe5, 0x78, 0x82, 0x5a, 0xd0, 0x7d, 0xcc, 0xff, 0x72, 0x21,
    0xb8, 0x08, 0x46, 0x74, 0xf7, 0x43, 0x24, 0x8e, 0xe0, 0x35, 0x90, 0xe6, 0x81, 0x3a, 0x26, 0x4c,
    0x3c, 0x28, 0x52, 0xbb, 0x91, 0xc3, 0x00, 0xcb, 0x88, 0xd0, 0x65, 0x8b, 0x1b, 0x53, 0x2e, 0xa3,
    0x71, 0x64, 0x48, 0x97, 0xa2, 0x0d, 0xf9, 0x4e, 0x38, 0x19, 0xef, 0x46, 0xa9, 0xde, 0xac, 0xd8,
    0xa8, 0xfa, 0x76, 0x3f, 0xe3, 0x9c, 0x34, 0x3f, 0xf9, 0xdc, 0xbb, 0xc7, 0xc7, 0x0b, 0x4f, 0x1d,
    0x8a, 0x51, 0xe0, 0x4b, 0xcd, 0xb4, 0x59, 0x31, 0xc8, 0x9f, 0x7e, 0xc9, 0xd9, 0x78, 0x73, 0x64,
    0xea, 0xc5, 0xac, 0x83, 0x34, 0xd3, 0xeb, 0xc3, 0xc5, 0x81, 0xa0, 0xff, 0xfa, 0x13, 0x63, 0xeb,
    0x17, 0x0d, 0xdd, 0x51, 0xb7, 0xf0, 0xda, 0x49, 0xd3, 0x16, 0x55, 0x26, 0x29, 0xd4, 0x68, 0x9e,
    0x2b, 0x16, 0xbe, 0x58, 0x7d, 0x47, 0xa1, 0xfc, 0x8f, 0xf8, 0xb8, 0xd1, 0x7a, 0xd0, 0x31, 0xce,
    0x45, 0xcb, 0x3a, 0x8f, 0x95, 0x16, 0x04, 0x28, 0xaf, 0xd7, 0xfb, 0xca, 0xbb, 0x4b, 0x40, 0x7e]

def prime32x1 : UInt64 := 0x9E3779B1
def prime32x2 : UInt64 := 0x85EBCA77
def prime32x3 : UInt64 := 0xC2B2AE3D
def prime64x1 : UInt64 := 0x9E3779B185EBCA87
def prime64x2 : UInt64 := 0xC2B2AE3D27D4EB4F
def prime64x3 : UInt64 := 0x165667B19E3779F9
def prime64x4 : UInt64 := 0x85EBCA77C2B2AE63
def prime64x5 : UInt64 := 0x27D4EB2F165667C5

/-- A 128-bit number as two words. -/
structure Wide where
  low : UInt64
  high : UInt64

/-- The product of two words. -/
def mulWide (a b : UInt64) : Wide :=
  let product := a.toNat * b.toNat
  ⟨UInt64.ofNat product, UInt64.ofNat (product >>> 64)⟩

/-- The two halves of a product, combined. -/
def mulFold (a b : UInt64) : UInt64 :=
  let product := mulWide a b
  product.low ^^^ product.high

/-- The number in the `count` bytes from `start`, the low byte first. -/
def readLittle (bytes : Array UInt8) (start count : Nat) : UInt64 :=
  (List.range count).foldr (fun i n => n * 256 + ((bytes[start + i]?).getD 0).toUInt64) 0

/-- The 64-bit word at `start`. -/
def read64 (bytes : Array UInt8) (start : Nat) : UInt64 :=
  readLittle bytes start 8

/-- The 32-bit word at `start`. -/
def read32 (bytes : Array UInt8) (start : Nat) : UInt64 :=
  readLittle bytes start 4

/-- The 64-bit word of the secret at `start`. -/
def key (start : Nat) : UInt64 :=
  read64 secret start

/-- The lowest `count` bytes of `x` in reverse order. -/
def swapBytes (count : Nat) (x : UInt64) : UInt64 :=
  (List.range count).foldl (fun n i => n * 256 + (x >>> (8 * UInt64.ofNat i)) % 256) 0

/-- `x` with its high bits folded onto its low ones. -/
def xorShift (x : UInt64) (n : UInt64) : UInt64 :=
  x ^^^ (x >>> n)

/-- The closing mix of short inputs. -/
def avalancheShort (h : UInt64) : UInt64 :=
  xorShift (xorShift (xorShift h 33 * prime64x2) 29 * prime64x3) 32

/-- The closing mix. -/
def avalanche (h : UInt64) : UInt64 :=
  xorShift (xorShift h 37 * 0x165667919E3779F9) 32

def hashEmpty : Wide :=
  ⟨avalancheShort (key 64 ^^^ key 72), avalancheShort (key 80 ^^^ key 88)⟩

def hash1To3 (bytes : Array UInt8) : Wide :=
  let n := bytes.size
  let byte := fun i => ((bytes[i]?).getD 0).toUInt64
  let low := (byte 0 <<< 16) ||| (byte (n / 2) <<< 24) ||| byte (n - 1) ||| (UInt64.ofNat n <<< 8)
  let swapped := swapBytes 4 low
  let high := ((swapped <<< 13) ||| (swapped >>> 19)) % 0x100000000
  ⟨avalancheShort (low ^^^ (read32 secret 0 ^^^ read32 secret 4)),
    avalancheShort (high ^^^ (read32 secret 8 ^^^ read32 secret 12))⟩

def hash4To8 (bytes : Array UInt8) : Wide :=
  let n := bytes.size
  let input := read32 bytes 0 + (read32 bytes (n - 4) <<< 32)
  let product := mulWide (input ^^^ (key 16 ^^^ key 24)) (prime64x1 + UInt64.ofNat (4 * n))
  let high := product.high + (product.low <<< 1)
  let low := xorShift (product.low ^^^ (high >>> 3)) 35 * 0x9FB21C651E98DF25
  ⟨xorShift low 28, avalanche high⟩

def hash9To16 (bytes : Array UInt8) : Wide :=
  let n := bytes.size
  let first := read64 bytes 0
  let last := read64 bytes (n - 8)
  let product := mulWide (first ^^^ last ^^^ (key 32 ^^^ key 40)) prime64x1
  let keyed := last ^^^ (key 48 ^^^ key 56)
  let high := product.high + keyed + (keyed % 0x100000000) * (prime32x2 - 1)
  let low := (product.low + (UInt64.ofNat (n - 1) <<< 54)) ^^^ swapBytes 8 high
  let mixed := mulWide low prime64x2
  ⟨avalanche mixed.low, avalanche (mixed.high + high * prime64x2)⟩

/-- Sixteen bytes of input under sixteen bytes of the secret. -/
def mix16 (bytes : Array UInt8) (start secretStart : Nat) : UInt64 :=
  mulFold (read64 bytes start ^^^ key secretStart)
    (read64 bytes (start + 8) ^^^ key (secretStart + 8))

/-- The accumulator after two runs of sixteen bytes, from `a` and from `b`. -/
def mix32 (bytes : Array UInt8) (acc : Wide) (a b secretStart : Nat) : Wide :=
  let low := (acc.low + mix16 bytes a secretStart) ^^^ (read64 bytes b + read64 bytes (b + 8))
  let high := (acc.high + mix16 bytes b (secretStart + 16)) ^^^
    (read64 bytes a + read64 bytes (a + 8))
  ⟨low, high⟩

/-- The checksum from the accumulator of a medium input of `n` bytes. -/
def finishMedium (n : Nat) (acc : Wide) : Wide :=
  ⟨avalanche (acc.low + acc.high),
    0 - avalanche (acc.low * prime64x1 + acc.high * prime64x4 + UInt64.ofNat n * prime64x2)⟩

def hash17To128 (bytes : Array UInt8) : Wide :=
  let n := bytes.size
  let pairs := [3, 2, 1, 0].filter fun i => i = 0 || 32 * i < n
  finishMedium n (pairs.foldl
    (fun acc i => mix32 bytes acc (16 * i) (n - 16 * (i + 1)) (32 * i))
    ⟨UInt64.ofNat n * prime64x1, 0⟩)

/-- The checksum of 129 to 240 bytes: runs from the front, with a mix after the fourth, and
one pair from the end. -/
def hash129To240 (bytes : Array UInt8) : Wide :=
  let n := bytes.size
  let front := (List.range 4).foldl
    (fun acc i => mix32 bytes acc (32 * i) (32 * i + 16) (32 * i))
    ⟨UInt64.ofNat n * prime64x1, 0⟩
  let mixed : Wide := ⟨avalanche front.low, avalanche front.high⟩
  let runs := (List.range (n / 32 - 4)).foldl
    (fun acc i => mix32 bytes acc (32 * i + 128) (32 * i + 144) (32 * i + 3)) mixed
  finishMedium n (mix32 bytes runs (n - 16) (n - 32) 103)

/-- The accumulators before the first stripe. -/
def initialLanes : Array UInt64 :=
  #[prime32x3, prime64x1, prime64x2, prime64x3, prime64x4, prime32x2, prime64x5, prime32x1]

/-- The accumulators after the stripe at `start`: a word is added to its neighbour's lane, and
the product of the halves of the keyed word to its own. -/
def addStripe (bytes : Array UInt8) (lanes : Array UInt64) (start secretStart : Nat) :
    Array UInt64 :=
  lanes.mapIdx fun i lane =>
    let keyed := read64 bytes (start + 8 * i) ^^^ key (secretStart + 8 * i)
    let neighbour := read64 bytes (start + 8 * (if i % 2 = 0 then i + 1 else i - 1))
    lane + neighbour + (keyed % 0x100000000) * (keyed >>> 32)

/-- The accumulators after a full block. -/
def scramble (lanes : Array UInt64) : Array UInt64 :=
  lanes.mapIdx fun i lane => (xorShift lane 47 ^^^ key (128 + 8 * i)) * prime32x1

/-- The accumulators after `count` stripes from `start`. -/
def addStripes (bytes : Array UInt8) (lanes : Array UInt64) (start count : Nat) :
    Array UInt64 :=
  (List.range count).foldl (fun lanes i => addStripe bytes lanes (start + 64 * i) (8 * i)) lanes

/-- One word from the eight accumulators. -/
def mergeLanes (lanes : Array UInt64) (secretStart : Nat) (start : UInt64) : UInt64 :=
  let lane := fun i => (lanes[i]?).getD 0
  avalanche ((List.range 4).foldl
    (fun sum i => sum + mulFold (lane (2 * i) ^^^ key (secretStart + 16 * i))
      (lane (2 * i + 1) ^^^ key (secretStart + 16 * i + 8))) start)

def hashLong (bytes : Array UInt8) : Wide :=
  let n := bytes.size
  let blocks := (n - 1) / 1024
  let full := (List.range blocks).foldl
    (fun lanes b => scramble (addStripes bytes lanes (1024 * b) 16)) initialLanes
  let rest := addStripes bytes full (1024 * blocks) ((n - 1 - 1024 * blocks) / 64)
  let lanes := addStripe bytes rest (n - 64) 121
  ⟨mergeLanes lanes 11 (UInt64.ofNat n * prime64x1),
    mergeLanes lanes 117 (~~~(UInt64.ofNat n * prime64x2))⟩

def hash (input : Bytes) : Wide :=
  let bytes := input.toArray
  let n := bytes.size
  if n = 0 then hashEmpty
  else if n ≤ 3 then hash1To3 bytes
  else if n ≤ 8 then hash4To8 bytes
  else if n ≤ 16 then hash9To16 bytes
  else if n ≤ 128 then hash17To128 bytes
  else if n ≤ 240 then hash129To240 bytes
  else hashLong bytes

/-- The sixteen bytes of a 128-bit number, the low ones first. -/
def Wide.toBytes (w : Wide) : Vector UInt8 16 :=
  Vector.ofFn fun i =>
    UInt8.ofNat ((if i.val < 8 then w.low else w.high).toNat >>> (8 * (i.val % 8)))

end LineQuery.Digest.Xxh3
