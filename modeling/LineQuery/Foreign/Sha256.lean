import LineQuery.Text.Utf8

/-!
# SHA-256

The hash of a byte string: the string is padded to blocks of sixteen 32-bit words,
each block is expanded to sixty-four words, and the compression of the blocks in turn
yields eight words. The hash is a standard one and not the tool's own; what is shown of the store
asks of it only that it is a function of the text.
-/

namespace LineQuery.Digest.Sha256

open LineQuery.Text (Bytes)

/-- The chaining value: eight words. -/
abbrev State := Vector UInt32 8

def initial : State :=
  #v[0x6a09e667, 0xbb67ae85, 0x3c6ef372, 0xa54ff53a,
    0x510e527f, 0x9b05688c, 0x1f83d9ab, 0x5be0cd19]

def roundConstants : List UInt32 :=
  [0x428a2f98, 0x71374491, 0xb5c0fbcf, 0xe9b5dba5, 0x3956c25b, 0x59f111f1, 0x923f82a4, 0xab1c5ed5,
   0xd807aa98, 0x12835b01, 0x243185be, 0x550c7dc3, 0x72be5d74, 0x80deb1fe, 0x9bdc06a7, 0xc19bf174,
   0xe49b69c1, 0xefbe4786, 0x0fc19dc6, 0x240ca1cc, 0x2de92c6f, 0x4a7484aa, 0x5cb0a9dc, 0x76f988da,
   0x983e5152, 0xa831c66d, 0xb00327c8, 0xbf597fc7, 0xc6e00bf3, 0xd5a79147, 0x06ca6351, 0x14292967,
   0x27b70a85, 0x2e1b2138, 0x4d2c6dfc, 0x53380d13, 0x650a7354, 0x766a0abb, 0x81c2c92e, 0x92722c85,
   0xa2bfe8a1, 0xa81a664b, 0xc24b8b70, 0xc76c51a3, 0xd192e819, 0xd6990624, 0xf40e3585, 0x106aa070,
   0x19a4c116, 0x1e376c08, 0x2748774c, 0x34b0bcb5, 0x391c0cb3, 0x4ed8aa4a, 0x5b9cca4f, 0x682e6ff3,
   0x748f82ee, 0x78a5636f, 0x84c87814, 0x8cc70208, 0x90befffa, 0xa4506ceb, 0xbef9a3f7, 0xc67178f2]

def rotateRight (x : UInt32) (n : UInt32) : UInt32 :=
  (x >>> n) ||| (x <<< (32 - n))

/-- The eight bytes of a bit count, the high ones first. -/
def lengthBytes (bits : Nat) : Bytes :=
  (List.range 8).map fun i => UInt8.ofNat (bits >>> (8 * (7 - i)))

/-- `bytes` with a one bit, zeros and its length in bits behind it, to whole blocks. -/
def pad (bytes : Bytes) : Bytes :=
  bytes ++ 0x80 :: List.replicate ((119 - bytes.length % 64) % 64) 0 ++
    lengthBytes (bytes.length * 8)

def words : Bytes → List UInt32
  | a :: b :: c :: d :: rest =>
    ((a.toUInt32 <<< 24) ||| (b.toUInt32 <<< 16) ||| (c.toUInt32 <<< 8) ||| d.toUInt32)
      :: words rest
  | _ => []

/-- The words that follow `recent`, the last sixteen words of the schedule with the newest
first; the newest word comes last in the result. -/
def expand : Nat → List UInt32 → List UInt32
  | 0, schedule => schedule.reverse
  | n + 1, schedule =>
    let w := fun i => (schedule[i]?).getD 0
    let s0 := rotateRight (w 14) 7 ^^^ rotateRight (w 14) 18 ^^^ (w 14 >>> 3)
    let s1 := rotateRight (w 1) 17 ^^^ rotateRight (w 1) 19 ^^^ (w 1 >>> 10)
    expand n ((w 15 + s0 + w 6 + s1) :: schedule)

/-- One round, with its constant and its word of the schedule. -/
def round (s : State) (input : UInt32 × UInt32) : State :=
  let e := s[4]
  let a := s[0]
  let s1 := rotateRight e 6 ^^^ rotateRight e 11 ^^^ rotateRight e 25
  let choice := (e &&& s[5]) ^^^ (~~~e &&& s[6])
  let t1 := s[7] + s1 + choice + input.1 + input.2
  let s0 := rotateRight a 2 ^^^ rotateRight a 13 ^^^ rotateRight a 22
  let majority := (a &&& s[1]) ^^^ (a &&& s[2]) ^^^ (s[1] &&& s[2])
  #v[t1 + s0 + majority, a, s[1], s[2], s[3] + t1, e, s[5], s[6]]

def compress (s : State) (block : List UInt32) : State :=
  let mixed := (roundConstants.zip (expand 48 block.reverse)).foldl round s
  s.zipWith (· + ·) mixed

/-- The chaining value after the blocks that make up a list of words, sixteen words a block. -/
def compressAll (s : State) : Nat → List UInt32 → State
  | 0, _ => s
  | blocks + 1, ws => compressAll (compress s (ws.take 16)) blocks (ws.drop 16)

def digest (bytes : Bytes) : Vector UInt8 32 :=
  let ws := words (pad bytes)
  let s := compressAll initial (ws.length / 16) ws
  Vector.ofFn fun i =>
    have : i.val / 4 < 8 := by omega
    UInt8.ofNat (s[i.val / 4].toNat >>> (8 * (3 - i.val % 4)))

end LineQuery.Digest.Sha256
