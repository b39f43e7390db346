/-!
# UTF-8

Bytes and the characters they stand for. Decoding reads one well-formed
character at a time; where none starts, the bytes that could have begun one are
taken together as one malformed piece. Strict decoding refuses a malformed
piece, lossy decoding puts U+FFFD in its place.
-/

namespace LineQuery.Text

/-- A string of bytes. -/
abbrev Bytes := List UInt8

def encodeChars (cs : List Char) : Bytes :=
  cs.flatMap String.utf8EncodeChar

def encodeUtf8 (s : String) : Bytes :=
  encodeChars s.toList

def byteLength : List Char → Nat
  | [] => 0
  | c :: cs => c.utf8Size + byteLength cs

/-- What stands at the front of a byte string: a character, or a malformed piece
(`none`), and how many bytes it has after its first. -/
structure Utf8Piece where
  char : Option Char
  more : Nat

/-- Whether `b` continues a character. -/
def isContinuation (b : UInt8) : Bool :=
  0x80 ≤ b && b ≤ 0xBF

/-- The range of the second byte of a character that starts with `b`, a lead byte of
three or four bytes. It leaves out overlong forms, surrogates and what lies above
U+10FFFF. -/
def secondByteRange (b : UInt8) : UInt8 × UInt8 :=
  if b = 0xE0 then (0xA0, 0xBF)
  else if b = 0xED then (0x80, 0x9F)
  else if b = 0xF0 then (0x90, 0xBF)
  else if b = 0xF4 then (0x80, 0x8F)
  else (0x80, 0xBF)

/-- The six bits of a continuation byte. -/
def tailBits (b : UInt8) : Nat :=
  b.toNat % 64

/-- The piece that `b :: bs` starts with. -/
def utf8Piece (b : UInt8) (bs : Bytes) : Utf8Piece :=
  let second := fun c => (secondByteRange b).1 ≤ c && c ≤ (secondByteRange b).2
  if b < 0x80 then ⟨some (Char.ofNat b.toNat), 0⟩
  else if 0xC2 ≤ b && b ≤ 0xDF then
    match bs with
    | c :: _ =>
      if isContinuation c then ⟨some (Char.ofNat (b.toNat % 32 * 64 + tailBits c)), 1⟩
      else ⟨none, 0⟩
    | [] => ⟨none, 0⟩
  else if 0xE0 ≤ b && b ≤ 0xEF then
    match bs with
    | c :: d :: _ =>
      if second c then
        if isContinuation d then
          ⟨some (Char.ofNat ((b.toNat % 16 * 64 + tailBits c) * 64 + tailBits d)), 2⟩
        else ⟨none, 1⟩
      else ⟨none, 0⟩
    | [c] => if second c then ⟨none, 1⟩ else ⟨none, 0⟩
    | [] => ⟨none, 0⟩
  else if 0xF0 ≤ b && b ≤ 0xF4 then
    match bs with
    | c :: d :: e :: _ =>
      if second c then
        if isContinuation d then
          if isContinuation e then
            ⟨some (Char.ofNat
              (((b.toNat % 8 * 64 + tailBits c) * 64 + tailBits d) * 64 + tailBits e)), 3⟩
          else ⟨none, 2⟩
        else ⟨none, 1⟩
      else ⟨none, 0⟩
    | [c, d] =>
      if second c then if isContinuation d then ⟨none, 2⟩ else ⟨none, 1⟩ else ⟨none, 0⟩
    | [c] => if second c then ⟨none, 1⟩ else ⟨none, 0⟩
    | [] => ⟨none, 0⟩
  else ⟨none, 0⟩

/-- The pieces of a byte string, the first `skip` bytes being part of a piece already
read. -/
def utf8PiecesFrom : Nat → Bytes → List (Option Char)
  | _, [] => []
  | skip + 1, _ :: bs => utf8PiecesFrom skip bs
  | 0, b :: bs => (utf8Piece b bs).char :: utf8PiecesFrom (utf8Piece b bs).more bs

/-- The characters and malformed pieces that make up a byte string. -/
def utf8Pieces (bytes : Bytes) : List (Option Char) :=
  utf8PiecesFrom 0 bytes

/-- The text of a byte string, each malformed piece replaced by U+FFFD. -/
def decodeLossy (bytes : Bytes) : String :=
  String.ofList ((utf8Pieces bytes).map fun piece => piece.getD '\uFFFD')

/-- The text of a byte string, `none` if a piece is malformed. -/
def decodeUtf8? (bytes : Bytes) : Option String :=
  ((utf8Pieces bytes).mapM id).map String.ofList

end LineQuery.Text
