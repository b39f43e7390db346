import LineQuery.Digest.Hex
import LineQuery.Foreign.Sha256
import LineQuery.Foreign.Xxh3

/-!
# Fingerprints and content hashes

A fingerprint is the SHA-256 digest of a program and names its artifact in the store; its
written form is sixty-four hexadecimal digits. A content hash is the checksum that guards
an artifact against damage.
-/

namespace LineQuery.Digest

open LineQuery.Text (Bytes)

/-- What a program is known by. -/
structure Fingerprint where
  bytes : Vector UInt8 32
deriving DecidableEq

namespace Fingerprint

def ofBytes (bytes : Bytes) : Fingerprint :=
  ⟨Sha256.digest bytes⟩

def ofText (text : String) : Fingerprint :=
  ofBytes (Text.encodeUtf8 text)

def toText (f : Fingerprint) : String :=
  hexText f.bytes.toList

def short (f : Fingerprint) : String :=
  hexText (f.bytes.toList.take 6)

/-- A fingerprint as it appears among other data. -/
def label (f : Fingerprint) : String :=
  "Fingerprint(" ++ f.short ++ ")"

/-- The fingerprint written as `s`, in digits of either case. -/
def read? (s : String) : Option Fingerprint := do
  let bytes ← readHex? s.toList
  if h : bytes.length = 32 then
    some ⟨⟨bytes.toArray, by simpa using h⟩⟩
  else none

def invalidMessage (s : String) : String :=
  "invalid fingerprint '" ++ s ++ "': expected 64 hex digits"

def le (a b : Fingerprint) : Bool :=
  decide (a.bytes.toList ≤ b.bytes.toList)

end Fingerprint

/-- The checksum of an artifact's payload. -/
structure ContentHash where
  bytes : Vector UInt8 16
deriving DecidableEq

namespace ContentHash

def ofBytes (bytes : Bytes) : ContentHash :=
  ⟨(Xxh3.hash bytes).toBytes⟩

def toText (h : ContentHash) : String :=
  hexText h.bytes.toList

/-- A checksum as it appears among other data. -/
def label (h : ContentHash) : String :=
  "ContentHash(" ++ hexText (h.bytes.toList.take 2) ++ "..)"

end ContentHash

end LineQuery.Digest
