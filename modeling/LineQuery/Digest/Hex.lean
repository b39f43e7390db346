import LineQuery.Text.Utf8

/-!
# Hexadecimal

Two digits a byte, the high half first. Writing uses lower case; reading takes both.
-/

namespace LineQuery.Digest

open LineQuery.Text (Bytes)

def hexDigit (n : Nat) : Char :=
  if n < 10 then Char.ofNat ('0'.toNat + n) else Char.ofNat ('a'.toNat + (n - 10))

/-- The number that a hexadecimal digit stands for. -/
def hexValue? (c : Char) : Option Nat :=
  if '0' ≤ c && c ≤ '9' then some (c.toNat - '0'.toNat)
  else if 'a' ≤ c && c ≤ 'f' then some (c.toNat - 'a'.toNat + 10)
  else if 'A' ≤ c && c ≤ 'F' then some (c.toNat - 'A'.toNat + 10)
  else none

def hexByte (b : UInt8) : List Char :=
  [hexDigit (b.toNat / 16), hexDigit (b.toNat % 16)]

/-- The digits of a byte string. -/
def hexChars (bytes : Bytes) : List Char :=
  bytes.flatMap hexByte

def hexText (bytes : Bytes) : String :=
  String.ofList (hexChars bytes)

/-- The byte string that a text of hexadecimal digits stands for. -/
def readHex? : List Char → Option Bytes
  | [] => some []
  | [_] => none
  | high :: low :: cs => do
    let h ← hexValue? high
    let l ← hexValue? low
    let bytes ← readHex? cs
    some (UInt8.ofNat (16 * h + l) :: bytes)

end LineQuery.Digest
