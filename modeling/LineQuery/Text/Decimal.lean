/-!
# Decimal integers

Reading and writing integers in base ten. A signed 64-bit integer is read from an
optional sign and at least one digit, and only if it fits.
-/

namespace LineQuery.Text

def isDigit (c : Char) : Bool :=
  '0' ≤ c && c ≤ '9'

/-- The number that `acc` followed by the digits `cs` stands for. -/
def readDigits (acc : Nat) : List Char → Option Nat
  | [] => some acc
  | c :: cs => if isDigit c then readDigits (acc * 10 + (c.toNat - '0'.toNat)) cs else none

/-- The number written as `cs`, which must be one digit or more. -/
def readNat? : List Char → Option Nat
  | [] => none
  | cs => readDigits 0 cs

/-- The integer written as `cs`: digits, with `+` or `-` before them or not. -/
def readInt? : List Char → Option Int
  | '-' :: cs => (readNat? cs).map fun n => -(n : Int)
  | '+' :: cs => (readNat? cs).map Int.ofNat
  | cs => (readNat? cs).map Int.ofNat

/-- `n` as a signed 64-bit integer, if it is one. -/
def toInt64? (n : Int) : Option Int64 :=
  if -0x8000000000000000 ≤ n ∧ n < 0x8000000000000000 then some (Int64.ofInt n) else none

/-- The signed 64-bit integer written as `cs`. -/
def readInt64? (cs : List Char) : Option Int64 :=
  (readInt? cs).bind toInt64?

/-- `n` in base ten. -/
def showNat (n : Nat) : List Char :=
  Nat.toDigits 10 n

/-- `n` in base ten, with `-` before it if it is negative. -/
def showInt (n : Int) : List Char :=
  if n < 0 then '-' :: showNat n.natAbs else showNat n.natAbs

def natText (n : Nat) : String :=
  String.ofList (showNat n)

def intText (n : Int) : String :=
  String.ofList (showInt n)

/-- `text` at the end of at least `width` characters, the first of which are spaces. -/
def padLeft (width : Nat) (text : String) : String :=
  String.ofList (List.replicate (width - text.length) ' ') ++ text

end LineQuery.Text
