import LineQuery.Foreign.Toml.Basic
import LineQuery.Foreign.Toml.Scalar

/-!
# TOML numbers, dates and times

Readers for the values that start with a digit, a sign, or the name of a number that is not
finite. A date or a time is recognised by its first digits and the mark behind them, a
fraction by its point or exponent; what is left is an integer.
-/

namespace LineQuery.Toml

/-! ## Digits -/

/-- The number that digits of a base go on with behind `acc`, with an underscore between two
digits or none, and what is left. -/
def moreDigits (base acc : Nat) : List Char → Nat × List Char
  | '_' :: c :: cs =>
    match Digest.hexValue? c with
    | some d => if d < base then moreDigits base (base * acc + d) cs else (acc, '_' :: c :: cs)
    | none => (acc, '_' :: c :: cs)
  | c :: cs =>
    match Digest.hexValue? c with
    | some d => if d < base then moreDigits base (base * acc + d) cs else (acc, c :: cs)
    | none => (acc, c :: cs)
  | [] => (acc, [])

/-- Reads a number of at least one digit of a base. -/
def readDigits (base : Nat) : Reader Nat
  | [] => none
  | c :: cs =>
    match Digest.hexValue? c with
    | some d => if d < base then some (moreDigits base d cs) else none
    | none => none

/-- Reads a decimal number; one that starts with zero is zero. -/
def readDecimal : Reader Nat
  | '0' :: cs => some (0, cs)
  | cs => readDigits 10 cs

/-- Reads a number of exactly `count` digits that lies between two others. -/
def readFixed (count low high : Nat) : Reader Nat := fun cs => do
  let n ← if (cs.take count).length = count then Text.readNat? (cs.take count) else none
  if low ≤ n ∧ n ≤ high then some (n, cs.drop count) else none

/-! ## Integers -/

def readInteger : Reader Int64 := do
  let n : Int ←
    match ← get with
    | '0' :: 'x' :: cs => do set cs; pure (Int.ofNat (← readDigits 16))
    | '0' :: 'o' :: cs => do set cs; pure (Int.ofNat (← readDigits 8))
    | '0' :: 'b' :: cs => do set cs; pure (Int.ofNat (← readDigits 2))
    | '-' :: cs => do set cs; pure (-Int.ofNat (← readDecimal))
    | '+' :: cs => do set cs; pure (Int.ofNat (← readDecimal))
    | _ => do pure (Int.ofNat (← readDecimal))
  StateT.lift (Text.toInt64? n)

/-! ## Fractions -/

/-- A decimal fraction: its digits as one number, and the power of ten that they are
multiplied by. -/
structure Decimal where
  digits : Nat
  exponent : Int
deriving DecidableEq, Repr

/-- `n` with `count` zeros behind it. -/
def shiftLeft (n : Nat) : (count : Nat) → Nat
  | 0 => n
  | count + 1 => shiftLeft (10 * n) count

/-- The least number that is rounded to infinity, half a step above the largest finite
number. -/
def infiniteFrom : Nat := 0x3fffffffffffff <<< 970

/-- Whether a fraction is too large for a number with 53 bits and an exponent of 11 bits.
What has far more or far fewer than 309 digits before its point need not be computed. -/
def Decimal.isInfinite (d : Decimal) : Bool :=
  let size := (Nat.toDigits 10 d.digits).length + d.exponent
  if d.digits = 0 ∨ size < 300 then false
  else if 320 < size then true
  else
    infiniteFrom * shiftLeft 1 (-d.exponent).toNat ≤ shiftLeft d.digits d.exponent.toNat

/-- The digits of a fraction behind its point, with `acc` before them, and how many they
are. -/
def readFractionDigits (acc : Nat) : Reader (Nat × Nat) := fun cs => do
  let (_, rest) ← readDigits 10 cs
  let digits := (cs.take (cs.length - rest.length)).filter Text.isDigit
  return ((← Text.readDigits acc digits, digits.length), rest)

/-- Reads an exponent behind its letter. -/
def readExponent : Reader Int := do
  match ← get with
  | '-' :: cs => do set cs; return -Int.ofNat (← readDigits 10)
  | '+' :: cs => do set cs; return Int.ofNat (← readDigits 10)
  | _ => return Int.ofNat (← readDigits 10)

/-- Reads the exponent of a fraction if there is one. -/
def readOptionalExponent : Reader Int := do
  match ← get with
  | 'e' :: cs | 'E' :: cs => do set cs; readExponent
  | _ => return 0

/-- Reads what makes a fraction of the integer `whole`: a point with digits, an exponent, or
both. -/
def readFraction (whole : Nat) : Reader Decimal := do
  match ← get with
  | '.' :: cs => do
    set cs
    let (digits, count) ← readFractionDigits whole
    return ⟨digits, (← readOptionalExponent) - count⟩
  | _ => return ⟨whole, ← readOptionalExponent⟩

/-- Whether a point or an exponent comes next. -/
def startsFraction : List Char → Bool
  | '.' :: _ | 'e' :: _ | 'E' :: _ => true
  | _ => false

/-- Reads the name of a number that is not finite. -/
def readNonFinite : Reader Unit
  | 'i' :: 'n' :: 'f' :: cs => some ((), cs)
  | 'n' :: 'a' :: 'n' :: cs => some ((), cs)
  | _ => none

/-! ## Dates and times -/

def daysIn (year month : Nat) : Nat :=
  let isLeap := year % 4 = 0 ∧ (year % 100 ≠ 0 ∨ year % 400 = 0)
  if month = 2 then (if isLeap then 29 else 28)
  else if month ∈ [4, 6, 9, 11] then 30
  else 31

/-- Whether a date starts here: four digits and a hyphen. -/
def startsDate (cs : List Char) : Bool :=
  ((readFixed 4 0 9999).run cs).any fun (_, rest) => rest.head? = some '-'

/-- Whether a time starts here: an hour and a colon. -/
def startsTime (cs : List Char) : Bool :=
  ((readFixed 2 0 23).run cs).any fun (_, rest) => rest.head? = some ':'

def readDate : Reader Unit := do
  let year ← readFixed 4 0 9999
  skipChar '-'
  let month ← readFixed 2 1 12
  skipChar '-'
  let _ ← readFixed 2 1 (daysIn year month)

/-- Reads an hour and a minute. -/
def readHourMinute : Reader Unit := do
  let _ ← readFixed 2 0 23
  skipChar ':'
  let _ ← readFixed 2 0 59

def readTime : Reader Unit := do
  readHourMinute
  skipChar ':'
  let _ ← readFixed 2 0 60
  match ← get with
  | '.' :: d :: cs => if Text.isDigit d then set (cs.dropWhile Text.isDigit)
  | _ => return

/-- Reads the distance of a time from universal time if it is written. -/
def readOffset : Reader Unit := do
  match ← get with
  | 'Z' :: cs | 'z' :: cs => set cs
  | '+' :: cs | '-' :: cs => do
    set cs
    readHourMinute
  | _ => return

/-- Reads a date, and a time with it if there is one. -/
def readDateTime : Reader Unit := do
  readDate
  match ← get with
  | c :: cs =>
    if (c = 'T' ∨ c = 't' ∨ c = ' ') ∧ startsTime cs then
      set cs
      readTime
      readOffset
  | [] => return

/-! ## Values -/

/-- Reads a value that starts with a digit or a sign. A fraction must not be rounded to
infinity. -/
def readNumber : Reader Item := do
  let cs ← get
  if startsDate cs then
    readDateTime
    return .moment
  else if startsTime cs then
    readTime
    return .moment
  else
    let isNegative := cs.head? = some '-'
    let unsigned := if isNegative ∨ cs.head? = some '+' then cs.drop 1 else cs
    match readNonFinite unsigned, readDecimal unsigned with
    | some (_, rest), _ => do
      set rest
      return .fraction
    | none, some (whole, rest) =>
      if startsFraction rest then
        set rest
        let d ← readFraction whole
        if d.isInfinite && !isNegative then failure else return .fraction
      else return .integer (← readInteger)
    | none, none => failure

end LineQuery.Toml
