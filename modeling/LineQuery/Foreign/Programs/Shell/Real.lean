import LineQuery.Foreign.Programs.Shell.Arithmetic

/-!
# Decimal forms of fractions

A number between integers is held in binary. It is written exactly rounded: to a number of
digits behind the point, or to a number of digits in all with a power of ten. A half goes to the
even neighbour.
-/

namespace LineQuery.Shell

/-! ## Reading -/

inductive Real where
  | finite (negative : Bool) (num den : Nat)
  | infinite (negative : Bool)
  | undefined (negative : Bool)
deriving DecidableEq, Repr

/-- The bits of the fraction of a binary number. -/
def fractionSize : Nat := 0x10000000000000

/-- The number that a binary number is. -/
def Real.ofFloat (f : Float) : Real :=
  let bits := f.toBits.toNat
  let negative := 0x8000000000000000 ≤ bits
  let exponent := bits / fractionSize % 2048
  let fraction := bits % fractionSize
  if exponent = 2047 then if fraction = 0 then .infinite negative else .undefined negative
  else
    let m := if exponent = 0 then fraction else fraction + fractionSize
    let e := max exponent 1
    if 1075 ≤ e then .finite negative (m * Nat.pow 2 (e - 1075)) 1
    else .finite negative m (Nat.pow 2 (1075 - e))

/-- The digits at the front of characters behind `acc`, how many they are, and what is left. -/
def readDigitsFrom (acc count : Nat) : List Char → Nat × Nat × List Char
  | [] => (acc, count, [])
  | c :: cs =>
    if Text.isDigit c then readDigitsFrom (10 * acc + (c.toNat - '0'.toNat)) (count + 1) cs
    else (acc, count, c :: cs)

/-- The power of ten behind an `e`, and what is left. -/
def readPower (cs : List Char) : Int × List Char :=
  match cs with
  | e :: rest =>
    if e = 'e' || e = 'E' then
      let (sign, digits) :=
        match rest with
        | '-' :: ds => ((-1 : Int), ds)
        | '+' :: ds => (1, ds)
        | ds => (1, ds)
      match readDigitsFrom 0 0 digits with
      | (_, 0, _) => (0, cs)
      | (n, _, left) => (sign * (min n 100000 : Nat), left)
    else (0, cs)
  | [] => (0, [])

/-- The number at the front of characters, and what is left; nothing is left of no number. -/
def readReal (cs : List Char) : Real × List Char :=
  let start := cs.dropWhile isNumberBlank
  let (negative, body) :=
    match start with
    | '-' :: cs => (true, cs)
    | '+' :: cs => (false, cs)
    | cs => (false, cs)
  let word := String.ofList (body.map Char.toLower)
  if word.startsWith "infinity" then (.infinite negative, body.drop 8)
  else if word.startsWith "inf" then (.infinite negative, body.drop 3)
  else if word.startsWith "nan" then (.undefined negative, body.drop 3)
  else
    let (whole, wholeCount, rest) := readDigitsFrom 0 0 body
    let (m, places, rest) :=
      match rest with
      | '.' :: more =>
        let (m, places, left) := readDigitsFrom whole 0 more
        if wholeCount + places = 0 then (whole, 0, rest) else (m, places, left)
      | rest => (whole, 0, rest)
    if wholeCount + places = 0 then (.finite false 0 1, cs)
    else
      let (power, rest) := readPower rest
      let scale := power - places
      let f := Float.ofScientific m (scale < 0) scale.natAbs
      match Real.ofFloat f with
      | .finite _ num den => (.finite negative num den, rest)
      | _ => (.infinite negative, rest)

/-! ## Writing -/

/-- The integer nearest to `num / den`. -/
def nearest (num den : Nat) : Nat :=
  let q := num / den
  let twice := 2 * (num % den)
  if twice < den then q else if den < twice then q + 1 else if q % 2 = 0 then q else q + 1

/-- A number with `places` digits behind the point. -/
def fixedForm (num den places : Nat) : String :=
  let n := nearest (num * Nat.pow 10 places) den
  let digits := Text.natText n
  let padded := String.ofList (List.replicate (places + 1 - digits.length) '0') ++ digits
  let whole := padded.toList.take (padded.length - places)
  let fraction := padded.toList.drop (padded.length - places)
  String.ofList (if places = 0 then whole else whole ++ '.' :: fraction)

/-- The power of ten of the first digit of a positive number that is not below `10 ^ low`. -/
def powerOfTen (num den : Nat) : (count : Nat) → (low : Int) → Int
  | 0, low => low
  | count + 1, low =>
    let next := low + 1
    let reaches :=
      if 0 ≤ next then den * Nat.pow 10 next.toNat ≤ num
      else den ≤ num * Nat.pow 10 next.natAbs
    if reaches then powerOfTen num den count next else low

/-- The first digits of a number as an integer of `places + 1` digits, and the power of ten of its
first digit. -/
def leadingDigits (num den places : Nat) : Nat × Int :=
  if num = 0 then (0, 0)
  else
    let power := powerOfTen num den 700 (-330)
    let scale := (places : Int) - power
    let n :=
      if 0 ≤ scale then nearest (num * Nat.pow 10 scale.toNat) den
      else nearest num (den * Nat.pow 10 scale.natAbs)
    if n = Nat.pow 10 (places + 1) then (Nat.pow 10 places, power + 1) else (n, power)

/-- A number with `places` digits behind the point and a power of ten. -/
def powerForm (num den places : Nat) : String :=
  let (n, power) := leadingDigits num den places
  let digits := (Text.natText n).toList
  let digits := digits ++ List.replicate (places + 1 - digits.length) '0'
  let mantissa := if places = 0 then digits else digits.take 1 ++ '.' :: digits.drop 1
  let magnitude := Text.natText power.natAbs
  String.ofList mantissa ++ "e" ++ (if power < 0 then "-" else "+") ++
    (if magnitude.length < 2 then "0" else "") ++ magnitude

/-- A decimal form without the zeros at the end of its fraction. -/
def dropFinalZeros (text : String) : String :=
  let (mantissa, power) := (text.toList.takeWhile (· ≠ 'e'), text.toList.dropWhile (· ≠ 'e'))
  if mantissa.contains '.' then
    let kept := mantissa.reverse.dropWhile (· = '0')
    let kept := if kept.head? = some '.' then kept.drop 1 else kept
    String.ofList (kept.reverse ++ power)
  else text

/-- A number with `digits` digits at most, in the shorter of both forms. -/
def generalForm (num den digits : Nat) (keepsZeros : Bool) : String :=
  let digits := max digits 1
  let (_, power) := leadingDigits num den (digits - 1)
  let text :=
    if -4 ≤ power ∧ power < digits then fixedForm num den ((digits : Int) - 1 - power).toNat
    else powerForm num den (digits - 1)
  if keepsZeros then text else dropFinalZeros text

/-- The sign and the text of a number in the form of a letter. -/
def Real.form (r : Real) (kind : Char) (precision : Nat) (keepsZeros : Bool) : Bool × String :=
  match r with
  | infinite negative => (negative, "inf")
  | undefined negative => (negative, "nan")
  | finite negative num den =>
    (negative,
      match kind.toLower with
      | 'f' => fixedForm num den precision
      | 'e' => powerForm num den precision
      | _ => generalForm num den precision keepsZeros)

end LineQuery.Shell
