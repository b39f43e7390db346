import LineQuery.Builtin.Basic
import LineQuery.Text.Blank
import LineQuery.Text.Casing
import LineQuery.Text.Escape
import LineQuery.Text.Search
import LineQuery.Value

/-!
# Calling functions

What each function makes of its arguments, the causes for which a call fails, and the
warning that a call gives.
-/

namespace LineQuery

open LineQuery.Text (natText intText)

/-- Why a call fails. Arguments are counted from zero. -/
inductive CallError where
  | argument (f : Builtin) (expected : Value.Kind) (index : Nat) (found : Value.Kind)
  | missing (f : Builtin) (index : Nat)
  | notDecimal (text : String)
  | notNumeric (found : Value.Kind)
  | noLength (found : Value.Kind)
  | raised (message : String)
  | emptySeparator
  | emptyPattern
  | substrStart (start : Int64) (length : Nat)
  | substrLength (count start : Int64) (length : Nat)
  | overflow
deriving DecidableEq, Repr

def Value.Kind.phrase (k : Value.Kind) : String :=
  (if k = .int then "an " else "a ") ++ k.label

def CallError.message : CallError → String
  | argument f expected index found =>
    "`" ++ f.name ++ "` expects " ++ expected.phrase ++ " as argument " ++ natText (index + 1) ++
      ", found " ++ found.label
  | missing f index => "`" ++ f.name ++ "` is missing argument " ++ natText (index + 1)
  | notDecimal text => "cannot convert \"" ++ text ++ "\" to int"
  | notNumeric found => "cannot convert " ++ found.label ++ " to int"
  | noLength found => "`len` expects a string or list, found " ++ found.label
  | raised message => message
  | emptySeparator => "`split` separator must not be empty"
  | emptyPattern => "`replace` pattern must not be empty"
  | substrStart start length =>
    "`substr` start " ++ intText start.toInt ++ " is outside a string of length " ++
      natText length
  | substrLength count start length =>
    "`substr` length " ++ intText count.toInt ++ " from " ++ intText start.toInt ++
      " runs past a string of length " ++ natText length
  | overflow => "attempt to subtract with overflow"

namespace Builtin

/-! ## Arguments -/

/-- The error of an argument that is not of the expected type, or not there. -/
def mismatch (f : Builtin) (expected : Value.Kind) (args : List Value) (i : Nat) : CallError :=
  match args[i]? with
  | some v => .argument f expected i v.kind
  | none => .missing f i

def anyArg (f : Builtin) (args : List Value) (i : Nat) : Except CallError Value :=
  match args[i]? with
  | some v => .ok v
  | none => .error (.missing f i)

def strArg (f : Builtin) (args : List Value) (i : Nat) : Except CallError (List Char) :=
  match args[i]? with
  | some (.str s) => .ok s.toList
  | _ => .error (f.mismatch .string args i)

def intArg (f : Builtin) (args : List Value) (i : Nat) : Except CallError Int64 :=
  match args[i]? with
  | some (.int n) => .ok n
  | _ => .error (f.mismatch .int args i)

def boolArg (f : Builtin) (args : List Value) (i : Nat) : Except CallError Bool :=
  match args[i]? with
  | some (.bool b) => .ok b
  | _ => .error (f.mismatch .bool args i)

def listArg (f : Builtin) (args : List Value) (i : Nat) : Except CallError (List Value) :=
  match args[i]? with
  | some (.list items) => .ok items
  | _ => .error (f.mismatch .list args i)

/-! ## Results -/

/-- A string of characters as a value. -/
def text (cs : List Char) : Value :=
  .str (String.ofList cs)

/-- The item at an index that may be negative or too large. -/
def itemAt? (items : List α) (i : Int64) : Option α :=
  if i < 0 then none else items[i.toInt.toNat]?

/-- The integer that a value is or writes. -/
def toInt : Value → Except CallError Value
  | .int n => .ok (.int n)
  | .str s =>
    match Text.readInt64? (Text.trim s.toList) with
    | some n => .ok (.int n)
    | none => .error (.notDecimal s)
  | v => .error (.notNumeric v.kind)

/-- The number of characters of a string or items of a list. -/
def length : Value → Except CallError Value
  | .str s => .ok (.int (Int64.ofNat s.length))
  | .list items => .ok (.int (Int64.ofNat items.length))
  | v => .error (.noLength v.kind)

/-- The result paired with the first key that equals `v`, or the last item. A key without
a result before the last item is passed over. -/
def chooseFrom (v : Value) : List Value → Option Value
  | [] => none
  | [default] => some default
  | [_, default] => some default
  | key :: result :: rest => if key = v then some result else chooseFrom v rest

/-- The result of `case`. -/
def choose (args : List Value) : Except CallError Value :=
  match args with
  | [] => .error (.missing case 0)
  | v :: rest =>
    match chooseFrom v rest with
    | some result => .ok result
    | none => .error (.missing case 1)

/-- `a - b`, for which 64 bits may not be enough. -/
def difference (a b : Int64) : Except CallError Int64 :=
  match Text.toInt64? (a.toInt - b.toInt) with
  | some n => .ok n
  | none => .error .overflow

/-- Refuses a start that is neither in a string of `length` characters nor at its end. -/
def checkStart (length : Nat) (start : Int64) : Except CallError Unit :=
  if start < 0 ∨ Int64.ofNat length < start then .error (.substrStart start length) else .ok ()

/-- The number of characters that `substr` takes from `start` of a string of `length`
characters: the one that is asked for, or all of them. -/
def countArg (args : List Value) (length : Nat) (start : Int64) : Except CallError Int64 :=
  if args.length ≤ 2 then difference (Int64.ofNat length) start else substr.intArg args 2

/-- Refuses a number of characters that a string of `length` characters does not have from
`start`. -/
def checkCount (length : Nat) (start count : Int64) : Except CallError Unit :=
  if count < 0 then .error (.substrLength count start length)
  else do
    let left ← difference (Int64.ofNat length) start
    if left < count then .error (.substrLength count start length) else .ok ()

def apply (f : Builtin) (args : List Value) : Except CallError Value :=
  match f with
  | str => do return .str (← f.anyArg args 0).display
  | int => do toInt (← f.anyArg args 0)
  | len => do length (← f.anyArg args 0)
  | error => do
    let cond ← f.boolArg args 0
    let message ← f.strArg args 1
    if cond then return .bool true else throw (.raised (String.ofList message))
  | warn => do
    let cond ← f.boolArg args 0
    let _ ← f.strArg args 1
    return .bool cond
  | single => do return .list [← f.anyArg args 0]
  | getOr => do
    let items ← f.listArg args 0
    let i ← f.intArg args 1
    match itemAt? items i with
    | some v => return v
    | none => f.anyArg args 2
  | case => choose args
  | upper => do return text (Text.upper (← f.strArg args 0))
  | lower => do return text (Text.lower (← f.strArg args 0))
  | trim => do return text (Text.trim (← f.strArg args 0))
  | split => do
    let s ← f.strArg args 0
    let sep ← f.strArg args 1
    if sep.isEmpty then throw .emptySeparator else return .list ((Text.split sep s).map text)
  | join => do
    let items ← f.listArg args 0
    let sep ← f.strArg args 1
    return text (Text.join sep (items.map fun v => v.display.toList))
  | replace => do
    let s ← f.strArg args 0
    let old ← f.strArg args 1
    let new ← f.strArg args 2
    if old.isEmpty then throw .emptyPattern else return text (Text.replace old new s)
  | contains => do
    let s ← f.strArg args 0
    return .bool (Text.contains (← f.strArg args 1) s)
  | startsWith => do
    let s ← f.strArg args 0
    return .bool ((← f.strArg args 1).isPrefixOf s)
  | endsWith => do
    let s ← f.strArg args 0
    return .bool ((← f.strArg args 1).isSuffixOf s)
  | substr => do
    let s ← f.strArg args 0
    let start ← f.intArg args 1
    checkStart s.length start
    let count ← countArg args s.length start
    checkCount s.length start count
    return text ((s.drop start.toInt.toNat).take count.toInt.toNat)
  | splitTab => do
    let columns := Text.split ['\t'] (← f.strArg args 0)
    return .list (columns.map fun column => text (Text.decodeEscapes column))
  | decodeTab => do return text (Text.decodeEscapes (← f.strArg args 0))
  | encodeTab => do return text (Text.encodeEscapes (← f.strArg args 0))
  | joinTab => do
    let columns := (← f.listArg args 0).map fun v => Text.encodeEscapes v.display.toList
    return text (Text.join ['\t'] columns)

def warning? : Builtin → List Value → Option String
  | warn, .bool false :: .str message :: _ => some message
  | _, _ => none

end Builtin

end LineQuery
