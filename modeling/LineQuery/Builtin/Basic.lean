import LineQuery.Text.Decimal

/-!
# Libraries and their functions

The functions that queries may call, the library that provides each, and how many
arguments each takes.
-/

namespace LineQuery

/-- The libraries that a program may import. -/
inductive Library where
  | core
  | text
  | tsv
deriving DecidableEq, Repr

namespace Library

def name : Library → String
  | core => "core"
  | text => "text"
  | tsv => "tsv"

def all : List Library := [core, text, tsv]

/-- The library with a name. -/
def ofName? (name : String) : Option Library :=
  all.find? fun l => l.name == name

end Library

/-- The functions of the libraries. -/
inductive Builtin where
  /-- How a value is written. -/
  | str
  /-- The integer written in a string. -/
  | int
  /-- The number of characters or items. -/
  | len
  /-- Fails with a message unless a condition holds. -/
  | error
  /-- Gives a warning unless a condition holds. -/
  | warn
  /-- A list of one item. -/
  | single
  /-- The item of a list at an index, or a default. -/
  | getOr
  /-- The result paired with the first key that equals a value, or a default. -/
  | case
  | upper
  | lower
  | trim
  | split
  | join
  | replace
  | contains
  | startsWith
  | endsWith
  /-- The characters of a string from a start, all of them or a number of them. -/
  | substr
  /-- The columns of a line, with their escapes read. -/
  | splitTab
  | decodeTab
  | encodeTab
  /-- A line of columns, with escapes. -/
  | joinTab
deriving DecidableEq, Repr

namespace Builtin

def all : List Builtin :=
  [str, int, len, error, warn, single, getOr, case, upper, lower, trim, split, join, replace,
    contains, startsWith, endsWith, substr, splitTab, decodeTab, encodeTab, joinTab]

def name : Builtin → String
  | str => "str"
  | int => "int"
  | len => "len"
  | error => "error"
  | warn => "warn"
  | single => "single"
  | getOr => "get_or"
  | case => "case"
  | upper => "upper"
  | lower => "lower"
  | trim => "trim"
  | split => "split"
  | join => "join"
  | replace => "replace"
  | contains => "contains"
  | startsWith => "starts_with"
  | endsWith => "ends_with"
  | substr => "substr"
  | splitTab => "split_tab"
  | decodeTab => "decode_tab"
  | encodeTab => "encode_tab"
  | joinTab => "join_tab"

/-- The function with a name, whether or not its library is imported. -/
def ofName? (name : String) : Option Builtin :=
  all.find? fun f => f.name == name

def library : Builtin → Library
  | str | int | len | error | warn | single | getOr | case => .core
  | splitTab | decodeTab | encodeTab | joinTab => .tsv
  | upper | lower | trim | split | join | replace | contains | startsWith | endsWith
  | substr => .text

def least : Builtin → Nat
  | str | int | len | single | upper | lower | trim | splitTab | decodeTab | encodeTab
  | joinTab => 1
  | error | warn | split | join | contains | startsWith | endsWith | substr => 2
  | getOr | replace => 3
  | case => 4

/-- The greatest number of arguments, if there is one. -/
def most? : Builtin → Option Nat
  | case => none
  | substr => some 3
  | f => some f.least

/-- Whether `count` arguments make a call; those of `case` come in pairs. -/
def accepts (f : Builtin) (count : Nat) : Bool :=
  f.least ≤ count && (f.most?.all fun most => count ≤ most) &&
    (f != case || count % 2 == 0)

/-- The number of arguments a function takes, in words. -/
def arityText (f : Builtin) : String :=
  match f.most? with
  | none => "a value, one or more key/result pairs and a default"
  | some most =>
    if most = f.least then Text.natText most ++ (if most = 1 then " argument" else " arguments")
    else Text.natText f.least ++ " to " ++ Text.natText most ++ " arguments"

end Builtin

end LineQuery
