/-!
# TOML values

Values and tables of a TOML document, and the rules by which keys and headers fill a table.
Of dates and fractions, which no setting takes, only their kind is kept; arrays of tables are
left out. The format is not the tool's own: settings are what `Settings.Basic` makes of the fields
of a document.
-/

namespace LineQuery.Toml

/-- How a table came to be, which decides who may add to it. -/
inductive Origin where
  /-- It has a header of its own. -/
  | header
  /-- It lies on the way of another header. -/
  | implied
  /-- It lies on the way of a dotted key. -/
  | dotted
  /-- It was written between braces. -/
  | inline
deriving DecidableEq, Repr

/-- Values. The fields of a table stand in the order in which they were written. -/
inductive Item where
  | string (s : String)
  | integer (n : Int64)
  /-- A number with a point or an exponent, or one that is not finite. -/
  | fraction
  /-- A date, a time, or both. -/
  | moment
  | boolean (b : Bool)
  | array (items : List Item)
  | table (origin : Origin) (fields : List (String × Item))
deriving Repr

/-- The fields of a table. -/
abbrev Fields := List (String × Item)

namespace Fields

/-- The fields with another value for a name that they have. -/
def replace (fields : Fields) (name : String) (item : Item) : Fields :=
  fields.map fun field => if field.1 = name then (name, item) else field

/-- The fields with one more, unless they have the name. -/
def add (fields : Fields) (name : String) (item : Item) : Option Fields :=
  match fields.lookup name with
  | none => some (fields ++ [(name, item)])
  | some _ => none

/-- The fields with a value at a dotted key. Tables on its way must not have a header, and
the last of them must have come from dotted keys. -/
def put (item : Item) : (key : List String) → Fields → Option Fields
  | [], _ => none
  | [name], fields => fields.add name item
  | name :: rest, fields =>
    match fields.lookup name with
    | none => do return fields ++ [(name, .table .dotted (← put item rest []))]
    | some (.table origin inner) =>
      if origin = .dotted ∨ (origin = .implied ∧ 2 ≤ rest.length) then do
        return fields.replace name (.table origin (← put item rest inner))
      else none
    | some _ => none

/-- The fields with an empty table for a header. A header may be given once, and never for
what is no table or was filled by dotted keys. -/
def openTable : (key : List String) → Fields → Option Fields
  | [], _ => none
  | [name], fields =>
    match fields.lookup name with
    | none => some (fields ++ [(name, .table .header [])])
    | some (.table .implied inner) => some (fields.replace name (.table .header inner))
    | some _ => none
  | name :: rest, fields =>
    match fields.lookup name with
    | none => do return fields ++ [(name, .table .implied (← openTable rest []))]
    | some (.table .inline _) => none
    | some (.table origin inner) => do
      return fields.replace name (.table origin (← openTable rest inner))
    | some _ => none

/-- The fields with a change made in the table at a path. -/
def change (f : Fields → Option Fields) : (path : List String) → Fields → Option Fields
  | [], fields => f fields
  | name :: rest, fields =>
    match fields.lookup name with
    | some (.table origin inner) => do
      return fields.replace name (.table origin (← change f rest inner))
    | _ => none

end Fields

end LineQuery.Toml
