import LineQuery.Foreign.Toml.Number

/-!
# TOML documents

A document is a sequence of lines, each a key with a value, the header of a table, or only a
comment. Its fields are those of its root table.
-/

namespace LineQuery.Toml

/-! ## Values -/

/-- Reads the items of an array up to its closing bracket, `count` of them at most. -/
def readItems (readItem : Reader Item) : (count : Nat) → Reader (List Item)
  | 0 => failure
  | count + 1 => do
    skipFiller
    match ← get with
    | ']' :: cs => do
      set cs
      return []
    | _ =>
      let item ← readItem
      skipFiller
      match ← get with
      | ',' :: cs => do
        set cs
        return item :: (← readItems readItem count)
      | ']' :: cs => do
        set cs
        return [item]
      | _ => failure

/-- Reads the fields of a table between braces up to the closing one, `count` of them at
most. -/
def readFields (readItem : Reader Item) (fields : Fields) : (count : Nat) → Reader Fields
  | 0 => failure
  | count + 1 => do
    let key ← readKey
    skipChar '='
    skipGap
    let item ← readItem
    skipGap
    let fields ← StateT.lift (fields.put item key)
    match ← get with
    | ',' :: cs => do
      set cs
      readFields readItem fields count
    | '}' :: cs => do
      set cs
      return fields
    | _ => failure

/-- Reads a value that is no array and no table. -/
def readScalar : Reader Item := do
  match ← get with
  | '"' :: _ | '\'' :: _ => return .string (← readString)
  | 't' :: _ | 'f' :: _ => return .boolean (← readBoolean)
  | 'i' :: _ | 'n' :: _ => do
    readNonFinite
    return .fraction
  | _ => readNumber

def readItem : (depth : Nat) → Reader Item
  | 0 => readScalar
  | depth + 1 => do
    match ← get with
    | '[' :: cs => do
      set cs
      return .array (← readItems (readItem depth) cs.length)
    | '{' :: cs => do
      match cs.dropWhile isGap with
      | '}' :: cs => do
        set cs
        return .table .inline []
      | cs => do
        set cs
        return .table .inline (← readFields (readItem depth) [] cs.length)
    | _ => readScalar

/-! ## Lines -/

/-- What a document has been read to: the fields of its root, and the path of the table that
keys go to. -/
structure Draft where
  root : Fields
  path : List String

def readAssignment (draft : Draft) : Reader Draft := do
  let key ← readKey
  skipChar '='
  skipGap
  let item ← readItem (depthLimit - 1)
  skipTrailing
  return { draft with root := ← StateT.lift (draft.root.change (Fields.put item key) draft.path) }

def readHeader (draft : Draft) : Reader Draft := do
  skipChar '['
  let key ← readKey
  skipChar ']'
  skipTrailing
  return ⟨← StateT.lift (draft.root.openTable key), key⟩

def readLines (draft : Draft) : (count : Nat) → Reader Draft
  | 0 => failure
  | count + 1 => do
    skipFiller
    match ← get with
    | [] => return draft
    | '[' :: _ => readLines (← readHeader draft) count
    | _ => readLines (← readAssignment draft) count

/-- The fields of a document; a byte order mark may stand before it. -/
def read? (text : String) : Option Fields :=
  let cs :=
    match text.toList with
    | '\uFEFF' :: cs => cs
    | cs => cs
  ((readLines ⟨[], []⟩ (cs.length + 1)).run cs).map fun (draft, _) => draft.root

end LineQuery.Toml
