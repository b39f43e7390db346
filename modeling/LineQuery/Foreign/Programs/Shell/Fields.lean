import LineQuery.Files.Disk
import LineQuery.Foreign.Programs.Shell.Pattern

/-!
# Fields of shell scripts

A word whose parts have been replaced becomes any number of fields: it is cut at separators in
values, and a field that is a pattern stands for the files that it fits.
-/

namespace LineQuery.Shell

open LineQuery.Files (Disk Path)
open LineQuery.Text (Bytes encodeUtf8 decodeLossy)

/-! ## Cutting -/

/-- What a word is made of once its parts have been replaced. -/
inductive Atom where
  | byte (b : MarkedByte)
  /-- Quotes, which make a field even where nothing is between them. -/
  | quotes
  /-- The end of a parameter before another one. Without quotes, it separates as a blank does. -/
  | boundary (quoted : Bool)
deriving DecidableEq, Repr

/-- The atoms of bytes. -/
def atomsOf (mark : Mark) (bytes : Bytes) : List Atom :=
  bytes.map fun b => .byte ⟨b, mark⟩

/-- The atoms of a value, in which a zero byte is the end of a parameter. -/
def valueAtoms (quoted : Bool) (v : Bytes) : List Atom :=
  v.map fun b =>
    if b = 0 then .boundary quoted else .byte ⟨b, if quoted then .quoted else .value⟩

/-- The bytes of atoms. -/
def bytesOfAtoms (atoms : List Atom) : List MarkedByte :=
  atoms.filterMap fun a =>
    match a with
    | .byte b => some b
    | .quotes | .boundary _ => none

/-- Whether a byte is a blank that separates fields. -/
def isBlankSeparator (separators : Bytes) (b : UInt8) : Bool :=
  (b == 32 || b == 9 || b == 10) && separators.contains b

/-- What has been read of a field: its bytes, the latest first, whether there is one, and whether
blanks have just ended a field, behind which one other separator ends nothing. -/
structure FieldState where
  bytes : List MarkedByte := []
  started : Bool := false
  closed : Bool := false

/-- The field that has been read, if there is one. -/
def FieldState.field? (f : FieldState) : List (List MarkedByte) :=
  if f.started then [f.bytes.reverse] else []

/-- The fields of atoms behind what has been read of the first. -/
def splitAtoms (separators : Bytes) (f : FieldState) : List Atom → List (List MarkedByte)
  | [] => f.field?
  | .quotes :: atoms => splitAtoms separators { f with started := true, closed := false } atoms
  | .boundary true :: atoms => f.bytes.reverse :: splitAtoms separators { started := true } atoms
  | .boundary false :: atoms =>
    if f.started then f.field? ++ splitAtoms separators { closed := true } atoms
    else splitAtoms separators f atoms
  | .byte b :: atoms =>
    if b.mark = .value && separators.contains b.byte then
      if isBlankSeparator separators b.byte then
        if f.started then f.field? ++ splitAtoms separators { closed := true } atoms
        else splitAtoms separators f atoms
      else if f.closed then splitAtoms separators {} atoms
      else f.bytes.reverse :: splitAtoms separators {} atoms
    else
      splitAtoms separators { f with bytes := b :: f.bytes, started := true, closed := false } atoms

/-! ## Finding files -/

/-- The segments of bytes between slashes. -/
def splitAtSlashes (segment : List MarkedByte) : List MarkedByte → List (List MarkedByte)
  | [] => [segment.reverse]
  | b :: bs =>
    if b.byte = 47 then segment.reverse :: splitAtSlashes [] bs
    else splitAtSlashes (b :: segment) bs

/-- The names in a folder that a pattern fits. Names with a point at the front are fitted only by
a pattern that starts with one. -/
def namesMatching (d : Disk) (folder : Path) (text : Bytes) (segment : List MarkedByte) :
    List Bytes :=
  let listed := d.list folder (if text.isEmpty then "." else decodeLossy text)
  let names : List String :=
    match listed with
    | .ok entries => "." :: ".." :: entries.map Prod.fst
    | .error _ => []
  let pattern := Pattern.ofBytes segment
  let showsHidden := (segment.head?.map (·.byte)) == some 46
  (names.map encodeUtf8).filter fun name =>
    (showsHidden || name.head? != some 46) && pattern.covers name

/-- The written paths of files that segments stand for behind a text. -/
def pathsMatching (d : Disk) (folder : Path) (text : Bytes) : List (List MarkedByte) → List Bytes
  | [] => if d.has folder (decodeLossy text) then [text] else []
  | segment :: segments =>
    let slash : Bytes := if segments.isEmpty then [] else [47]
    let names :=
      if mayMatch segment then namesMatching d folder text segment else [plainBytes segment]
    names.flatMap fun name => pathsMatching d folder (text ++ name ++ slash) segments

/-- The fields that a field stands for: the files that it fits, by name, or itself. -/
def filesMatching (d : Disk) (folder : Path) (field : List MarkedByte) : List Bytes :=
  if mayMatch field then
    match pathsMatching d folder [] (splitAtSlashes [] field) with
    | [] => [plainBytes field]
    | paths => paths.mergeSort fun a b => decide (a ≤ b)
  else [plainBytes field]

end LineQuery.Shell
