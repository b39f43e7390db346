/-!
# Occurrences of a text in a text

Occurrences are taken from the left and do not overlap: `split` cuts a text at
them, and `replace` puts another text in their places.
-/

namespace LineQuery.Text

/-- The pieces of `piece.reverse ++ cs` between the occurrences of `sep` in `cs`, the first
`skip` characters of `cs` being part of an occurrence already found. -/
def splitFrom (sep : List Char) : Nat → List Char → List Char → List (List Char)
  | _, piece, [] => [piece.reverse]
  | skip + 1, piece, _ :: cs => splitFrom sep skip piece cs
  | 0, piece, c :: cs =>
    if sep.isPrefixOf (c :: cs) then piece.reverse :: splitFrom sep (sep.length - 1) [] cs
    else splitFrom sep 0 (c :: piece) cs

/-- The pieces of `cs` between the occurrences of `sep`, which is not empty. -/
def split (sep cs : List Char) : List (List Char) :=
  splitFrom sep 0 [] cs

/-- The pieces with `sep` between them. -/
def join (sep : List Char) (pieces : List (List Char)) : List Char :=
  sep.intercalate pieces

/-- `done.reverse ++ cs` with `new` for each occurrence of `old` in `cs`, the first `skip`
characters of `cs` being part of an occurrence already replaced. -/
def replaceFrom (old new : List Char) : Nat → List Char → List Char → List Char
  | _, done, [] => done.reverse
  | skip + 1, done, _ :: cs => replaceFrom old new skip done cs
  | 0, done, c :: cs =>
    if old.isPrefixOf (c :: cs) then
      replaceFrom old new (old.length - 1) (new.reverse ++ done) cs
    else replaceFrom old new 0 (c :: done) cs

/-- `cs` with each occurrence of `old`, which is not empty, replaced by `new`. -/
def replace (old new cs : List Char) : List Char :=
  replaceFrom old new 0 [] cs

/-- Whether `sub` occurs in `cs`. -/
def contains (sub : List Char) : List Char → Bool
  | [] => sub.isEmpty
  | c :: cs => sub.isPrefixOf (c :: cs) || contains sub cs

end LineQuery.Text
