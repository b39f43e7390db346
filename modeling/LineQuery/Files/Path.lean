import LineQuery.Text.Search

/-!
# Paths

Where a file or folder stands is the list of names on the way to it from the root. What is
written is a text: names with slashes between them, of which a point stays and two points go
back. Only a disk knows where a written path leads.
-/

namespace LineQuery.Files

/-- The names on the way from the root of a disk. -/
abbrev Path := List String

namespace Written

/-- The names in a written path. -/
def names (text : String) : List String :=
  ((Text.split ['/'] text.toList).map String.ofList).filter fun name => !name.isEmpty

def isAbsolute (text : String) : Bool :=
  text.startsWith "/"

def endsInSlash (text : String) : Bool :=
  text.endsWith "/"

/-- The names in a written path that count as parts of it: a point counts only at the
front. -/
def parts (text : String) : List String :=
  let ns := names text
  if isAbsolute text then ns.filter (· ≠ ".") else ns.take 1 ++ (ns.drop 1).filter (· ≠ ".")

/-- A path with parts, as it is written. -/
def ofParts (absolute : Bool) (parts : List String) : String :=
  (if absolute then "/" else "") ++ "/".intercalate parts

/-- A written path and those of the folders above it, from the path itself up to the last
that has a part. -/
def upward (text : String) : List String :=
  let ps := parts text
  let above := (List.range ps.length).map fun i => ofParts (isAbsolute text) (ps.take i)
  text :: (above.reverse.filter fun written => !written.isEmpty)

/-- A name inside a folder. -/
def within (folder name : String) : String :=
  if folder.isEmpty || endsInSlash folder then folder ++ name else folder ++ "/" ++ name

def lastName (text : String) : String :=
  (names text).getLast?.getD text

end Written

end LineQuery.Files
