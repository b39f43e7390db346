import LineQuery.Text.Utf8

/-!
# Lines

A line ends at a line feed; one carriage return directly before the line feed
belongs to the line end. What follows the last line feed is a line of its own
unless it is empty, and keeps a carriage return at its end. The rule is the
same for characters and for bytes, so both share one definition. Bytes are cut
into lines before they are decoded, each line by itself, so that a malformed
piece never takes in a line end.
-/

namespace LineQuery.Text

variable {α : Type} [DecidableEq α]

/-- A line read backwards, without the carriage return that ended it. -/
def dropReturn (cr : α) : List α → List α
  | [] => []
  | c :: line => if c = cr then line else c :: line

/-- The lines of `line.reverse ++ xs`, where `line` holds no line feed. -/
def splitLinesFrom (nl cr : α) (line : List α) : List α → List (List α)
  | [] => if line.isEmpty then [] else [line.reverse]
  | x :: xs =>
    if x = nl then (dropReturn cr line).reverse :: splitLinesFrom nl cr [] xs
    else splitLinesFrom nl cr (x :: line) xs

/-- The lines of `xs`, where `nl` is the line feed and `cr` the carriage return. -/
def splitLines (nl cr : α) (xs : List α) : List (List α) :=
  splitLinesFrom nl cr [] xs

def lines (s : String) : List String :=
  (splitLines '\n' '\r' s.toList).map String.ofList

/-- The lines of a byte string. -/
def byteLines (bytes : List UInt8) : List (List UInt8) :=
  splitLines 10 13 bytes

/-- The lines of a byte string, each malformed piece replaced by U+FFFD. -/
def lossyLines (bytes : Bytes) : List String :=
  (byteLines bytes).map decodeLossy

end LineQuery.Text
