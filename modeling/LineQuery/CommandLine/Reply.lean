import LineQuery.Text.Utf8

/-!
# Replies

What a program gives back to its caller: what it wrote to its two streams, and a status.
-/

namespace LineQuery.CommandLine

open LineQuery.Text (Bytes encodeUtf8)

/-- How an invocation ended. -/
inductive Status where
  | success
  /-- The query failed while it ran, or its input, its workers or the store did. -/
  | failure
  /-- The arguments or the settings cannot be used. -/
  | usage
  /-- The query does not compile. -/
  | query
deriving DecidableEq, Repr

def Status.code : Status → Nat
  | success => 0
  | failure => 1
  | usage => 2
  | query => 3

/-- How an invocation ended and what it wrote. -/
structure Reply where
  status : Status
  stdout : Bytes := []
  stderr : Bytes := []
deriving DecidableEq, Repr

namespace Reply

def error (status : Status) (message : String) : Reply :=
  { status, stderr := encodeUtf8 ("error: " ++ message ++ "\n") }

/-- An invocation that writes one text. -/
def saying (text : String) : Reply :=
  { status := .success, stdout := encodeUtf8 text }

/-- The reply with texts before what it wrote to the streams. -/
def after (r : Reply) (stdout stderr : String) : Reply :=
  { r with stdout := encodeUtf8 stdout ++ r.stdout, stderr := encodeUtf8 stderr ++ r.stderr }

end Reply

end LineQuery.CommandLine
