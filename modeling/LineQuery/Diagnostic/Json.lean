import LineQuery.Diagnostic.Basic
import LineQuery.Digest.Hex
import LineQuery.Script.Program

/-!
# Diagnostics for programs

One JSON object a finding, its fields in the order of their names. The line is the user's,
or null for what lies outside the user's lines. In a string, quotes, backslashes and control
characters are escaped, all else stands for itself.
-/

namespace LineQuery.Text

/-- How `c` is written inside a JSON string. -/
def jsonChar (c : Char) : List Char :=
  if c = '"' then ['\\', '"']
  else if c = '\\' then ['\\', '\\']
  else if c = '\n' then ['\\', 'n']
  else if c = '\r' then ['\\', 'r']
  else if c = '\t' then ['\\', 't']
  else if c = '\x08' then ['\\', 'b']
  else if c = '\x0c' then ['\\', 'f']
  else if c.toNat < 0x20 then ['\\', 'u', '0', '0'] ++ Digest.hexByte (UInt8.ofNat c.toNat)
  else [c]

def jsonString (s : String) : String :=
  "\"" ++ String.ofList (s.toList.flatMap jsonChar) ++ "\""

/-- `items`, each written already, as a JSON array. -/
def jsonArray (items : List String) : String :=
  "[" ++ ",".intercalate items ++ "]"

/-- Named items, each written already, as a JSON object. -/
def jsonObject (fields : List (String × String)) : String :=
  "\x7b" ++ ",".intercalate (fields.map fun f => jsonString f.1 ++ ":" ++ f.2) ++ "\x7d"

end LineQuery.Text

namespace LineQuery.Diagnostic

open LineQuery.Text (natText jsonString jsonArray jsonObject)

def severityName : Severity → String
  | .error => "Error"
  | .warning => "Warning"

/-- The JSON object of a finding about a program. -/
def toJson (p : Program) (d : Diagnostic) : String :=
  let line :=
    match p.userLines.find? d.position.line with
    | some k => natText (k + 1)
    | none => "null"
  jsonObject
    [("assembled_line", natText d.position.line), ("code", jsonString d.code.label),
      ("column", natText d.position.column), ("help", jsonArray (d.help.map jsonString)),
      ("line", line), ("message", jsonString d.message),
      ("notes", jsonArray (d.notes.map jsonString)),
      ("severity", jsonString (severityName d.severity))]

end LineQuery.Diagnostic
