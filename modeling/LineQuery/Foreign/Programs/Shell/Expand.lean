import LineQuery.Foreign.Programs.Shell.Fields
import LineQuery.Foreign.Programs.Shell.Scan
import LineQuery.Foreign.Programs.Shell.Variables

/-!
# Words of shell scripts

What a script calls a word stands for any number of fields: variables, the output of scripts
and arithmetic are replaced by their values, values without quotes are cut, and patterns find
files. Running a script for its output is a parameter here.
-/

namespace LineQuery.Shell

open LineQuery.Text (Bytes encodeUtf8 decodeLossy natText)

/-! ## Home folders -/

/-- The folder that a tilde before a name stands for. -/
def homeOf? (m : Memory) (user : String) : Option String :=
  if user.isEmpty then (m.value? "HOME").map decodeLossy
  else if user = "root" then some "/root"
  else none

/-- The letters without quotes at the front of a word, up to a character that ends the name of a
user. -/
def readUser (assigns : Bool) : Word → Option (List Char)
  | [] => some []
  | part :: w =>
    match part.plainText?.map String.toList with
    | some [c] =>
      if c = '/' || (assigns && c = ':') then some []
      else (readUser assigns w).map (c :: ·)
    | _ => none

/-- The home folder that a tilde at the front of a word stands for, and how many parts behind the
tilde are the name of its user. -/
def homeAtFront? (m : Memory) (assigns : Bool) : Word → Option (String × Nat)
  | [] => none
  | part :: w =>
    if part.plainText? = some "~" then do
      let user ← readUser assigns w
      return (← homeOf? m (String.ofList user), user.length)
    else none

/-! ## Parts -/

/-- Bytes without the line feeds at their end. -/
def dropFinalNewlines (bs : Bytes) : Bytes :=
  (bs.reverse.dropWhile (· == 10)).reverse

/-- The value that takes the place of a name. Where fields are wanted, all parameters are fields
of their own: zero bytes, which no value holds, stand between them. -/
def placedValue (splits : Bool) (name : String) (quoted : Bool) : InShell Bytes := do
  if splits && (name = "@" || (name = "*" && !quoted)) then
    return [0].intercalate (← memory).params
  else valueOf name

/-- The atoms of a variable or a parameter. -/
def variableAtoms (splits : Bool) (name : String) (quoted : Bool) : InShell (List Atom) := do
  let atoms := valueAtoms quoted (← placedValue splits name quoted)
  if name = "@" && quoted && !(← memory).params.isEmpty then return .quotes :: atoms
  else return atoms

/-- Whether a variable has a value that a modifier takes as one. -/
def hasValue (splits : Bool) (name : String) (quoted orEmpty : Bool) : InShell Bool := do
  if ((← memory).lookup? name).isNone then return false
  else return !(orEmpty && (← placedValue splits name quoted).isEmpty)

/-- The text of atoms. -/
def textOfAtoms (atoms : List Atom) : String :=
  decodeLossy (plainBytes (bytesOfAtoms atoms))

/-- What a word is expanded for: fields or one value, and the value of an assignment or not. In
the word of a modifier, text that is not quoted can be cut. -/
structure Purpose where
  splits : Bool := false
  assigns : Bool := false
  inModifier : Bool := false

/-- How the script in a word gives its output. -/
abbrev Capture := Enclosure → String → InShell Bytes

mutual

/-- The atoms of a part of a word. -/
def expandPart (capture : Capture) (use : Purpose) : WordPart → InShell (List Atom)
  | .literal text quoted =>
    let mark : Mark := if quoted then .quoted else if use.inModifier then .value else .written
    return if quoted && text.isEmpty then [.quotes] else atomsOf mark (encodeUtf8 text)
  | .variable name quoted => variableAtoms use.splits name quoted
  | .length name => do
    return atomsOf .quoted (encodeUtf8 (natText (← valueOf name).length))
  | .malformed => giveUp "Bad substitution"
  | .output within script quoted => do
    return valueAtoms quoted (dropFinalNewlines (← capture within script))
  | .arithmetic expr => do
    let text := textOfAtoms (← expandParts capture {} true 0 expr)
    return atomsOf .quoted (encodeUtf8 (Text.intText (← evaluate text).toInt))
  | .modified name how word quoted => do
    let inner : Purpose := { use with inModifier := use.inModifier || !quoted }
    match how with
    | .fallback orEmpty =>
      if ← hasValue use.splits name quoted orEmpty then variableAtoms use.splits name quoted
      else expandParts capture inner true 0 word
    | .instead orEmpty =>
      if ← hasValue use.splits name quoted orEmpty then expandParts capture inner true 0 word
      else return []
    | .assign orEmpty =>
      if ← hasValue use.splits name quoted orEmpty then variableAtoms use.splits name quoted
      else
        let v := plainBytes (bytesOfAtoms (← expandParts capture {} true 0 word))
        assignNamed name v
        return valueAtoms quoted v
    | .require orEmpty =>
      if ← hasValue use.splits name quoted orEmpty then variableAtoms use.splits name quoted
      else
        let said := textOfAtoms (← expandParts capture {} true 0 word)
        let unsaid := "parameter not set" ++ (if orEmpty then " or null" else "")
        giveUp (name ++ ": " ++ (if word.isEmpty then unsaid else said))
    | .dropFront longest =>
      let v ← placedValue use.splits name quoted
      let p := Pattern.ofBytes (bytesOfAtoms (← expandParts capture {} true 0 word))
      return valueAtoms quoted (p.dropFront longest v)
    | .dropEnd longest =>
      let v ← placedValue use.splits name quoted
      let p := Pattern.ofBytes (bytesOfAtoms (← expandParts capture {} true 0 word))
      return valueAtoms quoted (p.dropEnd longest v)

/-- The atoms of the parts of a word behind the first `skipped` ones. A tilde stands for a home
folder where a path may start: at the front, or behind a colon if the word is assigned. -/
def expandParts (capture : Capture) (use : Purpose) (atFront : Bool) (skipped : Nat) :
    List WordPart → InShell (List Atom)
  | [] => return []
  | part :: parts => do
    if 0 < skipped then expandParts capture use atFront (skipped - 1) parts
    else
      let m ← memory
      match if atFront then homeAtFront? m use.assigns (part :: parts) else none with
      | some (home, size) =>
        let first := atomsOf .quoted (encodeUtf8 home)
        return first ++ (← expandParts capture use false size parts)
      | none =>
        let first ← expandPart capture use part
        let startsPath := use.assigns && part.plainText? = some ":"
        return first ++ (← expandParts capture use startsPath 0 parts)

end

/-! ## Words -/

/-- The fields of a word. -/
def expandWord (capture : Capture) (w : Word) : InShell (List Bytes) := do
  let atoms ← expandParts capture { splits := true } true 0 w
  let s ← get
  let fields := splitAtoms s.memory.separators {} atoms
  if s.memory.isOn 'f' then return fields.map plainBytes
  else return fields.flatMap (filesMatching s.world.disk s.memory.folder)

/-- The fields of words. -/
def expandWords (capture : Capture) (ws : List Word) : InShell (List Bytes) :=
  return (← ws.mapM (expandWord capture)).flatten

/-- The bytes of a word that is not cut. -/
def expandBytes (capture : Capture) (w : Word) : InShell (List MarkedByte) :=
  return bytesOfAtoms (← expandParts capture {} true 0 w)

/-- The value of a word that is not cut. -/
def expandValue (capture : Capture) (w : Word) : InShell Bytes :=
  return plainBytes (← expandBytes capture w)

/-- The value that an assignment gives. -/
def expandAssigned (capture : Capture) (w : Word) : InShell Bytes :=
  return plainBytes (bytesOfAtoms (← expandParts capture { assigns := true } true 0 w))

/-- Whether one of several patterns stands for a value. -/
def coveredByAny (capture : Capture) (v : Bytes) :
    List Word → InShell Bool
  | [] => return false
  | w :: ws => do
    if (Pattern.ofBytes (← expandBytes capture w)).covers v then return true
    else coveredByAny capture v ws

end LineQuery.Shell
