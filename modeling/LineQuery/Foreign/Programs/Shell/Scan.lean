import LineQuery.Foreign.Programs.Shell.Operator
import LineQuery.Text.Decimal

/-!
# Words of shell scripts, as they are written

Quotes, dollar signs and backquotes are read into the parts of a word. A script between brackets
is passed over word by word, since a bracket in a quotation, a comment, a pattern or the text of
a redirection does not close it. A reader knows the line that it has come to. Each takes a bound
on the number of characters.
-/

namespace LineQuery.Shell

/-- A place in a script: what is left of it, and the line. -/
structure Cursor where
  rest : List Char
  line : Nat
deriving DecidableEq, Repr

/-- Reads something off the front of a script. -/
abbrev Scan := StateT Cursor (Except SyntaxError)

namespace Scan

def fail (message : String) : Scan α := fun c =>
  .error ⟨c.line, message⟩

/-- The next character, if there is one; it stays. A line that a backslash goes on in the next
one is one line. -/
def peek? : Scan (Option Char) := fun c =>
  let rec skip (line : Nat) : List Char → Cursor
    | '\\' :: '\n' :: cs => skip (line + 1) cs
    | cs => ⟨cs, line⟩
  let c := skip c.line c.rest
  .ok (c.rest.head?, c)

def advance : Scan Unit :=
  modify fun c =>
    match c.rest with
    | '\n' :: cs => ⟨cs, c.line + 1⟩
    | _ :: cs => ⟨cs, c.line⟩
    | [] => c

def next? : Scan (Option Char) := do
  let c := (← get).rest.head?
  advance
  return c

/-- The characters that satisfy a test. -/
def takeWhile (p : Char → Bool) : Scan String := fun c =>
  .ok (String.ofList (c.rest.takeWhile p), { c with rest := c.rest.dropWhile p })

end Scan

/-! ## Characters -/

/-- Whether `c` separates words in a line. -/
def isGap (c : Char) : Bool :=
  c == ' ' || c == '\t'

/-- Whether `c` ends a word. -/
def endsWord (c : Char) : Bool :=
  isGap c || c == '\n' || c == ';' || c == '&' || c == '|' || c == '(' || c == ')' || c == '<' ||
    c == '>'

/-- Whether `c` alone is the name of a parameter. -/
def isSpecial (c : Char) : Bool :=
  c == '?' || c == '$' || c == '#' || c == '@' || c == '*' || c == '!' || c == '-' || Text.isDigit c

/-- What a text between quotes is read for, which decides what a backslash may stand before. -/
inductive Quoting where
  /-- No quotes. -/
  | none
  /-- Double quotes. -/
  | double
  /-- The text of a redirection. -/
  | text
  /-- An arithmetic expression. -/
  | formula
deriving DecidableEq, Repr

/-- Whether a backslash before `c` makes it stand for itself between quotes. -/
def Quoting.escapes (q : Quoting) (c : Char) : Bool :=
  c == '\\' || c == '$' || c == '`' || (c == '"' && q != .text)

/-! ## Texts up to a mark -/

/-- Reads up to a single quote and passes over it. -/
def readSingleQuoted : (count : Nat) → Scan (List Char)
  | 0 => Scan.fail "Unterminated quoted string"
  | count + 1 => do
    match ← Scan.next? with
    | none => Scan.fail "Unterminated quoted string"
    | some '\'' => return []
    | some c => return c :: (← readSingleQuoted count)

/-- Reads up to a backquote and passes over it. A backslash is left out before a character that
it makes stand for itself. -/
def readBackquoted (inDouble : Bool) : (count : Nat) → Scan (List Char)
  | 0 => Scan.fail "EOF in backquote substitution"
  | count + 1 => do
    match ← Scan.next? with
    | none => Scan.fail "EOF in backquote substitution"
    | some '`' => return []
    | some '\\' => do
      match (← get).rest.head? with
      | some c =>
        Scan.advance
        let more ← readBackquoted inDouble count
        if c = '\n' then return more
        else if c = '\\' ∨ c = '$' ∨ c = '`' ∨ (c = '"' ∧ inDouble) then return c :: more
        else return '\\' :: c :: more
      | none => return '\\' :: (← readBackquoted inDouble count)
    | some c => return c :: (← readBackquoted inDouble count)

/-! ## Between words -/

/-- Passes over `count` characters. -/
def skipChars (count : Nat) : Scan Unit :=
  modify fun c => { c with rest := c.rest.drop count }

/-- Passes over blanks and comments. -/
def skipGaps : (count : Nat) → Scan Unit
  | 0 => return
  | count + 1 => do
    match ← Scan.peek? with
    | some '#' => modify fun c => { c with rest := c.rest.dropWhile (· ≠ '\n') }
    | some c =>
      if isGap c then
        Scan.advance
        skipGaps count
    | none => return

/-- Reads what is no word; nothing if a word comes. -/
def readMark? : Scan (Option TokenKind) := do
  skipGaps ((← get).rest.length + 1)
  match (← get).rest with
  | [] => return some .ending
  | '\n' :: _ =>
    Scan.advance
    return some .newline
  | c :: cs =>
    match operator? (c :: cs), redirectMark? (c :: cs), redirectMark? cs with
    | some (o, size), _, _ =>
      skipChars size
      return some (.operator o)
    | none, some (mark, size), _ =>
      skipChars size
      return some (.redirection none mark)
    | none, none, some (mark, size) =>
      if Text.isDigit c then
        skipChars (size + 1)
        return some (.redirection (some (c.toNat - '0'.toNat)) mark)
      else return none
    | none, none, none => return none

/-! ## Texts of redirections -/

/-- A text that has been announced: the line that ends it, and how it is read. -/
structure Announced where
  stop : String
  dropsTabs : Bool
  quoted : Bool

/-- The text of a part of the word that announces a text. -/
def WordPart.announcedText : WordPart → String
  | literal text _ => text
  | .variable name _ => "$" ++ name
  | _ => ""

/-- The text that a word announces. -/
def Announced.ofWord (dropsTabs : Bool) (w : Word) : Announced :=
  ⟨String.join (w.map WordPart.announcedText), dropsTabs, w.any WordPart.isQuoted⟩

/-- The lines up to the one that ends a text, and what is left behind that. -/
def Announced.split (a : Announced) : (count : Nat) → Cursor → List Char × Cursor
  | 0, c => ([], c)
  | count + 1, c =>
    if c.rest.isEmpty then ([], c)
    else
      let taken := c.rest.takeWhile (· ≠ '\n')
      let hasEnd := taken.length < c.rest.length
      let after : Cursor := ⟨c.rest.drop (taken.length + 1), if hasEnd then c.line + 1 else c.line⟩
      let line := if a.dropsTabs then taken.dropWhile (· = '\t') else taken
      if String.ofList line = a.stop then ([], after)
      else
        let (more, after) := a.split count after
        (line ++ (if hasEnd then ['\n'] else []) ++ more, after)

/-- Passes over a text that has been announced. -/
def Announced.pass (a : Announced) : Scan Unit :=
  modify fun c => (a.split (c.rest.length + 1) c).2

/-! ## Scripts between brackets -/

/-- What a place in a script is within: brackets, or one of the parts of a choice by patterns. A
closing bracket behind patterns need not have been opened. -/
inductive Surrounding where
  | brackets
  | subject
  | patterns
  | branch
deriving DecidableEq, Repr

/-- What a script between brackets is read with: what the place is within, the innermost first,
whether a command may start, the mark before the next word, and the texts that have been
announced in the line. -/
structure Nesting where
  within : List Surrounding := []
  startsCommand : Bool := true
  mark : Option RedirectMark := none
  waiting : List Announced := []

namespace Nesting

/-- The words behind which a command may start. -/
def leadingWords : List String :=
  ["!", "\x7b", "\x7d", "do", "done", "elif", "else", "fi", "if", "then", "until", "while"]

/-- The nesting behind a word. -/
def pastWord (n : Nesting) (w : Word) : Nesting :=
  match n.mark with
  | some (.here dropsTabs) =>
    { n with mark := none, waiting := n.waiting ++ [Announced.ofWord dropsTabs w] }
  | some _ => { n with mark := none }
  | none =>
    match plainText? w, n.within, n.startsCommand with
    | some "in", .subject :: outer, _ =>
      { n with within := .patterns :: outer, startsCommand := true }
    | some "esac", .patterns :: outer, true => { n with within := outer }
    | _, .patterns :: _, _ => { n with startsCommand := false }
    | some "esac", .branch :: outer, true => { n with within := outer }
    | some "case", within, true => { n with within := .subject :: within, startsCommand := false }
    | some text, _, true => { n with startsCommand := leadingWords.contains text }
    | _, _, _ => { n with startsCommand := false }

/-- The nesting behind an operator; nothing if that is the bracket that closes the script. -/
def pastOperator? (n : Nesting) (o : Operator) : Option Nesting :=
  let behind := fun (within : List Surrounding) (startsCommand : Bool) =>
    some { n with within, startsCommand }
  match o, n.within with
  | .rightParen, .brackets :: outer => behind outer true
  | .rightParen, .patterns :: outer => behind (.branch :: outer) true
  | .rightParen, _ => none
  | .doubleSemicolon, .branch :: outer => behind (.patterns :: outer) true
  | _, .patterns :: outer => behind (.patterns :: outer) false
  | .leftParen, within => behind (.brackets :: within) true
  | _, within => behind within true

end Nesting

/-! ## Parts of words -/

/-- The modifier that comes next, if there is one. -/
def readModifier? : Scan (Option Modifier) := do
  let simple := fun (orEmpty : Bool) (c : Char) =>
    match c with
    | '-' => some (Modifier.fallback orEmpty)
    | '=' => some (.assign orEmpty)
    | '+' => some (.instead orEmpty)
    | '?' => some (.require orEmpty)
    | _ => none
  match ← Scan.peek? with
  | some ':' =>
    Scan.advance
    match (← Scan.peek?).bind (simple true) with
    | some how =>
      Scan.advance
      return some how
    | none => return none
  | some c =>
    if c = '#' ∨ c = '%' then
      Scan.advance
      let longest := (← Scan.peek?) = some c
      if longest then Scan.advance
      return some (if c = '#' then .dropFront longest else .dropEnd longest)
    else
      match simple false c with
      | some how =>
        Scan.advance
        return some how
      | none => return none
  | none => return none

/-- Reads the name of a variable or a parameter; `many` says whether its number may have more
than one digit. -/
def readVariableName? (many : Bool) : Scan (Option String) := do
  match ← Scan.peek? with
  | some c =>
    if isNameStart c then return some (← Scan.takeWhile isNamePart)
    else if Text.isDigit c && many then return some (← Scan.takeWhile Text.isDigit)
    else if isSpecial c then
      Scan.advance
      return some (String.singleton c)
    else return none
  | none => return none

/-- Whether the length of a parameter is asked for, once a number sign has been read. -/
def asksLength (rest : List Char) : Bool :=
  match rest with
  | c :: '\x7d' :: _ => isNamePart c || isSpecial c
  | c :: _ => isNamePart c
  | [] => false

mutual

/-- Reads the parts of a word up to what ends it. Between braces that is the closing one, which
is passed over; between double quotes the closing quote, which is passed over too; in a formula
a closing bracket that none opens; anywhere else a blank or an operator. Double quotes leave an
empty text, which is a field, except around nothing but all parameters. -/
def readParts (q : Quoting) (inBraces : Bool) : (count : Nat) → (depth : Nat) → Scan Word
  | 0, _ => return []
  | count + 1, depth => do
    match ← Scan.peek? with
    | none =>
      if inBraces then Scan.fail "Missing '\x7d'"
      else
        match q with
        | .double => Scan.fail "Unterminated quoted string"
        | .formula => Scan.fail "Missing '))'"
        | .none | .text => return []
    | some c =>
      let before := fun (part : WordPart) (depth : Nat) => do
        return part :: (← readParts q inBraces count depth)
      if inBraces && c = '\x7d' then
        Scan.advance
        return []
      else if q = .double && !inBraces && c = '"' then
        Scan.advance
        return []
      else if q = .none && !inBraces && endsWord c then return []
      else if q = .formula && c = ')' && depth = 0 then return []
      else
        Scan.advance
        if c = '\\' then
          match (← get).rest.head? with
          | none => before (.literal "\\" (q != .none)) depth
          | some d =>
            if q = .none then
              Scan.advance
              before (.literal (String.singleton d) true) depth
            else if q.escapes d || (inBraces && d = '\x7d') then
              Scan.advance
              before (.literal (String.singleton d) true) depth
            else before (.literal "\\" true) depth
        else if c = '\'' && q = .none then
          let text ← readSingleQuoted (count + 1)
          before (.literal (String.ofList text) true) depth
        else if c = '"' && (q = .none || inBraces) then
          let quoted ← readParts .double false count 0
          let rest ← readParts q inBraces count depth
          match quoted with
          | [.variable "@" true] => return quoted ++ rest
          | _ => return .literal "" true :: quoted ++ rest
        else if c = '`' then
          let text ← readBackquoted (q = .double) (count + 1)
          before (.output .backquotes (String.ofList text) (q != .none)) depth
        else if c = '$' then before (← readDollar q count) depth
        else
          let depth := if c = '(' then depth + 1 else if c = ')' then depth - 1 else depth
          before (.literal (String.singleton c) (q != .none)) depth

/-- Reads what a dollar sign starts. -/
def readDollar (q : Quoting) : (count : Nat) → Scan WordPart
  | 0 => return .literal "$" true
  | count + 1 => do
    let quoted := q != .none
    match ← Scan.peek? with
    | some '(' =>
      Scan.advance
      if (← Scan.peek?) = some '(' then
        Scan.advance
        let expr ← readParts .formula false count 0
        Scan.advance
        if (← Scan.peek?) = some ')' then
          Scan.advance
          return .arithmetic expr
        else Scan.fail "Missing '))'"
      else
        let start ← get
        readBracketed {} count
        let size := start.rest.length - (← get).rest.length - 1
        let text := String.ofList (start.rest.take size)
        return .output (.brackets start.line) text quoted
    | some '\x7b' =>
      Scan.advance
      readBraced q count
    | _ =>
      match ← readVariableName? false with
      | some name => return .variable name quoted
      | none => return .literal "$" quoted

/-- Reads a script up to the bracket that closes it, and passes over that. -/
def readBracketed (n : Nesting) : (count : Nat) → Scan Unit
  | 0 => Scan.fail "end of file unexpected (expecting \")\")"
  | count + 1 => do
    match ← readMark? with
    | none => readBracketed (n.pastWord (← readParts .none false count 0)) count
    | some .newline =>
      n.waiting.forM Announced.pass
      readBracketed { n with startsCommand := true, waiting := [] } count
    | some (.redirection _ mark) => readBracketed { n with mark := some mark } count
    | some (.operator o) =>
      match n.pastOperator? o with
      | none => return
      | some n => readBracketed n count
    | some _ => Scan.fail "end of file unexpected (expecting \")\")"

/-- Reads a variable in braces behind the opening one. -/
def readBraced (q : Quoting) : (count : Nat) → Scan WordPart
  | 0 => Scan.fail "Missing '\x7d'"
  | count + 1 => do
    let quoted := q != .none
    let malformed : Scan WordPart := do
      let _ ← readParts q true count 0
      return .malformed
    let wantsLength := (← Scan.peek?) = some '#' && asksLength ((← get).rest.drop 1)
    if wantsLength then Scan.advance
    match ← readVariableName? true with
    | none => malformed
    | some name =>
      if (← Scan.peek?) = some '\x7d' then
        Scan.advance
        return if wantsLength then .length name else .variable name quoted
      else if wantsLength then malformed
      else
        match ← readModifier? with
        | none => malformed
        | some how =>
          let inner : Quoting :=
            match how with
            | .dropFront _ | .dropEnd _ => .none
            | _ => if q = .formula then .double else q
          return .modified name how (← readParts inner true count 0) quoted

end

/-- Reads the parts of a word. -/
def readWordParts : Scan Word := do
  readParts .none false ((← get).rest.length + 1) 0

/-- The parts of a text that is read as between quotes, and that starts in a line. -/
def textParts (line : Nat) (text : String) : Except SyntaxError Word :=
  ((readParts .text false (text.length + 1) 0).run ⟨text.toList, line⟩).map (·.1)

end LineQuery.Shell
