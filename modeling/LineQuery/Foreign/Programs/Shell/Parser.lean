import LineQuery.Foreign.Programs.Shell.Token

/-!
# Parsing shell scripts

Commands from the tokens of a script, each up to the end of a line. A word has a meaning of its
own where a command may start. Each rule takes a bound on the depth of the commands that it
reads; the number of tokens is bound enough.
-/

namespace LineQuery.Shell

/-! ## Reserved words -/

inductive Keyword where
  | not
  | opening
  | closing
  | ifWord
  | thenWord
  | elifWord
  | elseWord
  | fiWord
  | whileWord
  | untilWord
  | forWord
  | inWord
  | doWord
  | doneWord
  | caseWord
  | esacWord
deriving DecidableEq, Repr

namespace Keyword

/-- All words with a meaning, as they are written. -/
def table : List (String × Keyword) :=
  [("!", not), ("\x7b", opening), ("\x7d", closing), ("if", ifWord), ("then", thenWord),
    ("elif", elifWord), ("else", elseWord), ("fi", fiWord), ("while", whileWord),
    ("until", untilWord), ("for", forWord), ("in", inWord), ("do", doWord), ("done", doneWord),
    ("case", caseWord), ("esac", esacWord)]

/-- The keyword that is written as `text`. -/
def ofText? (text : String) : Option Keyword :=
  table.lookup text

def text (k : Keyword) : String :=
  ((table.find? fun entry => entry.2 = k).map (·.1)).getD ""

def endsList : Keyword → Bool
  | doWord | doneWord | elifWord | elseWord | esacWord | fiWord | thenWord | closing => true
  | _ => false

end Keyword

def Operator.text : Operator → String
  | semicolon => ";"
  | doubleSemicolon => ";;"
  | background => "&"
  | both => "&&"
  | either => "||"
  | pipe => "|"
  | leftParen => "("
  | rightParen => ")"

/-! ## Lexemes -/

/-- A token as it is understood where it stands. -/
inductive Lexeme where
  | word (w : Word)
  | keyword (k : Keyword)
  | redirection (descriptor : Option Nat) (mark : RedirectMark)
  | operator (o : Operator)
  | newline
  | ending
deriving Repr

namespace Lexeme

def label : Lexeme → String
  | word _ => "word"
  | keyword k => "\"" ++ k.text ++ "\""
  | redirection _ _ => "redirection"
  | operator o => "\"" ++ o.text ++ "\""
  | newline => "newline"
  | ending => "end of file"

def isOperator (l : Lexeme) (o : Operator) : Bool :=
  match l with
  | operator p => o = p
  | _ => false

def isKeyword (l : Lexeme) (k : Keyword) : Bool :=
  match l with
  | keyword j => k = j
  | _ => false

def endsList : Lexeme → Bool
  | ending => true
  | keyword k => k.endsList
  | operator o => o = .rightParen || o = .doubleSemicolon
  | _ => false

end Lexeme

/-- The tokens that are left, the texts of redirections that are left, the lexeme that was read
last and whether it is to be read again, the line that has been come to, whether a closing
bracket stands at the end, the aliases, and what is wrong with the scripts in a word. -/
structure Parsing where
  tokens : List Token
  texts : List Word
  last : Lexeme := .newline
  again : Bool := false
  line : Nat
  bracketed : Bool := false
  aliases : Aliases := []
  errorIn? : Aliases → Word → Option SyntaxError

/-- Reads something off the front of the tokens. -/
abbrev Parser := StateT Parsing (Except SyntaxError)

namespace Parser

def fail (message : String) : Parser α := fun p =>
  .error ⟨p.line, message⟩

/-- Gives up on the lexeme that was read last, where others were expected. -/
def unexpected (expected : Option String) : Parser α := do
  let p ← get
  let label :=
    match p.last with
    | .ending => if p.bracketed then (Lexeme.operator .rightParen).label else p.last.label
    | l => l.label
  let found := label ++ " unexpected"
  match expected with
  | some label => fail (found ++ " (expecting " ++ label ++ ")")
  | none => fail found

/-- Gives up on a word with a script in it that cannot be read. -/
def checkScripts (w : Word) : Parser Unit := do
  let p ← get
  match p.errorIn? p.aliases w with
  | some e => throw e
  | none => return

/-- The tokens that take the place of a word that is an alias, before those behind it. Within its
own text an alias is a word. -/
def openAlias? (aliases : Aliases) (t : Token) (w : Word) (later : List Token) :
    Option (List Token) := do
  let name ← plainText? w
  let text ← if t.aliases.contains name then none else aliases.lookup name
  let own := (tokensOf t.line text).tokens.dropLast.map fun u =>
    { u with aliases := name :: t.aliases }
  match text.toList.getLast?.any isGap, later with
  | true, next :: later => return own ++ { next with invited := true } :: later
  | _, later => return own ++ later

/-- Reads the next token; the last one stays. `mayBeAlias` says which words may be
aliases. -/
def nextKind (newlines : Bool) (mayBeAlias : Word → Bool) : (count : Nat) → Parser TokenKind
  | 0 => return .ending
  | count + 1 => do
    match (← get).tokens with
    | [] => return .ending
    | t :: ts =>
      match t.kind with
      | .ending =>
        modify fun p => { p with line := t.line }
        return .ending
      | .newline =>
        modify fun p => { p with tokens := ts, line := t.line }
        if newlines then nextKind newlines mayBeAlias count else return .newline
      | .word w =>
        modify fun p => { p with tokens := ts, line := t.line }
        let aliases := (← get).aliases
        match if t.invited || mayBeAlias w then openAlias? aliases t w ts else none with
        | some tokens =>
          modify fun p => { p with tokens }
          nextKind newlines mayBeAlias count
        | none =>
          checkScripts w
          return .word w
      | kind =>
        modify fun p => { p with tokens := ts, line := t.line }
        return kind

/-- Reads the next lexeme, over line ends or not, with keywords or not, and with aliases or not. A
lexeme that is read again is what it was, unless it was a word and may be a keyword now. -/
def next (newlines keywords : Bool) (aliases : Bool := keywords) : Parser Lexeme := do
  let p ← get
  let keyword? := fun (w : Word) =>
    if keywords then (plainText? w).bind Keyword.ofText? else none
  let understood := fun (w : Word) =>
    match keyword? w with
    | some k => Lexeme.keyword k
    | none => .word w
  let mayBeAlias := fun (w : Word) => aliases && (keyword? w).isNone
  let found ←
    match p.again, p.last with
    | true, .word w => pure (understood w)
    | true, .newline =>
      if newlines then
        set { p with again := false }
        lexeme understood mayBeAlias
      else pure .newline
    | true, last => pure last
    | false, _ => lexeme understood mayBeAlias
  modify fun p => { p with last := found, again := false }
  return found
where
  /-- The lexeme that the next token is. -/
  lexeme (understood : Word → Lexeme) (mayBeAlias : Word → Bool) : Parser Lexeme := do
    let p ← get
    let size := p.aliases.foldl (fun n a => n + a.2.length + 1) (p.tokens.length + 1)
    match ← nextKind newlines mayBeAlias size with
    | .word w => return understood w
    | .redirection descriptor mark => return .redirection descriptor mark
    | .operator o => return .operator o
    | .newline => return .newline
    | .ending => return .ending
    | .failure message => fail message

def unread : Parser Unit :=
  modify fun p => { p with again := true }

def keyword (newlines : Bool) (k : Keyword) : Parser Unit := do
  if (← next newlines true).isKeyword k then return
  else unexpected (some (Lexeme.keyword k).label)

end Parser

/-! ## Redirections -/

/-- What a word behind an ampersand redirects to. -/
def descriptorTarget (w : Word) : Parser RedirectTarget := do
  match plainText? w with
  | some text =>
    match text.toList with
    | ['-'] => return .descriptor none
    | [c] => if Text.isDigit c then return .descriptor (some (c.toNat - '0'.toNat))
             else Parser.fail "Bad fd number"
    | _ => Parser.fail "Bad fd number"
  | none => return .descriptorNamed w

def readRedirection (descriptor : Option Nat) (mark : RedirectMark) : Parser Redirection := do
  match ← Parser.next false false with
  | .word w =>
    match mark with
    | .less => return ⟨descriptor.getD 0, .file .input w⟩
    | .lessGreater => return ⟨descriptor.getD 0, .file .update w⟩
    | .greater => return ⟨descriptor.getD 1, .file .output w⟩
    | .greaterPipe => return ⟨descriptor.getD 1, .file .replace w⟩
    | .doubleGreater => return ⟨descriptor.getD 1, .file .append w⟩
    | .lessAnd => return ⟨descriptor.getD 0, ← descriptorTarget w⟩
    | .greaterAnd => return ⟨descriptor.getD 1, ← descriptorTarget w⟩
    | .here _ =>
      let p ← get
      set { p with texts := p.texts.drop 1 }
      let body := p.texts.headD []
      Parser.checkScripts body
      return ⟨descriptor.getD 0, .text body⟩
  | _ => Parser.unexpected none

/-- Reads redirections, `count` of them at most, behind which keywords have their meaning. -/
def readRedirections : (count : Nat) → Parser (List Redirection)
  | 0 => return []
  | count + 1 => do
    match ← Parser.next false true with
    | .redirection descriptor mark =>
      let r ← readRedirection descriptor mark
      return r :: (← readRedirections count)
    | _ =>
      Parser.unread
      return []

/-! ## Simple commands -/

/-- The name and the value of a word that is an assignment. -/
def assignment? (w : Word) : Option (String × Word) :=
  let rec go (name : List Char) : Word → Option (String × Word)
    | .literal text false :: parts =>
      match text.toList with
      | ['='] => if name.isEmpty then none else some (String.ofList name.reverse, parts)
      | [c] =>
        if isNameStart c || (Text.isDigit c && !name.isEmpty) then go (c :: name) parts else none
      | _ => none
    | _ => none
  go [] w

/-- What has been read of a simple command, the latest part first. -/
structure SimpleParts where
  assignments : List (String × Word) := []
  words : List Word := []
  redirections : List Redirection := []

def specialNames : List String :=
  [".", ":", "break", "continue", "eval", "exec", "exit", "export", "readonly", "return", "set",
    "shift", "times", "trap", "unset"]

/-- The parts of a simple command, of which `count` at most are left, or the name that is given
to a command. -/
def readSimpleParts (parts : SimpleParts) : (count : Nat) → Parser (SimpleParts ⊕ String)
  | 0 => return .inl parts
  | count + 1 => do
    match ← Parser.next false false parts.words.isEmpty with
    | .word w =>
      match if parts.words.isEmpty then assignment? w else none with
      | some a => readSimpleParts { parts with assignments := a :: parts.assignments } count
      | none => readSimpleParts { parts with words := w :: parts.words } count
    | .redirection descriptor mark =>
      let r ← readRedirection descriptor mark
      readSimpleParts { parts with redirections := r :: parts.redirections } count
    | .operator .leftParen =>
      match parts.words, parts.assignments.isEmpty && parts.redirections.isEmpty with
      | [w], true =>
        if (← Parser.next false false).isOperator .rightParen then
          match plainText? w with
          | some name =>
            if isName name && !specialNames.contains name then return .inr name
            else Parser.fail "Bad function name"
          | none => Parser.fail "Bad function name"
        else Parser.unexpected (some (Lexeme.operator .rightParen).label)
      | _, _ =>
        Parser.unread
        return .inl parts
    | _ =>
      Parser.unread
      return .inl parts

/-- The simple command with given parts. -/
def SimpleParts.command (parts : SimpleParts) (line : Nat) : Command :=
  .simple line parts.assignments.reverse parts.words.reverse parts.redirections.reverse

/-- A command with its redirections. -/
def redirected (line : Nat) (body : Command) (rs : List Redirection) : Command :=
  if rs.isEmpty then body
  else
    match body with
    | .subshell line body _ => .subshell line body rs
    | body => .redirect line body rs

/-- Reads words up to the end of a line or of a command, `count` of them at most. -/
def readLoopWords : (count : Nat) → Parser (List Word)
  | 0 => return []
  | count + 1 => do
    match ← Parser.next false false with
    | .word w => return w :: (← readLoopWords count)
    | .newline | .operator .semicolon => return []
    | _ => Parser.unexpected none

/-- Reads the patterns of a branch behind the first, `count` of them at most, and the bracket
behind them. -/
def readPatterns : (count : Nat) → Parser (List Word)
  | 0 => return []
  | count + 1 => do
    match ← Parser.next false false with
    | .operator .pipe =>
      match ← Parser.next false false with
      | .word w => return w :: (← readPatterns count)
      | _ => Parser.unexpected (some (Lexeme.operator .rightParen).label)
    | .operator .rightParen => return []
    | _ => Parser.unexpected (some (Lexeme.operator .rightParen).label)

/-! ## Commands -/

/-- Commands of a list that have been read, in their order. -/
def joinCommands : Option Command → Command → Command
  | none, c => c
  | some before, c => .sequence before c

mutual

/-- Reads a list of commands up to a lexeme that ends it; `mayBeEmpty` says whether that may come
at once. -/
def readList (mayBeEmpty : Bool) (done : Option Command) : (depth : Nat) → Parser Command
  | 0 => Parser.fail "out of memory"
  | depth + 1 => do
    let l ← Parser.next true true
    let bracketed := (← get).bracketed
    let isEnd :=
      match l, bracketed with
      | .ending, false => true
      | l, _ => l.endsList && (mayBeEmpty || done.isSome)
    Parser.unread
    if isEnd then return done.getD .skip
    else
      let c ← readAndOr depth
      match ← Parser.next false false with
      | .operator .background => readList true (some (joinCommands done (.background c))) depth
      | .operator .semicolon | .newline => readList true (some (joinCommands done c)) depth
      | _ =>
        Parser.unread
        return joinCommands done c

/-- Reads commands of which each is run if the one before has succeeded, or failed. -/
def readAndOr : (depth : Nat) → Parser Command
  | 0 => Parser.fail "out of memory"
  | depth + 1 => do readAndOrRest (← readPipeline false depth) depth

/-- Reads the commands behind `left`, each of which is run if those before have succeeded, or
failed. -/
def readAndOrRest (left : Command) : (depth : Nat) → Parser Command
  | 0 => Parser.fail "out of memory"
  | depth + 1 => do
    match ← Parser.next false false with
    | .operator .both =>
      readAndOrRest (.both left (← readPipeline true depth)) depth
    | .operator .either =>
      readAndOrRest (.either left (← readPipeline true depth)) depth
    | _ =>
      Parser.unread
      return left

/-- Reads commands joined by pipes, which may stand in the next line if `newlines`. -/
def readPipeline (newlines : Bool) : (depth : Nat) → Parser Command
  | 0 => Parser.fail "out of memory"
  | depth + 1 => do
    if (← Parser.next newlines true).isKeyword .not then
      let _ ← Parser.next false true
      Parser.unread
      return .negate (← readPipes depth)
    else
      Parser.unread
      readPipes depth

/-- Reads commands joined by pipes, the first of which has been looked at. -/
def readPipes : (depth : Nat) → Parser Command
  | 0 => Parser.fail "out of memory"
  | depth + 1 => do
    let left ← readCommand depth
    if (← Parser.next false false).isOperator .pipe then
      let _ ← Parser.next true true
      Parser.unread
      return .pipe left (← readPipes depth)
    else
      Parser.unread
      return left

def readCommand : (depth : Nat) → Parser Command
  | 0 => Parser.fail "out of memory"
  | depth + 1 => do
    let l ← Parser.next false false
    let line := (← get).line
    let withRedirections := fun (body : Command) => do
      return redirected line body (← readRedirections ((← get).tokens.length + 1))
    match l with
    | .word _ | .redirection _ _ =>
      Parser.unread
      match ← readSimpleParts {} ((← get).tokens.length + 2) with
      | .inl parts => return parts.command line
      | .inr name =>
        let _ ← Parser.next true true
        Parser.unread
        return .define name (← readCommand depth)
    | .operator .leftParen =>
      let body ← readList false none depth
      if (← Parser.next false true).isOperator .rightParen then
        withRedirections (.subshell line body [])
      else Parser.unexpected (some (Lexeme.operator .rightParen).label)
    | .keyword .opening =>
      let body ← readList false none depth
      Parser.keyword false .closing
      withRedirections body
    | .keyword .ifWord =>
      let body ← readChoice depth
      withRedirections body
    | .keyword .whileWord =>
      let body ← readLoop false depth
      withRedirections body
    | .keyword .untilWord =>
      let body ← readLoop true depth
      withRedirections body
    | .keyword .forWord =>
      let body ← readFor line depth
      withRedirections body
    | .keyword .caseWord =>
      match ← Parser.next false false with
      | .word subject =>
        Parser.keyword true .inWord
        let branches ← readBranches depth
        withRedirections (.branch line subject branches)
      | _ => Parser.unexpected (some (Lexeme.word []).label)
    | _ => Parser.unexpected none

/-- Reads the branches of a choice by patterns, up to its last word. -/
def readBranches : (depth : Nat) → Parser (List (List Word × Command))
  | 0 => Parser.fail "out of memory"
  | depth + 1 => do
    let l ← Parser.next true true false
    if l.isKeyword .esacWord then return []
    else
      let l ← if l.isOperator .leftParen then Parser.next false false else pure l
      let first ←
        match l with
        | .word w => pure w
        | .keyword k => pure [.literal k.text false]
        | _ =>
          let _ ← Parser.next false false
          Parser.unexpected (some (Lexeme.operator .rightParen).label)
      let patterns ← readPatterns ((← get).tokens.length + 1)
      let body ← readList true none depth
      match ← Parser.next true true with
      | .operator .doubleSemicolon =>
        return (first :: patterns, body) :: (← readBranches depth)
      | .keyword .esacWord => return [(first :: patterns, body)]
      | _ => Parser.unexpected (some (Lexeme.operator .doubleSemicolon).label)

def readChoice : (depth : Nat) → Parser Command
  | 0 => Parser.fail "out of memory"
  | depth + 1 => do
    let cond ← readList false none depth
    Parser.keyword false .thenWord
    let yes ← readList false none depth
    match ← Parser.next false true with
    | .keyword .elifWord => return .choose cond yes (← readChoice depth)
    | .keyword .elseWord =>
      let no ← readList false none depth
      Parser.keyword false .fiWord
      return .choose cond yes no
    | .keyword .fiWord => return .choose cond yes .skip
    | _ => Parser.unexpected (some (Lexeme.keyword .fiWord).label)

def readLoop (untilSuccess : Bool) : (depth : Nat) → Parser Command
  | 0 => Parser.fail "out of memory"
  | depth + 1 => do
    let cond ← readList false none depth
    Parser.keyword false .doWord
    let body ← readList false none depth
    Parser.keyword false .doneWord
    return .loop untilSuccess cond body

def readFor (line : Nat) : (depth : Nat) → Parser Command
  | 0 => Parser.fail "out of memory"
  | depth + 1 => do
    match ← Parser.next false false with
    | .word w =>
      match (plainText? w).filter isName with
      | none => Parser.fail "Bad for loop variable"
      | some name =>
        let words ←
          if (← Parser.next true true).isKeyword .inWord then
            readLoopWords ((← get).tokens.length + 1)
          else do
            if (← get).last.isOperator .semicolon then pure () else Parser.unread
            pure [[WordPart.variable "@" true]]
        Parser.keyword true .doWord
        let body ← readList false none depth
        Parser.keyword false .doneWord
        return .forEach line name words body
    | _ => Parser.fail "Bad for loop variable"

end

/-! ## Scripts -/

/-- Reads the commands of one line; nothing if there is none. -/
def readLine (done : Option Command) : (depth : Nat) → Parser (Option Command)
  | 0 => return done
  | depth + 1 => do
    match ← Parser.next false true with
    | .newline => return done
    | .ending =>
      Parser.unread
      return done
    | _ =>
      Parser.unread
      let c ← readAndOr depth
      match ← Parser.next false false with
      | .operator .background => readLine (some (joinCommands done (.background c))) depth
      | .operator .semicolon => readLine (some (joinCommands done c)) depth
      | .newline => return some (joinCommands done c)
      | .ending =>
        Parser.unread
        return some (joinCommands done c)
      | _ => Parser.unexpected none

/-- The next line of a script with a command, `count` lines on at most, and what is left behind
it. -/
def nextLine (p : Parsing) : (count : Nat) → Except SyntaxError (Option (Command × Parsing))
  | 0 => .ok none
  | count + 1 =>
    match (readLine none (8 * p.tokens.length + 8)).run p with
    | .error e => .error e
    | .ok (some c, p) => .ok (some (c, p))
    | .ok (none, p) =>
      match p.last with
      | .ending => .ok none
      | _ => nextLine p count

/-- What is left to be read of a text that starts in a line. -/
def Parsing.start (errorIn? : Aliases → Word → Option SyntaxError) (line : Nat)
    (text : String) : Parsing :=
  let ts := tokensOf line text
  { tokens := ts.tokens, texts := ts.texts, line, errorIn? }

/-- Reads all of a script that stands in a word. Between backquotes, what ends a list of commands
hides what is behind it. -/
def readWithin (errorIn? : Aliases → Word → Option SyntaxError) (aliases : Aliases)
    (within : Enclosure) (text : String) : Except SyntaxError Command :=
  let read (p : Parsing) : Except SyntaxError (Command × Parsing) :=
    (readList true none (8 * p.tokens.length + 8)).run { p with aliases }
  match within with
  | .backquotes => (read (.start errorIn? 1 text)).map (·.1)
  | .brackets line => do
    let (c, p) ← read { Parsing.start errorIn? line text with bracketed := true }
    match ← (Parser.next false true).run p with
    | (.ending, _) => return c
    | (_, p) => ((Parser.unexpected (some (Lexeme.operator .rightParen).label)).run p).map (·.1)

/-- What is wrong with the first of the scripts in a word that cannot be read, if one cannot; at
most `depth` scripts stand in one another. -/
def scriptError? : (depth : Nat) → Aliases → Word → Option SyntaxError
  | 0, _, _ => none
  | depth + 1, aliases, w =>
    (scriptsIn w).findSome? fun (within, text) =>
      match readWithin (scriptError? depth) aliases within text with
      | .error e => some e
      | .ok _ => none

/-- The command that a script in a word is. -/
def parseWithin (aliases : Aliases) (within : Enclosure) (text : String) :
    Except SyntaxError Command :=
  readWithin (scriptError? text.length) aliases within text

/-- What is to be read of a script. -/
def Parsing.ofScript (text : String) : Parsing :=
  Parsing.start (scriptError? text.length) 1 text

/-- The next command of a script, which is all of a line, and what is left behind it. -/
def Parsing.next (p : Parsing) (aliases : Aliases) :
    Except SyntaxError (Option (Command × Parsing)) :=
  nextLine { p with aliases } (p.tokens.length + 1)

end LineQuery.Shell
