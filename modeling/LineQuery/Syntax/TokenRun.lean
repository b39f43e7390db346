import LineQuery.Syntax.Parser

/-!
# Reading by position

The reading of a document as loops over a row of tokens that ends with a token for the end
of the text. A position in the row says how far reading has come, and a reading fails if it
looks behind the row. Every turn of a loop, and every call that can lead to itself, spends
one of the turns a reading is given. A reading that has none left fails, so a loop that goes
on without end has no result, whatever number of turns it gets.
-/

namespace LineQuery.Syntax

/-- A place in a row of tokens, the positions that were left on the way to it, the latest
first, and the findings so far, the latest first. -/
structure TokenReader where
  tokens : List Token
  position : Nat
  trail : List Nat
  findings : List Finding
deriving Repr

/-- The reader in front of the first of `tokens`. -/
def TokenReader.start (tokens : List Token) : TokenReader :=
  ⟨tokens, 0, [], []⟩

/-- A part of a reading. -/
abbrev TokenRun (α : Type) := StateT TokenReader Option α

namespace TokenRun

/-! ## Single tokens -/

def current : TokenRun Token := do
  let r ← get
  r.tokens[r.position]?.elim failure pure

/-- The span of the token before the position, or of the first token. -/
def lastSpan : TokenRun Span := do
  let r ← get
  r.tokens[r.position - 1]?.elim failure fun t => pure t.span

def advance : TokenRun Unit := do
  let t ← current
  if t.kind = .eof then pure ()
  else modify fun r => { r with position := r.position + 1, trail := r.position :: r.trail }

def report (code : Code) (message : String) (span : Span) : TokenRun Unit :=
  modify fun r => { r with findings := { code, message, span } :: r.findings }

/-- The finding that something else was expected, except at a malformed token. -/
def expected (what : String) : TokenRun Unit := do
  let t ← current
  if t.kind.isMalformed then pure ()
  else report .grammar ("expected " ++ what ++ ", found " ++ t.kind.describe) t.span

/-- Goes past a token of kind `k`. The answer is whether there was one. -/
def eat (k : TokenKind) : TokenRun Bool := do
  let t ← current
  if t.kind = k then do
    advance
    pure true
  else pure false

/-- As `eat`, with a finding if there is no token of kind `k`. -/
def expect (k : TokenKind) : TokenRun Bool := do
  if ← eat k then pure true
  else do
    expected k.describe
    pure false

/-- The name that comes next, or a placeholder and a finding. -/
def expectIdent : TokenRun Ident := do
  let t ← current
  if t.kind = .ident then do
    advance
    pure ⟨t.text, t.span⟩
  else do
    expected "identifier"
    pure (.missing t.span)

/-- Goes on to the next token for which `stop` holds, or to the end of the text. -/
def skipTo (stop : TokenKind → Bool) : Nat → TokenRun Unit
  | 0 => failure
  | turns + 1 => do
    let t ← current
    if t.kind = .eof ∨ stop t.kind then pure ()
    else do
      advance
      skipTo stop turns

/-- Goes on to the next clause, to a closing brace, or to the end of the text. -/
def recoverToClause (turns : Nat) : TokenRun Unit :=
  skipTo Cursor.endsRecovery turns

/-! ## Expressions -/

def integer (t : Token) : TokenRun Expr :=
  match Text.readInt64? t.text.toList with
  | some n => pure (.int n t.span)
  | none => do
    report .lexical ("integer literal `" ++ t.text ++ "` is too large") t.span
    pure (.hole t.span)

mutual

/-- An expression whose operators of two operands are all of a level above `above`. -/
def exprAbove : Nat → Nat → TokenRun Expr
  | 0, _ => failure
  | turns + 1, above => do
    let left ← prefixExpr turns
    operators turns above left

/-- The indexes and the operators above level `above` that follow `left`. -/
def operators : Nat → Nat → Expr → TokenRun Expr
  | 0, _, _ => failure
  | turns + 1, above, left => do
    let t ← current
    if t.kind = .mark .leftBracket then do
      let indexed ← postfixIndex turns left
      operators turns above indexed
    else
      match binaryOp? t.kind with
      | none => pure left
      | some op =>
        if above < op.level then do
          advance
          let right ← exprAbove turns op.level
          operators turns above (.binary op left right (left.span.merge right.span))
        else pure left

/-- The index in brackets that follows `base`. -/
def postfixIndex : Nat → Expr → TokenRun Expr
  | 0, _ => failure
  | turns + 1, base => do
    advance
    let position ← exprAbove turns 0
    let _ ← expect (.mark .rightBracket)
    let last ← lastSpan
    pure (.index base position (base.span.merge last))

/-- An operand without the indexes behind it. -/
def prefixExpr : Nat → TokenRun Expr
  | 0 => failure
  | turns + 1 => do
    let t ← current
    match unaryOp? t.kind with
    | some op => do
      advance
      let operand ← exprAbove turns tightestLevel
      pure (.unary op operand (t.span.merge operand.span))
    | none =>
      match t.kind with
      | .int => do
        advance
        integer t
      | .str => do
        advance
        pure (.str (String.ofList (Text.decodeEscapes (stringBody t))) t.span)
      | .keyword .trueWord => do
        advance
        pure (.bool true t.span)
      | .keyword .falseWord => do
        advance
        pure (.bool false t.span)
      | .mark .leftParen => do
        advance
        let inner ← exprAbove turns 0
        let _ ← expect (.mark .rightParen)
        pure inner
      | .mark .leftBracket => do
        advance
        let items ← commaList turns (.mark .rightBracket)
        let last ← lastSpan
        pure (.list items (t.span.merge last))
      | .ident => do
        let name ← expectIdent
        let next ← current
        if next.kind = .mark .leftParen then do
          advance
          let args ← commaList turns (.mark .rightParen)
          let last ← lastSpan
          pure (.call name args (t.span.merge last))
        else pure (.name name)
      | .malformed _ => do
        advance
        pure (.hole t.span)
      | k => do
        expected "expression"
        if staysForClause k then pure (.hole t.span)
        else do
          advance
          pure (.hole t.span)

/-- Expressions with commas between them, up to the closing mark `close` and with it. -/
def commaList : Nat → TokenKind → TokenRun (List Expr)
  | 0, _ => failure
  | turns + 1, close => do
    if ← eat close then pure []
    else commaItems turns close

/-- One expression or more, with commas between them, up to `close` and with it. -/
def commaItems : Nat → TokenKind → TokenRun (List Expr)
  | 0, _ => failure
  | turns + 1, close => do
    let item ← exprAbove turns 0
    if ← eat (.mark .comma) then do
      let items ← commaItems turns close
      pure (item :: items)
    else do
      let _ ← expect close
      pure [item]

end

/-! ## Clauses -/

/-- The name behind `at`, if there is an `at`. -/
def indexName : TokenRun (Option Ident) := do
  if ← eat (.keyword .atWord) then do
    let index ← expectIdent
    pure (some index)
  else pure none

def fromClause (turns : Nat) : TokenRun FromClause := do
  let _ ← expect (.keyword .fromWord)
  let var ← expectIdent
  let index ← indexName
  if ← expect (.keyword .inWord) then do
    let source ← exprAbove turns 0
    pure ⟨var, index, source⟩
  else do
    let t ← current
    recoverToClause turns
    pure ⟨var, index, .hole t.span⟩

def rangeClause (turns : Nat) : TokenRun Clause := do
  let clause ← fromClause turns
  pure (.range clause)

/-- A clause of one expression. -/
def exprClause (make : Expr → Clause) (turns : Nat) : TokenRun Clause := do
  advance
  let e ← exprAbove turns 0
  pure (make e)

def letClause (turns : Nat) : TokenRun Clause := do
  advance
  let name ← expectIdent
  let _ ← expect (.mark .assign)
  let value ← exprAbove turns 0
  pure (.bind name value)

/-- The first `from` of a query, or a placeholder and a finding. -/
def firstFrom (turns : Nat) : TokenRun FromClause := do
  let t ← current
  if t.kind = .keyword .fromWord then fromClause turns
  else do
    report .grammar ("a query must start with `from`, found " ++ t.kind.describe) t.span
    recoverToClause turns
    pure ⟨.missing t.span, none, .hole t.span⟩

/-- A clause in front of the clauses that `more` reads. -/
def withMore (clause : TokenRun Clause) (more : TokenRun (List Clause × Expr)) :
    TokenRun (List Clause × Expr) := do
  let first ← clause
  let rest ← more
  pure (first :: rest.1, rest.2)

/-- The clauses of a query up to its `select`, and the selected expression. -/
def clauses : Nat → TokenRun (List Clause × Expr)
  | 0 => failure
  | turns + 1 => do
    let t ← current
    match t.kind with
    | .keyword .fromWord => withMore (rangeClause turns) (clauses turns)
    | .keyword .whereWord => withMore (exprClause .filter turns) (clauses turns)
    | .keyword .letWord => withMore (letClause turns) (clauses turns)
    | .keyword .skipWord => withMore (exprClause .skip turns) (clauses turns)
    | .keyword .takeWord => withMore (exprClause .take turns) (clauses turns)
    | .keyword .selectWord => do
      advance
      let select ← exprAbove turns 0
      pure ([], select)
    | .mark .rightBrace | .eof => do
      report .grammar "a query must end with a `select` clause" t.span
      pure ([], .hole t.span)
    | _ => do
      expected "a query clause"
      advance
      recoverToClause turns
      clauses turns

def query (turns : Nat) : TokenRun Query := do
  let source ← firstFrom turns
  let more ← clauses turns
  pure ⟨source, more.1, more.2⟩

/-! ## Declarations -/

/-- One parameter or more, with commas between them. -/
def paramsFrom : Nat → TokenRun (List Ident)
  | 0 => failure
  | turns + 1 => do
    let param ← expectIdent
    if ← eat (.mark .comma) then do
      let params ← paramsFrom turns
      pure (param :: params)
    else pure [param]

def params (turns : Nat) : TokenRun (List Ident) := do
  let t ← current
  if t.kind = .mark .rightParen then pure []
  else paramsFrom turns

/-- What is said of a token where an entry should be closed. -/
def notClosed (t : Token) : TokenRun Unit :=
  if t.kind.startsClause then
    report .grammar "`select` must be the last clause of a query" t.span
  else expected (TokenKind.describe (.mark .rightBrace))

/-- Goes past the closing brace of an entry. -/
def closeEntry (turns : Nat) : TokenRun Unit := do
  if ← eat (.mark .rightBrace) then pure ()
  else do
    let t ← current
    notClosed t
    skipTo (· == .mark .rightBrace) turns
    let _ ← eat (.mark .rightBrace)
    pure ()

def entry (turns : Nat) : TokenRun Entry := do
  let name ← expectIdent
  let _ ← expect (.mark .leftParen)
  let params ← params turns
  let _ ← expect (.mark .rightParen)
  let _ ← expect (.mark .leftBrace)
  let query ← query turns
  closeEntry turns
  pure ⟨name, params, query⟩

/-- The declarations up to the end of the text. -/
def program : Nat → TokenRun Document
  | 0 => failure
  | turns + 1 => do
    let t ← current
    match t.kind with
    | .eof => pure ⟨[], []⟩
    | .keyword .useWord => do
      advance
      let library ← expectIdent
      let _ ← expect (.mark .semicolon)
      let more ← program turns
      pure (more.addUse library)
    | .ident => do
      let first ← entry turns
      let more ← program turns
      pure (more.addEntry first)
    | _ => do
      expected "`use` or an entry definition"
      advance
      program turns

end TokenRun

end LineQuery.Syntax
