import LineQuery.Syntax.ExprParser
import LineQuery.Syntax.Scan

/-!
# Reading documents

Clauses, queries, entries and whole documents. After a mistake reading goes on at the next
clause, so that one mistake is reported once.
-/

namespace LineQuery.Syntax

namespace Cursor

def toClause (c : Cursor) : Cursor :=
  c.skipTo endsRecovery

/-- The cursor at the next closing brace, or at the end of the text. -/
def toBrace (c : Cursor) : Cursor :=
  c.skipTo (· == .mark .rightBrace)

theorem length_toClause (c : Cursor) : c.toClause.ahead.length ≤ c.ahead.length :=
  c.length_skipTo _

theorem length_toBrace (c : Cursor) : c.toBrace.ahead.length ≤ c.ahead.length :=
  c.length_skipTo _

end Cursor

def parseExpression (c : Cursor) : Parsed Expr c :=
  parseExpr 0 c

/-- The name behind `at`, if there is an `at`. -/
def parseIndexName (c : Cursor) : Parsed (Option Ident) c :=
  if c.kind = .keyword .atWord then
    (c.advance.expectIdent.map some).since c.length_advance
  else .here none c

/-- A `from` clause behind its first word. Without `in` the source is a hole, and reading
goes on at the next clause. -/
def parseFrom (c : Cursor) : Parsed FromClause c :=
  match c.expectIdent with
  | ⟨var, d, h⟩ =>
    match parseIndexName d with
    | ⟨index, e, h'⟩ =>
      if e.kind = .keyword .inWord then
        ((parseExpression e.advance).map fun source => ⟨var, index, source⟩).since
          (Nat.le_trans e.length_advance (Nat.le_trans h' h))
      else
        let f := e.expected (TokenKind.describe (.keyword .inWord))
        ⟨⟨var, index, .hole f.span⟩, f.toClause,
          Nat.le_trans f.length_toClause (by simpa [f] using Nat.le_trans h' h)⟩

def parseLet (c : Cursor) : Parsed Clause c :=
  match c.expectIdent with
  | ⟨name, d, h⟩ =>
    ((parseExpression (d.expect (.mark .assign))).map fun value => .bind name value).since
      (Nat.le_trans (d.length_expect _) h)

/-- The first `from` of a query. If another token comes first, that is reported and reading
goes on at the next clause. -/
def parseFirstFrom (c : Cursor) : Parsed FromClause c :=
  if c.kind = .keyword .fromWord then (parseFrom c.advance).since c.length_advance
  else
    let d := c.report .grammar
      ("a query must start with `from`, found " ++ c.kind.describe) c.span
    ⟨⟨.missing c.span, none, .hole c.span⟩, d.toClause, d.length_toClause⟩

/-- The end of a query without `select`, which selects a hole. -/
def noSelect (c : Cursor) : Parsed (List Clause × Expr) c :=
  ⟨([], .hole c.span), c.report .grammar "a query must end with a `select` clause" c.span,
    Nat.le_refl _⟩

/-- A token that starts no clause is passed over. -/
theorem length_pastClause_lt {c : Cursor} {t : Token} {rest : List Token}
    (h : c.ahead = t :: rest) :
    (c.expected "a query clause").advance.toClause.ahead.length < c.ahead.length := by
  refine Nat.lt_of_le_of_lt (Cursor.length_toClause _) ?_
  simp [Cursor.advance, h]

/-- The clauses of a query up to its `select`, and the selected expression. A query that
ends before is reported and selects a hole. -/
def parseClauses (c : Cursor) : Parsed (List Clause × Expr) c :=
  match hc : c.ahead with
  | [] => noSelect c
  | t :: rest =>
    let next := c.past t rest
    have short : next.ahead.length < c.ahead.length := Cursor.length_past_lt hc
    match t.kind with
    | .keyword .fromWord =>
      match parseFrom next with
      | ⟨clause, d, h⟩ =>
        have shorter : d.ahead.length < c.ahead.length := Nat.lt_of_le_of_lt h short
        ((parseClauses d).map fun p => (.range clause :: p.1, p.2)).since (Nat.le_of_lt shorter)
    | .keyword .whereWord =>
      match parseExpression next with
      | ⟨cond, d, h⟩ =>
        have shorter : d.ahead.length < c.ahead.length := Nat.lt_of_le_of_lt h short
        ((parseClauses d).map fun p => (.filter cond :: p.1, p.2)).since (Nat.le_of_lt shorter)
    | .keyword .letWord =>
      match parseLet next with
      | ⟨clause, d, h⟩ =>
        have shorter : d.ahead.length < c.ahead.length := Nat.lt_of_le_of_lt h short
        ((parseClauses d).map fun p => (clause :: p.1, p.2)).since (Nat.le_of_lt shorter)
    | .keyword .skipWord =>
      match parseExpression next with
      | ⟨count, d, h⟩ =>
        have shorter : d.ahead.length < c.ahead.length := Nat.lt_of_le_of_lt h short
        ((parseClauses d).map fun p => (.skip count :: p.1, p.2)).since (Nat.le_of_lt shorter)
    | .keyword .takeWord =>
      match parseExpression next with
      | ⟨count, d, h⟩ =>
        have shorter : d.ahead.length < c.ahead.length := Nat.lt_of_le_of_lt h short
        ((parseClauses d).map fun p => (.take count :: p.1, p.2)).since (Nat.le_of_lt shorter)
    | .keyword .selectWord =>
      ((parseExpression next).map fun select => ([], select)).since (Nat.le_of_lt short)
    | .mark .rightBrace => noSelect c
    | _ =>
      let d := (c.expected "a query clause").advance.toClause
      have shorter : d.ahead.length < c.ahead.length := length_pastClause_lt hc
      (parseClauses d).since (Nat.le_of_lt shorter)
termination_by c.ahead.length
decreasing_by all_goals exact shorter

def parseQuery (c : Cursor) : Parsed Query c :=
  match parseFirstFrom c with
  | ⟨source, d, h⟩ =>
    ((parseClauses d).map fun p => ⟨source, p.1, p.2⟩).since h

/-- One parameter or more, with commas between them. -/
def parseParamsFrom (c : Cursor) : Parsed (List Ident) c :=
  match c.expectIdent with
  | ⟨param, d, h⟩ =>
    match hd : d.ahead with
    | t :: rest =>
      if t.kind = .mark .comma then
        ((parseParamsFrom (d.past t rest)).map (param :: ·)).since
          (Nat.le_trans (Cursor.length_past_le hd) h)
      else ⟨[param], d, h⟩
    | [] => ⟨[param], d, h⟩
termination_by c.ahead.length
decreasing_by
  have := Cursor.length_past_lt hd
  omega

/-- The parameters of an entry, up to its closing parenthesis. -/
def parseParams (c : Cursor) : Parsed (List Ident) c :=
  if c.kind = .mark .rightParen then .here [] c else parseParamsFrom c

/-- The cursor behind the closing brace of an entry. What stands before the brace is
reported and left out. -/
def closeEntry (c : Cursor) : Cursor :=
  if c.kind = .mark .rightBrace then c.advance
  else
    let d :=
      if c.kind.startsClause then
        c.report .grammar "`select` must be the last clause of a query" c.span
      else c.expected (TokenKind.describe (.mark .rightBrace))
    d.toBrace.eat (.mark .rightBrace)

/-- Closing an entry may pass over tokens, and adds none. -/
theorem length_closeEntry (c : Cursor) : (closeEntry c).ahead.length ≤ c.ahead.length := by
  unfold closeEntry
  split
  · exact c.length_advance
  · refine Nat.le_trans (Cursor.length_eat _ _) (Nat.le_trans (Cursor.length_toBrace _) ?_)
    split <;> simp

/-- The parameters and the query of an entry, behind its name. -/
def parseEntryRest (c : Cursor) : Parsed (List Ident × Query) c :=
  match parseParams (c.expect (.mark .leftParen)) with
  | ⟨params, d, hd⟩ =>
    match parseQuery ((d.expect (.mark .rightParen)).expect (.mark .leftBrace)) with
    | ⟨query, e, he⟩ =>
      ⟨(params, query), closeEntry e, by
        have := c.length_expect (.mark .leftParen)
        have := d.length_expect (.mark .rightParen)
        have := (d.expect (.mark .rightParen)).length_expect (.mark .leftBrace)
        have := length_closeEntry e
        omega⟩

def parseEntry (c : Cursor) : Parsed Entry c :=
  let name := c.expectIdent
  ((parseEntryRest name.rest).map fun p => ⟨name.value, p.1, p.2⟩).since name.noLonger

/-- An entry takes its name at least, so reading entries ends. -/
theorem length_parseEntry_lt {c : Cursor} (h : c.kind = .ident) :
    (parseEntry c).rest.ahead.length < c.ahead.length :=
  Nat.lt_of_le_of_lt (parseEntryRest c.expectIdent.rest).noLonger
    (Cursor.length_expectIdent_lt h)

/-- The document with a library in front of its own. -/
def Document.addUse (library : Ident) (d : Document) : Document :=
  { d with uses := library :: d.uses }

/-- The document with an entry in front of its own. -/
def Document.addEntry (entry : Entry) (d : Document) : Document :=
  { d with entries := entry :: d.entries }

/-- The declarations up to the end of the text. -/
def parseDocument (c : Cursor) : Parsed Document c :=
  match hc : c.ahead with
  | [] => .here ⟨[], []⟩ c
  | t :: rest =>
    if t.kind = .keyword .useWord then
      let next := c.past t rest
      match next.expectIdent with
      | ⟨library, d, h⟩ =>
        have shorter : (d.expect (.mark .semicolon)).ahead.length < c.ahead.length :=
          Nat.lt_of_le_of_lt (Nat.le_trans (d.length_expect _) h) (Cursor.length_past_lt hc)
        ((parseDocument (d.expect (.mark .semicolon))).map (Document.addUse library)).since
          (Nat.le_of_lt shorter)
    else if ht : t.kind = .ident then
      have shorter := length_parseEntry_lt (show c.kind = .ident by simp [Cursor.kind, hc, ht])
      ((parseDocument (parseEntry c).rest).map (Document.addEntry (parseEntry c).value)).since
        (Nat.le_of_lt shorter)
    else
      let d := (c.expected "`use` or an entry definition").advance
      have shorter : d.ahead.length < c.ahead.length := by
        simp [d, Cursor.advance, hc]
      (parseDocument d).since (Nat.le_of_lt shorter)
termination_by c.ahead.length

/-- A text read as a document, with the findings in the order in which they arise: those of
the tokens, then those of the declarations. -/
def parse (text : String) : Document × List Finding :=
  let ts := tokens text
  let parsed := parseDocument (.start ts text.utf8ByteSize)
  (parsed.value, ts.filterMap Token.finding? ++ parsed.rest.findings.reverse)

end LineQuery.Syntax
