import LineQuery.Proofs.Grammar.Written
import LineQuery.Proofs.Plans.LazyCase
import LineQuery.Proofs.Plans.Runnable
import LineQuery.Proofs.Runs.Agreement
import LineQuery.Proofs.Script.Pieces

/-! # Selecting one expression

The shortest query around an expression selects it for each line. If the expression can be written
and reads no names, and its calls are of functions that every program imports, the program compiles;
and if the expression has the same value in all rows, that is what a run brings for each line.
-/

namespace LineQuery

open LineQuery.Syntax

namespace Syntax

/-! ## What is written has no line feeds -/

theorem newline_not_mem_of_word {cs : List Char} (h : Word cs) : '\n' ∉ cs := by
  obtain ⟨c, rest, rfl, hc, hrest⟩ := h
  intro hmem
  rcases List.mem_cons.mp hmem with rfl | hmem
  · exact absurd hc (by decide)
  · exact absurd (List.all_eq_true.mp hrest _ hmem) (by decide)

namespace Expr

theorem newline_not_mem_bracketed {e : Expr} {cs : List Char} (h : '\n' ∉ cs) (needed : Nat) :
    '\n' ∉ e.bracketed needed cs := by
  unfold bracketed
  split_ifs
  · simp [h]
  · exact h

mutual

/-- An expression is written on one line. -/
theorem newline_not_mem_written : (e : Expr) → e.Writable → '\n' ∉ e.written
  | .int _ _, _ => fun hmem => by
    rcases Text.mem_showInt hmem with heq | hdigit
    · exact absurd heq (by decide)
    · exact absurd hdigit (by decide)
  | .str s _, _ => Text.not_mem_quoted (by decide) s.toList
  | .bool true _, _ => (by decide : '\n' ∉ Keyword.trueWord.text.toList)
  | .bool false _, _ => (by decide : '\n' ∉ Keyword.falseWord.text.toList)
  | .name _, h => newline_not_mem_of_word h.1
  | .list items _, h => by
    simp [written, newline_not_mem_writtenAll items h]
  | .unary op operand _, h => by
    have hsign : '\n' ≠ op.sign := by cases op <;> decide
    simp [written, hsign, newline_not_mem_bracketed (newline_not_mem_written operand h)]
  | .binary op left right _, h => by
    have hsymbol : '\n' ∉ op.symbol.toList := by cases op <;> decide
    simp [written, hsymbol, newline_not_mem_bracketed (newline_not_mem_written left h.1),
      newline_not_mem_bracketed (newline_not_mem_written right h.2)]
  | .index base position _, h => by
    simp [written, newline_not_mem_bracketed (newline_not_mem_written base h.1),
      newline_not_mem_written position h.2]
  | .call _ args _, h => by
    simp [written, newline_not_mem_of_word h.1.1, newline_not_mem_writtenAll args h.2]

theorem newline_not_mem_writtenAll : (es : List Expr) → AllWritable es → '\n' ∉ writtenAll es
  | [], _ => List.not_mem_nil
  | [e], h => newline_not_mem_written e h.1
  | e :: e' :: es, h => by
    simp [writtenAll, newline_not_mem_written e h.1, newline_not_mem_writtenAll (e' :: es) h.2]

end

end Expr

/-! ## Reading the query -/

variable {cs ds : List Char} {D : List Token → Prop}

/-- A keyword and a blank in front of a text. -/
theorem Spells.keyword (k : Keyword) (hds : Spells ds D) :
    Spells (k.text.toList ++ ' ' :: ds) (Led (fun t => t.kind = .keyword k) D) := by
  have hword : Word k.text.toList ∧ wordKind k.text.toList = .keyword k := by
    cases k <;> exact ⟨⟨_, _, rfl, by decide, by decide⟩, by decide⟩
  refine (Spells.word hword.1 (by decide) hds.space).mono ?_
  rintro _ ⟨t, us, rfl, ⟨hkind, -⟩, hD⟩
  exact ⟨t, us, rfl, hkind.trans hword.2, hD⟩

/-- A name in front of a text that does not go on with it. -/
theorem Spells.name {name : String} {d : Char} (h : Ident.Writable ⟨name, nowhere⟩)
    (hd : isWordChar d = false) (hds : Spells (d :: ds) D) : Spells (name.toList ++ d :: ds)
      (Led (fun t => t.kind = .ident ∧ t.text = name) D) := by
  refine (Spells.word h.1 hd hds).mono ?_
  rintro _ ⟨t, us, rfl, ⟨hkind, htext⟩, hD⟩
  rw [wordKind, String.ofList_toList, h.2] at hkind
  exact ⟨t, us, rfl, ⟨hkind, htext.trans String.ofList_toList⟩, hD⟩

/-- A query that selects an expression for each line. -/
structure Query.Selects (query : Query) (e : Expr) : Prop where
  source : ∃ id, query.source.source = .name id ∧ id.name = "lines"
  binders : query.source.binders = ["l"]
  clauses : query.clauses = []
  select : query.select.unplaced = e.unplaced

/-- An entry that frames a query. -/
structure Entry.Selects (entry : Entry) (e : Expr) : Prop where
  name : entry.name.name = Program.entryName
  params : entry.paramNames = ["lines", "args"]
  query : entry.query.Selects e

/-- A document that uses some libraries and has one entry, which selects an expression. -/
structure Document.Selects (d : Document) (libraries : List String) (e : Expr) : Prop where
  uses : d.uses.map (·.name) = libraries
  entries : ∃ entry, d.entries = [entry] ∧ entry.Selects e

/-- A `use` line in front of a document. -/
theorem Spells.use {name : String} (h : Ident.Writable ⟨name, nowhere⟩) {libraries : List String}
    {e : Expr} (hds : Spells ds fun ts => ∃ d, DerivesDocument ts d ∧ d.Selects libraries e) :
    Spells ((Program.useLine name).toList ++ ds) fun ts =>
      ∃ d, DerivesDocument ts d ∧ d.Selects (name :: libraries) e := by
  have hsemicolon := (hds.blank (c := '\n') (by decide)).mark (c := ';') (by decide) (by decide)
    fun _ => rfl
  have hline := (Spells.name h (by decide) hsemicolon).keyword .useWord
  have htext : (Program.useLine name).toList ++ ds =
      Keyword.useWord.text.toList ++ ' ' :: (name.toList ++ ';' :: '\n' :: ds) := by
    simp [Program.useLine, Keyword.text]
  rw [htext]
  refine hline.mono ?_
  rintro _ ⟨word, _, rfl, hword, x, _, rfl, ⟨hx, hname⟩, semicolon, ts, rfl, hsemicolon, d, hd,
    hselects⟩
  refine ⟨_, .use hword hx hsemicolon hd, ?_, hselects.entries⟩
  exact congrArg₂ (fun name names => name :: names) hname hselects.uses

/-- The names of the frame. -/
theorem writable_of_frame {name : String}
    (h : name ∈ ["core", "text", "query", "lines", "args", "l"]) :
    Ident.Writable ⟨name, nowhere⟩ := by
  simp only [List.mem_cons, List.not_mem_nil, or_false] at h
  rcases h with rfl | rfl | rfl | rfl | rfl | rfl <;>
    exact ⟨⟨_, _, rfl, by decide, by decide⟩, by decide⟩

/-- A query that selects an expression, up to its line end. -/
theorem spells_query {e : Expr} (h : e.Writable) (hds : Spells ('\n' :: ds) D) :
    Spells ("from l in lines select ".toList ++ (e.written ++ '\n' :: ds))
      (Joined (fun ts => ∃ query, DerivesQuery ts query ∧ query.Selects e) D) := by
  have hselect := ((Expr.spells_written e h).append (by decide) hds).keyword .selectWord
  have hlines := Spells.name (@writable_of_frame "lines" (by decide)) (by decide) hselect.space
  have hl := Spells.name (@writable_of_frame "l" (by decide)) (by decide)
    (hlines.keyword .inWord).space
  refine (hl.keyword .fromWord).mono ?_
  rintro _ ⟨word, _, rfl, hword, x, _, rfl, ⟨hx, hxtext⟩, inWord, _, rfl, hin, y, _, rfl,
    ⟨hy, hytext⟩, select, _, rfl, hselect, us, vs, rfl, ⟨e', hderives, heq⟩, hD⟩
  have hrange : DerivesRange (x :: inWord :: [y]) ⟨x.ident, none, .name y.ident⟩ :=
    .plain hx hin (.operand (.indexed (.primary (.name hy))))
  have hbody : DerivesBody (select :: us) [] e' := .select hselect hderives.whole
  refine ⟨word :: (x :: inWord :: [y]) ++ (select :: us), vs, by simp,
    ⟨_, .mk hword hrange hbody, ?_⟩, hD⟩
  exact ⟨⟨_, rfl, hytext⟩, congrArg (fun name => [name]) hxtext, rfl, heq⟩

/-- The lines of an entry that selects an expression. -/
theorem spells_entry {e : Expr} (h : e.Writable) :
    Spells (Program.headLine.toList ++ ("from l in lines select ".toList ++
      (e.written ++ ['\n', '\x7d', '\n']))) fun ts =>
        ∃ d, DerivesDocument ts d ∧ d.Selects [] e := by
  have hend : Spells ['\n'] (· = []) := Spells.blank (by decide) (spells_nil rfl)
  have hbrace : Spells ('\n' :: '\x7d' :: ['\n']) _ :=
    (hend.mark (by decide) (by decide) fun _ => rfl).blank (by decide)
  have hquery := ((spells_query h hbrace).blank (c := '\n') (by decide)).mark (c := '\x7b')
    (by decide) (by decide) fun _ => rfl
  have hright := hquery.space.mark (c := ')') (by decide) (by decide) fun _ => rfl
  have hargs := Spells.name (@writable_of_frame "args" (by decide)) (by decide) hright
  have hlines := Spells.name (@writable_of_frame "lines" (by decide)) (by decide) hargs.comma
  have hleft := hlines.mark (c := '(') (by decide) (by decide) fun _ => rfl
  have hname := Spells.name (@writable_of_frame "query" (by decide)) (by decide) hleft
  refine hname.mono ?_
  rintro _ ⟨x, _, rfl, ⟨hx, hxtext⟩, leftParen, _, rfl, hleftParen, lines, _, rfl, ⟨hlines, hltext⟩,
    comma, _, rfl, hcomma, args, _, rfl, ⟨hargs, hatext⟩, rightParen, _, rfl, hrightParen,
    leftBrace, _, rfl, hleftBrace, us, _, rfl, ⟨query, hquery, hselects⟩, rightBrace, _, rfl,
    hrightBrace, rfl⟩
  have hparams : DerivesParams [lines, comma, args] [lines.ident, args.ident] :=
    .some (.comma hlines hcomma (.last hargs))
  have hentry := DerivesDocument.entry
    (.mk hx hleftParen hparams hrightParen hleftBrace hquery hrightBrace) .nil
  rw [List.append_nil] at hentry
  refine ⟨_, hentry, rfl, _, rfl, hxtext, ?_, hselects⟩
  exact congrArg₂ (fun a b => [a, b]) hltext hatext

/-- The text of a program that selects an expression. -/
theorem spells_document {e : Expr} (h : e.Writable) :
    Spells ((Program.useLine "core").toList ++ ((Program.useLine "text").toList ++
      (Program.headLine.toList ++ ("from l in lines select ".toList ++
        (e.written ++ ['\n', '\x7d', '\n']))))) fun ts =>
      ∃ d, DerivesDocument ts d ∧ d.Selects Program.defaultImports e := by
  have htext := (spells_entry h).use (@writable_of_frame "text" (by decide))
  exact htext.use (@writable_of_frame "core" (by decide))

/-! ## Compiling the query -/

mutual

/-- Where an expression stands does not matter for the names in it. -/
theorem Expr.namesRead_unplaced : (e : Expr) → e.unplaced.namesRead = e.namesRead
  | .int _ _ | .str _ _ | .bool _ _ | .hole _ | .name _ => rfl
  | .list items _ => Expr.namesReadAll_unplacedAll items
  | .unary _ operand _ => operand.namesRead_unplaced
  | .binary _ left right _ =>
    congrArg₂ (· ++ ·) left.namesRead_unplaced right.namesRead_unplaced
  | .index base position _ =>
    congrArg₂ (· ++ ·) base.namesRead_unplaced position.namesRead_unplaced
  | .call _ args _ => Expr.namesReadAll_unplacedAll args

theorem Expr.namesReadAll_unplacedAll : (es : List Expr) →
    Expr.namesReadAll (Expr.unplacedAll es) = Expr.namesReadAll es
  | [] => rfl
  | e :: es => congrArg₂ (· ++ ·) e.namesRead_unplaced (Expr.namesReadAll_unplacedAll es)

end

theorem Expr.length_unplacedAll : (es : List Expr) → (Expr.unplacedAll es).length = es.length
  | [] => rfl
  | _ :: es => congrArg (· + 1) (Expr.length_unplacedAll es)

mutual

/-- Nor does it for the calls in it. -/
theorem Expr.calls_unplaced : (e : Expr) → e.unplaced.calls = e.calls
  | .int _ _ | .str _ _ | .bool _ _ | .hole _ | .name _ => rfl
  | .list items _ => Expr.callsAll_unplacedAll items
  | .unary _ operand _ => operand.calls_unplaced
  | .binary _ left right _ => congrArg₂ (· ++ ·) left.calls_unplaced right.calls_unplaced
  | .index base position _ => congrArg₂ (· ++ ·) base.calls_unplaced position.calls_unplaced
  | .call function args _ => by
    rw [unplaced, calls, calls, Expr.callsAll_unplacedAll args, Expr.length_unplacedAll]
    rfl

theorem Expr.callsAll_unplacedAll : (es : List Expr) →
    Expr.callsAll (Expr.unplacedAll es) = Expr.callsAll es
  | [] => rfl
  | e :: es => congrArg₂ (· ++ ·) e.calls_unplaced (Expr.callsAll_unplacedAll es)

end

/-- An expression that reads no names, and calls functions of the libraries of every program. -/
structure Expr.Closed (e : Expr) : Prop where
  names : e.namesRead = []
  calls : ∀ call ∈ e.calls, ∃ f : Builtin, f.name = call.function ∧
    f.library.name ∈ Program.defaultImports ∧ TakesArguments f call.count

/-- A document that selects a closed expression is admissible. -/
theorem Document.Selects.admissible {d : Document} {e : Expr}
    (h : d.Selects Program.defaultImports e) (he : e.Closed) : d.Admissible := by
  obtain ⟨huses, entry, hentries, -, hparams, ⟨id, hsource, hid⟩, hbinders, hclauses, hselect⟩ := h
  have hsites : entry.sites = [⟨["lines", "args", "l"], entry.query.select⟩] := by
    rw [Entry.sites, hparams, hbinders, hclauses]
    rfl
  -- names and calls do not depend on places, so they are those of the expression that was given
  have hnames : entry.query.select.namesRead = [] := by
    rw [← Expr.namesRead_unplaced, hselect, Expr.namesRead_unplaced, he.names]
  have hcalls : entry.query.select.calls = e.calls := by
    rw [← Expr.calls_unplaced, hselect, Expr.calls_unplaced]
  refine ⟨fun library hlibrary => ?_, ?_⟩
  · have hname : library.name ∈ Program.defaultImports := huses ▸ List.mem_map_of_mem hlibrary
    exact List.mem_of_mem_take (i := 2) hname
  · rw [hentries]
    refine List.forall_mem_singleton.mpr ⟨?_, ?_, ⟨id, hsource, ?_⟩, ?_, ?_⟩
    · rintro hnil
      rw [Entry.paramNames, hnil] at hparams
      cases hparams
    · rw [Entry.binders, hparams, hbinders, hclauses]
      decide
    · rw [Entry.stream?, hparams, hid]
      rfl
    · rw [hsites]
      refine List.forall_mem_singleton.mpr ?_
      rw [hnames]
      exact List.forall_mem_nil _
    · rw [hsites]
      refine List.forall_mem_singleton.mpr ?_
      rw [hcalls]
      intro call hcall
      obtain ⟨f, hf, hlibrary, htakes⟩ := he.calls call hcall
      rw [← huses] at hlibrary
      obtain ⟨library, hmem, hname⟩ := List.mem_map.mp hlibrary
      exact ⟨f, hf, ⟨library, hmem, hname⟩, htakes⟩

end Syntax

namespace Program

/-- The program that selects an expression for each line. -/
def selecting (e : String) : Program :=
  ofParts [.text ("from l in lines select " ++ e)]

/-- The text of a program that selects an expression, in its parts. -/
theorem toList_text_selecting {cs : List Char} (h : '\n' ∉ cs) :
    (selecting (String.ofList cs)).text.toList = (useLine "core").toList ++
      ((useLine "text").toList ++ (headLine.toList ++ ("from l in lines select ".toList ++
        (cs ++ ['\n', '\x7d', '\n'])))) := by
  have hchars : ("from l in lines select " ++ String.ofList cs).toList =
      "from l in lines select ".toList ++ cs :=
    String.toList_append.trans (congrArg _ String.toList_ofList)
  have hline : bodyLines ("from l in lines select " ++ String.ofList cs) =
      ["from l in lines select " ++ String.ofList cs] := by
    refine bodyLines_of_not_mem (fun heq => ?_) ?_
    · rw [heq] at hchars
      cases hchars
    · rw [hchars, List.mem_append, not_or]
      exact ⟨by decide, h⟩
  have hbody : (selecting (String.ofList cs)).body =
      ["from l in lines select " ++ String.ofList cs] := by
    show [] ++ bodyLines _ = _
    rw [hline, List.nil_append]
  have himports : (selecting (String.ofList cs)).imports = defaultImports := rfl
  rw [text, hbody, himports]
  simp [defaultImports, String.join_cons, closingLine, String.toList_ofList]

end Program

/-! ## Running the query -/

/-- An expression that has a value in all rows, wherever it stands. -/
structure Syntax.Expr.HasValue (e : Expr) (v : Value) : Prop where
  eval {ctx : ScopeContext} {bound : List String} {e' : Expr} {node : Node} :
    e'.unplaced = e.unplaced → Lowers ctx bound e' node → ∀ row, node.eval row = pure v

namespace Syntax.Expr

variable {e : Expr} {v w : Value}

theorem hasValue_int (n : Int64) (span : Span) : (Expr.int n span).HasValue (.int n) := by
  constructor
  intro _ _ e' _ heq hlowers row
  cases e' with
  | int n' _ =>
    obtain ⟨rfl, -⟩ := Expr.int.inj heq
    cases hlowers
    rfl
  | _ => cases heq

theorem hasValue_str (s : String) (span : Span) : (Expr.str s span).HasValue (.str s) := by
  constructor
  intro _ _ e' _ heq hlowers row
  cases e' with
  | str s' _ =>
    obtain ⟨rfl, -⟩ := Expr.str.inj heq
    cases hlowers
    rfl
  | _ => cases heq

/-- A prefix operator that can be applied to the value of its operand. -/
theorem HasValue.unary (h : e.HasValue v) {op : UnaryOp} (hop : applyUnary op v = .ok w)
    (span : Span) : (Expr.unary op e span).HasValue w := by
  constructor
  intro _ _ e' _ heq hlowers row
  cases e' with
  | unary op' operand _ =>
    obtain ⟨rfl, hoperand, -⟩ := Expr.unary.inj heq
    cases hlowers with
    | unary hl =>
      rw [Node.eval, h.eval hoperand hl, Traced.pure_bind, hop]
      rfl
  | _ => cases heq

/-- The node of a single argument. -/
theorem exists_node_of_unplaced {ctx : ScopeContext} {bound : List String} {args : List Expr}
    {nodes : List Node} (heq : unplacedAll args = [e.unplaced])
    (h : LowersAll ctx bound args nodes) :
    ∃ e' node, nodes = [node] ∧ e'.unplaced = e.unplaced ∧ Lowers ctx bound e' node := by
  cases h with
  | nil => cases heq
  | cons hl hs =>
    obtain ⟨he, hnil⟩ := List.cons.inj heq
    cases hs with
    | nil => exact ⟨_, _, rfl, he, hl⟩
    | cons => cases hnil

/-- A function of one argument that can be called with the value of its argument. -/
theorem HasValue.call (h : e.HasValue v) {id : Ident} {f : Builtin}
    (hf : Builtin.ofName? id.name = some f) (hcase : f ≠ .case) (happly : f.apply [v] = .ok w)
    (hwarning : f.warning? [v] = none) {span : Span} : (Expr.call id [e] span).HasValue w := by
  constructor
  intro _ _ e' _ heq hlowers row
  cases e' with
  | call id' args _ =>
    obtain ⟨hid, hargs, -⟩ := Expr.call.inj heq
    cases hlowers with
    | @call _ _ nodes _ f' hf' _ hl =>
      have hname : id'.name = id.name := (Ident.mk.inj hid).1
      obtain rfl : f = f' := Option.some.inj (hf.symm.trans (hname ▸ hf'))
      obtain ⟨arg, node, rfl, harg, hnode⟩ := exists_node_of_unplaced hargs hl
      have hargs' : Node.evalAll row [node] = pure [v] := by
        rw [Node.evalAll, h.eval harg hnode]
        rfl
      rw [eval_call hcase, hargs', Traced.pure_bind, callValue, happly, hwarning]
      rfl
  | _ => cases heq

end Syntax.Expr

namespace Invocation

variable {q : Invocation} {v : Value}

/-- A query without clauses yields its value for each line. -/
theorem feed_of_value (hsteps : q.plan.steps = []) (hv : ∀ row, q.plan.select.eval row = pure v)
    (run : Run) (line : String) : q.feed run (.ok line) =
      { run with waiting := run.waiting ++ outputLines v, progress := .flowing,
                 pulled := run.pulled + 1 } := by
  rw [feed, hsteps]
  simp only [passRow, hv]
  rfl

/-- A run goes on to the end of its input. -/
theorem finish_of_value (hsteps : q.plan.steps = [])
    (hv : ∀ row, q.plan.select.eval row = pure v) : ∀ (lines : List String) (done : List String)
    (run : Run), run.progress = .flowing → ∃ last,
      q.finish done run (lines.map .ok) =
        ((lines.flatMap fun _ => outputLines v).reverse ++ (run.waiting.reverse ++ done), last) ∧
      last.progress = .flowing ∧ last.warnings = run.warnings
  | [], done, run, hrun => ⟨_, rfl, hrun, rfl⟩
  | line :: lines, done, run, hrun => by
    rw [List.map_cons, finish]
    simp only [hrun, feed_of_value hsteps hv, List.nil_append]
    obtain ⟨last, hfinish, hprogress, hwarnings⟩ := finish_of_value hsteps hv lines
      (run.waiting.reverse ++ done) ⟨outputLines v, run.counters, .flowing, run.pulled + 1,
        run.warnings⟩ rfl
    refine ⟨last, ?_, hprogress, hwarnings⟩
    rw [hfinish, List.flatMap_cons, List.reverse_append, List.append_assoc]

/-- A run of a plan that selects the same value for each line. -/
theorem run_of_value (hsteps : q.plan.steps = []) (hv : ∀ row, q.plan.select.eval row = pure v)
    (lines : List String) :
    q.run (lines.map .ok) = (lines.flatMap fun _ => outputLines v, none, []) := by
  obtain ⟨last, hfinish, hprogress, hwarnings⟩ := finish_of_value hsteps hv lines [] q.start rfl
  rw [run, hfinish]
  simp only [hprogress, hwarnings]
  simp [start]

end Invocation

/-- A program that compiles to a plan which selects the same value in all rows, and brings it for
each line. -/
def Program.Yields (p : Program) (v : Value) : Prop :=
  ∃ c plan, compile p = .ok c ∧ c.artifact.mainPlan = .ok plan ∧
    (∀ row, plan.select.eval row = pure v) ∧
    ∀ (args lines : List String), (plan.invoke args).run (lines.map .ok) =
      (lines.flatMap fun _ => outputLines v, none, [])

/-- Selecting an expression that has a value yields the value. -/
theorem Syntax.Expr.yields_selecting {e : Expr} {v : Value} (hwritable : e.Writable)
    (hclosed : e.Closed) (hvalue : e.HasValue v) : (Program.selecting e.text).Yields v := by
  have htext := Program.toList_text_selecting (e.newline_not_mem_written hwritable)
  generalize hp : Program.selecting (String.ofList e.written) = p at htext
  rw [text, hp]
  have hend : EndsWord [] := rfl
  obtain ⟨ts, ⟨d, hderives, hselects⟩, hsound, hscan⟩ := spells_document hwritable 0 hend
  have htokens : tokens p.text = ts := by
    rw [tokens, htext]
    rwa [List.append_nil, scanFrom, List.append_nil] at hscan
  -- what was written is read as the document that it derives
  rw [← htokens] at hderives hsound
  have hformed : ∀ t ∈ tokens p.text, t.kind.isMalformed = false := fun t ht => (hsound t ht).formed
  obtain ⟨hread, hdocument⟩ := parse_of_derives hformed (fun t ht => (hsound t ht).fits) hderives
  have hadmissible : (parse p.text).1.Admissible := hdocument ▸ hselects.admissible hclosed
  have hresolved := (no_error_resolve_iff (LineIndex.ofText p.text) p.userLines
    (whole_of_parse hread)).mpr hadmissible
  have hok := compile_eq_ok_iff.mpr ⟨⟨no_error_parse_iff.mpr hread, hresolved⟩, rfl⟩
  generalize Compilation.mk _ _ = c at hok
  have h := compiled_of_ok hok
  -- the one entry is the one that is run, and has no steps
  obtain ⟨-, entry, hentries, hselect⟩ := hselects
  rw [← hdocument] at hentries
  have hlowers := h.lowers entry (hentries ▸ List.mem_singleton_self entry)
  have hcompiled := h.entries
  rw [hentries, List.map_singleton] at hcompiled
  generalize (Scope.resolveEntry p.context entry).1 = compiled at hlowers hcompiled
  have hmain : c.artifact.mainPlan = .ok compiled.plan := by
    refine mainPlan_of_first h.format hcompiled ?_ ?_ ?_
    · rw [hlowers.name, hselect.name]
    · rw [hlowers.params, hselect.params]
      rfl
    · rw [hlowers.slots, hselect.params]
      rfl
  have hclauses := hlowers.clauses
  rw [hselect.query.clauses] at hclauses
  generalize hsteps : compiled.plan.steps = steps at hclauses
  cases hclauses with
  | nil hl _ =>
    have hv := hvalue.eval hselect.query.select hl
    exact ⟨c, compiled.plan, hok, hmain, hv,
      fun args lines => Invocation.run_of_value hsteps hv lines⟩

end LineQuery
