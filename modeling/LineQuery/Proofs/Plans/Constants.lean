import LineQuery.Proofs.Plans.Parts
import LineQuery.Proofs.Scoping.Verdict

/-! # Strings are constants

Each string among the tokens of a program that compiles is a part of an expression, and each part of
an expression behind the first `from` of an entry has a node in the plan of the entry. So there is a
constant for each string, at the place where it was written.
-/

namespace LineQuery

open LineQuery.Syntax

namespace Syntax

variable {t : Token} {ts : List Token}

/-! ## Strings among the tokens of an expression -/

/-- A string behind a token of another kind. -/
theorem mem_behind (ht : t.kind = .str) {u : Token} {k : TokenKind} (hu : u.kind = k)
    (hk : k ≠ .str) (h : t ∈ u :: ts) : t ∈ ts := by
  rcases List.mem_cons.mp h with rfl | h
  · exact absurd (hu.symm.trans ht) hk
  · exact h

/-- A string between two marks. -/
theorem mem_between (ht : t.kind = .str) {left right : Token} {l r : Mark}
    (hleft : left.kind = .mark l) (hright : right.kind = .mark r)
    (h : t ∈ left :: ts ++ [right]) : t ∈ ts := by
  rcases List.mem_append.mp (mem_behind ht hleft nofun h) with h | h
  · exact h
  · exact nomatch mem_behind ht hright nofun h

mutual

/-- A string among the tokens of an expression is a part of it. -/
theorem DerivesExpr.strExpr_mem (ht : t.kind = .str) {above : Nat} {ts : List Token} {e : Expr} :
    DerivesExpr above ts e → t ∈ ts → t.strExpr ∈ e.parts
  | .operand h, hmem => DerivesOperand.strExpr_mem ht h hmem
  | @DerivesExpr.binary _ op _ u _ _ _ hop _ hleft hright, hmem => by
    refine List.mem_cons_of_mem _ (List.mem_append.mpr ?_)
    have hkind : u.kind ≠ .str := by
      intro hstr
      rw [hstr] at hop
      cases hop
    rcases List.mem_append.mp hmem with hmem | hmem
    · exact .inl (DerivesExpr.strExpr_mem ht hleft hmem)
    · exact .inr (DerivesExpr.strExpr_mem ht hright (mem_behind ht rfl hkind hmem))

/-- A string literal of an operand is a part of it. -/
theorem DerivesOperand.strExpr_mem (ht : t.kind = .str) {ts : List Token} {e : Expr} :
    DerivesOperand ts e → t ∈ ts → t.strExpr ∈ e.parts
  | .indexed h, hmem => DerivesIndexed.strExpr_mem ht h hmem
  | @DerivesOperand.unary op u _ _ hop h, hmem => by
    have hkind : u.kind ≠ .str := by
      intro hstr
      rw [hstr] at hop
      cases hop
    exact List.mem_cons_of_mem _ (DerivesOperand.strExpr_mem ht h (mem_behind ht rfl hkind hmem))

theorem DerivesIndexed.strExpr_mem (ht : t.kind = .str) {ts : List Token} {e : Expr} :
    DerivesIndexed ts e → t ∈ ts → t.strExpr ∈ e.parts
  | .primary h, hmem => DerivesPrimary.strExpr_mem ht h hmem
  | .index hbase hleft hposition hright, hmem => by
    refine List.mem_cons_of_mem _ (List.mem_append.mpr ?_)
    rw [List.append_assoc] at hmem
    rcases List.mem_append.mp hmem with hmem | hmem
    · exact .inl (DerivesIndexed.strExpr_mem ht hbase hmem)
    · exact .inr (DerivesExpr.strExpr_mem ht hposition (mem_between ht hleft hright hmem))

/-- A string literal of a primary expression is a part of it. -/
theorem DerivesPrimary.strExpr_mem (ht : t.kind = .str) {ts : List Token} {e : Expr} :
    DerivesPrimary ts e → t ∈ ts → t.strExpr ∈ e.parts
  | .str _, hmem => by
    obtain rfl := List.mem_singleton.mp hmem
    exact List.mem_cons_self
  | .int h, hmem | .true h, hmem | .false h, hmem | .name h, hmem =>
    nomatch mem_behind ht h nofun hmem
  | .paren hleft h hright, hmem => DerivesExpr.strExpr_mem ht h (mem_between ht hleft hright hmem)
  | .list hleft h hright, hmem =>
    List.mem_cons_of_mem _ (DerivesItems.strExpr_mem ht h (mem_between ht hleft hright hmem))
  | .call hname hleft h hright, hmem => by
    have hargs := mem_between ht hleft hright (mem_behind ht hname nofun hmem)
    exact List.mem_cons_of_mem _ (DerivesItems.strExpr_mem ht h hargs)

theorem DerivesItems.strExpr_mem (ht : t.kind = .str) {ts : List Token} {items : List Expr} :
    DerivesItems ts items → t ∈ ts → t.strExpr ∈ Expr.partsAll items
  | .none, hmem => nomatch hmem
  | .some h, hmem => DerivesItemsFrom.strExpr_mem ht h hmem

theorem DerivesItemsFrom.strExpr_mem (ht : t.kind = .str) {ts : List Token} {items : List Expr} :
    DerivesItemsFrom ts items → t ∈ ts → t.strExpr ∈ Expr.partsAll items
  | .last h, hmem => List.mem_append_left _ (DerivesExpr.strExpr_mem ht h hmem)
  | .comma h hcomma hs, hmem => by
    refine List.mem_append.mpr ?_
    rcases List.mem_append.mp hmem with hmem | hmem
    · exact .inl (DerivesExpr.strExpr_mem ht h hmem)
    · exact .inr (DerivesItemsFrom.strExpr_mem ht hs (mem_behind ht hcomma nofun hmem))

end

/-! ## Strings among the tokens of a program -/

/-- A string literal in a `from` is a part of its source. -/
theorem DerivesRange.strExpr_mem {clause : FromClause} (h : DerivesRange ts clause)
    (ht : t.kind = .str) (hmem : t ∈ ts) : t.strExpr ∈ clause.source.parts := by
  cases h with
  | plain hx hin h =>
    exact h.strExpr_mem ht (mem_behind ht hin nofun (mem_behind ht hx nofun hmem))
  | indexed hx hat hi hin h =>
    refine h.strExpr_mem ht (mem_behind ht hin nofun (mem_behind ht hi nofun ?_))
    exact mem_behind ht hat nofun (mem_behind ht hx nofun hmem)

theorem DerivesClause.strExpr_mem {clause : Clause} (h : DerivesClause ts clause)
    (ht : t.kind = .str) (hmem : t ∈ ts) : t.strExpr ∈ clause.expr.parts := by
  cases h with
  | range hword h => exact h.strExpr_mem ht (mem_behind ht hword nofun hmem)
  | bind hword hx hassign h =>
    refine h.strExpr_mem ht (mem_behind ht hassign nofun ?_)
    exact mem_behind ht hx nofun (mem_behind ht hword nofun hmem)
  | filter hword h | skip hword h | take hword h =>
    exact h.strExpr_mem ht (mem_behind ht hword nofun hmem)

/-- A string literal in a query is a part of one of its expressions. -/
theorem DerivesBody.strExpr_mem {clauses : List Clause} {select : Expr}
    (h : DerivesBody ts clauses select) (ht : t.kind = .str) (scope : List String) (hmem : t ∈ ts) :
    ∃ site ∈ sitesFrom scope select clauses, t.strExpr ∈ site.expr.parts := by
  induction h generalizing scope with
  | select hword h =>
    exact ⟨_, List.mem_singleton_self _, h.strExpr_mem ht (mem_behind ht hword nofun hmem)⟩
  | clause h _ ih =>
    rcases List.mem_append.mp hmem with hmem | hmem
    · exact ⟨_, List.mem_cons_self, h.strExpr_mem ht hmem⟩
    · obtain ⟨site, hsite, hpart⟩ := ih _ hmem
      exact ⟨site, List.mem_cons_of_mem _ hsite, hpart⟩

theorem DerivesParamsFrom.not_mem {params : List Ident} (h : DerivesParamsFrom ts params)
    (ht : t.kind = .str) : t ∉ ts := by
  intro hmem
  induction h with
  | last hx => exact nomatch mem_behind ht hx nofun hmem
  | comma hx hcomma _ ih => exact ih (mem_behind ht hcomma nofun (mem_behind ht hx nofun hmem))

/-- There is no string literal among parameters. -/
theorem DerivesParams.not_mem {params : List Ident} (h : DerivesParams ts params)
    (ht : t.kind = .str) : t ∉ ts := by
  cases h with
  | none => exact List.not_mem_nil
  | some h => exact h.not_mem ht

/-- A string among the tokens of an entry is a part of the source of its first `from` or of an
expression behind that. -/
theorem DerivesEntry.strExpr_mem {e : Entry} (h : DerivesEntry ts e) (ht : t.kind = .str)
    (hmem : t ∈ ts) : t.strExpr ∈ e.query.source.source.parts ∨ t.strExpr ∈ e.parts := by
  obtain ⟨hx, hleftParen, hparams, hrightParen, hleft, hquery, hright⟩ := h
  rcases List.mem_append.mp hmem with hmem | hmem
  · rcases List.mem_append.mp hmem with hmem | hmem
    · refine absurd ?_ (hparams.not_mem ht)
      exact mem_behind ht hleftParen nofun (mem_behind ht hx nofun hmem)
    · have hbody := mem_behind ht hleft nofun (mem_behind ht hrightParen nofun hmem)
      obtain ⟨hword, hrange, hclauses⟩ := hquery
      rcases List.mem_append.mp hbody with hbody | hbody
      · exact .inl (hrange.strExpr_mem ht (mem_behind ht hword nofun hbody))
      · exact .inr (List.mem_flatMap.mpr (hclauses.strExpr_mem ht _ hbody))
  · exact nomatch mem_behind ht hright nofun hmem

/-- Each string literal of a document is a part of an expression of some entry. -/
theorem DerivesDocument.strExpr_mem {d : Document} (h : DerivesDocument ts d) (ht : t.kind = .str)
    (hmem : t ∈ ts) : ∃ e ∈ d.entries,
      t.strExpr ∈ e.query.source.source.parts ∨ t.strExpr ∈ e.parts := by
  induction h with
  | nil => exact nomatch hmem
  | use hword hx hsemicolon _ ih =>
    refine ih (mem_behind ht hsemicolon nofun ?_)
    exact mem_behind ht hx nofun (mem_behind ht hword nofun hmem)
  | entry h _ ih =>
    rcases List.mem_append.mp hmem with hmem | hmem
    · exact ⟨_, List.mem_cons_self, h.strExpr_mem ht hmem⟩
    · obtain ⟨e, he, hparts⟩ := ih hmem
      exact ⟨e, List.mem_cons_of_mem _ he, hparts⟩

end Syntax

/-! ## Nodes of parts -/

variable {ctx : ScopeContext} {bound : List String}

/-- Each of some expressions has one of some nodes. -/
def HaveNodes (ctx : ScopeContext) (bound : List String) (es : List Expr) (nodes : List Node) :
    Prop :=
  ∀ e ∈ es, ∃ node ∈ nodes, Lowers ctx bound e node

theorem HaveNodes.cons {e : Expr} {node : Node} {es : List Expr} {nodes : List Node}
    (h : Lowers ctx bound e node) (hs : HaveNodes ctx bound es nodes) :
    HaveNodes ctx bound (e :: es) (node :: nodes) := by
  refine List.forall_mem_cons.mpr ⟨⟨node, List.mem_cons_self, h⟩, fun e' he' => ?_⟩
  obtain ⟨node', hnode', h'⟩ := hs e' he'
  exact ⟨node', List.mem_cons_of_mem _ hnode', h'⟩

theorem HaveNodes.append {es fs : List Expr} {nodes nodes' : List Node}
    (h : HaveNodes ctx bound es nodes) (h' : HaveNodes ctx bound fs nodes') :
    HaveNodes ctx bound (es ++ fs) (nodes ++ nodes') := by
  refine List.forall_mem_append.mpr ⟨fun e he => ?_, fun e he => ?_⟩
  · obtain ⟨node, hnode, hl⟩ := h e he
    exact ⟨node, List.mem_append_left _ hnode, hl⟩
  · obtain ⟨node, hnode, hl⟩ := h' e he
    exact ⟨node, List.mem_append_right _ hnode, hl⟩

mutual

/-- Each part of an expression has a node among the parts of the node of the expression. -/
theorem Lowers.haveNodes {e : Expr} {node : Node} :
    Lowers ctx bound e node → HaveNodes ctx bound e.parts node.parts
  | .int => .cons .int nofun
  | .str => .cons .str nofun
  | .bool => .cons .bool nofun
  | .name h => .cons (.name h) nofun
  | .list h => .cons (.list h) h.haveNodes
  | .unary h => .cons (.unary h) h.haveNodes
  | .binary hl hr => .cons (.binary hl hr) (hl.haveNodes.append hr.haveNodes)
  | .index hb hp => .cons (.index hb hp) (hb.haveNodes.append hp.haveNodes)
  | .call hf haccepts h => .cons (.call hf haccepts h) h.haveNodes

/-- Each part of lowered expressions has a node in what they became. -/
theorem LowersAll.haveNodes {es : List Expr} {nodes : List Node} :
    LowersAll ctx bound es nodes →
      HaveNodes ctx bound (Expr.partsAll es) (Node.partsAll nodes)
  | .nil => nofun
  | .cons h hs => h.haveNodes.append hs.haveNodes

end

/-- Each expression of a query has a node among those of the plan. -/
theorem LowersClauses.exists_use {select : Expr} {node : Node} {slots : Nat}
    {clauses : List Clause} {steps : List Step}
    (h : LowersClauses ctx select node slots bound clauses steps) (filled : List Nat)
    (scope : List String) : ∀ site ∈ sitesFrom scope select clauses,
      ∃ use ∈ usesFrom filled node steps, ∃ bound, Lowers ctx bound site.expr use.node := by
  induction h generalizing filled scope with
  | nil hselect _ =>
    exact List.forall_mem_singleton.mpr ⟨_, List.mem_singleton_self _, _, hselect⟩
  | cons hclause _ ih =>
    refine List.forall_mem_cons.mpr ⟨⟨_, List.mem_cons_self, _, hclause.lowers⟩, ?_⟩
    intro site hsite
    obtain ⟨use, huse, h⟩ := ih _ _ site hsite
    exact ⟨use, List.mem_cons_of_mem _ huse, h⟩

/-- Each part of an expression behind the first `from` of an entry has a node in the plan. -/
theorem LowersEntry.exists_part {e : Entry} {compiled : PlanEntry}
    (h : LowersEntry ctx e compiled) {part : Expr} (hpart : part ∈ e.parts) :
    ∃ node ∈ compiled.plan.parts, ∃ bound, Lowers ctx bound part node := by
  obtain ⟨site, hsite, hpart⟩ := List.mem_flatMap.mp hpart
  obtain ⟨use, huse, bound, hlowers⟩ := h.clauses.exists_use _ _ site hsite
  obtain ⟨node, hnode, hl⟩ := hlowers.haveNodes part hpart
  exact ⟨node, List.mem_flatMap.mpr ⟨use, huse, hnode⟩, bound, hl⟩

/-- There is a constant for each string of a program that compiles, in the plan of the entry that
the string is a part of. -/
theorem Compiled.exists_const {p : Program} {c : Compilation} (h : Compiled p c) {t : Token}
    (ht : t ∈ tokens p.text) (hkind : t.kind = .str) :
    ∃ source ∈ (parse p.text).1.entries, ∃ entry ∈ c.artifact.entries,
      LowersEntry p.context source entry ∧ t.strExpr ∈ source.parts ∧
      .const (.str (String.ofList (Text.decodeEscapes (stringBody t))))
        (p.context.userPosition t.span) ∈ entry.plan.parts := by
  obtain ⟨hderives, -⟩ := derives_of_parse h.read
  obtain ⟨source, hsource, hparts⟩ := hderives.strExpr_mem hkind ht
  have hpart : t.strExpr ∈ source.parts := by
    -- the first `from` ranges over the stream, which is a name
    obtain ⟨id, hstream, -⟩ := (h.admissible.entries source hsource).overStream
    rw [hstream] at hparts
    exact hparts.resolve_left (by simp [Expr.parts, Token.strExpr])
  have hlowers := h.lowers source hsource
  obtain ⟨node, hnode, bound, hl⟩ := hlowers.exists_part hpart
  refine ⟨source, hsource, _, ?_, hlowers, hpart, ?_⟩
  · rw [h.entries]
    exact List.mem_map_of_mem hsource
  · cases hl
    exact hnode

end LineQuery
