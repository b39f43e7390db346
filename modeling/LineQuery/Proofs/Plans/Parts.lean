import LineQuery.Proofs.Grammar.Placement
import LineQuery.Proofs.Plans.Safety

/-! # The parts of a plan and their tokens

Each node in a plan, and each part of one, stands for a part of an expression of the entry, and that
derives from tokens one behind another. These are among the tokens of the query, between the braces
of the entry.
-/

namespace LineQuery

open LineQuery.Syntax

namespace Syntax

theorem DerivesIndexed.toExpr {ts : List Token} {e : Expr} (h : DerivesIndexed ts e) :
    DerivesExpr 0 ts e :=
  .operand (.indexed h)

theorem DerivesPrimary.toExpr {ts : List Token} {e : Expr} (h : DerivesPrimary ts e) :
    DerivesExpr 0 ts e :=
  .operand (.indexed (.primary h))

namespace Expr

mutual

/-- An expression and all expressions in it. -/
def parts : Expr → List Expr
  | .int n span => [.int n span]
  | .str text span => [.str text span]
  | .bool b span => [.bool b span]
  | .name id => [.name id]
  | .list items span => .list items span :: partsAll items
  | .unary op operand span => .unary op operand span :: operand.parts
  | .binary op left right span => .binary op left right span :: (left.parts ++ right.parts)
  | .index base position span => .index base position span :: (base.parts ++ position.parts)
  | .call id args span => .call id args span :: partsAll args
  | .hole span => [.hole span]

def partsAll : List Expr → List Expr
  | [] => []
  | e :: es => e.parts ++ partsAll es

end

theorem mem_parts_self (e : Expr) : e ∈ e.parts := by
  cases e <;> exact List.mem_cons_self

end Expr

/-- The expressions of an entry behind its first `from`, with those in them. -/
def Entry.parts (e : Entry) : List Expr :=
  e.sites.flatMap fun site => site.expr.parts

end Syntax

namespace Node

mutual

/-- A node and all nodes in it. -/
def parts : Node → List Node
  | .const value pos => [.const value pos]
  | .slot i pos => [.slot i pos]
  | .list items pos => .list items pos :: partsAll items
  | .unary op operand pos => .unary op operand pos :: operand.parts
  | .binary op left right pos => .binary op left right pos :: (left.parts ++ right.parts)
  | .index base position pos => .index base position pos :: (base.parts ++ position.parts)
  | .call f args pos => .call f args pos :: partsAll args

def partsAll : List Node → List Node
  | [] => []
  | node :: nodes => node.parts ++ partsAll nodes

end

theorem mem_parts_self (node : Node) : node ∈ node.parts := by
  cases node <;> exact List.mem_cons_self

end Node

/-- A node stands for one of some expressions, and that derives from some of the tokens, one behind
another. -/
def Node.ComesFrom (ctx : ScopeContext) (node : Node) (es : List Expr) (ts : List Token) : Prop :=
  ∃ e ∈ es, ∃ above us bound, us <:+: ts ∧ DerivesExpr above us e ∧ Lowers ctx bound e node

def Plan.parts (plan : Plan) : List Node :=
  plan.uses.flatMap fun use => use.node.parts

/-! ## Parts of nodes -/

variable {ctx : ScopeContext} {bound : List String}

/-- A node that comes from some tokens comes from any run of tokens around them. -/
theorem Node.ComesFrom.mono {node : Node} {es fs : List Expr} {ts us : List Token}
    (h : node.ComesFrom ctx es ts) (hes : es ⊆ fs) (hts : ts <:+: us) :
    node.ComesFrom ctx fs us := by
  obtain ⟨e, he, above, vs, bound, hvs, hderives, hlowers⟩ := h
  exact ⟨e, hes he, above, vs, bound, hvs.trans hts, hderives, hlowers⟩

/-- All parts of a node come from an expression if the node stands for it and the parts below come
from expressions in it. -/
theorem Node.comesFrom_cons {above : Nat} {ts : List Token} {e : Expr} {node : Node}
    {below : List Node} (hderives : DerivesExpr above ts e) (hlowers : Lowers ctx bound e node)
    (hbelow : ∀ part ∈ below, part.ComesFrom ctx e.parts ts) :
    ∀ part ∈ node :: below, part.ComesFrom ctx e.parts ts :=
  List.forall_mem_cons.mpr
    ⟨⟨e, e.mem_parts_self, above, ts, bound, List.infix_rfl, hderives, hlowers⟩, hbelow⟩

/-- An integer that fits is a constant, and there is no node for one that does not. -/
theorem comesFrom_of_intExpr {t : Token} {node : Node} (h : t.kind = .int)
    (hl : Lowers ctx bound t.intExpr node) :
    ∀ part ∈ node.parts, part.ComesFrom ctx t.intExpr.parts [t] := by
  have hderives : DerivesExpr 0 [t] t.intExpr := (DerivesPrimary.int h).toExpr
  have hself := Node.comesFrom_cons hderives hl (List.forall_mem_nil _)
  -- only the form of the node is looked at, so its expression is kept as it is
  generalize t.intExpr.parts = es at hself ⊢
  unfold Token.intExpr at hl
  split at hl
  · cases hl
    exact hself
  · exact nomatch hl

mutual

/-- The parts of the node of an expression come from the tokens of the expression. -/
theorem DerivesExpr.parts {above : Nat} {ts : List Token} {e : Expr} {node : Node} :
    DerivesExpr above ts e → Lowers ctx bound e node →
      ∀ part ∈ node.parts, part.ComesFrom ctx e.parts ts
  | .operand h, hl => DerivesOperand.parts h hl
  | @DerivesExpr.binary _ _ ts t us _ _ hop habove hleft hright, .binary hl hr => by
    refine Node.comesFrom_cons (.binary hop habove hleft hright) (.binary hl hr) ?_
    refine List.forall_mem_append.mpr ⟨?_, ?_⟩
    · intro part hpart
      refine (DerivesExpr.parts hleft hl part hpart).mono ?_ (List.prefix_append _ _).isInfix
      exact List.subset_cons_of_subset _ (List.subset_append_left _ _)
    · intro part hpart
      refine (DerivesExpr.parts hright hr part hpart).mono ?_
        ((List.suffix_cons t us).trans (List.suffix_append ts _)).isInfix
      exact List.subset_cons_of_subset _ (List.subset_append_right _ _)

theorem DerivesOperand.parts {ts : List Token} {e : Expr} {node : Node} :
    DerivesOperand ts e → Lowers ctx bound e node →
      ∀ part ∈ node.parts, part.ComesFrom ctx e.parts ts
  | .indexed h, hl => DerivesIndexed.parts h hl
  | @DerivesOperand.unary _ t ts _ hop h, .unary hl => by
    have hderives : DerivesExpr 0 (t :: ts) _ := .operand (.unary hop h)
    refine Node.comesFrom_cons hderives (.unary hl) ?_
    intro part hpart
    exact (DerivesOperand.parts h hl part hpart).mono (List.subset_cons_self _ _)
      (List.suffix_cons t ts).isInfix

theorem DerivesIndexed.parts {ts : List Token} {e : Expr} {node : Node} :
    DerivesIndexed ts e → Lowers ctx bound e node →
      ∀ part ∈ node.parts, part.ComesFrom ctx e.parts ts
  | .primary h, hl => DerivesPrimary.parts h hl
  | @DerivesIndexed.index ts us _ _ left right hbase hleft hposition hright, .index hb hp => by
    refine Node.comesFrom_cons (DerivesIndexed.index hbase hleft hposition hright).toExpr
      (.index hb hp) ?_
    refine List.forall_mem_append.mpr ⟨?_, ?_⟩
    · intro part hpart
      refine (DerivesIndexed.parts hbase hb part hpart).mono ?_ ?_
      · exact List.subset_cons_of_subset _ (List.subset_append_left _ _)
      · exact ((List.prefix_append ts _).trans (List.prefix_append _ [right])).isInfix
    · intro part hpart
      refine (DerivesExpr.parts hposition hp part hpart).mono ?_ ?_
      · exact List.subset_cons_of_subset _ (List.subset_append_right _ _)
      · exact ((List.suffix_cons left us).trans (List.suffix_append ts _)).isInfix.trans
          (List.prefix_append _ [right]).isInfix

/-- Each node of a primary expression comes from a part of it. -/
theorem DerivesPrimary.parts {ts : List Token} {e : Expr} {node : Node} :
    DerivesPrimary ts e → Lowers ctx bound e node →
      ∀ part ∈ node.parts, part.ComesFrom ctx e.parts ts
  | .int h, hl => comesFrom_of_intExpr h hl
  | .str h, hl@.str => Node.comesFrom_cons (DerivesPrimary.str h).toExpr hl nofun
  | .true h, hl@.bool => Node.comesFrom_cons (DerivesPrimary.true h).toExpr hl nofun
  | .false h, hl@.bool => Node.comesFrom_cons (DerivesPrimary.false h).toExpr hl nofun
  | .name h, hl@(.name _) => Node.comesFrom_cons (DerivesPrimary.name h).toExpr hl nofun
  | @DerivesPrimary.paren left ts _ right hleft h hright, hl => by
    -- parentheses have no node of their own
    intro part hpart
    refine (DerivesExpr.parts h hl part hpart).mono (List.Subset.refl _) ?_
    exact (List.suffix_cons left ts).isInfix.trans (List.prefix_append _ [right]).isInfix
  | @DerivesPrimary.list left ts _ right hleft h hright, .list hl => by
    refine Node.comesFrom_cons (DerivesPrimary.list hleft h hright).toExpr (.list hl) ?_
    intro part hpart
    refine (DerivesItems.parts h hl part hpart).mono (List.subset_cons_self _ _) ?_
    exact (List.suffix_cons left ts).isInfix.trans (List.prefix_append _ [right]).isInfix
  | @DerivesPrimary.call t left ts _ right hname hleft h hright, .call hf haccepts hl => by
    refine Node.comesFrom_cons (DerivesPrimary.call hname hleft h hright).toExpr
      (.call hf haccepts hl) ?_
    intro part hpart
    refine (DerivesItems.parts h hl part hpart).mono (List.subset_cons_self _ _) ?_
    exact ((List.suffix_cons left ts).trans (List.suffix_cons t _)).isInfix.trans
      (List.prefix_append _ [right]).isInfix

theorem DerivesItems.parts {ts : List Token} {items : List Expr} {nodes : List Node} :
    DerivesItems ts items → LowersAll ctx bound items nodes →
      ∀ part ∈ Node.partsAll nodes, part.ComesFrom ctx (Expr.partsAll items) ts
  | .none, .nil => nofun
  | .some h, hl => DerivesItemsFrom.parts h hl

theorem DerivesItemsFrom.parts {ts : List Token} {items : List Expr} {nodes : List Node} :
    DerivesItemsFrom ts items → LowersAll ctx bound items nodes →
      ∀ part ∈ Node.partsAll nodes, part.ComesFrom ctx (Expr.partsAll items) ts
  | .last h, .cons hl .nil => by
    refine List.forall_mem_append.mpr ⟨?_, nofun⟩
    intro part hpart
    refine (DerivesExpr.parts h hl part hpart).mono ?_ List.infix_rfl
    exact List.subset_append_left _ _
  | @DerivesItemsFrom.comma ts us _ _ t h _ hs, .cons hl hls => by
    refine List.forall_mem_append.mpr ⟨?_, ?_⟩
    · intro part hpart
      exact (DerivesExpr.parts h hl part hpart).mono (List.subset_append_left _ _)
        (List.prefix_append _ _).isInfix
    · intro part hpart
      exact (DerivesItemsFrom.parts hs hls part hpart).mono (List.subset_append_right _ _)
        ((List.suffix_cons t us).trans (List.suffix_append ts _)).isInfix

end

/-! ## Parts of plans -/

namespace Syntax

/-- The source of a `from` derives from its last tokens. -/
theorem DerivesRange.exists_source {ts : List Token} {clause : FromClause}
    (h : DerivesRange ts clause) : ∃ us, us <:+ ts ∧ DerivesExpr 0 us clause.source := by
  cases h with
  | @plain x word us e _ _ h => exact ⟨us, ⟨[x, word], rfl⟩, h⟩
  | @indexed x atWord i word us e _ _ _ _ h => exact ⟨us, ⟨[x, atWord, i, word], rfl⟩, h⟩

/-- The last tokens of a clause are those of its expression. -/
theorem DerivesClause.exists_expr {ts : List Token} {clause : Clause}
    (h : DerivesClause ts clause) : ∃ us, us <:+ ts ∧ DerivesExpr 0 us clause.expr := by
  cases h with
  | @range word us _ _ h =>
    obtain ⟨vs, hvs, hsource⟩ := h.exists_source
    exact ⟨vs, hvs.trans (List.suffix_cons word us), hsource⟩
  | @bind word x assign us e _ _ _ h => exact ⟨us, ⟨[word, x, assign], rfl⟩, h⟩
  | @filter word us e _ h | @skip word us e _ h | @take word us e _ h =>
    exact ⟨us, List.suffix_cons word us, h⟩

theorem DerivesQuery.exists_body {ts : List Token} {query : Query} (h : DerivesQuery ts query) :
    ∃ us, us <:+ ts ∧ DerivesBody us query.clauses query.select := by
  cases h with
  | @mk word us vs _ _ _ _ _ hbody => exact ⟨vs, List.suffix_append (word :: us) vs, hbody⟩

/-- Tokens between the braces of an entry. -/
def Braced (ts us : List Token) : Prop :=
  ∃ before left right after, ts = before ++ left :: (us ++ right :: after) ∧
    left.kind = .mark .leftBrace ∧ right.kind = .mark .rightBrace

/-- The query of each entry stands between braces. -/
theorem DerivesDocument.exists_query {ts : List Token} {d : Document} {e : Entry}
    (h : DerivesDocument ts d) (he : e ∈ d.entries) :
    ∃ us, Braced ts us ∧ DerivesQuery us e.query := by
  induction h with
  | nil => exact nomatch he
  | @use word x semicolon ts d _ _ _ _ ih =>
    obtain ⟨us, ⟨before, left, right, after, rfl, hbraces⟩, hquery⟩ := ih he
    exact ⟨us, ⟨word :: x :: semicolon :: before, left, right, after, rfl, hbraces⟩, hquery⟩
  | @entry ts vs e' d h _ ih =>
    rcases List.mem_cons.mp he with rfl | he
    · -- the head of the first entry is before its left brace, the other entries behind the right
      cases h with
      | @mk x leftParen params rightParen left us right _ _ _ _ _ _ hleft hquery hright =>
        refine ⟨us, ⟨x :: leftParen :: params ++ [rightParen], left, right, vs, ?_, hleft, hright⟩,
          hquery⟩
        simp
    · obtain ⟨us, ⟨before, left, right, after, rfl, hbraces⟩, hquery⟩ := ih he
      refine ⟨us, ⟨ts ++ before, left, right, after, ?_, hbraces⟩, hquery⟩
      rw [List.append_assoc]

theorem Braced.isInfix {ts us : List Token} (h : Braced ts us) : us <:+: ts := by
  obtain ⟨before, left, right, after, rfl, -⟩ := h
  exact ⟨before ++ [left], right :: after, by simp⟩

/-- There is a left brace before each token between braces, and a right brace behind it. -/
theorem Braced.exists_around {ts us : List Token} (h : Braced ts us) (hts : InOrder ts) {t : Token}
    (ht : t ∈ us) : ∃ left ∈ ts, ∃ right ∈ ts, left.kind = .mark .leftBrace ∧
      right.kind = .mark .rightBrace ∧ left.span.start < t.span.start ∧
      t.span.start < right.span.start := by
  obtain ⟨before, left, right, after, rfl, hleft, hright⟩ := h
  obtain ⟨-, hbehind, -⟩ := List.pairwise_append.mp hts
  obtain ⟨hfirst, hrest⟩ := List.pairwise_cons.mp hbehind
  obtain ⟨-, -, hlast⟩ := List.pairwise_append.mp hrest
  refine ⟨left, by simp, right, by simp, hleft, hright, ?_, ?_⟩
  · exact hfirst t (List.mem_append_left _ ht)
  · exact hlast t ht right List.mem_cons_self

end Syntax

variable {select : Expr} {node : Node} {slots : Nat} {clauses : List Clause} {steps : List Step}

/-- The parts of the nodes of a query come from its expressions and from the tokens behind its
first `from`. -/
theorem LowersClauses.parts (h : LowersClauses ctx select node slots bound clauses steps)
    {ts : List Token} (hderives : DerivesBody ts clauses select) (filled : List Nat)
    (scope : List String) : ∀ use ∈ usesFrom filled node steps, ∀ part ∈ use.node.parts,
      part.ComesFrom ctx ((sitesFrom scope select clauses).flatMap fun site => site.expr.parts)
        ts := by
  induction h generalizing ts filled scope with
  | nil hselect _ =>
    cases hderives with
    | @select word us _ _ h =>
      refine List.forall_mem_singleton.mpr ?_
      intro part hpart
      refine (DerivesExpr.parts h hselect part hpart).mono ?_ (List.suffix_cons word us).isInfix
      exact List.subset_append_left _ _
  | cons hclause _ ih =>
    cases hderives with
    | @clause us vs _ _ _ h hs =>
      rw [sitesFrom, List.flatMap_cons]
      refine List.forall_mem_cons.mpr ⟨?_, ?_⟩
      · intro part hpart
        obtain ⟨ws, hws, he⟩ := h.exists_expr
        exact (DerivesExpr.parts he hclause.lowers part hpart).mono (List.subset_append_left _ _)
          (hws.isInfix.trans (List.prefix_append us vs).isInfix)
      · intro use huse part hpart
        exact (ih hs _ _ use huse part hpart).mono (List.subset_append_right _ _)
          (List.suffix_append us vs).isInfix

/-- Each node of a plan comes from an expression of its entry. -/
theorem LowersEntry.parts {e : Entry} {compiled : PlanEntry} (h : LowersEntry ctx e compiled)
    {ts : List Token} (hderives : DerivesQuery ts e.query) :
    ∀ part ∈ compiled.plan.parts, part.ComesFrom ctx e.parts ts := by
  intro part hpart
  obtain ⟨use, huse, hpart⟩ := List.mem_flatMap.mp hpart
  obtain ⟨us, hus, hbody⟩ := hderives.exists_body
  exact (h.clauses.parts hbody _ _ use huse part hpart).mono (List.Subset.refl _) hus.isInfix

end LineQuery
