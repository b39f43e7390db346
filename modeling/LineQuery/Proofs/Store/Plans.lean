import LineQuery.Proofs.Store.Codec
import LineQuery.Store.Plans

/-! # Compiled programs are read back

A compiled program is read back from its bytes if its numbers and lengths have room in their
fields. Slots, lengths of lists and lengths of texts are written in eight bytes, and it is assumed
of them that they fit. Lines, columns and widths are written in four; what is assumed of them is a
parameter, so that both are covered: that they fit, and then a program is read back, and nothing
at all, and then it may be refused but is not read as another.

Values and expressions nest, and their readers take a bound on the depth. A level takes a byte at
least, so the length of what was written is bound enough.
-/

namespace LineQuery

/-! ## Room for numbers -/

abbrev twoBytes : Nat := 0x10000

abbrev fourBytes : Nat := 0x100000000

abbrev eightBytes : Nat := 0x10000000000000000

/-- The length of a text has room in its field. -/
def TextFits (s : String) : Prop := (Text.encodeUtf8 s).length < eightBytes

instance (s : String) : Decidable (TextFits s) := inferInstanceAs (Decidable (_ < _))

/-- The lengths of a list of texts have room in their fields. -/
structure TextsFit (texts : List String) : Prop where
  length : texts.length < eightBytes
  each : ∀ s ∈ texts, TextFits s

/-- `narrow` holds of a line and a column. -/
structure Position.Fits (narrow : Nat → Prop) (p : Position) : Prop where
  line : narrow p.line
  column : narrow p.column

namespace Value

mutual

/-- The lengths in a value have room in their fields. -/
def Fits : Value → Prop
  | .str s => TextFits s
  | .int _ | .bool _ => True
  | .list items => items.length < eightBytes ∧ AllFit items

def AllFit : List Value → Prop
  | [] => True
  | v :: vs => v.Fits ∧ AllFit vs

end

end Value

namespace Node

variable (narrow : Nat → Prop)

mutual

/-- The slots and lengths in an expression have room in their fields, and `narrow` holds of its
lines and columns. -/
def Fits : Node → Prop
  | .const v pos => v.Fits ∧ pos.Fits narrow
  | .slot i pos => i < eightBytes ∧ pos.Fits narrow
  | .list items pos => items.length < eightBytes ∧ AllFit items ∧ pos.Fits narrow
  | .unary _ e pos => e.Fits ∧ pos.Fits narrow
  | .binary _ a b pos => a.Fits ∧ b.Fits ∧ pos.Fits narrow
  | .index base i pos => base.Fits ∧ i.Fits ∧ pos.Fits narrow
  | .call _ args pos => args.length < eightBytes ∧ AllFit args ∧ pos.Fits narrow

def AllFit : List Node → Prop
  | [] => True
  | n :: ns => n.Fits ∧ AllFit ns

end

end Node

section

variable (narrow : Nat → Prop)

def Step.Fits : Step → Prop
  | .range var index source =>
    var < eightBytes ∧ (∀ i, index = some i → i < eightBytes) ∧ source.Fits narrow
  | .filter cond => cond.Fits narrow
  | .bind slot value => slot < eightBytes ∧ value.Fits narrow
  | .skip count | .take count => count.Fits narrow

structure InputSlots.Fits (s : InputSlots) : Prop where
  var : s.var < eightBytes
  index : ∀ i, s.index = some i → i < eightBytes

structure Plan.Fits (p : Plan) : Prop where
  slots : p.slots < eightBytes
  params : p.params.length < eightBytes
  param : ∀ slot ∈ p.params, slot < eightBytes
  input : p.input.Fits
  steps : p.steps.length < eightBytes
  step : ∀ s ∈ p.steps, s.Fits narrow
  select : p.select.Fits narrow

structure PlanEntry.Fits (e : PlanEntry) : Prop where
  name : TextFits e.name
  params : TextsFit e.params
  plan : e.plan.Fits narrow

structure Diagnostic.Fits (d : Diagnostic) : Prop where
  code : d.code.number < twoBytes
  message : TextFits d.message
  position : d.position.Fits narrow
  width : narrow d.width
  notes : TextsFit d.notes
  help : TextsFit d.help

/-- The numbers of a compiled program and of the warnings about it fit. -/
structure Compilation.Fits (c : Compilation) : Prop where
  format : c.artifact.formatVersion < fourBytes
  imports : TextsFit c.artifact.imports
  entries : c.artifact.entries.length < eightBytes
  entry : ∀ e ∈ c.artifact.entries, e.Fits narrow
  warnings : c.warnings.length < eightBytes
  warning : ∀ d ∈ c.warnings, d.Fits narrow

end

namespace Store

open LineQuery.Text (Bytes)

variable {refusal : Prop} {narrow : Nat → Prop}

/-- The number of a case is read back. -/
theorem reads_tag {n : Nat} (h : n < twoBytes) : (readNat 4).Reads refusal (writeNat n) n :=
  reads_readNat_of_lt_two h

/-! ## Diagnostics -/

theorem returns_texts {texts : List String} (h : TextsFit texts) :
    string.list.Returns refusal texts :=
  Codec.returns_list h.length fun s hs => returns_string (h.each s hs)

theorem local_texts : string.list.read.Local := Codec.local_list local_string

theorem local_linePosition : linePosition.read.Local :=
  Codec.local_via (Codec.local_pair (local_readNat 4) (local_readNat 4))

/-- A position is read back if its numbers fit, and else it is refused. -/
theorem returns_linePosition (hnarrow : ∀ n, narrow n → refusal ∨ n < fourBytes) {p : Position}
    (h : p.Fits narrow) : linePosition.Returns refusal p :=
  Codec.returns_via rfl (Codec.returns_pair (returns_natural_four (hnarrow _ h.line))
    (returns_natural_four (hnarrow _ h.column)))

theorem local_code : code.read.Local :=
  Codec.local_via (Codec.local_pair (Codec.local_oneOf _) (local_readNat 2))

theorem returns_code {c : Code} (h : c.number < twoBytes) : code.Returns refusal c := by
  have hcategory : category.Returns refusal c.category :=
    Codec.returns_oneOf (by cases c.category <;> decide) (by decide)
  exact Codec.returns_via rfl (Codec.returns_pair hcategory (returns_natural_two (.inr h)))

theorem local_diagnostic : diagnostic.read.Local :=
  Codec.local_via (Codec.local_pair (Codec.local_oneOf _) (Codec.local_pair local_code
    (Codec.local_pair local_string (Codec.local_pair local_linePosition
      (Codec.local_pair (local_readNat 4) (Codec.local_pair local_texts local_texts))))))

theorem returns_diagnostic (hnarrow : ∀ n, narrow n → refusal ∨ n < fourBytes) {d : Diagnostic}
    (h : d.Fits narrow) : diagnostic.Returns refusal d := by
  have hseverity : severity.Returns refusal d.severity :=
    Codec.returns_oneOf (by cases d.severity <;> decide) (by decide)
  have htexts := Codec.returns_pair (@returns_texts refusal _ h.notes) (returns_texts h.help)
  have hwidth := Codec.returns_pair (returns_natural_four (hnarrow _ h.width)) htexts
  have hplaced := Codec.returns_pair (returns_linePosition hnarrow h.position) hwidth
  have hsaid := Codec.returns_pair (returns_string h.message) hplaced
  exact Codec.returns_via rfl (Codec.returns_pair hseverity
    (Codec.returns_pair (returns_code h.code) hsaid))

/-! ## Values -/

theorem writeValues_eq_flatMap (vs : List Value) : writeValues vs = vs.flatMap writeValue := by
  induction vs with
  | nil => rfl
  | cons v vs ih => rw [writeValues, List.flatMap_cons, ih]

theorem length_writeValue_pos (v : Value) : 0 < (writeValue v).length := by
  cases v <;> simp [writeValue, writeNat]

/-- More room for depth does no harm. -/
theorem extends_readValue {depth more : Nat} (h : depth ≤ more) :
    (readValue depth).Extends (readValue more) := by
  induction depth generalizing more with
  | zero => exact .failure _
  | succ depth ih =>
    obtain ⟨more, rfl⟩ := Nat.exists_eq_add_of_le' (Nat.lt_of_lt_of_le (Nat.succ_pos depth) h)
    have hless : (readValue depth).Extends (readValue more) := ih (Nat.le_of_succ_le_succ h)
    unfold readValue
    refine Reader.Extends.bind (local_readNat 4) fun tag => ?_
    split
    · exact Reader.Extends.map local_string _
    · exact Reader.Extends.map local_integer _
    · exact Reader.Extends.map local_boolean _
    · exact (extends_readList hless).map _
    · exact .failure _

mutual

/-- A value is read back if there is room for as many levels as it has bytes. -/
theorem reads_readValue : ∀ {v : Value}, v.Fits → ∀ {depth : Nat},
    (writeValue v).length ≤ depth → (readValue depth).Reads refusal (writeValue v) v
  | v, _, 0, hdepth => absurd hdepth (Nat.not_le.mpr (length_writeValue_pos v))
  | .str s, h, depth + 1, _ => by
    unfold readValue writeValue
    exact (reads_tag (by decide)).bind ((returns_string h).map _)
  | .int n, _, depth + 1, _ => by
    unfold readValue writeValue
    exact (reads_tag (by decide)).bind ((returns_integer n).map _)
  | .bool b, _, depth + 1, _ => by
    unfold readValue writeValue
    exact (reads_tag (by decide)).bind ((returns_boolean b).map _)
  | .list items, h, depth + 1, hdepth => by
    unfold Value.Fits at h
    unfold readValue writeValue at *
    rw [List.append_assoc] at hdepth ⊢
    have hrest : (writeValues items).length ≤ depth := by
      have htag : (writeNat 3).length = 1 := rfl
      rw [List.length_append, List.length_append] at hdepth
      omega
    have hitems : (readList (readValue depth)).Reads refusal
        (writeNat items.length ++ writeValues items) items := by
      rw [writeValues_eq_flatMap]
      exact reads_readList h.1 (reads_readValues h.2 hrest)
    exact (reads_tag (by decide)).bind (hitems.map _)

theorem reads_readValues : ∀ {vs : List Value}, Value.AllFit vs → ∀ {depth : Nat},
    (writeValues vs).length ≤ depth →
      ∀ v ∈ vs, (readValue depth).Reads refusal (writeValue v) v
  | [], _, _, _ => List.forall_mem_nil _
  | v :: vs, h, depth, hdepth => by
    unfold Value.AllFit at h
    rw [writeValues, List.length_append] at hdepth
    have hfirst : (writeValue v).length ≤ depth := by omega
    have hothers : (writeValues vs).length ≤ depth := by omega
    exact List.forall_mem_cons.mpr ⟨reads_readValue h.1 hfirst, reads_readValues h.2 hothers⟩

end

/-! ## Expressions -/

theorem writeNodes_eq_flatMap (ns : List Node) : writeNodes ns = ns.flatMap writeNode := by
  induction ns with
  | nil => rfl
  | cons n ns ih => rw [writeNodes, List.flatMap_cons, ih]

theorem length_writeNode_pos (n : Node) : 0 < (writeNode n).length := by
  cases n <;> simp [writeNode, writeNat]

theorem local_unaryOp : unaryOp.read.Local := Codec.local_oneOf _

theorem local_binaryOp : binaryOp.read.Local := Codec.local_oneOf _

theorem local_builtin : builtin.read.Local := Codec.local_oneOf _

theorem returns_unaryOp (op : Syntax.UnaryOp) : unaryOp.Returns refusal op :=
  Codec.returns_oneOf (by cases op <;> decide) (by decide)

theorem returns_binaryOp (op : Syntax.BinaryOp) : binaryOp.Returns refusal op :=
  Codec.returns_oneOf (by cases op <;> decide) (by decide)

theorem returns_builtin (f : Builtin) : builtin.Returns refusal f :=
  Codec.returns_oneOf (by cases f <;> decide) (by decide)

/-- More room for depth does no harm. -/
theorem extends_readNode {depth more : Nat} (h : depth ≤ more) :
    (readNode depth).Extends (readNode more) := by
  induction depth generalizing more with
  | zero => exact .failure _
  | succ depth ih =>
    obtain ⟨more, rfl⟩ := Nat.exists_eq_add_of_le' (Nat.lt_of_lt_of_le (Nat.succ_pos depth) h)
    have hle : depth ≤ more := Nat.le_of_succ_le_succ h
    have hless : (readNode depth).Extends (readNode more) := ih hle
    have hlist := extends_readList hless
    unfold readNode
    refine Reader.Extends.bind (local_readNat 4) fun tag => ?_
    split
    · exact (extends_readValue hle).bind fun v => Reader.Extends.map local_linePosition _
    · exact Reader.Extends.bind (local_readNat 8) fun i => .map local_linePosition _
    · exact hlist.bind fun items => .map local_linePosition _
    · exact Reader.Extends.bind local_unaryOp fun op => hless.bind fun e =>
        .map local_linePosition _
    · exact Reader.Extends.bind local_binaryOp fun op => hless.bind fun a => hless.bind fun b =>
        .map local_linePosition _
    · exact hless.bind fun base => hless.bind fun i => .map local_linePosition _
    · exact Reader.Extends.bind local_builtin fun f => hlist.bind fun args =>
        .map local_linePosition _
    · exact .failure _

/-- Expressions are read back as a list if each of them is read back. -/
theorem reads_nodeList {depth : Nat} {ns : List Node} (hlength : ns.length < eightBytes)
    (hnodes : ∀ n ∈ ns, (readNode depth).Reads refusal (writeNode n) n) :
    (readList (readNode depth)).Reads refusal (writeNat ns.length ++ writeNodes ns) ns := by
  rw [writeNodes_eq_flatMap]
  exact reads_readList hlength hnodes

mutual

/-- An expression is read back if there is room for as many levels as it has bytes. -/
theorem reads_readNode (hnarrow : ∀ n, narrow n → refusal ∨ n < fourBytes) :
    ∀ {n : Node}, n.Fits narrow → ∀ {depth : Nat},
      (writeNode n).length ≤ depth → (readNode depth).Reads refusal (writeNode n) n
  -- no expression has fewer bytes than its tag
  | n, _, 0, hdepth => absurd hdepth (Nat.not_le.mpr (length_writeNode_pos n))
  | .const v pos, h, depth + 1, hdepth => by
    unfold Node.Fits at h
    unfold readNode writeNode at *
    simp only [List.append_assoc] at hdepth ⊢
    have htag : (writeNat 0).length = 1 := rfl
    simp only [List.length_append] at hdepth
    have hv : (readValue depth).Reads refusal (writeValue v) v :=
      reads_readValue h.1 (by omega)
    have hpos := returns_linePosition hnarrow h.2
    exact (reads_tag (by decide)).bind (hv.bind (hpos.map _))
  | .slot i pos, h, depth + 1, _ => by
    unfold Node.Fits at h
    unfold readNode writeNode
    simp only [List.append_assoc]
    have hpos := returns_linePosition hnarrow h.2
    exact (reads_tag (by decide)).bind
      ((returns_natural_eight h.1).bind (hpos.map _))
  -- the parts of a list are read back one level down, which is left since the tag takes a byte
  | .list items pos, h, depth + 1, hdepth => by
    unfold Node.Fits at h
    obtain ⟨hlength, hall, hplace⟩ := h
    unfold readNode writeNode at *
    have htag : (writeNat 2).length = 1 := rfl
    simp only [List.length_append] at hdepth
    have hroom : (writeNodes items).length ≤ depth := by omega
    have hitems := reads_nodeList hlength (reads_readNodes hnarrow hall hroom)
    have hpos := returns_linePosition hnarrow hplace
    simp only [List.append_assoc]
    rw [← List.append_assoc (writeNat items.length)]
    exact (reads_tag (by decide)).bind (hitems.bind (hpos.map _))
  | .unary op e pos, h, depth + 1, hdepth => by
    unfold Node.Fits at h
    unfold readNode writeNode at *
    simp only [List.append_assoc] at hdepth ⊢
    have htag : (writeNat 3).length = 1 := rfl
    simp only [List.length_append] at hdepth
    have he : (readNode depth).Reads refusal (writeNode e) e :=
      reads_readNode hnarrow h.1 (by omega)
    have hpos := returns_linePosition hnarrow h.2
    exact (reads_tag (by decide)).bind
      ((returns_unaryOp op).bind (he.bind (hpos.map _)))
  | .binary op a b pos, h, depth + 1, hdepth => by
    unfold Node.Fits at h
    unfold readNode writeNode at *
    simp only [List.append_assoc] at hdepth ⊢
    have htag : (writeNat 4).length = 1 := rfl
    simp only [List.length_append] at hdepth
    have ha : (readNode depth).Reads refusal (writeNode a) a :=
      reads_readNode hnarrow h.1 (by omega)
    have hb : (readNode depth).Reads refusal (writeNode b) b :=
      reads_readNode hnarrow h.2.1 (by omega)
    have hpos := returns_linePosition hnarrow h.2.2
    exact (reads_tag (by decide)).bind
      ((returns_binaryOp op).bind (ha.bind (hb.bind (hpos.map _))))
  | .index base i pos, h, depth + 1, hdepth => by
    unfold Node.Fits at h
    unfold readNode writeNode at *
    simp only [List.append_assoc] at hdepth ⊢
    have htag : (writeNat 5).length = 1 := rfl
    simp only [List.length_append] at hdepth
    have hbase : (readNode depth).Reads refusal (writeNode base) base :=
      reads_readNode hnarrow h.1 (by omega)
    have hi : (readNode depth).Reads refusal (writeNode i) i :=
      reads_readNode hnarrow h.2.1 (by omega)
    have hpos := returns_linePosition hnarrow h.2.2
    exact (reads_tag (by decide)).bind (hbase.bind (hi.bind (hpos.map _)))
  | .call f args pos, h, depth + 1, hdepth => by
    unfold Node.Fits at h
    obtain ⟨hlength, hall, hplace⟩ := h
    unfold readNode writeNode at *
    have htag : (writeNat 6).length = 1 := rfl
    simp only [List.length_append] at hdepth
    have hroom : (writeNodes args).length ≤ depth := by omega
    have hargs := reads_nodeList hlength (reads_readNodes hnarrow hall hroom)
    have hpos := returns_linePosition hnarrow hplace
    simp only [List.append_assoc]
    rw [← List.append_assoc (writeNat args.length)]
    exact (reads_tag (by decide)).bind
      ((returns_builtin f).bind (hargs.bind (hpos.map _)))

theorem reads_readNodes (hnarrow : ∀ n, narrow n → refusal ∨ n < fourBytes) :
    ∀ {ns : List Node}, Node.AllFit narrow ns → ∀ {depth : Nat},
      (writeNodes ns).length ≤ depth →
        ∀ n ∈ ns, (readNode depth).Reads refusal (writeNode n) n
  | [], _, _, _ => List.forall_mem_nil _
  | n :: ns, h, depth, hdepth => by
    unfold Node.AllFit at h
    rw [writeNodes, List.length_append] at hdepth
    have hfirst : (writeNode n).length ≤ depth := by omega
    have hothers : (writeNodes ns).length ≤ depth := by omega
    exact List.forall_mem_cons.mpr ⟨reads_readNode hnarrow h.1 hfirst,
      reads_readNodes hnarrow h.2 hothers⟩

end

/-- An expression is read back. -/
theorem returns_node (hnarrow : ∀ n, narrow n → refusal ∨ n < fourBytes) {n : Node}
    (h : n.Fits narrow) : node.Returns refusal n := by
  intro rest
  have hdepth : (writeNode n).length ≤ (writeNode n ++ rest).length := by
    rw [List.length_append]
    omega
  exact reads_readNode hnarrow h hdepth rest

theorem local_node : node.read.Local := by
  intro bs n rest h more
  have hdepth : bs.length ≤ (bs ++ more).length := by
    rw [List.length_append]
    omega
  exact extends_readNode hdepth bs n rest h more

/-! ## Plans -/

theorem local_slotNumber : slotNumber.read.Local := local_readNat 8

theorem local_slotOption : slotNumber.option.read.Local := Codec.local_option local_slotNumber

theorem returns_slotOption {slot : Option Nat} (h : ∀ i, slot = some i → i < eightBytes) :
    slotNumber.option.Returns refusal slot :=
  Codec.returns_option fun i hi => returns_natural_eight (h i hi)

theorem local_step : step.read.Local := by
  refine (local_readNat 4).bind fun tag => ?_
  split
  · exact local_slotNumber.bind fun var => local_slotOption.bind fun index => local_node.map _
  · exact local_node.map _
  · exact local_slotNumber.bind fun slot => local_node.map _
  · exact local_node.map _
  · exact local_node.map _
  · exact .failure

theorem local_plan : plan.read.Local :=
  Codec.local_via (Codec.local_pair local_slotNumber
    (Codec.local_pair (Codec.local_list local_slotNumber)
      (Codec.local_pair (Codec.local_via (Codec.local_pair local_slotNumber local_slotOption))
        (Codec.local_pair (Codec.local_list local_step) local_node))))

theorem local_entry : entry.read.Local :=
  Codec.local_via (Codec.local_pair local_string (Codec.local_pair local_texts local_plan))

/-- A reader of compiled programs looks at nothing behind them. -/
theorem local_compilation : compilation.read.Local :=
  Codec.local_via (Codec.local_pair
    (Codec.local_via (Codec.local_pair (local_readNat 4)
      (Codec.local_pair local_texts (Codec.local_list local_entry))))
    (Codec.local_list local_diagnostic))

theorem returns_inputSlots {s : InputSlots} (h : s.Fits) : inputSlots.Returns refusal s :=
  Codec.returns_via rfl
    (Codec.returns_pair (returns_natural_eight h.var) (returns_slotOption h.index))

section

variable (hnarrow : ∀ n, narrow n → refusal ∨ n < fourBytes)

include hnarrow

theorem returns_step {s : LineQuery.Step} (h : s.Fits narrow) : step.Returns refusal s := by
  cases s with
  | range var index source =>
    obtain ⟨hvar, hindex, hsource⟩ := h
    change step.read.Reads refusal (writeNat 0 ++ slotNumber.write var ++
      slotNumber.option.write index ++ node.write source) _
    simp only [List.append_assoc]
    exact (reads_tag (by decide)).bind ((returns_natural_eight hvar).bind
      ((returns_slotOption hindex).bind ((returns_node hnarrow hsource).map _)))
  | filter cond => exact (reads_tag (by decide)).bind ((returns_node hnarrow h).map _)
  | bind slot value =>
    change step.read.Reads refusal (writeNat 2 ++ slotNumber.write slot ++ node.write value) _
    simp only [List.append_assoc]
    exact (reads_tag (by decide)).bind ((returns_natural_eight h.1).bind
      ((returns_node hnarrow h.2).map _))
  | skip count => exact (reads_tag (by decide)).bind ((returns_node hnarrow h).map _)
  | take count => exact (reads_tag (by decide)).bind ((returns_node hnarrow h).map _)

theorem returns_plan {p : LineQuery.Plan} (h : p.Fits narrow) : plan.Returns refusal p := by
  have hparams : slotNumber.list.Returns refusal p.params :=
    Codec.returns_list h.params fun slot hslot => returns_natural_eight (h.param slot hslot)
  have hsteps : step.list.Returns refusal p.steps :=
    Codec.returns_list h.steps fun s hs => returns_step hnarrow (h.step s hs)
  have hflow := Codec.returns_pair (returns_inputSlots h.input)
    (Codec.returns_pair hsteps (returns_node hnarrow h.select))
  exact Codec.returns_via rfl
    (Codec.returns_pair (returns_natural_eight h.slots) (Codec.returns_pair hparams hflow))

theorem returns_entry {e : PlanEntry} (h : e.Fits narrow) : entry.Returns refusal e :=
  Codec.returns_via rfl (Codec.returns_pair (returns_string h.name)
    (Codec.returns_pair (returns_texts h.params) (returns_plan hnarrow h.plan)))

/-- A compiled program is read back with the warnings about it. -/
theorem returns_compilation {c : Compilation} (h : c.Fits narrow) :
    compilation.Returns refusal c := by
  have hentries : entry.list.Returns refusal c.artifact.entries :=
    Codec.returns_list h.entries fun e he => returns_entry hnarrow (h.entry e he)
  have hwarnings : diagnostic.list.Returns refusal c.warnings :=
    Codec.returns_list h.warnings fun d hd => returns_diagnostic hnarrow (h.warning d hd)
  have hartifact : artifact.Returns refusal c.artifact :=
    Codec.returns_via rfl (Codec.returns_pair (returns_natural_four (.inr h.format))
      (Codec.returns_pair (returns_texts h.imports) hentries))
  exact Codec.returns_via rfl (Codec.returns_pair hartifact hwarnings)

end

end Store

end LineQuery
