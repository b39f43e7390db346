import LineQuery.Proofs.Store.Race
import Mathlib.Logic.Function.Iterate

/-! # What resolvers come to at the same time

Every resolver comes to an end after five turns of its own, whatever the others do, and gives the
value. Once one of them has published the value, the artifact file can be read until the store is
cleared, so all that read it later have the value from there. A resolver that is not interrupted
does what it does on its own.
-/

namespace LineQuery.Store

open LineQuery.Digest (Fingerprint)
open LineQuery.Files (Disk Entry Path looksAt place)
open LineQuery.Files.Disk (AgreeAt GainsFolders LosesBelow)
open LineQuery.Text (Bytes)
open ArtifactStore (privateName)

namespace Race

variable {ι ε α : Type} {r : Race ι ε α} {v : α} {d₀ d : Disk} {j : ι}

/-! ## The end of a resolver -/

/-- How many moves a resolver makes at most from where it is. -/
def Phase.left : Phase ε α → Nat
  | .waiting => 5
  | .building => 4
  | .making _ => 3
  | .writing _ => 2
  | .placing _ => 1
  | .finished _ => 0

/-- Nothing is left to do only at the end. -/
theorem Phase.exists_of_left_eq_zero {p : Phase ε α} (h : p.left = 0) :
    ∃ result, p = .finished result := by
  cases p with
  | finished result => exact ⟨result, rfl⟩
  | waiting | building | making | writing | placing => exact nomatch h

/-- Who has come one move further, if someone has. -/
def Turn.mover? : Turn ι → Option ι
  | .move j | .failure j => some j
  | .part _ | .clearing => none

theorem Moves.left_le {p : Phase ε α} {outcome : Disk × Phase ε α} (h : r.Moves j p d outcome) :
    outcome.2.left ≤ p.left - 1 := by
  cases h with
  | failed hfails => cases hfails <;> simp [Phase.left]
  | hit | built | refused | made | written | renamed | stopped => simp [Phase.left]

/-! ## The artifact file is read -/

/-- The artifact file can be read, and it is the image of the value. -/
def Serves (r : Race ι ε α) (v : α) (d : Disk) : Prop :=
  d.read r.store.folder (r.store.artifactPath r.key) = .ok (r.image v)

theorem Serves.load? (h : r.Serves v d)
    (hread : Image.decode r.codec r.store.tool (r.image v) = .ok v) :
    r.store.load? r.codec d r.key = some v := by
  have hraw : d.read r.store.folder (r.store.artifactPath r.key) = .ok (r.image v) := h
  rw [ArtifactStore.load?, hraw]
  dsimp only
  rw [hread]

/-- An artifact file that can be read stays so when nothing changes on the way to it. -/
theorem Serves.of_agree (h : r.Serves v d₀)
    (hagree : ∀ q ∈ looksAt r.store.folder (r.store.artifactPath r.key),
      d.find? q = d₀.find? q) : r.Serves v d := by
  have hsame : AgreeAt d d₀ (looksAt r.store.folder (r.store.artifactPath r.key)) := hagree
  rw [Serves, Files.Disk.read_congr hsame]
  exact h

theorem Serves.gains {places : List Path} (h : r.Serves v d₀) (hgains : GainsFolders places d₀ d) :
    r.Serves v d := by
  have hstands := Files.Disk.stands_of_read_within (ArtifactStore.isName_fileName r.key) h
  refine h.of_agree ?_
  intro q hq
  rcases hgains q with hsame | ⟨-, hnone, -⟩
  · exact hsame
  · exact absurd hnone (hstands q hq)

variable {start : Disk}

theorem Serves.losesPrivate (h : r.Serves v d₀) (hnames : r.NamesUnique start)
    (hloses : LosesBelow (r.privatePlace j) d₀ d) : r.Serves v d := by
  refine h.of_agree ?_
  intro q hq
  rcases hloses q with hsame | ⟨hbelow, -⟩
  · exact hsame
  · exact absurd hbelow (hnames.not_prefix_of_mem_looksAt j hq)

theorem Serves.setPrivate (h : r.Serves v d₀) (hnames : r.NamesUnique start) (e : Entry) :
    r.Serves v (d₀.set (r.privatePlace j) e) := by
  refine h.of_agree ?_
  intro q hq
  refine Files.Disk.find?_set_of_ne ?_ e
  rintro rfl
  exact hnames.not_prefix_of_mem_looksAt j hq List.prefix_rfl

variable {st st' : State ι ε α}

/-- A resolver that has renamed its private file has put the image where it can be read. -/
theorem Sound.serves (h : r.Sound v st) (hnames : r.NamesUnique start) {w : α}
    (hphase : st.phase j = .placing w)
    (hrename : st.disk.rename r.store.folder (r.privatePath j) (r.store.artifactPath r.key) =
      .ok d) : r.Serves v d := by
  obtain ⟨hstands, -⟩ := h.eq_of_rename hphase hrename
  refine Files.Disk.read_of_rename_within (ArtifactStore.isName_privateName _)
    (ArtifactStore.isName_fileName r.key) hrename hstands ?_
  intro q hq hbelow
  exact (hnames.offPath j q hbelow).2 hq

/-- No move takes the artifact file away, and none spoils it. -/
theorem Serves.moves (hserves : r.Serves v st.disk) (h : r.Sound v st)
    (hnames : r.NamesUnique start) {outcome : Disk × Phase ε α}
    (hmoves : r.Moves j (st.phase j) st.disk outcome) : r.Serves v outcome.1 := by
  generalize hphase : st.phase j = p at hmoves
  cases hmoves with
  | hit | built | refused | stopped => exact hserves
  | made hgains => exact hserves.gains hgains
  | written hwrite =>
    obtain rfl := h.eq_of_write hphase hwrite
    exact hserves.setPrivate hnames _
  | renamed hrename => exact h.serves hnames hphase hrename
  | failed hfails =>
    cases hfails with
    | reading => exact hserves
    | making hgains => exact hserves.gains hgains
    | writing hloses => exact hserves.losesPrivate hnames hloses
    | placing hloses => exact hserves.losesPrivate hnames hloses

theorem Serves.part (hserves : r.Serves v st.disk) (h : r.Sound v st)
    (hnames : r.NamesUnique start) (hpartly : r.Partly j (st.phase j) st.disk d) :
    r.Serves v d := by
  generalize hphase : st.phase j = p at hpartly
  cases hpartly with
  | making hgains => exact hserves.gains hgains
  | writing bytes hwrite =>
    obtain rfl := h.eq_of_write hphase hwrite
    exact hserves.setPrivate hnames _

/-- Only a renaming brings a resolver to the end as one that has published. -/
theorem Sound.serves_of_built (h : r.Sound v st) (hnames : r.NamesUnique start)
    {outcome : Disk × Phase ε α} (hmoves : r.Moves j (st.phase j) st.disk outcome)
    (hbefore : ∀ result, st.phase j ≠ .finished result) {w : α}
    (hbuilt : outcome.2 = .finished (.ok (w, .built))) : r.Serves v outcome.1 := by
  generalize hphase : st.phase j = p at hmoves hbefore
  cases hmoves with
  | hit | built | refused | made | written => exact nomatch hbuilt
  | renamed hrename => exact h.serves hnames hphase hrename
  | stopped => exact absurd rfl (hbefore _)
  | failed hfails => cases hfails <;> exact nomatch hbuilt

/-- Turns at which the disk does not fail and nothing is cleared. -/
def Turn.IsSmooth : Turn ι → Prop
  | .move _ | .part _ => True
  | .failure _ | .clearing => False

/-- A resolver that has not started, or has found the value in the store. -/
def Phase.IsLate (v : α) (p : Phase ε α) : Prop :=
  p = .waiting ∨ p = .finished (.ok (v, .hit))

/-- Where the artifact file is read, whoever starts has the value from there. -/
theorem Serves.isLate_move (h : r.Serves v d)
    (hread : Image.decode r.codec r.store.tool (r.image v) = .ok v) {p : Phase ε α}
    (hp : p.IsLate v) : (r.move j (d, p)).2.IsLate v := by
  rcases hp with rfl | rfl
  · rw [move, h.load? hread]
    exact .inr rfl
  · exact .inr rfl

/-! ## Runs -/

section Runs

variable [DecidableEq ι]

/-- A turn of its own brings a resolver nearer to its end, and one of another does not matter. -/
theorem Step.left_le {turn : Turn ι} (h : r.Step turn st st') (j : ι) :
    (st'.phase j).left ≤ (st.phase j).left - if turn.mover? = some j then 1 else 0 := by
  have hgo : ∀ (k : ι) (outcome : Disk × Phase ε α), r.Moves k (st.phase k) st.disk outcome →
      ((st.after k outcome).phase j).left ≤
        (st.phase j).left - if some k = some j then 1 else 0 := by
    intro k outcome hmoves
    by_cases hk : k = j
    · subst hk
      rw [if_pos rfl, State.after_phase_self]
      exact hmoves.left_le
    · rw [if_neg fun heq => hk (Option.some.inj heq), State.after_phase_of_ne hk]
      exact Nat.le_refl _
  cases h with
  | move k => exact hgo k _ (r.moves k st.disk (st.phase k))
  | failure k hfails => exact hgo k _ (.failed hfails)
  | part => exact Nat.le_refl _
  | clearing => exact Nat.le_refl _

theorem Runs.left_le {turns : List (Turn ι)} (h : r.Runs turns st st') (j : ι) :
    (st'.phase j).left ≤
      (st.phase j).left - turns.countP fun turn => turn.mover? = some j := by
  induction h with
  | nil => exact Nat.le_refl _
  | cons hstep _ ih =>
    have hfirst := hstep.left_le j
    rw [List.countP_cons]
    split at hfirst
    · rename_i hmover
      rw [if_pos (decide_eq_true hmover)]
      omega
    · rename_i hmover
      rw [if_neg (by rwa [decide_eq_true_iff])]
      omega

theorem Serves.step (hserves : r.Serves v st.disk) (h : r.Sound v st)
    (hnames : r.NamesUnique start)
    (hread : Image.decode r.codec r.store.tool (r.image v) = .ok v) {turn : Turn ι}
    (hstep : r.Step turn st st') (hsmooth : turn.IsSmooth) :
    r.Serves v st'.disk ∧ ∀ j, (st.phase j).IsLate v → (st'.phase j).IsLate v := by
  cases hstep with
  | move k =>
    refine ⟨hserves.moves h hnames (r.moves k st.disk (st.phase k)), ?_⟩
    intro j hlate
    by_cases hk : k = j
    · subst hk
      rw [State.after_phase_self]
      exact hserves.isLate_move hread hlate
    · rwa [State.after_phase_of_ne hk]
  | part k hpartly => exact ⟨hserves.part h hnames hpartly, fun _ => id⟩
  | failure => exact hsmooth.elim
  | clearing => exact hsmooth.elim

theorem Serves.runs (hserves : r.Serves v st.disk) (h : r.Sound v st)
    (hnames : r.NamesUnique start) (hbuild : ∀ j, r.build j r.key = .ok v)
    (hread : Image.decode r.codec r.store.tool (r.image v) = .ok v) {turns : List (Turn ι)}
    (hruns : r.Runs turns st st') (hsmooth : ∀ turn ∈ turns, turn.IsSmooth) :
    r.Serves v st'.disk ∧ ∀ j, (st.phase j).IsLate v → (st'.phase j).IsLate v := by
  induction hruns with
  | nil => exact ⟨hserves, fun _ => id⟩
  | cons hstep _ ih =>
    obtain ⟨hfirst, hlater⟩ := List.forall_mem_cons.mp hsmooth
    obtain ⟨hnext, hlate⟩ := hserves.step h hnames hread hstep hfirst
    obtain ⟨hlast, hlast'⟩ := ih hnext (h.step hnames hbuild hread hstep) hlater
    exact ⟨hlast, fun j hj => hlast' j (hlate j hj)⟩

end Runs

/-! ## A resolver on its own -/

/-- A resolver that has come to its end stays there. -/
theorem iterate_move_finished (r : Race ι ε α) (j : ι) (n : Nat) (d : Disk)
    (result : Except ε (α × Outcome)) :
    (r.move j)^[n] (d, .finished result) = (d, .finished result) :=
  Function.iterate_fixed rfl n

/-- A file that was put where nothing stood is gone when its place is cleared. -/
theorem erase_set {path : Path} (e : Entry) (h : ∀ other ∈ d.entries, ¬ path <+: other.1) :
    (d.set path e).erase path = d := by
  have hkept : (d.entries.filter fun other => other.1 ≠ path) = d.entries := by
    refine List.filter_eq_self.mpr fun other hother => decide_eq_true ?_
    rintro rfl
    exact h other hother List.prefix_rfl
  have hspared : (d.entries.filter fun other => !path.isPrefixOf other.1) = d.entries := by
    refine List.filter_eq_self.mpr fun other hother => ?_
    rw [Files.Disk.isPrefixOf_eq_decide, decide_eq_false (h other hother)]
    rfl
  obtain ⟨entries⟩ := d
  have hself : path.isPrefixOf path = true := List.isPrefixOf_iff_prefix.mpr List.prefix_rfl
  simp only [Disk.set, Disk.erase, List.filter_cons, hself] at hkept hspared ⊢
  rw [hkept]
  exact congrArg Disk.mk hspared

/-- A private file that has just been written can be removed, and nothing is left of it. -/
theorem withoutPrivate_of_write (hnames : r.NamesUnique d₀)
    (hunused : ∀ e ∈ d.entries, ¬ r.privatePlace j <+: e.1) {written : Disk} {bytes : Bytes}
    (hwrite : d.write r.store.folder (r.privatePath j) bytes = .ok written) :
    r.withoutPrivate j written = d := by
  have hname := ArtifactStore.isName_privateName (r.temp j)
  -- no device stands in the place, so what is written stands there afterwards
  have hset : written = d.set (r.privatePlace j) (.file bytes) := by
    have hwritten := Files.Disk.eq_of_write hwrite
    rw [place_privatePath] at hwritten
    rcases hwritten with ⟨hset, -⟩ | ⟨-, device, hdevice⟩
    · exact hset
    · have hentry := Files.Disk.mem_entries_of_find? (r.privatePlace_ne_nil j) hdevice
      exact absurd List.prefix_rfl (hunused _ hentry)
  obtain ⟨path, hplace, -⟩ := Files.exists_ok_of_bind hwrite
  -- the walk to the folder looks at no private place, so it goes as before
  have hraw : written.read r.store.folder (r.privatePath j) = .ok bytes := by
    refine Files.Disk.read_within_of_placeForFile hname hplace ?_ ?_
    · intro q hq
      rw [hset, Files.Disk.find?_set_of_ne]
      rintro rfl
      exact (hnames.offPath j _ List.prefix_rfl).2 hq
    · rw [hset]
      exact Files.Disk.find?_set_self (r.privatePlace_ne_nil j) _
  have hremoved : written.removeFile r.store.folder (r.privatePath j) =
      .ok (written.erase (r.privatePlace j)) := by
    obtain ⟨⟨found, e⟩, hlocate, hfile⟩ := Files.exists_ok_of_bind hraw
    obtain ⟨rfl, -⟩ := Files.Disk.find?_of_locate hlocate
    obtain ⟨hstands, -⟩ := Files.Disk.find?_of_locate_within hname hlocate
    have hwrittenFile : written.find? (r.privatePlace j) = some (.file bytes) := by
      rw [hset]
      exact Files.Disk.find?_set_self (r.privatePlace_ne_nil j) _
    obtain rfl := Option.some.inj (hstands.symm.trans hwrittenFile)
    rw [Disk.removeFile, hlocate, place_privatePath]
    rfl
  rw [withoutPrivate, hremoved, hset]
  exact erase_set _ hunused

/-- Storing a value takes three moves. -/
theorem store_eq_moves (hnames : r.NamesUnique d₀) {outcome : Except Files.DiskError Unit}
    {made : Disk} (hmade : d.makeFolders r.store.folder r.store.location = (outcome, made))
    (hfree : r.store.privatePath made = r.privatePath j)
    (hunused : ∀ e ∈ made.entries, ¬ r.privatePlace j <+: e.1) (v : α) :
    let stored := r.store.store r.codec d r.key v
    (r.move j)^[3] (d, .making v) =
      (stored.2, .finished (.ok (v, if stored.1 then .built else .builtUncached))) := by
  intro stored
  have hpublish : r.store.publish made r.key (Image.encode r.codec r.store.tool v) =
      made.write r.store.folder (r.privatePath j) (r.image v) >>= fun written =>
        written.rename r.store.folder (r.privatePath j) (r.store.artifactPath r.key) := by
    rw [← hfree]
    rfl
  rw [Function.iterate_succ_apply, move, hmade]
  cases outcome with
  | error e =>
    have hstored : stored = (false, made) := by
      simp only [stored, ArtifactStore.store, hmade]
    rw [hstored]
    exact iterate_move_finished r j 2 made _
  | ok =>
    dsimp only
    rw [Function.iterate_succ_apply, move]
    cases hwrite : made.write r.store.folder (r.privatePath j) (r.image v) with
    | error e =>
      have hstored : stored = (false, made) := by
        simp only [stored, ArtifactStore.store, hmade, hpublish, hwrite, bind, Except.bind]
      rw [hstored]
      exact iterate_move_finished r j 1 made _
    | ok written =>
      dsimp only
      rw [Function.iterate_succ_apply, Function.iterate_zero_apply, move]
      cases hrename : written.rename r.store.folder (r.privatePath j)
        (r.store.artifactPath r.key) with
      | error e =>
        have hstored : stored = (false, made) := by
          simp only [stored, ArtifactStore.store, hmade, hpublish, hwrite, hrename, bind,
            Except.bind]
        -- the private file is removed, and the disk is as it was before it was written
        rw [hstored]
        dsimp only
        rw [withoutPrivate_of_write hnames hunused hwrite]
        rfl
      | ok placed =>
        have hstored : stored = (true, placed) := by
          simp only [stored, ArtifactStore.store, hmade, hpublish, hwrite, hrename, bind,
            Except.bind]
        rw [hstored]
        rfl

/-- A resolver that is not interrupted, and whose private name is the one that is free, does what
it does on its own. -/
theorem resolve_eq_moves (henabled : r.store.enabled = true) (hnames : r.NamesUnique d₀)
    (hfree : r.store.privatePath (d.makeFolders r.store.folder r.store.location).2 =
      r.privatePath j)
    (hunused : ∀ e ∈ (d.makeFolders r.store.folder r.store.location).2.entries,
      ¬ r.privatePlace j <+: e.1) :
    let resolved := r.store.resolve r.codec (r.build j) d r.key
    (r.move j)^[5] (d, .waiting) = (resolved.2, .finished resolved.1) := by
  intro resolved
  -- one move reads, one builds; what is left of the five makes, writes and places
  rw [Function.iterate_succ_apply, move]
  cases hload : r.store.load? r.codec d r.key with
  | some v =>
    have hresolved : resolved = (.ok (v, .hit), d) :=
      ArtifactStore.resolve_of_load? henabled hload (r.build j)
    rw [hresolved]
    exact iterate_move_finished r j 4 d _
  | none =>
    dsimp only
    rw [Function.iterate_succ_apply, move]
    cases hvalue : r.build j r.key with
    | error e =>
      have hresolved : resolved = (.error e, d) := by
        simp only [resolved, ArtifactStore.resolve, henabled, hload, hvalue, ↓reduceIte]
      rw [hresolved]
      exact iterate_move_finished r j 3 d _
    | ok v =>
      let stored := r.store.store r.codec d r.key v
      have hresolved : resolved =
          (.ok (v, if stored.1 then .built else .builtUncached), stored.2) := by
        simp only [resolved, stored, ArtifactStore.resolve, henabled, hload, hvalue, ↓reduceIte]
      rw [hresolved]
      exact store_eq_moves hnames rfl hfree hunused v

/-! ## Runs without failures -/

section Moves

variable [DecidableEq ι]

/-- The state after resolvers have moved one after another. -/
def go (r : Race ι ε α) (st : State ι ε α) (js : List ι) : State ι ε α :=
  js.foldl (fun st j => st.after j (r.move j (st.disk, st.phase j))) st

theorem runs_go (r : Race ι ε α) (st : State ι ε α) (js : List ι) :
    r.Runs (js.map .move) st (r.go st js) := by
  induction js generalizing st with
  | nil => exact .nil st
  | cons j js ih => exact .cons (.move j) (ih _)

theorem Runs.append {turns more : List (Turn ι)} {st st' last : State ι ε α}
    (h : r.Runs turns st st') (hmore : r.Runs more st' last) : r.Runs (turns ++ more) st last := by
  induction h with
  | nil => exact hmore
  | cons hstep _ ih => exact .cons hstep (ih hmore)

end Moves

/-! ## Agreement -/

/-- Resolvers that have not started, with a store that is in use, builders that all give the value,
private names of their own, and an artifact file that is the image of the value if there is one. -/
structure Starts (r : Race ι ε α) (v : α) (st : State ι ε α) : Prop where
  enabled : r.store.enabled = true
  builds : ∀ j, r.build j r.key = .ok v
  waiting : ∀ j, st.phase j = .waiting
  whole : ∀ bytes, st.disk.find? r.artifact = some (.file bytes) → bytes = r.image v
  names : r.NamesUnique st.disk

theorem Starts.sound {st : State ι ε α} (h : r.Starts v st) : r.Sound v st where
  whole := h.whole
  has j := by
    rw [h.waiting j]
    trivial
  leaves j e he := by
    have hnone := h.names.unused j _ List.prefix_rfl
    exact absurd (he.symm.trans hnone) nofun

end Race

/-- Resolvers of one fingerprint agree, in whatever order they go on and whatever fails or is
cleared between their steps. The artifact file is the image of the value whenever there is one. No
resolver fails or gives another value, and each has given it after five turns of its own. When one
of them has published the value, and after that nothing fails and nothing is cleared, all that
start later have the value from the store, and so has every resolve. -/
def RacersAgree {α : Type} (c : Codec α) (fits : String → α → Prop) : Prop :=
  ∀ (ι ε : Type) [DecidableEq ι] (r : Race ι ε α) (v : α) (start st : Race.State ι ε α)
    (turns : List (Race.Turn ι)),
    r.codec = c → fits r.store.tool v → r.Starts v start → r.Runs turns start st →
      (∀ bytes, st.disk.find? r.artifact = some (.file bytes) →
        bytes = Image.encode c r.store.tool v) ∧
      (∀ j result, st.phase j = .finished result → ∃ outcome, result = .ok (v, outcome)) ∧
      (∀ j, 5 ≤ turns.countP (fun turn => turn.mover? = some j) →
        ∃ outcome, st.phase j = .finished (.ok (v, outcome))) ∧
      ∀ i next, r.Step (.move i) st next → (∀ result, st.phase i ≠ .finished result) →
        next.phase i = .finished (.ok (v, .built)) →
          ∀ later last, r.Runs later next last → (∀ turn ∈ later, turn.IsSmooth) →
            (∀ j, next.phase j = .waiting →
              last.phase j = .waiting ∨ last.phase j = .finished (.ok (v, .hit))) ∧
            ∀ build : Fingerprint → Except ε α,
              r.store.resolve c build last.disk r.key = (.ok (v, .hit), last.disk)

/-- A codec whose images are decoded again keeps resolvers in agreement. -/
theorem racersAgree_of_decode {α : Type} {c : Codec α} {fits : String → α → Prop}
    (hdecode : ∀ tool v, fits tool v → Image.decode c tool (Image.encode c tool v) = .ok v) :
    RacersAgree c fits := by
  rintro ι ε _ r v start st turns rfl hfits hstart hruns
  have hread : Image.decode r.codec r.store.tool (r.image v) = .ok v := hdecode _ _ hfits
  have hsound := hstart.sound.runs hstart.names hstart.builds hread hruns
  have hgives : ∀ j result, st.phase j = .finished result →
      ∃ outcome, result = .ok (v, outcome) := by
    intro j result hfinished
    have hhas := hsound.has j
    rwa [hfinished] at hhas
  refine ⟨hsound.whole, hgives, ?_, ?_⟩
  · intro j hturns
    have hleft := hruns.left_le j
    rw [hstart.waiting j] at hleft
    have hnone : (st.phase j).left = 0 := by
      have hfive : (Race.Phase.waiting : Race.Phase ε α).left = 5 := rfl
      omega
    obtain ⟨result, hfinished⟩ := Race.Phase.exists_of_left_eq_zero hnone
    obtain ⟨outcome, rfl⟩ := hgives j result hfinished
    exact ⟨outcome, hfinished⟩
  · intro i next hstep hbefore hbuilt later last hlater hsmooth
    have hnext := hsound.step hstart.names hstart.builds hread hstep
    have hserves : r.Serves v next.disk := by
      -- the artifact file can be read from this step on
      cases hstep with
      | move =>
        rw [Race.State.after_phase_self] at hbuilt
        exact hsound.serves_of_built hstart.names (r.moves i st.disk (st.phase i)) hbefore hbuilt
    obtain ⟨hlast, hlate⟩ := hserves.runs hnext hstart.names hstart.builds hread hlater hsmooth
    refine ⟨fun j hwaiting => hlate j (.inl hwaiting), ?_⟩
    exact ArtifactStore.resolve_of_load? hstart.enabled (hlast.load? hread)

/-- Resolvers agree on texts, on compiled programs, and on every value that is read back from its
image. -/
theorem racing_resolvers_agree :
    RacersAgree string (fun tool s =>
      TextFits s ∧ (Header.ofPayload tool (string.write s)).Fits) ∧
    RacersAgree compilation (fun tool v =>
      v.Fits (· < fourBytes) ∧ (Header.ofPayload tool (compilation.write v)).Fits) ∧
    ∀ (α : Type) (c : Codec α),
      RacersAgree c fun tool v => Image.decode c tool (Image.encode c tool v) = .ok v := by
  refine ⟨?_, ?_, ?_⟩
  · refine racersAgree_of_decode fun tool s hs => ?_
    exact Image.decode_encode (returns_string hs.1) hs.2
  · refine racersAgree_of_decode fun tool v hv => ?_
    exact Image.decode_encode (returns_compilation (fun _ hn => .inr hn) hv.1) hv.2
  · intro α c
    exact racersAgree_of_decode fun tool v hv => hv

/-- A clearing comes between the making of the folder and the writing by one resolver, which has
its value all the same. Another one publishes it, and a third one finds it in the store. -/
theorem racing_resolvers_agree_past_clearing :
    let r : Race (Fin 3) Unit String :=
      ⟨⟨[], "c", true, "0.1.0"⟩, string, ⟨Vector.replicate 32 7⟩, fun _ _ => .ok "built", Fin.val⟩
    let start : Race.State (Fin 3) Unit String := ⟨Disk.empty, fun _ => .waiting⟩
    let made := r.go start [0, 1, 0, 1, 0]
    let cleared : Race.State (Fin 3) Unit String := ⟨(r.store.clear made.disk).2, made.phase⟩
    let last := r.go cleared [0, 1, 1, 1, 2]
    r.Starts "built" start ∧ last.phase 0 = .finished (.ok ("built", .builtUncached)) ∧
      last.phase 1 = .finished (.ok ("built", .built)) ∧
      last.phase 2 = .finished (.ok ("built", .hit)) := by
  intro r start made cleared last
  have hroot : r.store.root = ["c"] := by decide +kernel
  have hfolders : r.store.folders = [["c"]] := by decide +kernel
  have hlooksAt : looksAt r.store.folder r.store.location = [["c"]] := by decide +kernel
  have hlength : ∀ j path, r.privatePlace j <+: path → 2 ≤ path.length := by
    intro j path hprefix
    have hle := hprefix.length_le
    rwa [Race.privatePlace, hroot] at hle
  have hstart : r.Starts "built" start := by
    refine ⟨rfl, fun _ => rfl, fun _ => rfl, ?_, ⟨fun _ _ => Fin.ext, ?_, ?_⟩⟩
    · intro bytes hfile
      have hnone : Disk.empty.find? r.artifact = none := if_neg r.artifact_ne_nil
      exact absurd (hfile.symm.trans hnone) nofun
    · intro j path hprefix
      have hpath : path ≠ [] := by
        rintro rfl
        exact absurd (hlength j _ hprefix) (by decide)
      exact if_neg hpath
    · intro j path hprefix
      have hout : path ∉ [["c"]] := by
        intro hmem
        obtain rfl := List.mem_singleton.mp hmem
        exact absurd (hlength j _ hprefix) (by decide)
      rw [hfolders, hlooksAt]
      exact ⟨hout, hout⟩
  -- up to the moment when the second resolver renames its file
  let before := r.go cleared [0, 1, 1]
  have hruns : r.Runs _ start before :=
    (r.runs_go start [0, 1, 0, 1, 0]).append (.cons (.clear r made) (r.runs_go cleared [0, 1, 1]))
  let next := r.go before [1]
  have hplacing : before.phase 1 = .placing "built" := by decide +kernel
  have hbuilt : next.phase 1 = .finished (.ok ("built", .built)) := by decide +kernel
  have hwaiting : next.phase 2 = .waiting := by decide +kernel
  have hfits : TextFits "built" ∧
      (Header.ofPayload r.store.tool (string.write "built")).Fits := by decide +kernel
  obtain ⟨hstrings, -⟩ := racing_resolvers_agree
  obtain ⟨-, -, -, hlater⟩ := hstrings (Fin 3) Unit r "built" start before _ rfl hfits hstart hruns
  obtain ⟨hlate, -⟩ := hlater 1 next (.move 1) (by simp [hplacing]) hbuilt
    ([2].map .move) last (r.runs_go next [2]) (by
      intro turn hturn
      obtain rfl := List.mem_singleton.mp hturn
      trivial)
  refine ⟨hstart, by decide +kernel, by decide +kernel, ?_⟩
  rcases hlate 2 hwaiting with hstill | hhit
  · exact absurd hstill (by decide +kernel)
  · exact hhit

end LineQuery.Store
