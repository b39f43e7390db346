import LineQuery.Proofs.Files.Within
import LineQuery.Proofs.Store.Territory
import Mathlib.Logic.Function.Basic

/-! # Resolvers at the same time

Any number of resolvers of one fingerprint use one store, and their steps come in any order, with
clearings and failures between them. A resolver reads the artifact, builds the value, makes the
folder of the store, writes a private file and renames it. The invariant is that what stands in the
artifact file is the image of the value, and that what stands under a private name is not touched
by anyone but its owner, who renames it only when it is the image.
-/

namespace LineQuery.Store

open LineQuery.Digest (Fingerprint)
open LineQuery.Files (Disk Entry Path looksAt place)
open LineQuery.Files.Disk (AgreeAt GainsFolders LosesBelow)
open LineQuery.Text (Bytes)
open ArtifactStore (filePlace privateName)

/-- Resolvers of one fingerprint that use one store: what each of them builds, and the number of
its private name. -/
structure Race (ι ε α : Type) where
  store : ArtifactStore
  codec : Codec α
  key : Fingerprint
  build : ι → Fingerprint → Except ε α
  temp : ι → Nat

namespace Race

/-! ## Steps -/

/-- How far a resolver has come. -/
inductive Phase (ε α : Type) where
  /-- The artifact has not been read. -/
  | waiting
  /-- There was no artifact to use. -/
  | building
  /-- The value has been built, and the folder of the store is to be made. -/
  | making (v : α)
  | writing (v : α)
  | placing (v : α)
  | finished (result : Except ε (α × Outcome))
deriving DecidableEq

/-- The disk, and how far the resolvers have come. -/
structure State (ι ε α : Type) where
  disk : Disk
  phase : ι → Phase ε α

variable {ι ε α : Type}

/-- The private file of a resolver, as it is written. -/
def privatePath (r : Race ι ε α) (j : ι) : String :=
  Files.Written.within r.store.location (privateName (r.temp j))

def privatePlace (r : Race ι ε α) (j : ι) : Path :=
  r.store.root ++ [privateName (r.temp j)]

def artifact (r : Race ι ε α) : Path :=
  filePlace r.store.root r.key

def image (r : Race ι ε α) (v : α) : Bytes :=
  Image.encode r.codec r.store.tool v

/-- The disk without the private file of a resolver, if it can be removed. -/
def withoutPrivate (r : Race ι ε α) (j : ι) (d : Disk) : Disk :=
  match d.removeFile r.store.folder (r.privatePath j) with
  | .ok d => d
  | .error _ => d

/-- What a resolver does next. -/
def move (r : Race ι ε α) (j : ι) : Disk × Phase ε α → Disk × Phase ε α
  | (d, .waiting) =>
    match r.store.load? r.codec d r.key with
    | some v => (d, .finished (.ok (v, .hit)))
    | none => (d, .building)
  | (d, .building) =>
    match r.build j r.key with
    | .ok v => (d, .making v)
    | .error e => (d, .finished (.error e))
  | (d, .making v) =>
    match d.makeFolders r.store.folder r.store.location with
    | (.ok (), d) => (d, .writing v)
    | (.error _, d) => (d, .finished (.ok (v, .builtUncached)))
  | (d, .writing v) =>
    match d.write r.store.folder (r.privatePath j) (r.image v) with
    | .ok d => (d, .placing v)
    | .error _ => (d, .finished (.ok (v, .builtUncached)))
  | (d, .placing v) =>
    match d.rename r.store.folder (r.privatePath j) (r.store.artifactPath r.key) with
    | .ok d => (d, .finished (.ok (v, .built)))
    | .error _ => (r.withoutPrivate j d, .finished (.ok (v, .builtUncached)))
  | (d, .finished result) => (d, .finished result)

/-- What a resolver may have done when it has done a part of its next move: made some of the
folders, or written some bytes. -/
inductive Partly (r : Race ι ε α) (j : ι) : Phase ε α → Disk → Disk → Prop where
  | making {v : α} {d d' : Disk} (made : GainsFolders r.store.folders d d') :
    Partly r j (.making v) d d'
  | writing {v : α} {d d' : Disk} (bytes : Bytes)
    (written : d.write r.store.folder (r.privatePath j) bytes = .ok d') :
    Partly r j (.writing v) d d'

/-- What comes of a move that the disk fails: what cannot be read is built, and what cannot be
stored is used all the same. The private file may be removed or stay. -/
inductive Fails (r : Race ι ε α) (j : ι) : Phase ε α → Disk → Disk × Phase ε α → Prop where
  | reading {d : Disk} : Fails r j .waiting d (d, .building)
  | making {v : α} {d d' : Disk} (made : GainsFolders r.store.folders d d') :
    Fails r j (.making v) d (d', .finished (.ok (v, .builtUncached)))
  | writing {v : α} {d d' : Disk} (removed : LosesBelow (r.privatePlace j) d d') :
    Fails r j (.writing v) d (d', .finished (.ok (v, .builtUncached)))
  | placing {v : α} {d d' : Disk} (removed : LosesBelow (r.privatePlace j) d d') :
    Fails r j (.placing v) d (d', .finished (.ok (v, .builtUncached)))

/-- Whose turn it is, and what for. -/
inductive Turn (ι : Type) where
  | move (j : ι)
  | part (j : ι)
  | failure (j : ι)
  | clearing

/-- The state after a resolver has gone on. -/
def State.after [DecidableEq ι] (st : State ι ε α) (j : ι) (outcome : Disk × Phase ε α) :
    State ι ε α :=
  ⟨outcome.1, Function.update st.phase j outcome.2⟩

/-- One step: a move or a part of one, a failure of the disk, or a part of a clearing. -/
inductive Step [DecidableEq ι] (r : Race ι ε α) : Turn ι → State ι ε α → State ι ε α → Prop where
  | move {st : State ι ε α} (j : ι) :
    Step r (.move j) st (st.after j (r.move j (st.disk, st.phase j)))
  | part {st : State ι ε α} (j : ι) {d : Disk} (partly : r.Partly j (st.phase j) st.disk d) :
    Step r (.part j) st ⟨d, st.phase⟩
  | failure {st : State ι ε α} (j : ι) {outcome : Disk × Phase ε α}
    (fails : r.Fails j (st.phase j) st.disk outcome) :
    Step r (.failure j) st (st.after j outcome)
  /-- What is done of a clearing takes away something in the folder of the store, or it all. -/
  | clearing {st : State ι ε α} {d : Disk} (removed : LosesBelow r.store.root st.disk d) :
    Step r .clearing st ⟨d, st.phase⟩

/-- Steps one after another. -/
inductive Runs [DecidableEq ι] (r : Race ι ε α) :
    List (Turn ι) → State ι ε α → State ι ε α → Prop where
  | nil (st : State ι ε α) : Runs r [] st st
  | cons {turn : Turn ι} {turns : List (Turn ι)} {st next last : State ι ε α}
    (step : r.Step turn st next) (rest : r.Runs turns next last) : Runs r (turn :: turns) st last

/-- What a move does, whether the disk fails it or not. -/
inductive Moves (r : Race ι ε α) (j : ι) : Phase ε α → Disk → Disk × Phase ε α → Prop where
  | hit {v : α} {d : Disk} (loaded : r.store.load? r.codec d r.key = some v) :
    Moves r j .waiting d (d, .finished (.ok (v, .hit)))
  | built {v : α} {d : Disk} (value : r.build j r.key = .ok v) :
    Moves r j .building d (d, .making v)
  | refused {e : ε} {d : Disk} (refusal : r.build j r.key = .error e) :
    Moves r j .building d (d, .finished (.error e))
  | made {v : α} {d d' : Disk} (made : GainsFolders r.store.folders d d') :
    Moves r j (.making v) d (d', .writing v)
  | written {v : α} {d d' : Disk}
    (written : d.write r.store.folder (r.privatePath j) (r.image v) = .ok d') :
    Moves r j (.writing v) d (d', .placing v)
  | renamed {v : α} {d d' : Disk}
    (renamed : d.rename r.store.folder (r.privatePath j) (r.store.artifactPath r.key) = .ok d') :
    Moves r j (.placing v) d (d', .finished (.ok (v, .built)))
  | stopped {result : Except ε (α × Outcome)} {d : Disk} :
    Moves r j (.finished result) d (d, .finished result)
  /-- A move may come to the same as one that the disk fails. -/
  | failed {p : Phase ε α} {d : Disk} {outcome : Disk × Phase ε α}
    (fails : r.Fails j p d outcome) : Moves r j p d outcome

/-- A whole clearing is a step. -/
theorem Step.clear [DecidableEq ι] (r : Race ι ε α) (st : State ι ε α) :
    r.Step .clearing st ⟨(r.store.clear st.disk).2, st.phase⟩ :=
  .clearing (r.store.losesBelow_clear st.disk)

/-! ## Names of private files -/

/-- The private names are nobody else's: no two resolvers have the same one, nothing stands under
one of them at first, and none is on the way to the store. -/
structure NamesUnique (r : Race ι ε α) (d : Disk) : Prop where
  distinct : Function.Injective r.temp
  unused : ∀ j path, r.privatePlace j <+: path → d.find? path = none
  offPath : ∀ j path, r.privatePlace j <+: path →
    path ∉ r.store.folders ∧ path ∉ looksAt r.store.folder r.store.location

section Places

variable {r : Race ι ε α} {d d' : Disk} {j k : ι}

theorem place_privatePath (r : Race ι ε α) (j : ι) :
    place r.store.folder (r.privatePath j) = r.privatePlace j :=
  Files.place_within (ArtifactStore.isName_privateName _) r.store.folder r.store.location

theorem place_artifactPath (r : Race ι ε α) :
    place r.store.folder (r.store.artifactPath r.key) = r.artifact :=
  ArtifactStore.place_artifactPath r.store r.key

theorem privatePlace_ne_nil (r : Race ι ε α) (j : ι) : r.privatePlace j ≠ [] :=
  List.concat_ne_nil _ _

theorem artifact_ne_nil (r : Race ι ε α) : r.artifact ≠ [] :=
  ArtifactStore.filePlace_ne_nil _ _

theorem artifact_ne_privatePlace (r : Race ι ε α) (j : ι) : r.artifact ≠ r.privatePlace j :=
  ArtifactStore.filePlace_ne_private r.store.root r.key _

/-- Names in one folder are not below each other. -/
theorem eq_of_prefix_of_concat {root : Path} {a b : String} (h : root ++ [a] <+: root ++ [b]) :
    root ++ [a] = root ++ [b] :=
  h.eq_of_length (by rw [List.length_append, List.length_append]; rfl)

theorem NamesUnique.privatePlace_ne (h : r.NamesUnique d) (hne : j ≠ k) :
    r.privatePlace j ≠ r.privatePlace k := by
  intro hplace
  have hname : privateName (r.temp j) = privateName (r.temp k) :=
    List.singleton_inj.mp (List.append_cancel_left hplace)
  exact hne (h.distinct (ArtifactStore.privateName_injective hname))

/-- The walk to the artifact file does not come past a private file. -/
theorem NamesUnique.not_prefix_of_mem_looksAt (h : r.NamesUnique d) (j : ι) {q : Path}
    (hq : q ∈ looksAt r.store.folder (r.store.artifactPath r.key)) : ¬ r.privatePlace j <+: q := by
  intro hprefix
  rw [ArtifactStore.artifactPath,
    Files.looksAt_within (ArtifactStore.isName_fileName r.key)] at hq
  rcases List.mem_append.mp hq with hfront | hlast
  · exact (h.offPath j q hprefix).2 hfront
  · obtain rfl := List.mem_singleton.mp hlast
    exact r.artifact_ne_privatePlace j (eq_of_prefix_of_concat hprefix).symm

theorem losesBelow_withoutPrivate (r : Race ι ε α) (j : ι) (d : Disk) :
    LosesBelow (r.privatePlace j) d (r.withoutPrivate j d) := by
  unfold withoutPrivate
  split
  · rename_i hremoved
    obtain rfl := Files.Disk.eq_of_removeFile hremoved
    rw [place_privatePath]
    exact Files.Disk.losesBelow_erase d _
  · exact .refl _ d

theorem moves (r : Race ι ε α) (j : ι) (d : Disk) (p : Phase ε α) :
    r.Moves j p d (r.move j (d, p)) := by
  have hgains := Files.Disk.gainsFolders_makeFolders d r.store.folder r.store.location
  cases p with
  | waiting =>
    rw [move]
    split
    · exact .hit (by assumption)
    · exact .failed .reading
  | building =>
    rw [move]
    split
    · exact .built (by assumption)
    · exact .refused (by assumption)
  | making v =>
    rw [move]
    split
    · rename_i hmade
      rw [hmade] at hgains
      exact .made hgains
    · rename_i hmade
      rw [hmade] at hgains
      exact .failed (.making hgains)
  | writing v =>
    rw [move]
    split
    · exact .written (by assumption)
    · exact .failed (.writing (.refl _ d))
  | placing v =>
    rw [move]
    split
    · exact .renamed (by assumption)
    · exact .failed (.placing (r.losesBelow_withoutPrivate j d))
  | finished result => exact .stopped

end Places

/-! ## The invariant -/

/-- What a resolver has in hand is the value, and so is what it gives. -/
def Phase.Has (v : α) : Phase ε α → Prop
  | .waiting | .building => True
  | .making w | .writing w | .placing w => w = v
  | .finished result => ∃ outcome, result = .ok (v, outcome)

/-- What may stand under the private name of a resolver: nothing before it is written, and the
image when it is to be renamed. -/
def Phase.Leaves (image : Bytes) : Phase ε α → Entry → Prop
  | .waiting, _ | .building, _ | .making _, _ => False
  | .writing _, e => ∃ bytes, e = .file bytes
  | .placing _, e => e = .file image
  | .finished _, _ => True

/-- The artifact file is the image of the value or is not there, and the resolvers have nothing but
the value and its image. -/
structure Sound (r : Race ι ε α) (v : α) (st : State ι ε α) : Prop where
  whole : ∀ bytes, st.disk.find? r.artifact = some (.file bytes) → bytes = r.image v
  has : ∀ j, (st.phase j).Has v
  leaves : ∀ j e, st.disk.find? (r.privatePlace j) = some e → (st.phase j).Leaves (r.image v) e

section Disks

variable {r : Race ι ε α} {v : α} {st : State ι ε α} {d₀ d d' : Disk} {j k : ι}

theorem stood_of_losesBelow {top path : Path} {e : Entry} (h : LosesBelow top d d')
    (he : d'.find? path = some e) : d.find? path = some e := by
  rcases h path with hsame | ⟨-, hnone⟩
  · rwa [← hsame]
  · exact absurd (hnone.symm.trans he) nofun

/-- Making folders makes no private file. -/
theorem NamesUnique.stood (h : r.NamesUnique d₀) (hgains : GainsFolders r.store.folders d d')
    (k : ι) {e : Entry} (he : d'.find? (r.privatePlace k) = some e) :
    d.find? (r.privatePlace k) = some e := by
  rcases hgains (r.privatePlace k) with hsame | ⟨hmem, -, -⟩
  · rwa [← hsame]
  · exact absurd hmem (h.offPath k _ List.prefix_rfl).1

/-- Writing a private file puts the bytes under its name, and nothing else happens. -/
theorem Sound.eq_of_write (h : r.Sound v st) {w : α} {bytes : Bytes}
    (hphase : st.phase j = .writing w)
    (hwrite : st.disk.write r.store.folder (r.privatePath j) bytes = .ok d) :
    d = st.disk.set (r.privatePlace j) (.file bytes) := by
  have hwritten := Files.Disk.eq_of_write hwrite
  rw [place_privatePath] at hwritten
  rcases hwritten with ⟨hset, -⟩ | ⟨-, device, hdevice⟩
  · exact hset
  · -- no device has the name of a private file
    have hleaves := h.leaves j _ hdevice
    rw [hphase] at hleaves
    obtain ⟨found, hfile⟩ := hleaves
    exact nomatch hfile

/-- The private file that is renamed is the image, and it comes to the place of the artifact. -/
theorem Sound.eq_of_rename (h : r.Sound v st) {w : α} (hphase : st.phase j = .placing w)
    (hrename : st.disk.rename r.store.folder (r.privatePath j) (r.store.artifactPath r.key) =
      .ok d) :
    st.disk.find? (r.privatePlace j) = some (.file (r.image v)) ∧
      d = (st.disk.erase (r.privatePlace j)).set r.artifact (.file (r.image v)) := by
  obtain ⟨e, hstands, hmoved, -⟩ := Files.Disk.eq_of_rename_within
    (ArtifactStore.isName_privateName _) hrename
  have hleaves := h.leaves j e hstands
  rw [hphase] at hleaves
  obtain rfl : e = .file (r.image v) := hleaves
  rw [place_artifactPath] at hmoved
  exact ⟨hstands, hmoved⟩

/-- What is loaded is the value. -/
theorem Sound.eq_of_load? (h : r.Sound v st)
    (hread : Image.decode r.codec r.store.tool (r.image v) = .ok v) {w : α}
    (hload : r.store.load? r.codec st.disk r.key = some w) : w = v := by
  unfold ArtifactStore.load? at hload
  split at hload
  · exact nomatch hload
  · rename_i raw hraw
    split at hload
    · rename_i u hdecode
      obtain rfl := Option.some.inj hload
      rcases Files.Disk.find?_of_read hraw with hfile | ⟨rfl, -⟩
      · rw [place_artifactPath] at hfile
        rw [h.whole raw hfile, hread] at hdecode
        exact (Except.ok.inj hdecode).symm
      · exact nomatch hdecode
    · exact nomatch hload

/-- The invariant is kept when nothing new stands in the artifact file or under a private name. -/
theorem Sound.of_disk (h : r.Sound v st)
    (hartifact : ∀ bytes, d.find? r.artifact = some (.file bytes) →
      st.disk.find? r.artifact = some (.file bytes))
    (hprivate : ∀ j e, d.find? (r.privatePlace j) = some e →
      st.disk.find? (r.privatePlace j) = some e) : r.Sound v ⟨d, st.phase⟩ where
  whole bytes hfile := h.whole bytes (hartifact bytes hfile)
  has := h.has
  leaves j e he := h.leaves j e (hprivate j e he)

end Disks

section Steps

variable [DecidableEq ι] {r : Race ι ε α} {v : α} {st st' : State ι ε α} {d₀ d : Disk} {j k : ι}

theorem State.after_phase_self (st : State ι ε α) (j : ι) (outcome : Disk × Phase ε α) :
    (st.after j outcome).phase j = outcome.2 :=
  Function.update_self ..

theorem State.after_phase_of_ne (h : j ≠ k) (outcome : Disk × Phase ε α) :
    (st.after j outcome).phase k = st.phase k :=
  Function.update_of_ne (Ne.symm h) ..

/-- The invariant is kept when one resolver goes on, if it has put nothing but the image in the
artifact file and left the private files of the others alone. -/
theorem Sound.after (h : r.Sound v st) {p : Phase ε α} (hhas : p.Has v)
    (hartifact : ∀ bytes, d.find? r.artifact = some (.file bytes) →
      bytes = r.image v ∨ st.disk.find? r.artifact = some (.file bytes))
    (hothers : ∀ k e, j ≠ k → d.find? (r.privatePlace k) = some e →
      st.disk.find? (r.privatePlace k) = some e)
    (hleaves : ∀ e, d.find? (r.privatePlace j) = some e → p.Leaves (r.image v) e) :
    r.Sound v (st.after j (d, p)) where
  whole bytes hfile := by
    rcases hartifact bytes hfile with himage | hstood
    · exact himage
    · exact h.whole bytes hstood
  has k := by
    by_cases hk : j = k
    · subst hk
      rwa [State.after_phase_self]
    · rw [State.after_phase_of_ne hk]
      exact h.has k
  leaves k e he := by
    by_cases hk : j = k
    · subst hk
      rw [State.after_phase_self]
      exact hleaves e he
    · rw [State.after_phase_of_ne hk]
      exact h.leaves k e (hothers k e hk he)

/-- A resolver that goes on without the disk keeps the invariant. -/
theorem Sound.goesOn (h : r.Sound v st) {p : Phase ε α} (hhas : p.Has v)
    (hleaves : ∀ e, (st.phase j).Leaves (r.image v) e → p.Leaves (r.image v) e) :
    r.Sound v (st.after j (st.disk, p)) :=
  h.after hhas (fun _ => .inr) (fun _ _ _ => id) fun e he => hleaves e (h.leaves j e he)

/-- So does one that has made folders. -/
theorem Sound.gains (h : r.Sound v st) (hnames : r.NamesUnique d₀) {p : Phase ε α} {w : α}
    (hphase : st.phase j = .making w) (hhas : p.Has v)
    (hgains : GainsFolders r.store.folders st.disk d) : r.Sound v (st.after j (d, p)) := by
  refine h.after hhas (fun bytes hfile => .inr (hgains.file hfile))
    (fun k e _ he => hnames.stood hgains k he) ?_
  intro e he
  have hleaves := h.leaves j e (hnames.stood hgains j he)
  rw [hphase] at hleaves
  exact hleaves.elim

/-- So does one that gives up its private file. -/
theorem Sound.gives (h : r.Sound v st) {top : Path} {w : α}
    (hphase : (st.phase j).Has v → w = v) (hloses : LosesBelow top st.disk d) :
    r.Sound v (st.after j (d, .finished (.ok (w, .builtUncached)))) :=
  h.after ⟨_, by rw [hphase (h.has j)]⟩ (fun _ hfile => .inr (hloses.file hfile))
    (fun _ _ _ he => stood_of_losesBelow hloses he) fun _ _ => trivial

theorem Sound.fails (h : r.Sound v st) (hnames : r.NamesUnique d₀)
    {outcome : Disk × Phase ε α} (hfails : r.Fails j (st.phase j) st.disk outcome) :
    r.Sound v (st.after j outcome) := by
  have hhas := h.has j
  generalize hphase : st.phase j = p at hfails hhas
  cases hfails with
  | reading => exact h.goesOn trivial fun e he => by rw [hphase] at he; exact he
  | making hgains => exact h.gains hnames hphase ⟨_, by rw [hhas]⟩ hgains
  | writing hloses => exact h.gives (fun _ => hhas) hloses
  | placing hloses => exact h.gives (fun _ => hhas) hloses

theorem Sound.moves (h : r.Sound v st) (hnames : r.NamesUnique d₀)
    (hbuild : r.build j r.key = .ok v)
    (hread : Image.decode r.codec r.store.tool (r.image v) = .ok v) {outcome : Disk × Phase ε α}
    (hmoves : r.Moves j (st.phase j) st.disk outcome) : r.Sound v (st.after j outcome) := by
  have hhas := h.has j
  generalize hphase : st.phase j = p at hmoves hhas
  -- Only a writing and a renaming put a file somewhere: the first under the resolver's own name,
  -- the second over the artifact file, and then what is renamed is the image.
  cases hmoves with
  | hit hload =>
    obtain rfl := h.eq_of_load? hread hload
    exact h.goesOn ⟨_, rfl⟩ fun _ _ => trivial
  | built hvalue =>
    obtain rfl := Except.ok.inj (hbuild.symm.trans hvalue)
    exact h.goesOn rfl fun e he => by rw [hphase] at he; exact he
  | refused hrefusal => exact absurd (hbuild.symm.trans hrefusal) nofun
  | made hgains => exact h.gains hnames hphase hhas hgains
  | written hwrite =>
    obtain rfl := hhas
    obtain rfl := h.eq_of_write hphase hwrite
    refine h.after rfl ?_ ?_ ?_
    · intro bytes hfile
      rw [Files.Disk.find?_set_of_ne (r.artifact_ne_privatePlace j)] at hfile
      exact .inr hfile
    · intro k e hk he
      rwa [Files.Disk.find?_set_of_ne (hnames.privatePlace_ne hk).symm] at he
    · intro e he
      rw [Files.Disk.find?_set_self (r.privatePlace_ne_nil j)] at he
      exact (Option.some.inj he).symm
  | renamed hrename =>
    obtain rfl := hhas
    obtain ⟨-, rfl⟩ := h.eq_of_rename hphase hrename
    refine h.after ⟨_, rfl⟩ ?_ ?_ fun _ _ => trivial
    · intro bytes hfile
      rw [Files.Disk.find?_set_self r.artifact_ne_nil] at hfile
      exact .inl (Entry.file.inj (Option.some.inj hfile)).symm
    · intro k e hk he
      rw [Files.Disk.find?_set_of_ne (r.artifact_ne_privatePlace k).symm] at he
      exact stood_of_losesBelow (Files.Disk.losesBelow_erase _ _) he
  | stopped => exact h.goesOn hhas fun _ _ => trivial
  | failed hfails => exact h.fails hnames (hphase ▸ hfails)

theorem Sound.part (h : r.Sound v st) (hnames : r.NamesUnique d₀)
    (hpartly : r.Partly j (st.phase j) st.disk d) : r.Sound v ⟨d, st.phase⟩ := by
  generalize hphase : st.phase j = p at hpartly
  cases hpartly with
  | making hgains =>
    exact h.of_disk (fun _ hfile => hgains.file hfile) fun k _ he => hnames.stood hgains k he
  | writing bytes hwrite =>
    -- whatever bytes there are so far, they stand under the resolver's own name
    obtain rfl := h.eq_of_write hphase hwrite
    refine ⟨?_, h.has, ?_⟩
    · intro found hfile
      rw [Files.Disk.find?_set_of_ne (r.artifact_ne_privatePlace j)] at hfile
      exact h.whole found hfile
    · intro k e he
      by_cases hk : j = k
      · subst hk
        rw [Files.Disk.find?_set_self (r.privatePlace_ne_nil j)] at he
        rw [hphase]
        exact ⟨bytes, (Option.some.inj he).symm⟩
      · rw [Files.Disk.find?_set_of_ne (hnames.privatePlace_ne hk).symm] at he
        exact h.leaves k e he

/-- Every step keeps the invariant. -/
theorem Sound.step (h : r.Sound v st) (hnames : r.NamesUnique d₀)
    (hbuild : ∀ j, r.build j r.key = .ok v)
    (hread : Image.decode r.codec r.store.tool (r.image v) = .ok v) {turn : Turn ι}
    (hstep : r.Step turn st st') : r.Sound v st' := by
  cases hstep with
  | move j => exact h.moves hnames (hbuild j) hread (r.moves j st.disk (st.phase j))
  | part j hpartly => exact h.part hnames hpartly
  | failure j hfails => exact h.fails hnames hfails
  | clearing hloses =>
    exact h.of_disk (fun _ hfile => hloses.file hfile) fun _ _ he => stood_of_losesBelow hloses he

theorem Sound.runs (h : r.Sound v st) (hnames : r.NamesUnique d₀)
    (hbuild : ∀ j, r.build j r.key = .ok v)
    (hread : Image.decode r.codec r.store.tool (r.image v) = .ok v) {turns : List (Turn ι)}
    (hruns : r.Runs turns st st') : r.Sound v st' := by
  induction hruns with
  | nil => exact h
  | cons hstep _ ih => exact ih (h.step hnames hbuild hread hstep)

end Steps

end Race

end LineQuery.Store
