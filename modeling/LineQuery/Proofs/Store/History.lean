import LineQuery.Proofs.Store.Soundness

/-! # Histories of a store

What a store serves after any history: resolves through stores in one folder, by tools of any
version and with the store in use or not, clearings, and deletions and cuts of artifact files. The
invariant is that each artifact file is the front of the image of the last value that was built
and published for its fingerprint, by the tool that did so.
-/

namespace LineQuery.Store

open LineQuery.Digest (Fingerprint)
open LineQuery.Files (Disk Path)
open ArtifactStore (resolves)

/-- A codec that reads back the values that fit, or refuses them, and looks at nothing more. -/
structure Codec.Lawful (c : Codec α) (fits : α → Prop) : Prop where
  returns : ∀ v, fits v → c.Returns True v
  readsLocally : c.read.Local

theorem lawful_string : string.Lawful TextFits where
  returns _ h := returns_string h
  readsLocally := local_string

theorem lawful_compilation : compilation.Lawful (Compilation.Fits fun _ => True) where
  returns _ h := returns_compilation (fun _ _ => .inl trivial) h
  readsLocally := local_compilation

variable {ε α : Type}

/-- What is done with a folder of artifacts. -/
inductive Deed (ε α : Type) where
  | resolve (build : Fingerprint → Except ε α) (key : Fingerprint)
  | clear
  | delete (key : Fingerprint)
  | cut (key : Fingerprint) (length : Nat)

/-- A deed, and the store that it is done with. -/
structure Event (ε α : Type) where
  store : ArtifactStore
  deed : Deed ε α

namespace Event

def after (c : Codec α) (e : Event ε α) (d : Disk) : Disk :=
  match e.deed with
  | .resolve build key => (e.store.resolve c build d key).2
  | .clear => (e.store.clear d).2
  | .delete key => e.store.afterDeleting d key
  | .cut key length => e.store.afterCutting d key length

/-- The value that an event publishes under a fingerprint, if it is a resolve that builds and
publishes one, and the version of the tool. -/
def built? (c : Codec α) (e : Event ε α) (d : Disk) (key : Fingerprint) : Option (String × α) :=
  match e.deed with
  | .resolve build other =>
    match (e.store.resolve c build d other).1 with
    | .ok (v, .built) => if other = key then some (e.store.tool, v) else none
    | _ => none
  | _ => none

/-- An event with a store in a folder, whose builder gives values that fit. -/
structure Within (root : Path) (fits : α → Prop) (e : Event ε α) : Prop where
  root : e.store.root = root
  tool : TextFits e.store.tool
  value : ∀ build key v, e.deed = .resolve build key → build key = .ok v → fits v

end Event

def afterAll (c : Codec α) (d : Disk) (es : List (Event ε α)) : Disk :=
  es.foldl (fun d e => e.after c d) d

/-- The value that a history has published last under a fingerprint, and the version of the tool
that did. -/
def lastBuilt? (c : Codec α) (key : Fingerprint) : Disk → List (Event ε α) → Option (String × α)
  | _, [] => none
  | d, e :: es => (lastBuilt? c key (e.after c d) es).or (e.built? c d key)

variable {c : Codec α} {fits : α → Prop} {root : Path} {d : Disk}

/-- A store in whose files stand the fronts of images of the values that were published last. -/
structure Recorded (root : Path) (c : Codec α) (fits : α → Prop)
    (last : Fingerprint → Option (String × α)) (d : Disk) : Prop where
  sound : Sound root c (fun key tool v => last key = some (tool, v)) d
  fits : ∀ key tool v, last key = some (tool, v) → TextFits tool ∧ fits v

/-- What a resolve publishes was built by its builder. -/
theorem Event.Within.fits_of_built? {e : Event ε α} (he : e.Within root fits) {key : Fingerprint}
    {tool : String} {v : α} (h : e.built? c d key = some (tool, v)) : TextFits tool ∧ fits v := by
  obtain ⟨store, deed⟩ := e
  cases deed with
  | resolve build other =>
    have hresolves := resolves store c build d other
    unfold Event.built? at h
    dsimp only at h
    generalize store.resolve c build d other = outcome at hresolves h
    cases hresolves with
    | built w stored d' henabled hvalue hstore =>
      cases stored with
      | false => exact nomatch h
      | true =>
        change (if other = key then some (store.tool, w) else none) = some (tool, v) at h
        split at h
        · obtain ⟨rfl, rfl⟩ := Prod.mk.inj (Option.some.inj h)
          exact ⟨he.tool, he.value build other w rfl hvalue⟩
        · exact nomatch h
    | hit => exact nomatch h
    | failed => exact nomatch h
    | passed => exact nomatch h
  | clear => exact nomatch h
  | delete => exact nomatch h
  | cut => exact nomatch h

variable {last : Fingerprint → Option (String × α)}

/-- Each event leaves in the files the fronts of images of the values published last. -/
theorem Sound.after {e : Event ε α} (he : e.store.root = root)
    (h : Sound root c (fun key tool v => last key = some (tool, v)) d) :
    Sound root c (fun key tool v => (e.built? c d key).or (last key) = some (tool, v))
      (e.after c d) := by
  obtain ⟨store, deed⟩ := e
  obtain rfl := he
  cases deed with
  | resolve build key =>
    have hresolves := resolves store c build d key
    unfold Event.built? Event.after
    dsimp only
    generalize store.resolve c build d key = outcome at hresolves ⊢
    cases hresolves with
    | hit => exact h
    | failed => exact h
    | passed => exact h
    -- only a value that was stored is what the folder serves from now on
    | built v stored d' henabled hvalue hstore =>
      refine h.store hstore ?_ ?_
      · rintro rfl
        simp
      · intro other tool w hlast
        cases stored with
        | false => exact .inr hlast
        | true =>
          by_cases hother : other = key
          · exact .inl ⟨rfl, hother⟩
          · refine .inr ?_
            simpa [Ne.symm hother] using hlast
  | clear => exact h.clear store
  | delete key => exact h.afterDeleting store key
  | cut key length => exact h.afterCutting key length

/-- One more event. -/
theorem Recorded.after {e : Event ε α} (h : Recorded root c fits last d)
    (he : e.Within root fits) :
    Recorded root c fits (fun key => (e.built? c d key).or (last key)) (e.after c d) where
  sound := h.sound.after he.root
  fits key tool v hlast := by
    rcases Option.or_eq_some_iff.mp hlast with hbuilt | ⟨-, hbefore⟩
    · exact he.fits_of_built? hbuilt
    · exact h.fits key tool v hbefore

/-- A whole history. -/
theorem Recorded.afterAll {es : List (Event ε α)} (h : Recorded root c fits last d)
    (hes : ∀ e ∈ es, e.Within root fits) :
    Recorded root c fits (fun key => (lastBuilt? c key d es).or (last key)) (afterAll c d es) := by
  induction es generalizing d last with
  | nil => exact h
  | cons e es ih =>
    obtain ⟨he, hes⟩ := List.forall_mem_cons.mp hes
    have hrest := ih (h.after he) hes
    simp only [← Option.or_assoc] at hrest
    exact hrest

/-- Where no file stands in a folder, nothing has been published. -/
theorem recorded_of_empty (h : ∀ name, d.find? (root ++ [name]) = none) :
    Recorded root c fits (fun _ => none) d where
  sound _ _ hfile := absurd ((h _).symm.trans hfile) nofun
  fits _ _ _ hlast := nomatch hlast

/-- What a store serves is what was published last, by a tool of its own version, and then it asks
no builder: that holds of the stores in a folder after every history. -/
def ServesLastBuilt (ε : Type) (c : Codec α) (fits : α → Prop) (root : Path) (d : Disk) : Prop :=
  ∀ es : List (Event ε α), (∀ e ∈ es, e.Within root fits) →
    ∀ s : ArtifactStore, s.root = root → ∀ (build : Fingerprint → Except ε α) key v d',
      s.resolve c build (afterAll c d es) key = (.ok (v, .hit), d') →
        lastBuilt? c key d es = some (s.tool, v) ∧
          ∀ build' : Fingerprint → Except ε α,
            s.resolve c build' (afterAll c d es) key = (.ok (v, .hit), d')

theorem Codec.Lawful.servesLastBuilt (hc : c.Lawful fits)
    (h : ∀ name, d.find? (root ++ [name]) = none) : ServesLastBuilt ε c fits root d := by
  rintro es hes s rfl build key v d' hhit
  have hempty : Recorded s.root c fits (fun _ => none) d := recorded_of_empty h
  have hrecorded := hempty.afterAll hes
  obtain ⟨henabled, hload, rfl⟩ := ArtifactStore.load?_of_hit hhit
  constructor
  · have hallowed := hrecorded.sound.allowed_of_load? hc.readsLocally
      (fun tool w hlast => (hrecorded.fits key tool w hlast).imp_right (hc.returns w)) hload
    rwa [Option.or_none] at hallowed
  · exact ArtifactStore.resolve_of_load? henabled hload

/-- A store of texts or of compiled programs, in a folder in which nothing stands at first, serves
nothing but the last published build. -/
theorem cache_serves_last_build (ε : Type) {root : Path} {d : Disk}
    (h : ∀ name, d.find? (root ++ [name]) = none) :
    ServesLastBuilt ε string TextFits root d ∧
      ServesLastBuilt ε compilation (Compilation.Fits fun _ => True) root d :=
  ⟨lawful_string.servesLastBuilt h, lawful_compilation.servesLastBuilt h⟩

/-- A text that was built and published is served instead of another one, and no other fits. -/
theorem cache_serves_last_build_again :
    let s : ArtifactStore := ⟨[], "c", true, "0.1.0"⟩
    let key : Fingerprint := ⟨Vector.replicate 32 7⟩
    let first : Event Unit String := ⟨s, .resolve (fun _ => .ok "built") key⟩
    let d := afterAll string Disk.empty [first]
    (∀ name, Disk.empty.find? (s.root ++ [name]) = none) ∧
      ∃ v, s.resolve string (fun _ => Except.error ()) d key = (.ok (v, .hit), d) ∧
        lastBuilt? string key Disk.empty [first] = some ("0.1.0", v) := by
  intro s key first d
  have hroot : s.root = ["c"] := by decide +kernel
  have hempty : ∀ name, Disk.empty.find? (s.root ++ [name]) = none := by
    intro name
    rw [hroot]
    rfl
  have hfirst : ∀ e ∈ [first], e.Within s.root TextFits := by
    intro e he
    obtain rfl := List.mem_singleton.mp he
    refine ⟨rfl, by decide +kernel, ?_⟩
    intro build other v hdeed hvalue
    obtain ⟨rfl, rfl⟩ := Deed.resolve.inj hdeed
    obtain rfl := Except.ok.inj hvalue
    decide +kernel
  have hload : s.load? string d key = some "built" := by decide +kernel
  have hhit := ArtifactStore.resolve_of_load? rfl hload fun _ => Except.error ()
  obtain ⟨hstrings, -⟩ := cache_serves_last_build Unit hempty
  obtain ⟨hlast, -⟩ := hstrings [first] hfirst s rfl (fun _ => Except.error ()) key "built" d hhit
  exact ⟨hempty, "built", hhit, hlast⟩

end LineQuery.Store
