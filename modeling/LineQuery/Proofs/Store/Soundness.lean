import LineQuery.Proofs.Digest.Hex
import LineQuery.Proofs.Files.Changes
import LineQuery.Proofs.Store.Image
import LineQuery.Proofs.Text.ByteLines
import LineQuery.Store.Artifacts

/-! # What stands in a store

The names of artifact files tell fingerprints apart, and no private file has one of them. So a
store changes the file of one fingerprint at a time. A store is sound if what stands in each
artifact file is the front of an image that is allowed there: that is kept by everything that is
done to a store, and what is loaded from it is a value that is allowed.
-/

namespace LineQuery

open LineQuery.Text (Bytes)

namespace Store

open LineQuery.Digest (Fingerprint)
open LineQuery.Files (Disk Entry Path place)
open LineQuery.Files.Disk (GainsFolders LosesBelow)
open LineQuery.Files.Written (IsName)

namespace ArtifactStore

/-! ## Names of files -/

theorem fileName_injective {f g : Fingerprint} (h : fileName f = fileName g) : f = g :=
  Fingerprint.toText_injective (by simpa [fileName] using h)

/-- A text of three characters or more is neither empty nor made of points alone. -/
theorem isName_of_length {text : String} (hlength : 3 ≤ text.length)
    (hslash : '/' ∉ text.toList) : IsName text where
  nonempty := by rintro rfl; exact absurd hlength (by decide)
  slashless := hslash
  notHere := by rintro rfl; exact absurd hlength (by decide)
  notBack := by rintro rfl; exact absurd hlength (by decide)

theorem isName_fileName (key : Fingerprint) : IsName (fileName key) := by
  have hdigits := Digest.slash_not_mem_hexChars key.bytes.toList
  refine isName_of_length ?_ ?_
  · have hend : extension.length = 4 := by decide
    rw [fileName, String.length_append]
    omega
  · simpa [fileName, Fingerprint.toText, Digest.hexText, extension] using hdigits

theorem isName_privateName (i : Nat) : IsName (privateName i) := by
  have hdigits : '/' ∉ Text.showNat i := fun hmem =>
    absurd (Nat.isDigit_of_mem_toDigits (by decide) (by decide) hmem) (by decide)
  refine isName_of_length ?_ ?_
  · have hend : ".tmp".length = 4 := by decide
    rw [privateName, String.length_append]
    omega
  · simpa [privateName, Text.natText] using hdigits

theorem privateName_injective {i j : Nat} (h : privateName i = privateName j) : i = j := by
  have hchars := congrArg String.toList h
  simp only [privateName, String.toList_append, List.append_cancel_right_eq,
    List.append_cancel_left_eq] at hchars
  exact Text.natText_injective (String.toList_inj.mp hchars)

/-- No private file has the extension of artifact files: the names differ in their last letters. -/
theorem append_extension_ne_privateName (stem : String) (i : Nat) :
    stem ++ extension ≠ privateName i := by
  intro h
  have hlast := congrArg (fun name => name.toList.getLast?) h
  simp only [privateName, String.toList_append, List.getLast?_append] at hlast
  have hletters : some 'a' = some 'p' := hlast
  exact absurd hletters (by decide)

theorem fileName_ne_privateName (key : Fingerprint) (i : Nat) : fileName key ≠ privateName i :=
  append_extension_ne_privateName key.toText i

def root (s : ArtifactStore) : Path := place s.folder s.location

/-- The place of the file of a fingerprint. -/
def filePlace (root : Path) (key : Fingerprint) : Path := root ++ [fileName key]

variable {s : ArtifactStore} {key other : Fingerprint}

theorem place_artifactPath (s : ArtifactStore) (key : Fingerprint) :
    place s.folder (s.artifactPath key) = filePlace s.root key :=
  Files.place_within (isName_fileName key) s.folder s.location

/-- Where a private file is written. -/
theorem exists_place_privatePath (s : ArtifactStore) (d : Disk) :
    ∃ i, place s.folder (s.privatePath d) = s.root ++ [privateName i] :=
  ⟨_, Files.place_within (isName_privateName _) s.folder s.location⟩

theorem filePlace_ne_nil (root : Path) (key : Fingerprint) : filePlace root key ≠ [] :=
  List.concat_ne_nil _ _

theorem filePlace_ne (root : Path) (h : other ≠ key) :
    filePlace root other ≠ filePlace root key := by
  intro heq
  exact h (fileName_injective (List.singleton_inj.mp (List.append_cancel_left heq)))

theorem filePlace_ne_private (root : Path) (key : Fingerprint) (i : Nat) :
    filePlace root key ≠ root ++ [privateName i] := by
  intro heq
  exact fileName_ne_privateName key i (List.singleton_inj.mp (List.append_cancel_left heq))

/-! ## What a resolve can do -/

/-- What comes of resolving a fingerprint. -/
inductive Resolves {ε α : Type} (s : ArtifactStore) (c : Codec α)
    (build : Fingerprint → Except ε α) (d : Disk) (key : Fingerprint) :
    Except ε (α × Outcome) × Disk → Prop where
  /-- What is stored is given. -/
  | hit (v : α) (enabled : s.enabled = true) (loaded : s.load? c d key = some v) :
    Resolves s c build d key (.ok (v, .hit), d)
  /-- The builder fails. -/
  | failed (e : ε) (refused : build key = .error e) : Resolves s c build d key (.error e, d)
  /-- The value is built, and it is stored or that is tried. -/
  | built (v : α) (stored : Bool) (d' : Disk) (enabled : s.enabled = true)
    (value : build key = .ok v) (after : s.store c d key v = (stored, d')) :
    Resolves s c build d key (.ok (v, if stored then .built else .builtUncached), d')
  /-- The value is built, and there is no store for it. -/
  | passed (v : α) (disabled : s.enabled = false) (value : build key = .ok v) :
    Resolves s c build d key (.ok (v, .builtUncached), d)

theorem resolves {ε α : Type} (s : ArtifactStore) (c : Codec α)
    (build : Fingerprint → Except ε α) (d : Disk) (key : Fingerprint) :
    Resolves s c build d key (s.resolve c build d key) := by
  unfold resolve
  cases hbuild : build key with
  | error e =>
    cases henabled : s.enabled with
    | false => exact .failed e hbuild
    | true =>
      cases hload : s.load? c d key with
      | none => exact .failed e hbuild
      | some v => exact .hit v henabled hload
  | ok v =>
    cases henabled : s.enabled with
    | false => exact .passed v henabled hbuild
    | true =>
      cases hload : s.load? c d key with
      | none => exact .built v _ _ henabled hbuild rfl
      | some w => exact .hit w henabled hload

/-- Storing a value makes the folders of the store, or as many as can be made, and does nothing more
or publishes the image of the value. -/
theorem store_made_or_published {α : Type} (s : ArtifactStore) (c : Codec α) (d : Disk)
    (key : Fingerprint) (v : α) :
    s.store c d key v = (false, (d.makeFolders s.folder s.location).2) ∨
      ∃ d', s.store c d key v = (true, d') ∧
        s.publish (d.makeFolders s.folder s.location).2 key (Image.encode c s.tool v) = .ok d' := by
  unfold store
  split
  · rename_i hfolders
    rw [hfolders]
    exact .inl rfl
  · rename_i hfolders
    rw [hfolders]
    split
    · exact .inl rfl
    · rename_i d' hpublish
      exact .inr ⟨d', rfl, hpublish⟩

/-- A resolve leaves a disk as it is, or stores a value or tries to. -/
theorem resolve_leaves_or_stores {ε α : Type} (s : ArtifactStore) (c : Codec α)
    (build : Fingerprint → Except ε α) (d : Disk) (key : Fingerprint) :
    (s.resolve c build d key).2 = d ∨
      ∃ v, (s.resolve c build d key).2 = (s.store c d key v).2 := by
  have hresolves := resolves s c build d key
  generalize s.resolve c build d key = outcome at hresolves ⊢
  cases hresolves with
  | hit | failed | passed => exact .inl rfl
  | built v stored d' _ _ hstore => exact .inr ⟨v, by rw [hstore]⟩

/-- A value is served as it is loaded, and the disk stays as it is. -/
theorem load?_of_hit {ε α : Type} {c : Codec α} {build : Fingerprint → Except ε α} {d d' : Disk}
    {v : α} (h : s.resolve c build d key = (.ok (v, .hit), d')) :
    s.enabled = true ∧ s.load? c d key = some v ∧ d' = d := by
  have hresolves := resolves s c build d key
  generalize s.resolve c build d key = outcome at h hresolves
  cases hresolves with
  | hit w henabled hload =>
    obtain ⟨hvalue, rfl⟩ := Prod.mk.inj h
    obtain ⟨rfl, -⟩ := Prod.mk.inj (Except.ok.inj hvalue)
    exact ⟨henabled, hload, rfl⟩
  | failed => exact nomatch h
  | built w stored => cases stored <;> exact nomatch h
  | passed => exact nomatch h

/-- Where a value is loaded, no builder is asked. -/
theorem resolve_of_load? {ε α : Type} {c : Codec α} {d : Disk} {v : α}
    (henabled : s.enabled = true) (hload : s.load? c d key = some v)
    (build : Fingerprint → Except ε α) : s.resolve c build d key = (.ok (v, .hit), d) := by
  rw [resolve, if_pos henabled, hload]

/-! ## Damage -/

/-- The disk after the file of a fingerprint has been deleted, if it can be. -/
def afterDeleting (s : ArtifactStore) (d : Disk) (key : Fingerprint) : Disk :=
  match d.removeFile s.folder (s.artifactPath key) with
  | .ok d => d
  | .error _ => d

/-- The disk after the file of a fingerprint has been cut to a length, if it can be. -/
def afterCutting (s : ArtifactStore) (d : Disk) (key : Fingerprint) (length : Nat) : Disk :=
  match d.read s.folder (s.artifactPath key) with
  | .error _ => d
  | .ok bytes =>
    match d.write s.folder (s.artifactPath key) (bytes.take length) with
    | .ok d => d
    | .error _ => d

/-- What clearing does, if there is a store: the folder is removed. -/
theorem clear_cases (s : ArtifactStore) (d : Disk) :
    (s.clear d).2 = d ∨ (s.clear d).2 = (d.removeTree s.folder s.location).2 := by
  unfold clear
  split
  · refine .inr ?_
    split
    · rename_i htree
      rw [htree]
    · rename_i htree
      rw [htree]
  · exact .inl rfl

/-- Clearing a store takes away what stands in its folder, and nothing else. -/
theorem losesBelow_clear (s : ArtifactStore) (d : Disk) : LosesBelow s.root d (s.clear d).2 := by
  rcases s.clear_cases d with hsame | hremoved
  · rw [hsame]
    exact .refl _ d
  · rw [hremoved]
    exact Files.Disk.losesBelow_removeTree d s.folder s.location

theorem afterDeleting_cases (s : ArtifactStore) (d : Disk) (key : Fingerprint) :
    s.afterDeleting d key = d ∨
      d.removeFile s.folder (s.artifactPath key) = .ok (s.afterDeleting d key) := by
  unfold afterDeleting
  split
  · rename_i hremoved
    exact .inr hremoved
  · exact .inl rfl

theorem losesBelow_afterDeleting (s : ArtifactStore) (d : Disk) (key : Fingerprint) :
    LosesBelow (filePlace s.root key) d (s.afterDeleting d key) := by
  rcases s.afterDeleting_cases d key with hsame | hremoved
  · rw [hsame]
    exact .refl _ d
  · rw [Files.Disk.eq_of_removeFile hremoved, place_artifactPath]
    exact Files.Disk.losesBelow_erase d _

/-- What a cut does, if it does anything: what was read is written again, up to the length. -/
theorem afterCutting_cases (s : ArtifactStore) (d : Disk) (key : Fingerprint) (length : Nat) :
    s.afterCutting d key length = d ∨
      ∃ bytes, d.read s.folder (s.artifactPath key) = .ok bytes ∧
        d.write s.folder (s.artifactPath key) (bytes.take length) =
          .ok (s.afterCutting d key length) := by
  unfold afterCutting
  split
  · exact .inl rfl
  · rename_i bytes hread
    split
    · rename_i hwrite
      exact .inr ⟨bytes, hread, hwrite⟩
    · exact .inl rfl

end ArtifactStore

/-! ## Sound stores -/

open ArtifactStore (filePlace root)

variable {α : Type} {c : Codec α} {root : Path} {d d' : Disk} {s : ArtifactStore}
  {key : Fingerprint} {allowed allowed' : Fingerprint → String → α → Prop}

/-- What stands in the artifact files of a folder is the front of images, of values and by tools
that are allowed for the fingerprints of the files. -/
def Sound (root : Path) (c : Codec α) (allowed : Fingerprint → String → α → Prop) (d : Disk) :
    Prop :=
  ∀ key bytes, d.find? (filePlace root key) = some (.file bytes) →
    ∃ tool v, allowed key tool v ∧ bytes <+: Image.encode c tool v

namespace Sound

/-- A store stays sound if no artifact file is new and none has changed. -/
theorem of_files (h : Sound root c allowed d)
    (hfiles : ∀ key bytes, d'.find? (filePlace root key) = some (.file bytes) →
      d.find? (filePlace root key) = some (.file bytes)) : Sound root c allowed d' :=
  fun key bytes hfile => h key bytes (hfiles key bytes hfile)

theorem of_gainsFolders {places : List Path} (h : Sound root c allowed d)
    (hgains : GainsFolders places d d') : Sound root c allowed d' :=
  h.of_files fun _ _ => hgains.file

theorem of_losesBelow {top : Path} (h : Sound root c allowed d) (hloses : LosesBelow top d d') :
    Sound root c allowed d' :=
  h.of_files fun _ _ => hloses.file

theorem clear (h : Sound root c allowed d) (s : ArtifactStore) :
    Sound root c allowed (s.clear d).2 := h.of_losesBelow (s.losesBelow_clear d)

theorem afterDeleting (h : Sound root c allowed d) (s : ArtifactStore) (key : Fingerprint) :
    Sound root c allowed (s.afterDeleting d key) :=
  h.of_losesBelow (s.losesBelow_afterDeleting d key)

/-- A file that is cut is the front of what it was the front of before. -/
theorem afterCutting (h : Sound s.root c allowed d) (key : Fingerprint) (length : Nat) :
    Sound s.root c allowed (s.afterCutting d key length) := by
  rcases s.afterCutting_cases d key length with hsame | ⟨bytes, hread, hwrite⟩
  · rwa [hsame]
  have hread := Files.Disk.find?_of_read hread
  have hwrite := Files.Disk.eq_of_write hwrite
  rw [ArtifactStore.place_artifactPath] at hread hwrite
  rcases hwrite with ⟨hwritten, hstood⟩ | ⟨hsame, -⟩
  · rw [hwritten]
    intro other found hfound
    by_cases hother : other = key
    · obtain rfl := hother
      rw [Files.Disk.find?_set_self (ArtifactStore.filePlace_ne_nil _ _)] at hfound
      obtain rfl : bytes.take length = found := Entry.file.inj (Option.some.inj hfound)
      rcases hread with hfile | ⟨-, e, he, hno⟩
      · obtain ⟨tool, v, hallowed, hfront⟩ := h other bytes hfile
        exact ⟨tool, v, hallowed, (List.take_prefix length bytes).trans hfront⟩
      · obtain ⟨found, hfile⟩ := hstood e he
        exact absurd hfile (hno found)
    · rw [Files.Disk.find?_set_of_ne (ArtifactStore.filePlace_ne _ hother)] at hfound
      exact h other found hfound
  · rwa [hsame]

/-- Publishing an image makes it what stands in the file of its fingerprint. -/
theorem publish (h : Sound s.root c allowed d) {v : α}
    (hpublish : s.publish d key (Image.encode c s.tool v) = .ok d')
    (hself : allowed' key s.tool v)
    (hothers : ∀ other tool w, other ≠ key → allowed other tool w → allowed' other tool w) :
    Sound s.root c allowed' d' := by
  obtain ⟨written, hwrite, hrename⟩ := Files.exists_ok_of_bind hpublish
  obtain ⟨i, hprivate⟩ := ArtifactStore.exists_place_privatePath s d
  have hwrite := Files.Disk.eq_of_write hwrite
  obtain ⟨e, hmoved, rfl⟩ := Files.Disk.eq_of_rename hrename
  rw [hprivate] at hwrite hmoved ⊢
  rw [ArtifactStore.place_artifactPath]
  intro other bytes hfile
  by_cases hother : other = key
  · -- the private file has come to the place of the fingerprint
    obtain rfl := hother
    rw [Files.Disk.find?_set_self (ArtifactStore.filePlace_ne_nil _ _)] at hfile
    obtain rfl := Option.some.inj hfile
    have hmoved := hmoved.resolve_right nofun
    refine ⟨s.tool, v, hself, ?_⟩
    rcases hwrite with ⟨rfl, -⟩ | ⟨rfl, device, hdevice⟩
    · rw [Files.Disk.find?_set_self (List.concat_ne_nil _ _)] at hmoved
      obtain rfl := Entry.file.inj (Option.some.inj hmoved)
      exact List.prefix_rfl
    · exact absurd (hmoved.symm.trans hdevice) nofun
  -- the file of another fingerprint is neither the private file nor the one that it becomes
  · rw [Files.Disk.find?_set_of_ne (ArtifactStore.filePlace_ne _ hother)] at hfile
    have hbefore := (Files.Disk.losesBelow_erase written _).file hfile
    have hfile : d.find? (filePlace s.root other) = some (.file bytes) := by
      rcases hwrite with ⟨rfl, -⟩ | ⟨rfl, -⟩
      · rwa [Files.Disk.find?_set_of_ne (ArtifactStore.filePlace_ne_private _ _ i)] at hbefore
      · exact hbefore
    obtain ⟨tool, w, hallowed, hfront⟩ := h other bytes hfile
    exact ⟨tool, w, hothers other tool w hother hallowed, hfront⟩

/-- Storing a value, or trying to, changes what is allowed only if the value is stored. -/
theorem store (h : Sound s.root c allowed d) {v : α} {stored : Bool}
    (hstore : s.store c d key v = (stored, d'))
    (hself : stored = true → allowed' key s.tool v)
    (hothers : ∀ other tool w, allowed other tool w →
      (stored = true ∧ other = key) ∨ allowed' other tool w) :
    Sound s.root c allowed' d' := by
  have hgains := Files.Disk.gainsFolders_makeFolders d s.folder s.location
  -- as long as nothing is published, all that was allowed still is
  have hkept : ∀ {d : Disk}, stored = false → Sound s.root c allowed d →
      Sound s.root c allowed' d := by
    intro d hstored hsound other bytes hfile
    obtain ⟨tool, w, hallowed, hfront⟩ := hsound other bytes hfile
    have hno : ¬ (stored = true ∧ other = key) := fun hboth =>
      absurd (hstored.symm.trans hboth.1) nofun
    exact ⟨tool, w, (hothers other tool w hallowed).resolve_left hno, hfront⟩
  have hready := h.of_gainsFolders hgains
  rcases s.store_made_or_published c d key v with hmade | ⟨published, hdone, hpublish⟩
  · obtain ⟨rfl, rfl⟩ := Prod.mk.inj (hmade.symm.trans hstore)
    exact hkept rfl hready
  · obtain ⟨rfl, rfl⟩ := Prod.mk.inj (hdone.symm.trans hstore)
    refine hready.publish hpublish (hself rfl) fun other tool w hother hallowed => ?_
    exact (hothers other tool w hallowed).resolve_left fun hboth => hother hboth.2

/-- What is loaded from a sound store is allowed for its fingerprint and for the tool. -/
theorem allowed_of_load? (h : Sound s.root c allowed d) (hlocal : c.read.Local)
    (hfits : ∀ tool v, allowed key tool v → TextFits tool ∧ c.Returns True v) {v : α}
    (hload : s.load? c d key = some v) : allowed key s.tool v := by
  unfold ArtifactStore.load? at hload
  split at hload
  · exact nomatch hload
  · rename_i raw hread
    split at hload
    · rename_i w hdecode
      obtain rfl := Option.some.inj hload
      have hread := Files.Disk.find?_of_read hread
      rw [ArtifactStore.place_artifactPath] at hread
      rcases hread with hfile | ⟨rfl, -⟩
      · obtain ⟨tool, v, hallowed, hfront⟩ := h key raw hfile
        obtain ⟨htool, hreturns⟩ := hfits tool v hallowed
        obtain ⟨-, rfl, rfl⟩ := Image.eq_encode_of_decode hlocal hreturns htool hfront hdecode
        exact hallowed
      · exact nomatch hdecode
    · exact nomatch hload

end Sound

end Store

end LineQuery
