import LineQuery.Proofs.Store.Soundness

/-! # Where a store changes a disk

Whatever is done with a store changes what stands in its folder, and makes the folder and those
above it where nothing stood. Everywhere else the disk stays as it was.
-/

namespace LineQuery

open LineQuery.Digest (Fingerprint)
open LineQuery.Files (Disk Entry Path place)
open LineQuery.Files.Disk (GainsFolders LosesBelow)

/-! ## Confined changes -/

namespace Files.Disk

variable {root top : Path} {places : List Path} {d d' d'' : Disk}

/-- Between two disks, nothing has changed but at or below a folder, and at places at which
nothing stood. -/
def Confined (root : Path) (places : List Path) (d d' : Disk) : Prop :=
  ∀ path, d'.find? path = d.find? path ∨ root <+: path ∨ path ∈ places ∧ d.find? path = none

namespace Confined

theorem refl (root : Path) (places : List Path) (d : Disk) : Confined root places d d :=
  fun _ => .inl rfl

theorem trans (h : Confined root places d d') (h' : Confined root places d' d'') :
    Confined root places d d'' := by
  intro path
  rcases h path with hsame | hbefore
  · rcases h' path with hsame' | hbelow | ⟨hmem, hnone⟩
    · exact .inl (hsame'.trans hsame)
    · exact .inr (.inl hbelow)
    · exact .inr (.inr ⟨hmem, hsame ▸ hnone⟩)
  · exact .inr hbefore

theorem mono {more : List Path} (h : Confined root places d d') (hsub : places ⊆ more) :
    Confined root more d d' :=
  fun path => (h path).imp_right (Or.imp_right fun ⟨hmem, hnone⟩ => ⟨hsub hmem, hnone⟩)

theorem of_gainsFolders (h : GainsFolders places d d') : Confined root places d d' := by
  intro path
  rcases h path with hsame | ⟨hmem, hnone, -⟩
  · exact .inl hsame
  · exact .inr (.inr ⟨hmem, hnone⟩)

theorem of_losesBelow (h : LosesBelow top d d') (htop : root <+: top) :
    Confined root places d d' := by
  intro path
  rcases h path with hsame | ⟨hbelow, -⟩
  · exact .inl hsame
  · exact .inr (.inl (htop.trans hbelow))

theorem set (htop : root <+: top) (e : Entry) : Confined root places d (d.set top e) := by
  intro path
  by_cases hself : path = top
  · exact .inr (.inl (hself ▸ htop))
  · exact .inl (find?_set_of_ne hself e)

theorem of_write {folder : Path} {text : String} {bytes : Text.Bytes}
    (h : d.write folder text bytes = .ok d') (htop : root <+: place folder text) :
    Confined root places d d' := by
  rcases eq_of_write h with ⟨rfl, -⟩ | ⟨rfl, -⟩
  · exact set htop _
  · exact refl root places _

theorem of_rename {folder : Path} {source target : String}
    (h : d.rename folder source target = .ok d') (hsource : root <+: place folder source)
    (htarget : root <+: place folder target) : Confined root places d d' := by
  obtain ⟨e, -, rfl⟩ := eq_of_rename h
  exact (of_losesBelow (losesBelow_erase d _) hsource).trans (set htarget e)

end Confined

end Files.Disk

/-! ## Changes by a store -/

namespace Store.ArtifactStore

open LineQuery.Files.Disk (Confined)

/-- Where folders are made for a store. -/
def folders (s : ArtifactStore) : List Path :=
  (Files.Written.upward s.location).map (place s.folder)

variable {α : Type} {s : ArtifactStore} {c : Codec α} {d d' : Disk} {key : Fingerprint}

theorem root_prefix_artifactPath (s : ArtifactStore) (key : Fingerprint) :
    s.root <+: place s.folder (s.artifactPath key) := by
  rw [place_artifactPath]
  exact List.prefix_append _ _

theorem confined_publish {image : Text.Bytes} (places : List Path)
    (h : s.publish d key image = .ok d') : Confined s.root places d d' := by
  obtain ⟨written, hwrite, hrename⟩ := Files.exists_ok_of_bind h
  obtain ⟨i, hprivate⟩ := exists_place_privatePath s d
  have hbelow : s.root <+: place s.folder (s.privatePath d) := hprivate ▸ List.prefix_append _ _
  exact (Confined.of_write hwrite hbelow).trans
    (.of_rename hrename hbelow (s.root_prefix_artifactPath key))

theorem confined_store (s : ArtifactStore) (c : Codec α) (d : Disk) (key : Fingerprint) (v : α) :
    Confined s.root s.folders d (s.store c d key v).2 := by
  have hmade : Confined s.root s.folders d (d.makeFolders s.folder s.location).2 :=
    .of_gainsFolders (Files.Disk.gainsFolders_makeFolders d s.folder s.location)
  rcases s.store_made_or_published c d key v with hstored | ⟨d', hstored, hpublish⟩
  · rwa [hstored]
  · rw [hstored]
    exact hmade.trans (confined_publish _ hpublish)

/-- A resolve changes nothing outside the folder of the store, but for making it. -/
theorem confined_resolve {ε : Type} (s : ArtifactStore) (c : Codec α)
    (build : Fingerprint → Except ε α) (d : Disk) (key : Fingerprint) :
    Confined s.root s.folders d (s.resolve c build d key).2 := by
  rcases s.resolve_leaves_or_stores c build d key with hsame | ⟨v, hstored⟩
  · rw [hsame]
    exact .refl _ _ d
  · rw [hstored]
    exact confined_store s c d key v

theorem confined_clear (s : ArtifactStore) (places : List Path) (d : Disk) :
    Confined s.root places d (s.clear d).2 :=
  .of_losesBelow (s.losesBelow_clear d) List.prefix_rfl

theorem confined_afterDeleting (s : ArtifactStore) (places : List Path) (d : Disk)
    (key : Fingerprint) : Confined s.root places d (s.afterDeleting d key) :=
  .of_losesBelow (s.losesBelow_afterDeleting d key) (List.prefix_append _ _)

theorem confined_afterCutting (s : ArtifactStore) (places : List Path) (d : Disk)
    (key : Fingerprint) (length : Nat) :
    Confined s.root places d (s.afterCutting d key length) := by
  rcases s.afterCutting_cases d key length with hsame | ⟨bytes, -, hwrite⟩
  · rw [hsame]
    exact .refl _ _ d
  · exact .of_write hwrite (s.root_prefix_artifactPath key)

end Store.ArtifactStore

end LineQuery
