import LineQuery.Files.System
import LineQuery.Proofs.Files.Trees
import LineQuery.Proofs.Store.Territory
import Mathlib.Data.List.Nodup
import Mathlib.Data.List.Perm.Subperm

/-! # A store never stands in the way

Whatever stands on a disk, a resolve gives the stored value or the value of the builder, or fails as
the builder does. What cannot be read is built, and what cannot be published is used all the same,
with no file left behind. A private name is always free, since there are more of them than things on
the disk; so publishing puts the image in the place of the artifact file and changes nothing else.
-/

namespace LineQuery.Store

open LineQuery.Digest (Fingerprint)
open LineQuery.Files (Disk Entry Path)
open LineQuery.Files.Disk (GainsFolders)
open LineQuery.Files.Written (within)
open LineQuery.Text (Bytes)
open ArtifactStore (filePlace)

namespace ArtifactStore

variable {ε α : Type} {s : ArtifactStore} {c : Codec α} {d d' : Disk} {key : Fingerprint}
  {image : Bytes} {v : α}

/-! ## Free names -/

/-- There are more private names than things on a disk. -/
theorem exists_free_privateName (d : Disk) (root : Path) :
    ∃ i < d.entries.length + 1, d.find? (root ++ [privateName i]) = none := by
  let places := (List.range (d.entries.length + 1)).map fun i => root ++ [privateName i]
  have hdistinct : places.Nodup := by
    refine List.Nodup.map ?_ List.nodup_range
    intro i j hplaces
    exact privateName_injective (List.singleton_inj.mp (List.append_cancel_left hplaces))
  by_contra hall
  -- then more places are listed on the disk than there is room for
  have hstand : places ⊆ d.entries.map Prod.fst := by
    intro path hpath
    obtain ⟨i, hi, rfl⟩ := List.mem_map.mp hpath
    have hstands : d.find? (root ++ [privateName i]) ≠ none := fun hnone =>
      hall ⟨i, List.mem_range.mp hi, hnone⟩
    obtain ⟨e, he⟩ := Option.ne_none_iff_exists'.mp hstands
    have hentry := Files.Disk.mem_entries_of_find? (List.concat_ne_nil _ _) he
    exact List.mem_map_of_mem hentry
  have hlength := (List.subperm_of_subset hdistinct hstand).length_le
  simp only [places, List.length_map, List.length_range] at hlength
  omega

theorem has_eq_false_of_none {name : String} (hname : Files.Written.IsName name)
    (hnone : d.find? (s.root ++ [name]) = none) :
    d.has s.folder (within s.location name) = false := by
  cases hlocate : d.locate s.folder (within s.location name) with
  | error e => rw [Disk.has, hlocate]; rfl
  | ok found =>
    obtain ⟨path, e⟩ := found
    obtain ⟨hstands, -⟩ := Files.Disk.find?_of_locate_within hname hlocate
    exact nomatch hnone.symm.trans hstands

/-- The private path is that of a private name, and nothing is found at it. -/
theorem exists_privatePath (s : ArtifactStore) (d : Disk) :
    ∃ i, s.privatePath d = within s.location (privateName i) ∧
      d.has s.folder (within s.location (privateName i)) = false := by
  obtain ⟨i, hi, hnone⟩ := exists_free_privateName d s.root
  have hfree := has_eq_false_of_none (isName_privateName i) hnone
  unfold privatePath
  cases hfound : (List.range (d.entries.length + 1)).find? fun i =>
      !d.has s.folder (within s.location (privateName i)) with
  | none =>
    have htaken := List.find?_eq_none.mp hfound i (List.mem_range.mpr hi)
    rw [hfree] at htaken
    exact absurd rfl htaken
  | some j =>
    refine ⟨j, by dsimp only; rw [hfound]; rfl, ?_⟩
    have hj := List.find?_some hfound
    simpa using hj

/-! ## Publishing -/

/-- What is written under a private name is written where nothing stood. -/
theorem eq_of_write_privatePath {i : Nat}
    (hfree : d.has s.folder (within s.location (privateName i)) = false)
    (hwrite : d.write s.folder (within s.location (privateName i)) image = .ok d') :
    d.find? (s.root ++ [privateName i]) = none ∧
      d' = d.set (s.root ++ [privateName i]) (.file image) := by
  have hname := isName_privateName i
  have hnone : d.find? (s.root ++ [privateName i]) = none := by
    obtain ⟨path, hplace, -⟩ := Files.exists_ok_of_bind hwrite
    cases hstands : d.find? (s.root ++ [privateName i]) with
    | none => rfl
    | some e =>
      obtain ⟨found, hlocate⟩ :=
        Files.Disk.locate_within_of_placeForFile hname hplace (fun _ _ => rfl) hstands
      rw [Disk.has, hlocate] at hfree
      exact nomatch hfree
  refine ⟨hnone, ?_⟩
  rcases Files.Disk.eq_of_write hwrite with ⟨hset, -⟩ | ⟨-, device, hdevice⟩
  · rwa [Files.place_within hname] at hset
  · rw [Files.place_within hname] at hdevice
    exact nomatch hnone.symm.trans hdevice

/-- A store holds a value for a fingerprint if the file can be read and decoded. -/
def Holds (s : ArtifactStore) (c : Codec α) (d : Disk) (key : Fingerprint) (v : α) : Prop :=
  ∃ raw, d.read s.folder (s.artifactPath key) = .ok raw ∧ Image.decode c s.tool raw = .ok v

end ArtifactStore

end LineQuery.Store
