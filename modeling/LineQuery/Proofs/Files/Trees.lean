import LineQuery.Proofs.Files.Within
import Mathlib.Data.List.Induction

/-! # Disks that are trees

On a disk that is a tree, what stands somewhere stands in a folder. So nothing stands below a place
at which nothing stands, and a walk from a folder ends in a folder. Seen from a folder that stands,
making folders keeps a disk a tree, and so does putting a file where no folder stood.
-/

namespace LineQuery.Files.Disk

variable {d d' : Disk} {folder path top : Path} {text name : String}

/-- What stands on a disk stands in folders. -/
def IsTree (d : Disk) : Prop :=
  ∀ path name, d.find? (path ++ [name]) ≠ none → d.find? path = some .folder

theorem find?_root (d : Disk) : d.find? [] = some .folder := if_pos rfl

namespace IsTree

/-- Only what stands on a disk counts. -/
theorem congr (h : d.IsTree) (hsame : ∀ path, d'.find? path = d.find? path) : d'.IsTree := by
  intro path name hstands
  rw [hsame] at hstands ⊢
  exact h path name hstands

/-- Whatever stands on a disk that is a tree stands in a folder. -/
theorem find?_dropLast (h : d.IsTree) (hstands : d.find? path ≠ none) :
    d.find? path.dropLast = some .folder := by
  rcases List.eq_nil_or_concat path with rfl | ⟨front, name, rfl⟩
  · exact d.find?_root
  · rw [List.concat_eq_append] at hstands ⊢
    rw [List.dropLast_concat]
    exact h front name hstands

/-- Entering a folder from one that is there leads to a folder. -/
theorem find?_of_enter (h : d.IsTree) (hfolder : d.find? folder = some .folder)
    (henter : d.enter folder name = .ok path) : d.find? path = some .folder := by
  unfold enter at henter
  split at henter
  · exact Except.ok.inj henter ▸ hfolder
  · exact Except.ok.inj henter ▸ hfolder
  · exact Except.ok.inj henter ▸ h.find?_dropLast (hfolder ▸ nofun)
  · split at henter
    · rename_i hchild
      exact Except.ok.inj henter ▸ find?_of_childOf hchild
    · exact nomatch henter
    · exact nomatch henter

/-- A walk from a folder ends in a folder. -/
theorem find?_of_foldlM_enter (h : d.IsTree) {names : List String}
    (hfolder : d.find? folder = some .folder) (hwalk : names.foldlM d.enter folder = .ok path) :
    d.find? path = some .folder := by
  induction names generalizing folder with
  | nil => exact Except.ok.inj hwalk ▸ hfolder
  | cons name names ih =>
    obtain ⟨next, henter, hrest⟩ := exists_ok_of_bind hwalk
    exact ih (h.find?_of_enter hfolder henter) hrest

/-- A walk from a folder that stands ends in one. -/
theorem find?_of_reach (h : d.IsTree) (hfolder : d.find? folder = some .folder) {t : Target}
    (hreach : d.reach folder text = .ok t) : d.find? t.folder = some .folder := by
  have hstart : d.find? (if Written.isAbsolute text then [] else folder) = some .folder := by
    split
    · exact d.find?_root
    · exact hfolder
  unfold reach at hreach
  split at hreach
  · exact nomatch hreach
  split at hreach
  · exact nomatch hreach
  split at hreach
  · exact nomatch hreach
  dsimp only at hreach
  split at hreach
  · exact Except.ok.inj hreach ▸ hstart
  · obtain ⟨before, hwalk, htarget⟩ := exists_ok_of_bind hreach
    exact Except.ok.inj htarget ▸ h.find?_of_foldlM_enter hstart hwalk

/-! ## Changes -/

/-- A tree stays one when something is put into a folder, where nothing stood or what is put there
is a folder itself. -/
theorem set (h : d.IsTree) (hfolder : d.find? folder = some .folder) {e : Entry}
    (hplace : d.find? (folder ++ [name]) = some .folder → e = .folder) :
    (d.set (folder ++ [name]) e).IsTree := by
  have hplaced : (d.set (folder ++ [name]) e).find? (folder ++ [name]) = some e :=
    find?_set_self (List.concat_ne_nil _ _) e
  intro path child hstands
  -- what is new stands in the folder, and what stood below its place had a folder there
  by_cases hself : path ++ [child] = folder ++ [name]
  · obtain ⟨rfl, -⟩ := List.append_inj' hself rfl
    have hne : path ≠ path ++ [name] := fun heq => absurd (congrArg List.length heq) (by simp)
    rwa [find?_set_of_ne hne]
  · rw [find?_set_of_ne hself] at hstands
    have hparent := h path child hstands
    by_cases hpath : path = folder ++ [name]
    · rw [hpath] at hparent ⊢
      rw [hplaced, hplace hparent]
    · rwa [find?_set_of_ne hpath]

end IsTree

/-- A disk is in order for one who stands in a folder: it is a tree, and the folder is there. -/
structure InOrder (d : Disk) (folder : Path) : Prop where
  isTree : d.IsTree
  stands : d.find? folder = some .folder

namespace InOrder

theorem makeFolder (h : d.InOrder folder) (hmade : d.makeFolder folder text = .ok d') :
    d'.InOrder folder := by
  refine ⟨?_, (gainsFolders_of_makeFolder hmade).stood h.stands⟩
  obtain ⟨target, name, hreach, -, -, rfl⟩ := exists_of_makeFolder hmade
  exact h.isTree.set (h.isTree.find?_of_reach h.stands hreach) fun _ => rfl

theorem makeFolders (h : d.InOrder folder) (text : String) :
    (d.makeFolders folder text).2.InOrder folder :=
  makeFolders_keeps (·.InOrder folder) (fun h hmade => h.makeFolder hmade) h text

end InOrder

end LineQuery.Files.Disk
