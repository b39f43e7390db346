import LineQuery.Proofs.Files.Changes
import Mathlib.Data.List.Nodup

/-! # What a folder lists

A disk is a list of entries; it describes one tree if no path has two of them, and every operation
keeps it so. A folder of such a disk then lists each name once, with what stands under it.
-/

namespace LineQuery.Files.Disk

variable {d d' : Disk} {folder path : Path} {text name : String} {e : Entry}

/-- No path has two entries. -/
def Distinct (d : Disk) : Prop := (d.entries.map Prod.fst).Nodup

instance (d : Disk) : Decidable d.Distinct :=
  inferInstanceAs (Decidable (d.entries.map Prod.fst).Nodup)

/-! ## Names in a folder -/

/-- The name that a path has in a folder, if it stands there. -/
def nameIn? (folder path : Path) : Option String :=
  match path.getLast? with
  | some name => if path.dropLast = folder then some name else none
  | none => none

/-- An entry is in a folder if its path is one name longer. -/
theorem nameIn?_eq_some_iff : nameIn? folder path = some name ↔ path = folder ++ [name] := by
  rcases List.eq_nil_or_concat path with rfl | ⟨front, last, rfl⟩
  · simp [nameIn?]
  · rw [nameIn?, List.concat_eq_append, List.getLast?_concat, List.dropLast_concat]
    constructor
    · intro h
      obtain ⟨rfl, rfl⟩ : front = folder ∧ last = name := by simpa using h
      rfl
    · intro h
      obtain ⟨rfl, hlast⟩ := List.append_inj' h rfl
      obtain rfl := List.singleton_inj.mp hlast
      exact if_pos rfl

/-- The children of a folder are its entries in the order in which the disk lists them. -/
theorem children_eq (d : Disk) (folder : Path) :
    d.children folder = d.entries.filterMap fun entry =>
      (nameIn? folder entry.1).map fun name => (name, entry.2) := by
  unfold children nameIn?
  refine List.filterMap_congr fun ⟨path, e⟩ _ => ?_
  dsimp only
  cases path.getLast? with
  | none => rfl
  | some name =>
    dsimp only
    split <;> rfl

/-- What is listed is an entry under its name. -/
theorem mem_children_iff_mem_entries :
    (name, e) ∈ d.children folder ↔ (folder ++ [name], e) ∈ d.entries := by
  rw [children_eq, List.mem_filterMap]
  constructor
  · rintro ⟨⟨path, found⟩, hmem, hentry⟩
    obtain ⟨listed, hname, hpair⟩ := Option.map_eq_some_iff.mp hentry
    obtain ⟨rfl, rfl⟩ := Prod.mk.inj hpair
    obtain rfl := nameIn?_eq_some_iff.mp hname
    exact hmem
  · intro hmem
    exact ⟨_, hmem, by rw [nameIn?_eq_some_iff.mpr rfl]; rfl⟩

namespace Distinct

/-- What is an entry of a disk stands there. -/
theorem find?_of_mem (h : d.Distinct) (hpath : path ≠ []) (hmem : (path, e) ∈ d.entries) :
    d.find? path = some e := by
  obtain ⟨before, behind, hentries⟩ := List.append_of_mem hmem
  rw [find?, if_neg hpath, List.lookup_eq_some_iff]
  refine ⟨before, behind, hentries, fun entry hbefore => ?_⟩
  rw [Distinct, hentries, List.map_append, List.map_cons] at h
  have hne := (List.nodup_append.mp h).2.2 entry.1 (List.mem_map_of_mem hbefore) path
    List.mem_cons_self
  simpa [bne_iff_ne] using hne.symm

/-- A folder lists what stands in it. -/
theorem mem_children_iff (h : d.Distinct) :
    (name, e) ∈ d.children folder ↔ d.find? (folder ++ [name]) = some e := by
  rw [mem_children_iff_mem_entries]
  have hpath : folder ++ [name] ≠ [] := List.concat_ne_nil _ _
  exact ⟨h.find?_of_mem hpath, mem_entries_of_find? hpath⟩

/-- A folder lists no name twice. -/
theorem nodup_children (h : d.Distinct) (folder : Path) :
    ((d.children folder).map Prod.fst).Nodup := by
  have hnames : (d.children folder).map Prod.fst =
      (d.entries.map Prod.fst).filterMap (nameIn? folder) := by
    rw [children_eq, List.map_filterMap, List.filterMap_map]
    refine List.filterMap_congr fun entry _ => ?_
    simp [Function.comp_def]
  rw [hnames]
  refine List.Nodup.filterMap (fun a b name ha hb => ?_) h
  rw [nameIn?_eq_some_iff.mp ha, nameIn?_eq_some_iff.mp hb]

/-! ## Operations -/

theorem filter (h : d.Distinct) (keep : Path × Entry → Bool) :
    (⟨d.entries.filter keep⟩ : Disk).Distinct :=
  h.sublist (List.filter_sublist.map Prod.fst)

theorem set (h : d.Distinct) (path : Path) (e : Entry) : (d.set path e).Distinct := by
  refine List.nodup_cons.mpr ⟨?_, h.filter _⟩
  intro hmem
  obtain ⟨entry, hentry, hpath⟩ := List.mem_map.mp hmem
  exact absurd hpath (by simpa using (List.mem_filter.mp hentry).2)

theorem erase (h : d.Distinct) (path : Path) : (d.erase path).Distinct := h.filter _

theorem eraseBelow (h : d.Distinct) (path : Path) : (d.eraseBelow path).Distinct := h.filter _

/-- Writing a file lists no path twice. -/
theorem write (h : d.Distinct) {bytes : Text.Bytes}
    (hwritten : d.write folder text bytes = .ok d') : d'.Distinct := by
  rcases eq_of_write hwritten with ⟨rfl, -⟩ | ⟨rfl, -⟩
  · exact h.set _ _
  · exact h

/-- A file that is renamed takes the place of what its new name stood for. -/
theorem rename (h : d.Distinct) {source target : String}
    (hmoved : d.rename folder source target = .ok d') : d'.Distinct := by
  obtain ⟨e, -, rfl⟩ := eq_of_rename hmoved
  exact (h.erase _).set _ e

theorem makeFolder (h : d.Distinct) (hmade : d.makeFolder folder text = .ok d') :
    d'.Distinct := by
  obtain ⟨target, name, -, -, -, rfl⟩ := exists_of_makeFolder hmade
  exact h.set _ _

theorem makeFolders (h : d.Distinct) (folder : Path) (text : String) :
    (d.makeFolders folder text).2.Distinct :=
  makeFolders_keeps Distinct (fun h hmade => h.makeFolder hmade) h text

theorem removeFile (h : d.Distinct) (hgone : d.removeFile folder text = .ok d') :
    d'.Distinct := by
  obtain rfl := eq_of_removeFile hgone
  exact h.erase _

theorem removeFolder (h : d.Distinct) (hgone : d.removeFolder folder text = .ok d') :
    d'.Distinct := by
  obtain ⟨target, -, hgone⟩ := exists_ok_of_bind hgone
  split at hgone
  · exact nomatch hgone
  · exact nomatch hgone
  · exact nomatch hgone
  · obtain ⟨e, -, hgone⟩ := exists_ok_of_bind hgone
    split at hgone
    · split at hgone
      · exact Except.ok.inj hgone ▸ h.erase _
      · exact nomatch hgone
    · exact nomatch hgone

theorem removeTree (h : d.Distinct) (folder : Path) (text : String) :
    (d.removeTree folder text).2.Distinct := by
  unfold Disk.removeTree
  split
  · exact h
  · rename_i path _
    have hbelow := h.eraseBelow path
    dsimp only
    split
    · rename_i hremoved
      exact hbelow.removeFolder hremoved
    · exact hbelow
    · exact hbelow
  · exact h

end Distinct

end LineQuery.Files.Disk
