import LineQuery.Proofs.Files.Changes
import LineQuery.Proofs.Files.Sight

/-! # Names inside a folder

What is written as a name inside a folder is reached by the walk to the folder, and then the name
is looked at. A walk that comes through has found folders on its way. So where a file may be put
under a name it can be read afterwards, as long as those folders stay.
-/

namespace LineQuery.Files

open Written (names within IsName)
open Disk (LastName Target)

theorem LastName.of_isName {name : String} (h : IsName name) : LastName.of name = .name name := by
  rw [LastName.of, if_neg h.notHere, if_neg h.notBack]

/-- A name within a folder is looked for from where the folder is. -/
theorem startOf_within {name : String} (h : IsName name) (folder : Path) (text : String) :
    startOf folder (within text name) = startOf folder text := by
  rw [startOf, startOf, Written.isAbsolute_within h]

/-- After the places on the way to a folder, the place of the name is looked at. -/
theorem looksAt_within {name : String} (h : IsName name) (folder : Path) (text : String) :
    looksAt folder (within text name) = looksAt folder text ++ [place folder text ++ [name]] := by
  rw [looksAt, Written.names_within h, startOf_within h, lookups_append,
    lookups_singleton (LastName.of_isName h)]
  rfl

namespace Disk

variable {d d' : Disk} {folder path : Path} {text name : String}

/-- Whoever enters has looked at a folder, or at nothing. -/
theorem folder_of_enter (h : d.enter folder name = .ok path) :
    ∀ q ∈ lookups folder [name], d.find? q = some .folder := by
  intro q hq
  unfold enter at h
  cases hlast : LastName.of name with
  | root | here | back =>
    simp only [lookups, hlast] at hq
    cases hq
  | name text =>
    rw [lookups_singleton hlast] at hq
    obtain rfl := List.mem_singleton.mp hq
    rw [hlast] at h
    dsimp only at h
    split at h
    · rename_i hchild
      exact find?_of_childOf hchild
    · cases h
    · cases h

/-- A walk that comes to its end has seen nothing but folders. -/
theorem folder_of_foldlM_enter {names : List String} (h : names.foldlM d.enter folder = .ok path) :
    ∀ q ∈ lookups folder names, d.find? q = some .folder := by
  induction names generalizing folder with
  | nil =>
    intro q hq
    exact nomatch hq
  | cons name names ih =>
    rw [List.foldlM_cons] at h
    obtain ⟨next, hnext, hrest⟩ := exists_ok_of_bind h
    intro q hq
    rw [lookups_cons] at hq
    rcases List.mem_append.mp hq with hfirst | hlater
    · exact folder_of_enter hnext q hfirst
    · rw [← eq_follow_of_enter hnext] at hlater
      exact ih hrest q hlater

/-- The walk to a name inside a folder is the walk to the folder. -/
theorem reach_within (hname : IsName name) (d : Disk) :
    d.reach folder (within text name) =
      if (within text name).toList.contains '\x00' then .error .zeroByte
      else if (within text name).isEmpty then .error .notFound
      else if longestPath ≤ (within text name).utf8ByteSize then .error .nameTooLong
      else do
        let before ← (names text).foldlM d.enter (startOf folder text)
        return ⟨before, .name name, Written.endsInSlash (within text name)⟩ := by
  have hstart : (if Written.isAbsolute (within text name) then [] else folder) =
      startOf folder text := startOf_within hname folder text
  rw [reach, hstart, Written.names_within hname]
  simp only [List.getLast?_concat, List.dropLast_concat, LastName.of_isName hname]

/-- What stands behind a name in a folder can be reached alike on disks that agree on the way to the
folder. -/
theorem reach_within_congr (hname : IsName name) (h : AgreeAt d d' (looksAt folder text)) :
    d.reach folder (within text name) = d'.reach folder (within text name) := by
  have hwalk : (names text).foldlM d.enter (startOf folder text) =
      (names text).foldlM d'.enter (startOf folder text) := foldlM_enter_congr h
  rw [reach_within hname, reach_within hname, hwalk]

/-- A walk to a name inside a folder that comes through has found folders. -/
theorem walk_of_reach_within (hname : IsName name) {t : Target}
    (h : d.reach folder (within text name) = .ok t) :
    t.folder = place folder text ∧ t.last = .name name ∧
      ∀ q ∈ looksAt folder text, d.find? q = some .folder := by
  rw [reach_within hname] at h
  split at h
  · exact nomatch h
  split at h
  · exact nomatch h
  split at h
  · exact nomatch h
  obtain ⟨before, hwalk, htarget⟩ := exists_ok_of_bind h
  obtain rfl := Except.ok.inj htarget
  exact ⟨eq_foldl_of_foldlM_enter hwalk, rfl, folder_of_foldlM_enter hwalk⟩

/-- What is found under a name stands there, and folders stand on the way to it. -/
theorem find?_of_locate_within (hname : IsName name) {e : Entry}
    (h : d.locate folder (within text name) = .ok (path, e)) :
    d.find? (place folder text ++ [name]) = some e ∧
      ∀ q ∈ looksAt folder text, d.find? q = some .folder := by
  obtain ⟨target, hreach, h⟩ := exists_ok_of_bind h
  obtain ⟨hfolder, hlast, hway⟩ := walk_of_reach_within hname hreach
  rw [hlast] at h
  obtain ⟨found, hchild, h⟩ := exists_ok_of_bind h
  split at h
  · exact nomatch h
  · obtain ⟨-, rfl⟩ := Prod.mk.inj (Except.ok.inj h)
    refine ⟨?_, hway⟩
    rw [← hfolder]
    exact find?_of_childOf hchild

/-- Where a file may be put under a name, folders stand on the way to it. -/
theorem folder_of_placeForFile_within (hname : IsName name)
    (hplace : d.placeForFile folder (within text name) = .ok path) :
    ∀ q ∈ looksAt folder text, d.find? q = some .folder := by
  obtain ⟨target, hreach, -⟩ := exists_ok_of_bind hplace
  exact (walk_of_reach_within hname hreach).2.2

/-- Where a file may be put under a name, what stands there is found, as long as the folders on the
way to it are the same. -/
theorem locate_within_of_placeForFile (hname : IsName name)
    (hplace : d.placeForFile folder (within text name) = .ok path)
    (hagree : AgreeAt d d' (looksAt folder text)) {e : Entry}
    (hstands : d'.find? (place folder text ++ [name]) = some e) :
    ∃ found, d'.locate folder (within text name) = .ok (found, e) := by
  obtain ⟨target, hreach, hplace⟩ := exists_ok_of_bind hplace
  obtain ⟨hfolder, hlast, -⟩ := walk_of_reach_within hname hreach
  rw [hlast] at hplace
  have hneeds : target.needsFolder = false := by
    cases hneeds : target.needsFolder with
    | false => rfl
    | true => rw [hneeds] at hplace; exact nomatch hplace
  -- the name is not too long, or the file could not have been put there
  have hchild : d'.childOf target.folder name = .ok e := by
    have hshort : ¬ longestName < name.utf8ByteSize := by
      intro hlong
      have hrefused : d.childOf target.folder name = .error .nameTooLong := by
        rw [childOf, if_pos hlong]
      simp only [hneeds, hrefused] at hplace
      exact nomatch hplace
    rw [childOf, if_neg hshort, hfolder, hstands]
  refine ⟨target.path, ?_⟩
  rw [locate, ← reach_within_congr hname hagree, hreach]
  simp only [bind, Except.bind, hlast, hchild, hneeds]
  rfl

/-- Where a file may be put under a name, one that stands there is read, as long as the folders on
the way to it are the same. -/
theorem read_within_of_placeForFile (hname : IsName name)
    (hplace : d.placeForFile folder (within text name) = .ok path)
    (hagree : AgreeAt d d' (looksAt folder text)) {bytes : Text.Bytes}
    (hfile : d'.find? (place folder text ++ [name]) = some (.file bytes)) :
    d'.read folder (within text name) = .ok bytes := by
  obtain ⟨found, hlocate⟩ := locate_within_of_placeForFile hname hplace hagree hfile
  rw [read, hlocate]
  rfl

/-- What is renamed stands under its name. -/
theorem eq_of_rename_within (hname : IsName name) {target : String}
    (h : d.rename folder (within text name) target = .ok d') :
    ∃ e, d.find? (place folder text ++ [name]) = some e ∧
      d' = (d.erase (place folder text ++ [name])).set (place folder target) e ∧
      d.placeForFile folder target = .ok (place folder target) := by
  obtain ⟨⟨path, e⟩, hlocate, h⟩ := exists_ok_of_bind h
  obtain ⟨hstands, -⟩ := find?_of_locate_within hname hlocate
  obtain ⟨rfl, -⟩ := find?_of_locate hlocate
  obtain ⟨goal, hplace, h⟩ := exists_ok_of_bind h
  obtain ⟨rfl, -⟩ := find?_of_placeForFile hplace
  rw [place_within hname] at h
  exact ⟨e, hstands, (Except.ok.inj h).symm, hplace⟩

/-- A file that has been renamed inside a folder is read under its new name, if it was not on the
way to the folder. -/
theorem read_of_rename_within {target : String} (hname : IsName name) (htarget : IsName target)
    (h : d.rename folder (within text name) (within text target) = .ok d') {bytes : Text.Bytes}
    (hfile : d.find? (place folder text ++ [name]) = some (.file bytes))
    (hway : ∀ q ∈ looksAt folder text, ¬ place folder text ++ [name] <+: q) :
    d'.read folder (within text target) = .ok bytes := by
  obtain ⟨e, hstands, hmoved, hplace⟩ := eq_of_rename_within hname h
  obtain rfl := Option.some.inj (hfile.symm.trans hstands)
  rw [place_within htarget] at hmoved hplace
  refine read_within_of_placeForFile htarget hplace ?_ ?_
  · intro q hq
    -- a folder stands there, and none in the place of the file
    have hne : q ≠ place folder text ++ [target] := by
      rintro rfl
      exact ne_folder_of_placeForFile hplace (folder_of_placeForFile_within htarget hplace _ hq)
    rw [hmoved, find?_set_of_ne hne, find?_erase, if_neg fun hgone => hway q hq hgone.2]
  · rw [hmoved, find?_set_self (List.concat_ne_nil _ _)]

/-- What is read under a name is what a file has that stands there, or nothing; and something
stands at each place that is looked at. -/
theorem stands_of_read_within (hname : IsName name) {bytes : Text.Bytes}
    (h : d.read folder (within text name) = .ok bytes) :
    ∀ q ∈ looksAt folder (within text name), d.find? q ≠ none := by
  obtain ⟨⟨path, e⟩, hlocate, -⟩ := exists_ok_of_bind h
  obtain ⟨hstands, hway⟩ := find?_of_locate_within hname hlocate
  intro q hq
  rw [looksAt_within hname] at hq
  rcases List.mem_append.mp hq with hfront | hlast
  · rw [hway q hfront]
    exact nofun
  · rw [List.mem_singleton.mp hlast, hstands]
    exact nofun

end Disk

end LineQuery.Files
