import LineQuery.Proofs.Files.Places

/-! # What operations change on a disk

Each operation on a written path changes what stands at the place of the path and below it, and
nothing else. Making folders changes only places at which nothing stood, and files are neither
made nor lost by it.
-/

namespace LineQuery.Files.Disk

variable {d d' : Disk} {folder path other : Path} {text : String}

/-! ## Entries after a change -/

/-- A key is looked up in a filtered list as in the whole one, if the filter keeps it. -/
theorem lookup_filter_key (keep : Path → Bool) (entries : List (Path × Entry)) (path : Path) :
    (entries.filter fun entry => keep entry.1).lookup path =
      if keep path then entries.lookup path else none := by
  induction entries with
  | nil => simp
  | cons entry entries ih =>
    obtain ⟨key, e⟩ := entry
    by_cases hkey : path = key
    · obtain rfl := hkey
      cases hkeep : keep path with
      | false => simpa [List.filter_cons, hkeep] using ih
      | true => simp [hkeep]
    · have hne : (path == key) = false := beq_false_of_ne hkey
      cases hkeep : keep key with
      | false => simpa [List.filter_cons, List.lookup_cons, hkeep, hne] using ih
      | true => simpa [List.filter_cons, List.lookup_cons, hkeep, hne] using ih

/-- What stands somewhere but at the root is listed on the disk. -/
theorem mem_entries_of_find? {e : Entry} (hroot : path ≠ []) (h : d.find? path = some e) :
    (path, e) ∈ d.entries := by
  rw [find?, if_neg hroot] at h
  obtain ⟨before, behind, hentries, -⟩ := List.lookup_eq_some_iff.mp h
  rw [hentries]
  exact List.mem_append_right _ List.mem_cons_self

theorem isPrefixOf_eq_decide (path other : Path) :
    path.isPrefixOf other = decide (path <+: other) := by
  rw [Bool.eq_iff_iff, List.isPrefixOf_iff_prefix, decide_eq_true_iff]

/-- What is set at a path is found there. -/
theorem find?_set_self (h : path ≠ []) (e : Entry) : (d.set path e).find? path = some e := by
  rw [find?, if_neg h, set, List.lookup_cons_self]

/-- Setting one path changes no other. -/
theorem find?_set_of_ne (h : other ≠ path) (e : Entry) :
    (d.set path e).find? other = d.find? other := by
  have hkeep := lookup_filter_key (fun key => decide (key ≠ path)) d.entries other
  rw [if_pos (decide_eq_true h)] at hkeep
  unfold find? set
  rw [List.lookup_cons, beq_false_of_ne h, hkeep]

/-- What stands on a disk after the place of something has been cleared: what stood there before,
but nothing at the place or below it. -/
theorem find?_erase (d : Disk) (path other : Path) :
    (d.erase path).find? other =
      if other ≠ [] ∧ path <+: other then none else d.find? other := by
  have hkeep := lookup_filter_key (fun key => !path.isPrefixOf key) d.entries other
  unfold find? erase
  rw [hkeep, isPrefixOf_eq_decide]
  by_cases hroot : other = []
  · simp [hroot]
  · by_cases hprefix : path <+: other <;> simp [hroot, hprefix]

/-- Erasing below a path keeps the path itself and all that is beside it. -/
theorem find?_eraseBelow (d : Disk) (path other : Path) :
    (d.eraseBelow path).find? other =
      if other ≠ [] ∧ other ≠ path ∧ path <+: other then none else d.find? other := by
  have hkeep := lookup_filter_key (fun key => key = path || !path.isPrefixOf key) d.entries other
  unfold find? eraseBelow
  rw [hkeep, isPrefixOf_eq_decide]
  by_cases hroot : other = []
  · simp [hroot]
  · by_cases hself : other = path
    · simp [hself]
    · by_cases hprefix : path <+: other <;> simp [hroot, hself, hprefix]

/-! ## Reading and writing -/

/-- What is found at a written path stands at its place, or it is a folder. -/
theorem find?_of_locate {e : Entry} (h : d.locate folder text = .ok (path, e)) :
    path = place folder text ∧ (d.find? path = some e ∨ e = .folder) := by
  obtain ⟨target, hreach, h⟩ := exists_ok_of_bind h
  have hpath := path_of_reach hreach
  split at h
  · rename_i name hlast
    obtain ⟨found, hchild, h⟩ := exists_ok_of_bind h
    split at h
    · exact nomatch h
    · obtain ⟨rfl, rfl⟩ := Prod.mk.inj (Except.ok.inj h)
      have hname : target.path = target.folder ++ [name] := by
        rw [Target.path, hlast]
      refine ⟨hpath, .inl ?_⟩
      rw [hname]
      exact find?_of_childOf hchild
  · obtain ⟨rfl, rfl⟩ := Prod.mk.inj (Except.ok.inj h)
    exact ⟨hpath, .inr rfl⟩

/-- What is read stands in a file at the place of the path, or it is nothing and no file stands
there. -/
theorem find?_of_read {bytes : Text.Bytes} (h : d.read folder text = .ok bytes) :
    d.find? (place folder text) = some (.file bytes) ∨
      bytes = [] ∧ ∃ e, d.find? (place folder text) = some e ∧ ∀ found, e ≠ .file found := by
  obtain ⟨⟨path, e⟩, hlocate, h⟩ := exists_ok_of_bind h
  obtain ⟨rfl, hstands⟩ := find?_of_locate hlocate
  dsimp only at h
  split at h
  · obtain rfl := Except.ok.inj h
    exact .inl (hstands.resolve_right nofun)
  · exact nomatch h
  · exact nomatch h
  · exact .inr ⟨(Except.ok.inj h).symm, _, hstands.resolve_right nofun, nofun⟩
  · exact .inr ⟨(Except.ok.inj h).symm, _, hstands.resolve_right nofun, nofun⟩

/-- A file may be opened for writing at the place of the path, where nothing stands, or a file or
a device. -/
theorem find?_of_placeForFile (h : d.placeForFile folder text = .ok path) :
    path = place folder text ∧ (d.find? path = none ∨
      (∃ bytes, d.find? path = some (.file bytes)) ∨
        ∃ device, d.find? path = some (.device device)) := by
  obtain ⟨target, hreach, h⟩ := exists_ok_of_bind h
  have hpath := path_of_reach hreach
  split at h
  · rename_i name hlast
    have hname : target.path = target.folder ++ [name] := by
      rw [Target.path, hlast]
    dsimp only at h
    split at h
    · exact nomatch h
    split at h
    · rename_i hchild
      split at h
      · exact nomatch h
      · obtain rfl := Except.ok.inj h
        exact ⟨hpath, .inl (hname ▸ find?_of_childOf_notFound hchild)⟩
    · exact nomatch h
    · exact nomatch h
    · exact nomatch h
    · exact nomatch h
    · rename_i bytes hchild
      obtain rfl := Except.ok.inj h
      exact ⟨hpath, .inr (.inl ⟨bytes, hname ▸ find?_of_childOf hchild⟩)⟩
    · rename_i device _ hchild
      obtain rfl := Except.ok.inj h
      exact ⟨hpath, .inr (.inr ⟨device, hname ▸ find?_of_childOf hchild⟩)⟩
  · exact nomatch h

/-- No file may be put in the place of a folder. -/
theorem ne_folder_of_placeForFile (h : d.placeForFile folder text = .ok path) :
    d.find? path ≠ some .folder := by
  intro hfolder
  rcases (find?_of_placeForFile h).2 with hnone | ⟨_, hfile⟩ | ⟨_, hdevice⟩
  · exact nomatch hfolder.symm.trans hnone
  · exact nomatch hfolder.symm.trans hfile
  · exact nomatch hfolder.symm.trans hdevice

/-- Writing leaves a file with the bytes at the place of the path, where at most a file stood
before, or a device as it was. -/
theorem eq_of_write {bytes : Text.Bytes} (h : d.write folder text bytes = .ok d') :
    d' = d.set (place folder text) (.file bytes) ∧
        (∀ e, d.find? (place folder text) = some e → ∃ found, e = .file found) ∨
      d' = d ∧ ∃ device, d.find? (place folder text) = some (.device device) := by
  obtain ⟨path, hplace, h⟩ := exists_ok_of_bind h
  obtain ⟨rfl, hstands⟩ := find?_of_placeForFile hplace
  split at h
  · exact nomatch h
  · rename_i device _ hdevice
    exact .inr ⟨(Except.ok.inj h).symm, device, hdevice⟩
  · rename_i hfull hnone
    refine .inl ⟨(Except.ok.inj h).symm, fun e he => ?_⟩
    rcases hstands with hnothing | ⟨found, hfile⟩ | ⟨device, hdevice⟩
    · exact absurd (he.symm.trans hnothing) nofun
    · exact ⟨found, Option.some.inj (he.symm.trans hfile)⟩
    · exact absurd hdevice (hnone device)

/-- Renaming moves what stands at one place to another. -/
theorem eq_of_rename {source target : String} (h : d.rename folder source target = .ok d') :
    ∃ e, (d.find? (place folder source) = some e ∨ e = .folder) ∧
      d' = (d.erase (place folder source)).set (place folder target) e := by
  obtain ⟨⟨path, e⟩, hlocate, h⟩ := exists_ok_of_bind h
  obtain ⟨rfl, hstands⟩ := find?_of_locate hlocate
  obtain ⟨goal, hplace, h⟩ := exists_ok_of_bind h
  obtain ⟨rfl, -⟩ := find?_of_placeForFile hplace
  exact ⟨e, hstands, (Except.ok.inj h).symm⟩

theorem eq_of_removeFile (h : d.removeFile folder text = .ok d') :
    d' = d.erase (place folder text) := by
  obtain ⟨⟨path, e⟩, hlocate, h⟩ := exists_ok_of_bind h
  obtain ⟨rfl, -⟩ := find?_of_locate hlocate
  split at h
  · exact nomatch h
  · rename_i hpair
    obtain ⟨rfl, -⟩ := Prod.mk.inj hpair
    exact (Except.ok.inj h).symm

/-! ## Making folders -/

/-- Between two disks, folders were made at some of `places`, where nothing stood. -/
def GainsFolders (places : List Path) (d d' : Disk) : Prop :=
  ∀ path, d'.find? path = d.find? path ∨
    path ∈ places ∧ d.find? path = none ∧ d'.find? path = some .folder

namespace GainsFolders

variable {places more : List Path} {d'' : Disk}

theorem refl (places : List Path) (d : Disk) : GainsFolders places d d :=
  fun _ => .inl rfl

theorem trans (h : GainsFolders places d d') (h' : GainsFolders places d' d'') :
    GainsFolders places d d'' := by
  intro path
  rcases h path with hsame | ⟨hmem, hnone, hfolder⟩
  · rcases h' path with hsame' | ⟨hmem, hnone, hfolder⟩
    · exact .inl (hsame'.trans hsame)
    · exact .inr ⟨hmem, hsame ▸ hnone, hfolder⟩
  · rcases h' path with hsame' | ⟨-, hnone', -⟩
    · exact .inr ⟨hmem, hnone, hsame'.trans hfolder⟩
    · exact absurd (hfolder.symm.trans hnone') nofun

theorem mono (h : GainsFolders places d d') (hsub : places ⊆ more) : GainsFolders more d d' :=
  fun path => (h path).imp_right fun ⟨hmem, hrest⟩ => ⟨hsub hmem, hrest⟩

/-- What stood there before is still there. -/
theorem stood (h : GainsFolders places d d') {e : Entry} (hstood : d.find? path = some e) :
    d'.find? path = some e := by
  rcases h path with hsame | ⟨-, hnone, -⟩
  · exact hsame ▸ hstood
  · exact absurd (hstood.symm.trans hnone) nofun

/-- No file is made where folders are. -/
theorem file (h : GainsFolders places d d') {bytes : Text.Bytes}
    (hfile : d'.find? path = some (.file bytes)) : d.find? path = some (.file bytes) := by
  rcases h path with hsame | ⟨-, -, hfolder⟩
  · exact hsame ▸ hfile
  · exact absurd (hfolder.symm.trans hfile) nofun

end GainsFolders

/-- A folder is made under a name under which nothing stood, where the walk to it ends. -/
theorem exists_of_makeFolder (h : d.makeFolder folder text = .ok d') :
    ∃ target name, d.reach folder text = .ok target ∧
      target.folder ++ [name] = place folder text ∧
      d.find? (target.folder ++ [name]) = none ∧
      d' = d.set (target.folder ++ [name]) .folder := by
  obtain ⟨target, hreach, h⟩ := exists_ok_of_bind h
  split at h
  · rename_i name hlast
    have hname : target.path = target.folder ++ [name] := by
      rw [Target.path, hlast]
    split at h
    · exact nomatch h
    · rename_i hchild
      split at h
      · exact nomatch h
      · obtain rfl := Except.ok.inj h
        refine ⟨target, name, hreach, ?_, find?_of_childOf_notFound hchild, ?_⟩
        · rw [← hname, path_of_reach hreach]
        · rw [← hname]
    · exact nomatch h
  · exact nomatch h

/-- What is kept whenever one folder is made is kept when a folder and those above it are made, as
far as that gets. -/
theorem makeFolders_keeps (keeps : Disk → Prop)
    (hone : ∀ {d d' : Disk} {text : String}, keeps d → d.makeFolder folder text = .ok d' → keeps d')
    (h : keeps d) (text : String) : keeps (d.makeFolders folder text).2 := by
  have hensured : ∀ {d d' : Disk} {text : String}, keeps d →
      d.ensureFolder folder text = .ok d' → keeps d' := by
    intro d d' text h hmade
    unfold ensureFolder at hmade
    split at hmade
    · rename_i hfirst
      exact Except.ok.inj hmade ▸ hone h hfirst
    · split at hmade
      · exact Except.ok.inj hmade ▸ h
      · exact nomatch hmade
  have hchain : ∀ texts, keeps (d.makeChain folder texts).2 := by
    intro texts
    -- the folders above are made first, if the last one cannot be made without them
    induction texts with
    | nil => exact h
    | cons text above ih =>
      unfold makeChain
      split
      · rename_i hmade
        exact hone h hmade
      · split
        · rename_i habove
          rwa [habove] at ih
        · rename_i habove
          rw [habove] at ih
          split
          · rename_i hmade
            exact hensured ih hmade
          · exact ih
      · split
        · exact h
        · exact h
  unfold makeFolders
  split
  · exact h
  · exact hchain _

/-- A folder is made where nothing stood. -/
theorem gainsFolders_of_makeFolder (h : d.makeFolder folder text = .ok d') :
    GainsFolders [place folder text] d d' := by
  obtain ⟨target, name, -, hplace, hnone, rfl⟩ := exists_of_makeFolder h
  rw [hplace] at hnone ⊢
  have hroot : place folder text ≠ [] := hplace ▸ List.concat_ne_nil _ _
  intro path
  by_cases hself : path = place folder text
  · obtain rfl := hself
    exact .inr ⟨List.mem_singleton_self _, hnone, find?_set_self hroot _⟩
  · exact .inl (find?_set_of_ne hself _)

/-- Making a folder that may be there adds this folder at most. -/
theorem gainsFolders_of_ensureFolder (h : d.ensureFolder folder text = .ok d') :
    GainsFolders [place folder text] d d' := by
  unfold ensureFolder at h
  split at h
  · rename_i hmade
    exact Except.ok.inj h ▸ gainsFolders_of_makeFolder hmade
  · split at h
    · exact Except.ok.inj h ▸ .refl _ d
    · exact nomatch h

/-- Making folders one after another adds these folders at most. -/
theorem gainsFolders_makeChain (d : Disk) (folder : Path) (texts : List String) :
    GainsFolders (texts.map (place folder)) d (d.makeChain folder texts).2 := by
  induction texts with
  | nil => exact .refl _ d
  | cons text above ih =>
    have hself : [place folder text] ⊆ (text :: above).map (place folder) := by simp
    have habove : above.map (place folder) ⊆ (text :: above).map (place folder) := by simp
    unfold makeChain
    split
    · rename_i hmade
      exact (gainsFolders_of_makeFolder hmade).mono hself
    · split
      · rename_i hchain
        rw [hchain] at ih
        exact ih.mono habove
      · rename_i hchain
        rw [hchain] at ih
        split
        · rename_i hmade
          exact (ih.mono habove).trans ((gainsFolders_of_ensureFolder hmade).mono hself)
        · exact ih.mono habove
    · split
      · exact .refl _ d
      · exact .refl _ d

/-- Making a folder and those above it changes only places of theirs. -/
theorem gainsFolders_makeFolders (d : Disk) (folder : Path) (text : String) :
    GainsFolders ((Written.upward text).map (place folder)) d (d.makeFolders folder text).2 := by
  unfold makeFolders
  split
  · exact .refl _ d
  · exact gainsFolders_makeChain d folder _

/-! ## Removing a folder -/

/-- Between two disks, things have gone that stood at or below a place, and nothing else has
happened. -/
def LosesBelow (top : Path) (d d' : Disk) : Prop :=
  ∀ path, d'.find? path = d.find? path ∨ top <+: path ∧ d'.find? path = none

namespace LosesBelow

variable {top : Path} {d'' : Disk}

theorem refl (top : Path) (d : Disk) : LosesBelow top d d :=
  fun _ => .inl rfl

theorem trans (h : LosesBelow top d d') (h' : LosesBelow top d' d'') : LosesBelow top d d'' := by
  intro path
  rcases h' path with hsame | hgone
  · exact (h path).imp hsame.trans fun ⟨hbelow, hnone⟩ => ⟨hbelow, hsame.trans hnone⟩
  · exact .inr hgone

/-- A file that has not gone was there before. -/
theorem file (h : LosesBelow top d d') {bytes : Text.Bytes}
    (hfile : d'.find? path = some (.file bytes)) : d.find? path = some (.file bytes) := by
  rcases h path with hsame | ⟨-, hnone⟩
  · exact hsame ▸ hfile
  · exact absurd (hnone.symm.trans hfile) nofun

end LosesBelow

theorem losesBelow_erase (d : Disk) (path : Path) : LosesBelow path d (d.erase path) := by
  intro other
  rw [find?_erase]
  split
  · rename_i hgone
    exact .inr ⟨hgone.2, rfl⟩
  · exact .inl rfl

theorem losesBelow_eraseBelow (d : Disk) (path : Path) :
    LosesBelow path d (d.eraseBelow path) := by
  intro other
  rw [find?_eraseBelow]
  split
  · rename_i hgone
    exact .inr ⟨hgone.2.2, rfl⟩
  · exact .inl rfl

/-- Removing a folder takes nothing away but what is in it. -/
theorem losesBelow_of_removeFolder (h : d.removeFolder folder text = .ok d') :
    LosesBelow (place folder text) d d' := by
  obtain ⟨target, hreach, h⟩ := exists_ok_of_bind h
  rw [← path_of_reach hreach]
  split at h
  · exact nomatch h
  · exact nomatch h
  · exact nomatch h
  · obtain ⟨e, -, h⟩ := exists_ok_of_bind h
    split at h
    · split at h
      · exact Except.ok.inj h ▸ losesBelow_erase d _
      · exact nomatch h
    · exact nomatch h

/-- Removing a folder with what stands in it takes nothing else away. -/
theorem losesBelow_removeTree (d : Disk) (folder : Path) (text : String) :
    LosesBelow (place folder text) d (d.removeTree folder text).2 := by
  unfold removeTree
  split
  · exact .refl _ d
  · rename_i path hlocate
    obtain ⟨rfl, -⟩ := find?_of_locate hlocate
    have hbelow := losesBelow_eraseBelow d (place folder text)
    dsimp only
    split
    · rename_i hremoved
      exact hbelow.trans (losesBelow_of_removeFolder hremoved)
    · exact hbelow
    · exact hbelow
  · exact .refl _ d

end LineQuery.Files.Disk
