import LineQuery.Proofs.Files.Places

/-! # What a walk looks at

A walk along a written path looks at the places of its names one after another, and at nothing
else. So what is found, and read, at the end of it is the same on all disks that agree about these
places.
-/

namespace LineQuery.Files

open Written (names)
open Disk (LastName Target)

/-- The places that a walk along names looks at, from a folder on. -/
def lookups (folder : Path) : List String → List Path
  | [] => []
  | name :: names =>
    match LastName.of name with
    | .name text => (folder ++ [text]) :: lookups (folder ++ [text]) names
    | .back => lookups folder.dropLast names
    | .root | .here => lookups folder names

/-- The places that a walk along a written path looks at. -/
def looksAt (folder : Path) (text : String) : List Path :=
  lookups (startOf folder text) (names text)

theorem lookups_cons (folder : Path) (name : String) (names : List String) :
    lookups folder (name :: names) =
      lookups folder [name] ++ lookups (follow folder name) names := by
  simp only [lookups, follow]
  cases LastName.of name <;> rfl

/-- A walk looks where its first part does, and then where the second does from there. -/
theorem lookups_append (folder : Path) (before behind : List String) :
    lookups folder (before ++ behind) =
      lookups folder before ++ lookups (before.foldl follow folder) behind := by
  induction before generalizing folder with
  | nil => rfl
  | cons name before ih =>
    rw [List.cons_append, lookups_cons, lookups_cons folder name before, ih, List.foldl_cons,
      List.append_assoc]

/-- The places looked at for a name are the one that it names, if it names one. -/
theorem lookups_singleton {folder : Path} {name text : String}
    (h : LastName.of name = .name text) : lookups folder [name] = [folder ++ [text]] := by
  simp only [lookups, h]

namespace Disk

variable {d d' : Disk} {folder : Path} {text : String}

/-- The same stands on two disks at some places. -/
def AgreeAt (d d' : Disk) (places : List Path) : Prop :=
  ∀ place ∈ places, d.find? place = d'.find? place

/-- One look at the disk decides about a child. -/
theorem childOf_congr {name : String}
    (h : d.find? (folder ++ [name]) = d'.find? (folder ++ [name])) :
    d.childOf folder name = d'.childOf folder name := by
  unfold childOf
  rw [h]

theorem enter_congr {name : String} (h : AgreeAt d d' (lookups folder [name])) :
    d.enter folder name = d'.enter folder name := by
  unfold enter
  cases hlast : LastName.of name with
  | root | here | back => rfl
  | name text =>
    rw [lookups_singleton hlast] at h
    dsimp only
    rw [childOf_congr (h _ List.mem_cons_self)]

/-- A walk goes the same way on disks that agree where it looks. -/
theorem foldlM_enter_congr {names : List String} (h : AgreeAt d d' (lookups folder names)) :
    names.foldlM d.enter folder = names.foldlM d'.enter folder := by
  induction names generalizing folder with
  | nil => rfl
  | cons name names ih =>
    rw [lookups_cons] at h
    obtain ⟨hfirst, hrest⟩ := List.forall_mem_append.mp h
    rw [List.foldlM_cons, List.foldlM_cons, ← enter_congr hfirst]
    cases hnext : d.enter folder name with
    | error e => rfl
    | ok next =>
      rw [← eq_follow_of_enter hnext] at hrest
      exact ih hrest

/-- A walk on two disks that agree about the places that it looks at comes to the same end, and
there the last name is looked at. -/
theorem reach_congr (h : AgreeAt d d' (looksAt folder text)) :
    d.reach folder text = d'.reach folder text ∧
      ∀ target name, d.reach folder text = .ok target → target.last = .name name →
        d.find? (target.folder ++ [name]) = d'.find? (target.folder ++ [name]) := by
  unfold reach
  split
  · exact ⟨rfl, nofun⟩
  split
  · exact ⟨rfl, nofun⟩
  split
  · exact ⟨rfl, nofun⟩
  dsimp only
  cases hlast : (names text).getLast? with
  | none =>
    refine ⟨rfl, ?_⟩
    rintro target name hreach hname
    obtain rfl := Except.ok.inj hreach
    exact nomatch hname
  | some last =>
    -- the walk itself looks at all names but the last
    obtain ⟨front, hnames⟩ := List.getLast?_eq_some_iff.mp hlast
    unfold looksAt at h
    rw [hnames, lookups_append] at h
    obtain ⟨hfront, hend⟩ := List.forall_mem_append.mp h
    have hwalk : front.foldlM d.enter (startOf folder text) =
        front.foldlM d'.enter (startOf folder text) := foldlM_enter_congr hfront
    rw [hnames, List.dropLast_concat]
    constructor
    · exact congrArg (· >>= _) hwalk
    · intro target name hreach hname
      obtain ⟨before, hbefore, htarget⟩ := exists_ok_of_bind hreach
      obtain rfl := Except.ok.inj htarget
      rw [eq_foldl_of_foldlM_enter hbefore]
      rw [lookups_singleton hname] at hend
      exact hend _ List.mem_cons_self

/-- A path leads to the same place on disks that agree where it looks. -/
theorem locate_congr (h : AgreeAt d d' (looksAt folder text)) :
    d.locate folder text = d'.locate folder text := by
  obtain ⟨hreach, hend⟩ := reach_congr h
  unfold locate
  rw [← hreach]
  cases htarget : d.reach folder text with
  | error e => rfl
  | ok target =>
    cases hlast : target.last with
    | root | here | back => simp only [bind, Except.bind, hlast]
    | name name =>
      have hchild := childOf_congr (hend target name htarget hlast)
      simp only [bind, Except.bind, hlast, hchild]

/-- A file is read the same on disks that agree where its path looks. -/
theorem read_congr (h : AgreeAt d d' (looksAt folder text)) :
    d.read folder text = d'.read folder text := by
  unfold read
  rw [locate_congr h]

end Disk

end LineQuery.Files
