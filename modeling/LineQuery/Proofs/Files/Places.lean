import LineQuery.Files.Disk
import Mathlib.Tactic.SplitIfs

/-! # Where written paths lead

If a walk along a written path comes through, it comes to the place that the names lead to one
after another, whatever stands there. The place of a name inside a folder is the place of the
folder and the name.
-/

namespace LineQuery.Files

/-- What succeeds in two steps succeeds in each of them. -/
theorem exists_ok_of_bind {ε α β : Type} {x : Except ε α} {f : α → Except ε β} {b : β}
    (h : x >>= f = .ok b) : ∃ a, x = .ok a ∧ f a = .ok b := by
  cases x with
  | error e => exact nomatch h
  | ok a => exact ⟨a, rfl, h⟩

/-- A text ends in another if it is some text and that. -/
theorem endsWith_iff {text suffix : String} :
    text.endsWith suffix = true ↔ ∃ front, text = front ++ suffix := by
  rw [← String.endsWith_toSlice, String.Slice.endsWith_string_iff, String.copy_toSlice]
  constructor
  · rintro ⟨front, hfront⟩
    refine ⟨String.ofList front, ?_⟩
    rw [← String.toList_inj, ← hfront, String.toList_append, String.toList_ofList]
  · rintro ⟨front, rfl⟩
    exact ⟨front.toList, String.toList_append.symm⟩

/-! ## Names in a written path -/

namespace Written

/-- A slash ends the name in front of it. -/
theorem splitFrom_append_slash (piece cs ds : List Char) :
    Text.splitFrom ['/'] 0 piece (cs ++ '/' :: ds) =
      Text.splitFrom ['/'] 0 piece cs ++ Text.split ['/'] ds := by
  induction cs generalizing piece with
  | nil => simp [Text.splitFrom, Text.split]
  | cons c cs ih =>
    by_cases hc : '/' = c
    · obtain rfl := hc
      have hnext := ih []
      simpa [Text.splitFrom] using hnext
    · have hnext := ih (c :: piece)
      simpa [Text.splitFrom, hc] using hnext

theorem splitFrom_of_not_mem {cs : List Char} (h : '/' ∉ cs) (piece : List Char) :
    Text.splitFrom ['/'] 0 piece cs = [piece.reverse ++ cs] := by
  induction cs generalizing piece with
  | nil => rw [Text.splitFrom, List.append_nil]
  | cons c cs ih =>
    obtain ⟨hc, hcs⟩ : '/' ≠ c ∧ '/' ∉ cs := by
      rwa [List.mem_cons, not_or] at h
    have hno : ¬ List.isPrefixOf ['/'] (c :: cs) := by simp [hc]
    rw [Text.splitFrom, if_neg hno, ih hcs, List.reverse_cons, List.append_assoc,
      List.singleton_append]

/-- A text that names something in a folder: it is not empty, has no slash in it, and is neither
one point nor two. -/
structure IsName (text : String) : Prop where
  nonempty : text ≠ ""
  slashless : '/' ∉ text.toList
  notHere : text ≠ "."
  notBack : text ≠ ".."

/-- The names on both sides of a slash. -/
theorem names_append_slash (a b : String) : names (a ++ "/" ++ b) = names a ++ names b := by
  have hchars : (a ++ "/" ++ b).toList = a.toList ++ '/' :: b.toList := by simp
  unfold names
  rw [hchars, ← List.filter_append, ← List.map_append]
  exact congrArg _ (congrArg _ (splitFrom_append_slash [] a.toList b.toList))

/-- A name without slashes is a path of one part. -/
theorem names_of_isName {text : String} (h : IsName text) : names text = [text] := by
  unfold names Text.split
  rw [splitFrom_of_not_mem h.slashless]
  simp [h.nonempty]

/-- A slash at the end of a path, if there is one, has nothing behind it. -/
theorem exists_append_slash_of_endsInSlash {text : String} (h : endsInSlash text) :
    ∃ front, text = front ++ "/" :=
  endsWith_iff.mp h

/-- A name within a folder is the last part of its path. -/
theorem names_within {name : String} (h : IsName name) (folder : String) :
    names (within folder name) = names folder ++ [name] := by
  have hname := names_of_isName h
  unfold within
  split_ifs with hplain
  · rcases Bool.or_eq_true_iff.mp hplain with hempty | hslash
    · obtain rfl := String.isEmpty_iff.mp hempty
      rw [String.empty_append, hname]
      rfl
    · obtain ⟨front, rfl⟩ := exists_append_slash_of_endsInSlash hslash
      have hfolder := names_append_slash front ""
      rw [String.append_empty] at hfolder
      rw [names_append_slash, hfolder, hname]
      simp [names, Text.split, Text.splitFrom]
  · rw [names_append_slash, hname]

theorem isAbsolute_within {name : String} (h : IsName name) (folder : String) :
    isAbsolute (within folder name) = isAbsolute folder := by
  rw [Bool.eq_iff_iff]
  unfold isAbsolute within
  rw [String.startsWith_string_iff, String.startsWith_string_iff]
  cases hchars : folder.toList with
  | nil =>
    obtain rfl : folder = "" := String.toList_inj.mp hchars
    have hno : ¬ ['/'] <+: name.toList := fun hslash =>
      h.slashless (hslash.subset List.mem_cons_self)
    simpa using hno
  | cons c cs => split_ifs <;> simp [hchars]

end Written

/-! ## The place of a written path -/

open Written (names isAbsolute within IsName)
open Disk (LastName Target)

/-- Where a name leads to from a folder. -/
def follow (folder : Path) (name : String) : Path :=
  match LastName.of name with
  | .root | .here => folder
  | .back => folder.dropLast
  | .name text => folder ++ [text]

/-- Where a written path starts, seen from a folder. -/
def startOf (folder : Path) (text : String) : Path :=
  if isAbsolute text then [] else folder

def place (folder : Path) (text : String) : Path :=
  (names text).foldl follow (startOf folder text)

theorem path_of_lastName (folder : Path) (name : String) (needsFolder : Bool) :
    Target.path ⟨folder, LastName.of name, needsFolder⟩ = follow folder name := by
  unfold Target.path follow
  cases LastName.of name <;> rfl

/-- The place of a name in a folder. -/
theorem place_within {name : String} (h : IsName name) (folder : Path) (text : String) :
    place folder (within text name) = place folder text ++ [name] := by
  have hname : LastName.of name = .name name := by
    rw [LastName.of, if_neg h.notHere, if_neg h.notBack]
  unfold place startOf
  rw [Written.names_within h, Written.isAbsolute_within h, List.foldl_append, List.foldl_cons,
    List.foldl_nil, follow, hname]

namespace Disk

variable {d : Disk} {folder : Path} {text : String}

/-- A child that is found stands in its folder. -/
theorem find?_of_childOf {name : String} {e : Entry} (h : d.childOf folder name = .ok e) :
    d.find? (folder ++ [name]) = some e := by
  unfold childOf at h
  split at h
  · exact nomatch h
  split at h
  · rename_i found hfound
    rw [hfound, Except.ok.inj h]
  · exact nomatch h

/-- Where nothing is found, nothing stands. -/
theorem find?_of_childOf_notFound {name : String} (h : d.childOf folder name = .error .notFound) :
    d.find? (folder ++ [name]) = none := by
  unfold childOf at h
  split at h
  · exact nomatch h
  split at h
  · exact nomatch h
  · assumption

/-- Going into a folder by a name leads where the name points. -/
theorem eq_follow_of_enter {name : String} {p : Path} (h : d.enter folder name = .ok p) :
    p = follow folder name := by
  unfold enter at h
  unfold follow
  cases hlast : LastName.of name with
  | root | here | back => rw [hlast] at h; exact (Except.ok.inj h).symm
  | name name =>
    rw [hlast] at h
    dsimp only at h
    split at h
    · exact (Except.ok.inj h).symm
    · exact nomatch h
    · exact nomatch h

/-- Walking along names leads where they point one after another. -/
theorem eq_foldl_of_foldlM_enter {names : List String} {p : Path}
    (h : names.foldlM d.enter folder = .ok p) : p = names.foldl follow folder := by
  induction names generalizing folder with
  | nil => exact (Except.ok.inj h).symm
  | cons name names ih =>
    rw [List.foldlM_cons] at h
    cases hfirst : d.enter folder name with
    | error e => rw [hfirst] at h; exact nomatch h
    | ok next =>
      rw [hfirst] at h
      rw [List.foldl_cons, ← eq_follow_of_enter hfirst]
      exact ih h

/-- A walk that comes through comes to the place of the path. -/
theorem path_of_reach {t : Target} (h : d.reach folder text = .ok t) :
    t.path = place folder text := by
  unfold reach at h
  split at h
  · exact nomatch h
  split at h
  · exact nomatch h
  split at h
  · exact nomatch h
  dsimp only at h
  unfold place startOf
  cases hlast : (names text).getLast? with
  | none =>
    rw [hlast] at h
    obtain rfl := Except.ok.inj h
    rw [List.getLast?_eq_none_iff.mp hlast]
    rfl
  | some last =>
    rw [hlast] at h
    obtain ⟨front, hnames⟩ := List.getLast?_eq_some_iff.mp hlast
    rw [hnames, List.dropLast_concat] at h
    obtain ⟨before, hfolder, htarget⟩ := exists_ok_of_bind h
    obtain rfl := Except.ok.inj htarget
    rw [path_of_lastName, eq_foldl_of_foldlM_enter hfolder, hnames, List.foldl_append,
      List.foldl_cons, List.foldl_nil]

end Disk

end LineQuery.Files
