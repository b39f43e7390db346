import LineQuery.Proofs.CommandLine.Sharing

/-! # A store makes no difference

After any history of invocations that share a store, of clearings and of damage to artifact files,
a run or a check gives the reply that it gives without the store. A file that is read must not lie
behind the store, though: a written path can lead through the folder of the store and back, and
there is such a folder only once something has been stored.
-/

namespace LineQuery.CommandLine

open LineQuery.Digest (Fingerprint)
open LineQuery.Files (Disk)
open LineQuery.Store (ArtifactStore)

/-! ## Histories -/

/-- What happens to a store: an invocation that may use it, a clearing, or damage to the artifact
file of a fingerprint. -/
inductive Happening where
  | invoke (i : Invocation)
  | clear (s : ArtifactStore)
  | delete (s : ArtifactStore) (key : Fingerprint)
  | cut (s : ArtifactStore) (key : Fingerprint) (length : Nat)

namespace Happening

def after (d : Disk) : Happening → Disk
  | invoke i => i.after d
  | clear s => (s.clear d).2
  | delete s key => s.afterDeleting d key
  | cut s key length => s.afterCutting d key length

def afterAll (d : Disk) (hs : List Happening) : Disk := hs.foldl after d

/-- What happens, but that an invocation does not use the store. -/
def uncached : Happening → Happening
  | invoke i => invoke i.uncached
  | other => other

/-- What happens concerns the store that is shared. -/
def Concerns (w : Sharing) : Happening → Prop
  | invoke i => i.Avoids w
  | clear s | delete s _ | cut s _ _ => s.root = w.root

variable {w : Sharing} {d : Disk}

theorem Concerns.uncached {h : Happening} (hw : h.Concerns w) : h.uncached.Concerns w := by
  cases h with
  | invoke i => exact Invocation.Avoids.uncached hw
  | clear | delete | cut => exact hw

/-- Whatever happens to the store is not seen elsewhere, and leaves it sound. -/
theorem Concerns.after {h : Happening} (hw : h.Concerns w) (hfresh : w.Fresh) (hd : w.Keeps d) :
    w.Keeps (h.after d) := by
  cases h with
  | invoke i => exact Invocation.Avoids.after hw hfresh hd
  | clear s => exact hd.clear hw
  | delete s key => exact hd.delete hw key
  | cut s key length => exact hd.cut hw key length

/-- Nothing that happens reaches beyond the caches. -/
theorem keeps_afterAll {hs : List Happening} (hhs : ∀ h ∈ hs, h.Concerns w) (hfresh : w.Fresh)
    (hd : w.Keeps d) : w.Keeps (afterAll d hs) := by
  induction hs generalizing d with
  | nil => exact hd
  | cons h hs ih =>
    obtain ⟨hh, hhs⟩ := List.forall_mem_cons.mp hhs
    exact ih hhs (hh.after hfresh hd)

end Happening

/-! ## One file and one query -/

/-- A run that copies a file, with a store in the folder that it works in. -/
def copying (input : String) : Invocation where
  folder := []
  env := .empty
  stdin := []
  request :=
    { common := { cacheDir := some "c" }
      task := .run { parts := [.code "from l in lines select l"] } { input := some input } }

/-- What runs share that copy the only file of a disk. -/
def copyingOnly : Sharing where
  disk := ⟨[(["data.txt"], .file [120, 10])]⟩
  root := ["c"]
  folders := [["c"]]
  programs := [⟨["core", "text"], ["from l in lines select l"]⟩]

theorem fresh_copyingOnly : copyingOnly.Fresh where
  absent path h := by
    obtain ⟨rest, rfl⟩ := h
    rfl
  imports := by decide +kernel
  size := by decide +kernel
  distinct p hp q hq _ := by
    rw [List.mem_singleton.mp hp, List.mem_singleton.mp hq]

theorem store_copying (input : String) :
    (copying input).store {} = ⟨[], "c", true, toolVersion⟩ := rfl

/-- The worked example obeys what the theorem asks of a world. -/
theorem copying_joins (input : String) : (copying input).Joins copyingOnly where
  root s hs := by
    obtain rfl : {} = s := Option.some.inj hs
    rw [store_copying]
    decide +kernel
  folders s hs := by
    obtain rfl : {} = s := Option.some.inj hs
    rw [store_copying]
    decide +kernel
  program p hp := by
    have hquery : (copying input).program? copyingOnly.disk =
        (copying "").program? copyingOnly.disk := rfl
    have hprogram : (copying "").program? copyingOnly.disk =
        some ⟨["core", "text"], ["from l in lines select l"]⟩ := by decide +kernel
    rw [hquery, hprogram] at hp
    rw [← Option.some.inj hp]
    exact List.mem_cons_self
  alone s q o command hs htask := by
    obtain rfl : {} = s := Option.some.inj hs
    obtain ⟨rfl, rfl⟩ := Task.run.inj htask
    exact nofun

/-! ## With the store and without it -/

open Happening (afterAll)

/-- After any history, a run or a check gives the same reply as it does without the store, and as
it would have done if the store had never been used. -/
theorem cached_reply_eq_uncached {w : Sharing} (hfresh : w.Fresh) {hs : List Happening}
    (hhs : ∀ h ∈ hs, h.Concerns w) {i : Invocation} (hi : i.Avoids w)
    (hquery : i.request.task.query?.isSome) :
    i.reply (afterAll w.disk hs) = i.uncached.reply (afterAll w.disk hs) ∧
      i.reply (afterAll w.disk hs) =
        i.uncached.reply (afterAll w.disk (hs.map Happening.uncached)) := by
  have huncached : i.uncached.request.task.query?.isSome := by
    rwa [i.query?_uncached, Option.isSome_map]
  have hcached := Happening.keeps_afterAll hhs hfresh hfresh.keeps
  have hbare : w.Keeps (afterAll w.disk (hs.map Happening.uncached)) :=
    Happening.keeps_afterAll (List.forall_mem_map.mpr fun h hmem => (hhs h hmem).uncached)
      hfresh hfresh.keeps
  -- each of the replies is the one that is given at first without the store
  have hreply := hi.reply hfresh hcached hquery
  have hsame := hi.uncached.reply hfresh hcached huncached
  have hnever := hi.uncached.reply hfresh hbare huncached
  rw [i.uncached_uncached] at hsame hnever
  exact ⟨hreply.trans hsame.symm, hreply.trans hnever.symm⟩

/-- The runs of a history that copy a file do so with the store as without it, although its
artifact file is cut and deleted and the store is cleared. -/
theorem cached_reply_eq_uncached_of_copying :
    let s := (copying "data.txt").store {}
    let key := (⟨["core", "text"], ["from l in lines select l"]⟩ : Program).fingerprint
    let hs := [.invoke (copying "data.txt"), .cut s key 40, .invoke (copying "data.txt"),
      .delete s key, .invoke (copying "data.txt"), .clear s]
    let i := copying "data.txt"
    copyingOnly.Fresh ∧ (∀ h ∈ hs, Happening.Concerns copyingOnly h) ∧ i.Avoids copyingOnly ∧
      i.reply (afterAll copyingOnly.disk hs) = i.uncached.reply (afterAll copyingOnly.disk hs) ∧
      i.reply (afterAll copyingOnly.disk hs) =
        i.uncached.reply (afterAll copyingOnly.disk (hs.map Happening.uncached)) := by
  intro s key hs i
  have hi : i.Avoids copyingOnly := by
    refine ⟨copying_joins _, ?_⟩
    unfold Sharing.Made
    decide +kernel
  have hroot : s.root = copyingOnly.root := by
    decide +kernel
  have hhs : ∀ h ∈ hs, Happening.Concerns copyingOnly h := by
    simp only [hs, List.forall_mem_cons]
    exact ⟨hi, hroot, hi, hroot, hi, hroot, List.forall_mem_nil _⟩
  exact ⟨fresh_copyingOnly, hhs, hi, cached_reply_eq_uncached fresh_copyingOnly hhs hi rfl⟩

/-- A file has its place outside the store, and yet is found only with the store: the written path
leads through the folder of the store, which is made before the input is read. -/
theorem cached_reply_ne_uncached :
    let i := copying "c/../data.txt"
    copyingOnly.Fresh ∧ i.Joins copyingOnly ∧ i.ReadsOutside copyingOnly ∧
      i.request.task.query?.isSome ∧
      i.reply copyingOnly.disk ≠ i.uncached.reply copyingOnly.disk := by
  intro i
  refine ⟨fresh_copyingOnly, copying_joins _, ?_, rfl, ?_⟩
  · unfold Invocation.ReadsOutside
    decide +kernel
  · intro h
    have hstatus := congrArg Reply.status h
    revert hstatus
    decide +kernel

end LineQuery.CommandLine
