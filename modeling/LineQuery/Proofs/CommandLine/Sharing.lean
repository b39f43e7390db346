import LineQuery.Proofs.CommandLine.Invocations
import LineQuery.Proofs.Store.Fitting
import LineQuery.Proofs.Store.History
import LineQuery.Proofs.Store.Territory

/-! # Invocations that share a store

Whatever an invocation does, two things are kept. Outside what is made for the store, the disk is as
it was at first, so that each invocation reads the same. And each artifact file is the front of the
image of what its program compiles to, so that what is loaded is what would be built. So a run or a
check gives the reply that it would have given at first without the store.
-/

namespace LineQuery.CommandLine

open LineQuery.Digest (Fingerprint)
open LineQuery.Files (Disk Path)
open LineQuery.Files.Disk (AgreeAt Confined)
open LineQuery.Store (ArtifactStore Sound)
open LineQuery.Text (Bytes)

/-! ## What is shared -/

/-- What invocations share: the disk that the first of them finds, the folder of their store, the
folders that are made for it, and the programs that they compile. -/
structure Sharing where
  disk : Disk
  root : Path
  folders : List Path
  programs : List Program

namespace Sharing

variable {w : Sharing} {d d' : Disk}

/-- A place in the folder of the store, or of a folder that is made for it. -/
def Made (w : Sharing) (path : Path) : Prop :=
  w.root <+: path ∨ path ∈ w.folders ∧ w.disk.find? path = none

/-- At first there is no store. The programs have names of libraries without line ends, as all
identifiers are, and texts that a memory holds, and different texts among these have different
fingerprints. -/
structure Fresh (w : Sharing) : Prop where
  absent : ∀ path, w.root <+: path → w.disk.find? path = none
  imports : ∀ p ∈ w.programs, ∀ library ∈ p.imports, '\n' ∉ library.toList
  size : ∀ p ∈ w.programs, Text.size p.text ≤ longestText
  distinct : ∀ p ∈ w.programs, ∀ q ∈ w.programs, p.fingerprint = q.fingerprint → p.text = q.text

/-- A store may hold what a program compiles to, under the fingerprint of the program. -/
def Allowed (w : Sharing) (key : Fingerprint) (tool : String) (c : Compilation) : Prop :=
  tool = toolVersion ∧ ∃ p ∈ w.programs, p.Lined ∧ p.fingerprint = key ∧ compile p = .ok c

/-- A disk on which nothing has changed but what is made for the store, and on which the store
holds what programs compile to. -/
structure Keeps (w : Sharing) (d : Disk) : Prop where
  agrees : ∀ path, ¬ w.Made path → d.find? path = w.disk.find? path
  sound : Sound w.root Store.compilation w.Allowed d

theorem Fresh.keeps (h : w.Fresh) : w.Keeps w.disk where
  agrees _ _ := rfl
  sound _ _ hfile := absurd ((h.absent _ (List.prefix_append _ _)).symm.trans hfile) nofun

/-- What changes in the store, or is made for it, is not seen elsewhere. -/
theorem Keeps.agrees_of_confined (h : w.Keeps d) (hchange : Confined w.root w.folders d d') :
    ∀ path, ¬ w.Made path → d'.find? path = w.disk.find? path := by
  intro path hpath
  have hbefore := h.agrees path hpath
  rcases hchange path with hsame | hbelow | ⟨hmem, hnone⟩
  · exact hsame.trans hbefore
  · exact absurd (.inl hbelow) hpath
  · exact absurd (.inr ⟨hmem, hbefore ▸ hnone⟩) hpath

/-- Two disks that keep to the same one agree outside of what the caches have made. -/
theorem Keeps.agreeAt (h : w.Keeps d) (h' : w.Keeps d') {paths : List Path}
    (hpaths : ∀ path ∈ paths, ¬ w.Made path) : AgreeAt d d' paths := fun path hpath =>
  (h.agrees path (hpaths path hpath)).trans (h'.agrees path (hpaths path hpath)).symm

/-- What is allowed for a fingerprint fits in its file. -/
theorem Fresh.fits (hfresh : w.Fresh) {key : Fingerprint} {tool : String} {c : Compilation}
    (h : w.Allowed key tool c) :
    TextFits tool ∧ Store.compilation.Returns True c := by
  obtain ⟨rfl, p, hp, -, -, hcompile⟩ := h
  exact ⟨by decide +kernel,
    Store.lawful_compilation.returns c (fits_of_compile hcompile (hfresh.size p hp))⟩

/-- What is allowed for the fingerprint of a program is what the program compiles to. -/
theorem Fresh.compile_of_allowed (hfresh : w.Fresh) {p : Program} (hp : p ∈ w.programs)
    (hbody : ∀ line ∈ p.body, '\n' ∉ line.toList) {tool : String} {c : Compilation}
    (h : w.Allowed p.fingerprint tool c) : compile p = .ok c := by
  obtain ⟨-, q, hq, hlined, hkey, hcompile⟩ := h
  have htext := hfresh.distinct p hp q hq hkey.symm
  obtain rfl := Program.Lined.eq_of_text ⟨hfresh.imports p hp, hbody⟩ hlined htext
  exact hcompile

/-- A program is compiled to the same through the store as without it. -/
theorem Keeps.compileThrough (hfresh : w.Fresh) (h : w.Keeps d) {s : ArtifactStore}
    (hroot : s.root = w.root) (hfolders : s.folders ⊆ w.folders) (htool : s.tool = toolVersion)
    {p : Program} (hp : p ∈ w.programs) (hbody : ∀ line ∈ p.body, '\n' ∉ line.toList) :
    (compileThrough s d p).1 = compile p ∧ w.Keeps (compileThrough s d p).2 := by
  have hsound : Sound s.root Store.compilation w.Allowed d := hroot ▸ h.sound
  have hconfined := s.confined_resolve Store.compilation (fun _ => compile p) d p.fingerprint
  have hresolves :=
    Store.ArtifactStore.resolves s Store.compilation (fun _ => compile p) d p.fingerprint
  unfold CommandLine.compileThrough
  generalize s.resolve Store.compilation (fun _ => compile p) d p.fingerprint = outcome
    at hconfined hresolves ⊢
  cases hresolves with
  | hit c _ hload =>
    -- the file may be of another program, but then that has the same fingerprint
    have hallowed := hsound.allowed_of_load? Store.lawful_compilation.readsLocally
      (fun _ _ => hfresh.fits) hload
    exact ⟨(hfresh.compile_of_allowed hp hbody hallowed).symm, h⟩
  | failed e hcompile => exact ⟨hcompile.symm, h⟩
  | passed c _ hcompile => exact ⟨hcompile.symm, h⟩
  | built c stored d' _ hcompile hstore =>
    have hallowed : w.Allowed p.fingerprint s.tool c :=
      ⟨htool, p, hp, ⟨hfresh.imports p hp, hbody⟩, rfl, hcompile⟩
    have hstored := hsound.store hstore (fun _ => hallowed) fun _ _ _ hbefore => .inr hbefore
    refine ⟨hcompile.symm, h.agrees_of_confined ?_, hroot ▸ hstored⟩
    rw [← hroot]
    exact hconfined.mono hfolders

/-! ### Clearing and damage -/

/-- Clearing a cache touches nothing but the cache. -/
theorem Keeps.clear (h : w.Keeps d) {s : ArtifactStore} (hroot : s.root = w.root) :
    w.Keeps (s.clear d).2 where
  agrees := h.agrees_of_confined (hroot ▸ s.confined_clear w.folders d)
  sound := h.sound.clear s

/-- Losing an artifact touches nothing but the cache. -/
theorem Keeps.delete (h : w.Keeps d) {s : ArtifactStore} (hroot : s.root = w.root)
    (key : Fingerprint) : w.Keeps (s.afterDeleting d key) where
  agrees := h.agrees_of_confined (hroot ▸ s.confined_afterDeleting w.folders d key)
  sound := h.sound.afterDeleting s key

/-- An artifact that is cut short touches nothing but the cache. -/
theorem Keeps.cut (h : w.Keeps d) {s : ArtifactStore} (hroot : s.root = w.root)
    (key : Fingerprint) (length : Nat) : w.Keeps (s.afterCutting d key length) where
  agrees := h.agrees_of_confined (hroot ▸ s.confined_afterCutting w.folders d key length)
  sound := by
    have hsound : Sound s.root Store.compilation w.Allowed d := hroot ▸ h.sound
    exact hroot ▸ hsound.afterCutting key length

end Sharing

/-! ## One invocation -/

namespace Invocation

open InSession (Alike onDisk)

variable {w : Sharing} {i : Invocation} {d : Disk}

/-- An invocation takes part in what is shared: its store and its program are, and it starts no
workers. -/
structure Joins (i : Invocation) (w : Sharing) : Prop where
  root : ∀ s, i.settings? w.disk = some s → (i.store s).root = w.root
  folders : ∀ s, i.settings? w.disk = some s → (i.store s).folders ⊆ w.folders
  program : ∀ p, i.program? w.disk = some p → p ∈ w.programs
  alone : ∀ s q o command, i.settings? w.disk = some s → i.request.task = .run q o →
    o.command? s ≠ .ok (some command)

/-- None of the files that an invocation reads has its place in the store. -/
def ReadsOutside (i : Invocation) (w : Sharing) : Prop :=
  ∀ name ∈ i.files, ¬ w.root <+: Files.place i.folder name

/-- An invocation takes part, and what is made for the store is not looked at for the files that
it reads. -/
structure Avoids (i : Invocation) (w : Sharing) : Prop extends i.Joins w where
  unseen : ∀ path ∈ i.looksAt, ¬ w.Made path

/-- What an invocation sees of the files that it reads is what was there at first. -/
theorem Avoids.agreeAt (hi : i.Avoids w) (h : w.Keeps d) {name : String}
    (hname : name ∈ i.files) : AgreeAt d w.disk (Files.looksAt i.folder name) :=
  fun path hpath => h.agrees path (hi.unseen path (List.mem_flatMap.mpr ⟨name, hname, hpath⟩))

theorem Avoids.settings (hi : i.Avoids w) (h : w.Keeps d) :
    Alike i.folder i.env d w.disk (Session.settings i.request.common) :=
  Session.alike_settings fun _ hname => hi.agreeAt h (List.mem_append_left _ hname)

/-- What is prepared is what would be prepared on the disk before any cache was made. -/
theorem Avoids.prepare (hi : i.Avoids w) (h : w.Keeps d) {q : QueryOptions}
    (hq : i.request.task.query? = some q) :
    Alike i.folder i.env d w.disk (Session.prepare i.request.common q) := by
  refine Session.alike_prepare (fun _ hname => hi.agreeAt h (List.mem_append_left _ hname)) ?_
  intro name hname
  refine hi.agreeAt h (List.mem_append_right _ ?_)
  cases htask : i.request.task with
  | run q' o =>
    rw [htask] at hq
    obtain rfl := Option.some.inj hq
    exact List.mem_append_left _ hname
  | check q' =>
    rw [htask] at hq
    obtain rfl := Option.some.inj hq
    exact hname
  | cache action =>
    rw [htask] at hq
    exact nomatch hq

/-- What an invocation has prepared is shared, and compiles to the same through its store as
without it. -/
theorem Avoids.compileThrough (hi : i.Avoids w) (hfresh : w.Fresh) (h : w.Keeps d)
    {q : QueryOptions} (hq : i.request.task.query? = some q) {s : Settings} {p : Program}
    {left : Bytes} (hprepare : Session.prepare i.request.common q (i.session w.disk) =
      onDisk i.folder i.env w.disk (.ok ((s, p), left))) (disabled : Bool) :
    i.settings? w.disk = some s ∧
      let store := Session.store ⟨d, i.folder, i.env, left⟩ i.request.common s disabled
      (compileThrough store d p).1 = compile p ∧ w.Keeps (compileThrough store d p).2 := by
  obtain ⟨⟨_, hsettings⟩, hbody⟩ := Session.settings_of_prepare hprepare
  have hs : i.settings? w.disk = some s := by
    rw [settings?, hsettings]
    rfl
  have hp : i.program? w.disk = some p := by
    rw [program?, hq, Option.bind_some, hprepare]
    rfl
  refine ⟨hs, h.compileThrough hfresh ?_ ?_ rfl (hi.program p hp) hbody⟩
  · exact hi.root s hs
  · exact hi.folders s hs

/-- A check gives the same reply with the store as it does at first without it. -/
theorem Avoids.check (hi : i.Avoids w) (hfresh : w.Fresh) (h : w.Keeps d) {q : QueryOptions}
    (htask : i.request.task = .check q) :
    i.reply d = i.uncached.reply w.disk ∧ w.Keeps (i.after d) := by
  have hq : i.request.task.query? = some q := by rw [htask]; rfl
  obtain ⟨r, hr, hr'⟩ := hi.prepare h hq i.stdin
  have hbare : Session.prepare i.request.common { q with noCache := true }
      ⟨w.disk, i.folder, i.env, i.stdin⟩ = onDisk i.folder i.env w.disk r := hr'
  unfold reply after uncached session Session.carryOut
  rw [htask]
  dsimp only [Task.uncached]
  unfold Session.check StateT.run
  rw [hr, hbare]
  cases r with
  | error message => exact ⟨rfl, h⟩
  | ok a =>
    obtain ⟨⟨s, p⟩, left⟩ := a
    obtain ⟨-, hresult, hkept⟩ := hi.compileThrough hfresh h hq hr' q.noCache
    obtain ⟨-, hresult', -⟩ := hi.compileThrough hfresh hfresh.keeps hq hr' true
    dsimp only [onDisk, Except.map] at hresult hresult' hkept ⊢
    rw [hresult, hresult']
    exact ⟨rfl, hkept⟩

/-- What is compiled gives the same lines from the same input, and without workers the disk stays
as it is. -/
theorem Avoids.stream (hi : i.Avoids w) {q : QueryOptions} {o : RunOptions}
    (htask : i.request.task = .run q o) {d' : Disk} (h : w.Keeps d) (h' : w.Keeps d')
    (left : Bytes) (s : Settings) (c : Compilation) :
    (Session.stream ⟨d, i.folder, i.env, left⟩ o s none c).1 =
        (Session.stream ⟨d', i.folder, i.env, left⟩ o s none c).1 ∧
      (Session.stream ⟨d, i.folder, i.env, left⟩ o s none c).2 = d := by
  have hsame : Session.input ⟨d, i.folder, i.env, left⟩ o.input =
      Session.input ⟨d', i.folder, i.env, left⟩ o.input := by
    refine Session.input_congr fun name hname => h.agreeAt h' fun path hpath => ?_
    refine hi.unseen path (List.mem_flatMap.mpr ⟨name, List.mem_append_right _ ?_, hpath⟩)
    rw [htask]
    exact List.mem_append_right _ hname
  unfold Session.stream
  rw [hsame]
  cases c.artifact.mainPlan with
  | error e => exact ⟨rfl, rfl⟩
  | ok plan =>
    dsimp only
    cases Session.input ⟨d', i.folder, i.env, left⟩ o.input with
    | error message => exact ⟨rfl, rfl⟩
    | ok items => exact ⟨rfl, rfl⟩

/-- A run gives the same reply with the store as it does at first without it. -/
theorem Avoids.run (hi : i.Avoids w) (hfresh : w.Fresh) (h : w.Keeps d) {q : QueryOptions}
    {o : RunOptions} (htask : i.request.task = .run q o) :
    i.reply d = i.uncached.reply w.disk ∧ w.Keeps (i.after d) := by
  have hq : i.request.task.query? = some q := by rw [htask]; rfl
  obtain ⟨r, hr, hr'⟩ := hi.prepare h hq i.stdin
  -- nothing that is prepared depends on whether the store is used
  have hbare : Session.prepare i.request.common { q with noCache := true }
      ⟨w.disk, i.folder, i.env, i.stdin⟩ = onDisk i.folder i.env w.disk r := hr'
  unfold reply after uncached session Session.carryOut
  rw [htask]
  dsimp only [Task.uncached]
  unfold Session.run StateT.run
  rw [hr, hbare]
  cases r with
  | error message => exact ⟨rfl, h⟩
  | ok a =>
    obtain ⟨⟨s, p⟩, left⟩ := a
    obtain ⟨hs, hresult, hkept⟩ := hi.compileThrough hfresh h hq hr' q.noCache
    obtain ⟨-, hresult', hkept'⟩ := hi.compileThrough hfresh hfresh.keeps hq hr' true
    dsimp only [onDisk, Except.map] at hresult hresult' hkept hkept' ⊢
    cases hcommand : o.command? s with
    | error e => exact ⟨rfl, h⟩
    | ok command? =>
      cases command? with
      | some command => exact absurd hcommand (hi.alone s q o command hs htask)
      | none =>
        dsimp only
        rw [hresult, hresult']
        cases compile p with
        | error ds => exact ⟨rfl, hkept⟩
        | ok c =>
          -- the input is opened on the disk after compiling, which may have a store now
          obtain ⟨hreply, hdisk⟩ := hi.stream htask hkept hkept' left s c
          dsimp only
          rw [hreply, hdisk]
          exact ⟨rfl, hkept⟩

/-- A run or a check gives the same reply with the store as it does at first without it. -/
theorem Avoids.reply (hi : i.Avoids w) (hfresh : w.Fresh) (h : w.Keeps d)
    (hquery : i.request.task.query?.isSome) : i.reply d = i.uncached.reply w.disk := by
  cases htask : i.request.task with
  | run q o => exact (hi.run hfresh h htask).1
  | check q => exact (hi.check hfresh h htask).1
  | cache action =>
    rw [htask] at hquery
    exact nomatch hquery

/-- Telling about the store leaves the disk as it is, and clearing the store changes the store. -/
theorem Avoids.cache (hi : i.Avoids w) (h : w.Keeps d) {action : CacheAction}
    (htask : i.request.task = .cache action) : w.Keeps (i.after d) := by
  obtain ⟨r, hr, hr'⟩ := hi.settings h i.stdin
  unfold after session Session.carryOut
  rw [htask]
  dsimp only
  unfold Session.cache StateT.run
  rw [hr]
  cases r with
  | error e => exact h
  | ok a =>
    obtain ⟨s, left⟩ := a
    have hs : i.settings? w.disk = some s := by
      unfold settings? session
      rw [hr']
      rfl
    -- only clearing changes the disk, and it stays in the folder of the store
    cases action with
    | path => exact h
    | list =>
      dsimp only [onDisk, Except.map]
      split <;> exact h
    | clear =>
      have hcleared := h.clear (hi.root s hs)
      dsimp only [onDisk, Except.map]
      split
      · rename_i hclear
        exact congrArg Prod.snd hclear ▸ hcleared
      · rename_i hclear
        exact congrArg Prod.snd hclear ▸ hcleared

/-- An invocation that avoids the caches leaves all files but its own artifacts as they are. -/
theorem Avoids.after (hi : i.Avoids w) (hfresh : w.Fresh) (h : w.Keeps d) :
    w.Keeps (i.after d) := by
  cases htask : i.request.task with
  | run q o => exact (hi.run hfresh h htask).2
  | check q => exact (hi.check hfresh h htask).2
  | cache action => exact hi.cache h htask

/-- An invocation takes part without the store in what it takes part in with it. -/
theorem Avoids.uncached (hi : i.Avoids w) : i.uncached.Avoids w where
  root := hi.root
  folders := hi.folders
  program p hp := hi.program p (i.program?_uncached w.disk ▸ hp)
  alone s q o command hs htask := by
    cases hbefore : i.request.task with
    | run q' o' =>
      change i.request.task.uncached = .run q o at htask
      rw [hbefore] at htask
      obtain ⟨-, rfl⟩ := Task.run.inj htask
      exact hi.alone s q' o' command hs hbefore
    | check q' | cache action =>
      change i.request.task.uncached = .run q o at htask
      rw [hbefore] at htask
      exact nomatch htask
  unseen := i.looksAt_uncached ▸ hi.unseen

end Invocation

end LineQuery.CommandLine
