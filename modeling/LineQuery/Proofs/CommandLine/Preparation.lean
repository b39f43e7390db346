import LineQuery.CommandLine.Session
import LineQuery.Proofs.Files.Sight
import LineQuery.Proofs.Script.ProgramText

/-! # What an invocation reads

The settings and the query of an invocation come from the files that it names. On disks that agree
about the places that are looked at for these files they are the same, and the same is left of the
standard input.
-/

namespace LineQuery.CommandLine

open LineQuery.Files (Disk DiskError Path looksAt)
open LineQuery.Files.Disk (AgreeAt)
open LineQuery.Text (Bytes)

variable {ε δ α β : Type} {folder : Path} {env : Environment} {d d' : Disk}

namespace InSession

/-- What a step gives with a disk: a value and what is left of the standard input, or an error. -/
def onDisk (folder : Path) (env : Environment) (d : Disk) (r : Except ε (α × Bytes)) :
    Except ε (α × Session) :=
  r.map fun (a, stdin) => (a, ⟨d, folder, env, stdin⟩)

/-- A step does the same on two disks, and leaves them as they are. -/
def Alike (folder : Path) (env : Environment) (d d' : Disk) (x : InSession ε α) : Prop :=
  ∀ stdin, ∃ r : Except ε (α × Bytes), x ⟨d, folder, env, stdin⟩ = onDisk folder env d r ∧
    x ⟨d', folder, env, stdin⟩ = onDisk folder env d' r

namespace Alike

theorem pure (a : α) : Alike folder env d d' (Pure.pure a : InSession ε α) :=
  fun stdin => ⟨.ok (a, stdin), rfl, rfl⟩

theorem throw (e : ε) : Alike folder env d d' (MonadExcept.throw e : InSession ε α) :=
  fun _ => ⟨.error e, rfl, rfl⟩

theorem lift (x : Except ε α) : Alike folder env d d' (StateT.lift x : InSession ε α) := by
  intro stdin
  cases x with
  | error e => exact ⟨.error e, rfl, rfl⟩
  | ok a => exact ⟨.ok (a, stdin), rfl, rfl⟩

theorem bind {x : InSession ε α} {f : α → InSession ε β} (hx : Alike folder env d d' x)
    (hf : ∀ a, Alike folder env d d' (f a)) : Alike folder env d d' (x >>= f) := by
  have hstep : ∀ session, (x >>= f) session = x session >>= fun a => f a.1 a.2 := fun _ => rfl
  intro stdin
  obtain ⟨r, hr, hr'⟩ := hx stdin
  rw [hstep, hstep, hr, hr']
  cases r with
  | error e => exact ⟨.error e, rfl, rfl⟩
  | ok a => exact hf a.1 a.2

/-- A step may depend on what is found, but for the disk and the standard input. -/
theorem get {f : Session → InSession ε α} {x : InSession ε α} (hx : Alike folder env d d' x)
    (hf : ∀ d stdin, f ⟨d, folder, env, stdin⟩ = x) :
    Alike folder env d d' (MonadState.get >>= f) := by
  have hstep : ∀ session, (MonadState.get >>= f) session = f session session := fun _ => rfl
  intro stdin
  rw [hstep, hstep, hf, hf]
  exact hx stdin

theorem mapError {x : InSession ε α} (hx : Alike folder env d d' x) (f : ε → δ) :
    Alike folder env d d' (x.mapError f) := by
  intro stdin
  obtain ⟨r, hr, hr'⟩ := hx stdin
  refine ⟨r.mapError f, ?_, ?_⟩
  · rw [InSession.mapError, hr]
    cases r <;> rfl
  · rw [InSession.mapError, hr']
    cases r <;> rfl

/-- Steps that are alike one by one are alike one after another. -/
theorem mapM {f : α → InSession ε β} {as : List α}
    (hf : ∀ a ∈ as, Alike folder env d d' (f a)) : Alike folder env d d' (as.mapM f) := by
  induction as with
  | nil => exact pure []
  | cons a as ih =>
    obtain ⟨ha, has⟩ := List.forall_mem_cons.mp hf
    rw [List.mapM_cons]
    exact ha.bind fun b => (ih has).bind fun bs => pure (b :: bs)

end Alike

end InSession

open InSession (Alike)

namespace Session

/-! ## Reading files -/

/-- What a file holds is the same on disks that agree where it is looked for. -/
theorem alike_readBytes {name : String} (h : AgreeAt d d' (looksAt folder name)) :
    Alike folder env d d' (readBytes name) := by
  intro stdin
  have hlocate := Files.Disk.locate_congr h
  have hread := Files.Disk.read_congr h
  unfold readBytes
  dsimp only
  rw [← hlocate, ← hread]
  split
  · exact ⟨.ok (stdin, []), rfl, rfl⟩
  · refine ⟨(d.read folder name).map (·, stdin), ?_, ?_⟩
    · cases d.read folder name <;> rfl
    · cases d.read folder name <;> rfl

theorem alike_readText {refused : String → ε} {name : String}
    (h : AgreeAt d d' (looksAt folder name)) :
    Alike folder env d d' (readText refused name) := by
  intro stdin
  have hbytes : Alike folder env d d' (readBytes name) := alike_readBytes h
  obtain ⟨r, hr, hr'⟩ := hbytes stdin
  unfold readText
  rw [hr, hr']
  cases r with
  | error e => exact ⟨.error (refused e.message), rfl, rfl⟩
  | ok a =>
    obtain ⟨bytes, left⟩ := a
    dsimp only [InSession.onDisk, Except.map]
    cases Text.decodeUtf8? bytes with
    | none => exact ⟨.error (refused notText), rfl, rfl⟩
    | some text => exact ⟨.ok (text, left), rfl, rfl⟩

/-! ## Settings and queries -/

/-- The settings file that an invocation reads. -/
def settingsFiles (o : CommonOptions) (env : Environment) : List String :=
  (Settings.file? o.config (env.get? settingsVariable)).toList

/-- The files that parts of a query come from. -/
def partFiles (q : QueryOptions) : List String :=
  q.parts.filterMap fun
    | .code _ => none
    | .file name => some name

/-- The settings depend on the files that they are read from and on nothing else of a disk. -/
theorem alike_settings {o : CommonOptions}
    (h : ∀ name ∈ settingsFiles o env, AgreeAt d d' (looksAt folder name)) :
    Alike folder env d d' (settings o) := by
  unfold settingsFiles at h
  unfold settings
  cases hfile : Settings.file? o.config (env.get? settingsVariable) with
  | none =>
    refine .get (.pure {}) fun _ _ => ?_
    dsimp only
    rw [hfile]
  | some name =>
    rw [hfile] at h
    have htext : Alike folder env d d' (readText (Settings.LoadError.unreadable name) name) :=
      alike_readText (h name List.mem_cons_self)
    refine .get (htext.bind fun text => .lift (Settings.ofText text)) fun _ _ => ?_
    dsimp only
    rw [hfile]

/-- A query depends on the files that its parts are read from. -/
theorem alike_query {s : Settings} {q : QueryOptions}
    (h : ∀ name ∈ partFiles q, AgreeAt d d' (looksAt folder name)) :
    Alike folder env d d' (query s q) := by
  unfold query
  refine .bind (.mapM fun part hpart => ?_) fun texts => ?_
  · cases part with
    | code text => exact .pure text
    | file name => exact alike_readText (h name (List.mem_filterMap.mpr ⟨_, hpart, rfl⟩))
  · dsimp only
    split
    · exact .throw _
    · exact .pure _

/-- A program is prepared from the files of the settings and of the parts of the query alone. -/
theorem alike_prepare {o : CommonOptions} {q : QueryOptions}
    (hsettings : ∀ name ∈ settingsFiles o env, AgreeAt d d' (looksAt folder name))
    (hquery : ∀ name ∈ partFiles q, AgreeAt d d' (looksAt folder name)) :
    Alike folder env d d' (prepare o q) :=
  ((alike_settings hsettings).mapError _).bind fun s =>
    ((alike_query hquery).mapError _).bind fun p => .pure (s, p)

theorem eq_ok_of_mapError {x : Except ε α} {f : ε → δ} {a : α} (h : x.mapError f = .ok a) :
    x = .ok a := by
  cases x with
  | error e => exact nomatch h
  | ok b => exact congrArg _ (Except.ok.inj h)

/-- The lines of a query have no line ends in them. -/
theorem not_mem_body_of_query {s : Settings} {q : QueryOptions} {p : Program}
    {session rest : Session} (h : query s q session = .ok (p, rest)) :
    ∀ line ∈ p.body, '\n' ∉ line.toList := by
  obtain ⟨⟨texts, left⟩, -, h⟩ := Files.exists_ok_of_bind h
  dsimp only at h
  split at h
  · exact nomatch h
  · obtain ⟨rfl, -⟩ := Prod.mk.inj (Except.ok.inj h)
    refine Program.not_mem_body_foldl_addText texts _ ?_
    rw [Program.body_foldl_addImport]
    exact nofun

/-- What is prepared are the settings, and a query of lines. -/
theorem settings_of_prepare {o : CommonOptions} {q : QueryOptions} {s : Settings} {p : Program}
    {session rest : Session} (h : prepare o q session = .ok ((s, p), rest)) :
    (∃ left, settings o session = .ok (s, left)) ∧ ∀ line ∈ p.body, '\n' ∉ line.toList := by
  obtain ⟨⟨s', left⟩, hsettings, h⟩ := Files.exists_ok_of_bind h
  obtain ⟨⟨p', left'⟩, hquery, h⟩ := Files.exists_ok_of_bind h
  obtain ⟨hboth, rfl⟩ := Prod.mk.inj (Except.ok.inj h)
  obtain ⟨rfl, rfl⟩ := Prod.mk.inj hboth
  exact ⟨⟨left, eq_ok_of_mapError hsettings⟩, not_mem_body_of_query (eq_ok_of_mapError hquery)⟩

/-! ## Input -/

/-- The input is the same on disks that agree where its file is looked for. -/
theorem input_congr {stdin : Bytes} {name? : Option String}
    (h : ∀ name ∈ name?.toList, AgreeAt d d' (looksAt folder name)) :
    input ⟨d, folder, env, stdin⟩ name? = input ⟨d', folder, env, stdin⟩ name? := by
  cases name? with
  | none => rfl
  | some name =>
    have hbytes : Alike folder env d d' (readBytes name) :=
      alike_readBytes (h name List.mem_cons_self)
    obtain ⟨r, hr, hr'⟩ := hbytes stdin
    unfold input
    dsimp only
    rw [hr, hr']
    cases r with
    | error e => rfl
    | ok a => rfl

end Session

end LineQuery.CommandLine
