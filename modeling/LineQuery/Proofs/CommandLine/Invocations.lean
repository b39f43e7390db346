import LineQuery.CommandLine.Tasks
import LineQuery.Proofs.CommandLine.Preparation

/-! # Invocations

An invocation as it comes again on other disks, and the same invocation without the store: that
reads the same files and compiles the same program.
-/

namespace LineQuery.CommandLine

open LineQuery.Files (Disk Path)
open LineQuery.Store (ArtifactStore)
open LineQuery.Text (Bytes)

/-- A task that is carried out without the store. Tasks that are about the store stay. -/
def Task.uncached : Task → Task
  | .run q o => .run { q with noCache := true } o
  | .check q => .check { q with noCache := true }
  | .cache action => .cache action

/-- The query of a task, if it has one. -/
def Task.query? : Task → Option QueryOptions
  | .run q _ | .check q => some q
  | .cache _ => none

/-- The files that a task reads. -/
def Task.namedFiles : Task → List String
  | .run q o => Session.partFiles q ++ o.input.toList
  | .check q => Session.partFiles q
  | .cache _ => []

/-- An invocation: what it finds, but for the disk, and what it is asked for. -/
structure Invocation where
  folder : Path
  env : Environment
  stdin : Bytes
  request : Request

namespace Invocation

/-- What an invocation finds if it finds a disk. -/
def session (i : Invocation) (d : Disk) : Session := ⟨d, i.folder, i.env, i.stdin⟩

def reply (i : Invocation) (d : Disk) : Reply := ((i.session d).carryOut i.request).1

/-- The disk after an invocation. -/
def after (i : Invocation) (d : Disk) : Disk := ((i.session d).carryOut i.request).2

/-- The same invocation, without the store. -/
def uncached (i : Invocation) : Invocation :=
  { i with request := { i.request with task := i.request.task.uncached } }

def files (i : Invocation) : List String :=
  Session.settingsFiles i.request.common i.env ++ i.request.task.namedFiles

/-- The places that are looked at for the files that an invocation reads. -/
def looksAt (i : Invocation) : List Path :=
  i.files.flatMap (Files.looksAt i.folder)

def settings? (i : Invocation) (d : Disk) : Option Settings :=
  (Session.settings i.request.common (i.session d)).toOption.map (·.1)

/-- The program that an invocation compiles, if it compiles one. -/
def program? (i : Invocation) (d : Disk) : Option Program :=
  i.request.task.query?.bind fun q =>
    (Session.prepare i.request.common q (i.session d)).toOption.map (·.1.2)

def store (i : Invocation) (s : Settings) : ArtifactStore :=
  (i.session .empty).store i.request.common s false

/-! ## Without the store -/

/-- The query of an invocation is the same without the store, but for the option. -/
theorem query?_uncached (i : Invocation) : i.uncached.request.task.query? =
    i.request.task.query?.map fun q => { q with noCache := true } := by
  obtain ⟨folder, env, stdin, common, task⟩ := i
  cases task <;> rfl

/-- Whether the cache is used has no part in what program an invocation makes. -/
theorem program?_uncached (i : Invocation) (d : Disk) : i.uncached.program? d = i.program? d := by
  unfold program?
  rw [query?_uncached]
  cases i.request.task.query? <;> rfl

/-- An invocation looks at the same paths whether it uses the cache or not. -/
theorem looksAt_uncached (i : Invocation) : i.uncached.looksAt = i.looksAt := by
  obtain ⟨folder, env, stdin, common, task⟩ := i
  cases task <;> rfl

theorem uncached_uncached (i : Invocation) : i.uncached.uncached = i.uncached := by
  obtain ⟨folder, env, stdin, common, task⟩ := i
  cases task <;> rfl

end Invocation

end LineQuery.CommandLine
