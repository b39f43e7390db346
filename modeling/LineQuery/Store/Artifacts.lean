import LineQuery.Files.Disk
import LineQuery.Store.Image

/-!
# The artifact store

One file for each fingerprint, in one folder. Resolving a fingerprint gives what its file
holds if the file is sound; otherwise the value is built and its file published. Publishing
writes a file of a private name and renames it, so that a reader sees no file, the old one
or the new one. Failures of the disk never fail a resolve: what cannot be read is built,
and what cannot be published is used all the same.
-/

namespace LineQuery.Store

open LineQuery.Digest (Fingerprint)
open LineQuery.Files (Disk DiskError Entry Path)
open LineQuery.Text (Bytes)

/-- A folder of artifacts: how its place is written and from where that is seen, whether it
is used, and the version of the tool whose artifacts it gives. -/
structure ArtifactStore where
  folder : Path
  location : String
  enabled : Bool
  tool : String
deriving DecidableEq, Repr

/-- How an artifact was come by. -/
inductive Outcome where
  /-- It was in the store. -/
  | hit
  /-- It was built and published. -/
  | built
  /-- It was built but not published. -/
  | builtUncached
deriving DecidableEq, Repr

/-- A failure to list or clear a store. -/
structure StoreError where
  location : String
  cause : DiskError
deriving DecidableEq, Repr

def StoreError.message (e : StoreError) : String :=
  "cache I/O error at " ++ e.location ++ ": " ++ e.cause.message

namespace ArtifactStore

def extension : String := ".sqa"

def fileName (key : Fingerprint) : String :=
  key.toText ++ extension

/-- Where the file of a fingerprint stands, as it is written. -/
def artifactPath (s : ArtifactStore) (key : Fingerprint) : String :=
  Files.Written.within s.location (fileName key)

/-! ## Reading -/

/-- The value stored under a fingerprint, if there is a sound one. -/
def load? (s : ArtifactStore) (c : Codec α) (d : Disk) (key : Fingerprint) : Option α :=
  match d.read s.folder (s.artifactPath key) with
  | .error _ => none
  | .ok raw =>
    match Image.decode c s.tool raw with
    | .ok v => some v
    | .error _ => none

/-! ## Publishing -/

/-- The private names of files on their way into the store. -/
def privateName (i : Nat) : String :=
  "." ++ Text.natText i ++ ".tmp"

/-- A path for a private file at which nothing stands. -/
def privatePath (s : ArtifactStore) (d : Disk) : String :=
  let path := fun i => Files.Written.within s.location (privateName i)
  let free := fun i => !d.has s.folder (path i)
  path (((List.range (d.entries.length + 1)).find? free).getD 0)

/-- The disk after a file image has been published. A private file that cannot be renamed is
removed. -/
def publish (s : ArtifactStore) (d : Disk) (key : Fingerprint) (image : Bytes) :
    Except DiskError Disk := do
  let source := s.privatePath d
  (← d.write s.folder source image).rename s.folder source (s.artifactPath key)

/-- The disk after a value has been stored under a fingerprint, or as far as that got, and
whether it was. -/
def store (s : ArtifactStore) (c : Codec α) (d : Disk) (key : Fingerprint) (v : α) :
    Bool × Disk :=
  match d.makeFolders s.folder s.location with
  | (.error _, d) => (false, d)
  | (.ok (), d) =>
    match s.publish d key (Image.encode c s.tool v) with
    | .error _ => (false, d)
    | .ok d => (true, d)

/-! ## Resolving -/

/-- The value for a fingerprint, from the store or built, and the disk after that. -/
def resolve (s : ArtifactStore) (c : Codec α) (build : Fingerprint → Except ε α) (d : Disk)
    (key : Fingerprint) : Except ε (α × Outcome) × Disk :=
  match if s.enabled then s.load? c d key else none with
  | some v => (.ok (v, .hit), d)
  | none =>
    match build key with
    | .error e => (.error e, d)
    | .ok v =>
      if s.enabled then
        let (stored, d) := s.store c d key v
        (.ok (v, if stored then .built else .builtUncached), d)
      else (.ok (v, .builtUncached), d)

/-! ## The whole store -/

def isPresent (s : ArtifactStore) (d : Disk) : Bool :=
  d.has s.folder s.location

/-- Whether there was a store, and the disk without it. What is in the store is removed first,
so that a store that cannot be removed is left empty. -/
def clear (s : ArtifactStore) (d : Disk) : Except StoreError Bool × Disk :=
  if s.isPresent d then
    match d.removeTree s.folder s.location with
    | (.ok (), d) => (.ok true, d)
    | (.error e, d) => (.error ⟨s.location, e⟩, d)
  else (.ok false, d)

/-- The size at which a folder is listed. -/
def folderSize : Nat := 4096

/-- The size of an entry in bytes. -/
def entrySize : Entry → Nat
  | .file bytes => bytes.length
  | .folder => folderSize
  | .device _ | .program _ => 0

/-- The fingerprint that the name of an artifact file stands for. -/
def key? (name : String) : Option Fingerprint :=
  if name.endsWith extension then
    Fingerprint.read? (String.ofList (name.toList.take (name.length - extension.length)))
  else none

/-- The fingerprints of the artifacts in the store in ascending order, with their sizes. -/
def entries (s : ArtifactStore) (d : Disk) : Except StoreError (List (Fingerprint × Nat)) :=
  if s.isPresent d then
    match d.list s.folder s.location with
    | .error e => .error ⟨s.location, e⟩
    | .ok found =>
      let artifacts := found.filterMap fun (name, e) =>
        (key? name).map fun key => (key, entrySize e)
      .ok (artifacts.mergeSort fun a b => a.1.le b.1)
  else .ok []

end ArtifactStore

end LineQuery.Store
