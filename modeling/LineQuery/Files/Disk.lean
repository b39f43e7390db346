import LineQuery.Files.Path
import LineQuery.Text.Utf8

/-!
# Disks

A tree of folders, files, devices and programs, as a list of what stands at each path. An
operation takes a written path and the folder that it is seen from. It either succeeds and
gives the tree after it, or fails for a cause and changes nothing. Each of them is one atomic
step.
-/

namespace LineQuery.Files

open LineQuery.Text (Bytes)

/-! ## What stands on a disk -/

/-- The files that are no files: what is written to them is lost or goes to the process that
writes it, and what is read from them was never written. -/
inductive Device where
  /-- Takes everything and gives nothing. -/
  | null
  /-- Gives zeros without end. -/
  | zeros
  /-- Gives zeros without end and takes nothing. -/
  | full
  /-- The terminal of a process, which has none. -/
  | terminal
  /-- A descriptor of the process that opens it. -/
  | descriptor (n : Nat)
deriving DecidableEq, Repr

/-- What stands at a path. -/
inductive Entry where
  | file (bytes : Bytes)
  | folder
  | device (d : Device)
  /-- A program that can be run, by the name that it is known by. -/
  | program (name : String)
deriving DecidableEq, Repr

/-- The files and folders below the root, which is a folder itself. -/
structure Disk where
  entries : List (Path × Entry)
deriving DecidableEq, Repr

/-! ## Failures -/

/-- Why an operation on a disk fails. -/
inductive DiskError where
  | notFound
  | noDevice
  | notPermitted
  | busy
  | exists
  | notAFolder
  | isAFolder
  | invalid
  | noSpace
  | nameTooLong
  | notEmpty
  | zeroByte
deriving DecidableEq, Repr

namespace DiskError

/-- The number of a failure, if it has one. -/
def number? : DiskError → Option Nat
  | notFound => some 2
  | noDevice => some 6
  | notPermitted => some 13
  | busy => some 16
  | .exists => some 17
  | notAFolder => some 20
  | isAFolder => some 21
  | invalid => some 22
  | noSpace => some 28
  | nameTooLong => some 36
  | notEmpty => some 39
  | zeroByte => none

def reason : DiskError → String
  | notFound => "No such file or directory"
  | noDevice => "No such device or address"
  | notPermitted => "Permission denied"
  | busy => "Device or resource busy"
  | .exists => "File exists"
  | notAFolder => "Not a directory"
  | isAFolder => "Is a directory"
  | invalid => "Invalid argument"
  | noSpace => "No space left on device"
  | nameTooLong => "File name too long"
  | notEmpty => "Directory not empty"
  | zeroByte => "file name contained an unexpected NUL byte"

def message (e : DiskError) : String :=
  match e.number? with
  | some n => e.reason ++ " (os error " ++ toString n ++ ")"
  | none => e.reason

end DiskError

namespace Disk

/-! ## Entries by path -/

def empty : Disk := ⟨[]⟩

/-- What stands at a path. -/
def find? (d : Disk) (path : Path) : Option Entry :=
  if path = [] then some .folder else d.entries.lookup path

/-- The disk with something else at a path. -/
def set (d : Disk) (path : Path) (e : Entry) : Disk :=
  ⟨(path, e) :: d.entries.filter fun other => other.1 ≠ path⟩

def erase (d : Disk) (path : Path) : Disk :=
  ⟨d.entries.filter fun other => !path.isPrefixOf other.1⟩

def eraseBelow (d : Disk) (path : Path) : Disk :=
  ⟨d.entries.filter fun other => other.1 = path || !path.isPrefixOf other.1⟩

/-- What stands in the folder at a path, by name. -/
def children (d : Disk) (path : Path) : List (String × Entry) :=
  d.entries.filterMap fun (other, e) =>
    match other.getLast? with
    | some name => if other.dropLast = path then some (name, e) else none
    | none => none

/-! ## Walking -/

def longestName : Nat := 255

def longestPath : Nat := 4096

/-- The last name of a written path, once the folder before it has been found. -/
inductive LastName where
  /-- The path is that of the root. -/
  | root
  /-- A point, which stays. -/
  | here
  /-- Two points, which go back. -/
  | back
  | name (text : String)
deriving DecidableEq, Repr

/-- Where a written path leads: a folder, the last name, and whether it must be the name of a
folder. -/
structure Target where
  folder : Path
  last : LastName
  needsFolder : Bool
deriving DecidableEq, Repr

def Target.path (t : Target) : Path :=
  match t.last with
  | .root | .here => t.folder
  | .back => t.folder.dropLast
  | .name text => t.folder ++ [text]

/-- What the last name of a path is. -/
def LastName.of (text : String) : LastName :=
  if text = "." then .here else if text = ".." then .back else .name text

/-- What stands at a name in a folder. -/
def childOf (d : Disk) (folder : Path) (name : String) : Except DiskError Entry :=
  if longestName < name.utf8ByteSize then .error .nameTooLong
  else
    match d.find? (folder ++ [name]) with
    | some e => .ok e
    | none => .error .notFound

/-- The folder that a name leads to from a folder. -/
def enter (d : Disk) (folder : Path) (name : String) : Except DiskError Path :=
  match LastName.of name with
  | .root | .here => .ok folder
  | .back => .ok folder.dropLast
  | .name name =>
    match d.childOf folder name with
    | .ok .folder => .ok (folder ++ [name])
    | .ok _ => .error .notAFolder
    | .error e => .error e

/-- Where the path written as `text` leads, seen from `folder`. All names but the last have
to lead to folders, and no path is written without any text. -/
def reach (d : Disk) (folder : Path) (text : String) : Except DiskError Target :=
  if text.toList.contains '\x00' then .error .zeroByte
  else if text.isEmpty then .error .notFound
  else if longestPath ≤ text.utf8ByteSize then .error .nameTooLong
  else
    let start := if Written.isAbsolute text then [] else folder
    let names := Written.names text
    match names.getLast? with
    | none => .ok ⟨start, .root, true⟩
    | some last => do
      let folder ← names.dropLast.foldlM d.enter start
      return ⟨folder, LastName.of last, Written.endsInSlash text⟩

/-- The path that is written as `text`, and what stands there. -/
def locate (d : Disk) (folder : Path) (text : String) : Except DiskError (Path × Entry) := do
  let target ← d.reach folder text
  match target.last with
  | .name name =>
    let e ← d.childOf target.folder name
    if target.needsFolder && e ≠ .folder then throw .notAFolder
    return (target.path, e)
  | _ => return (target.path, .folder)

def has (d : Disk) (folder : Path) (text : String) : Bool :=
  (d.locate folder text).isOk

def hasFolder (d : Disk) (folder : Path) (text : String) : Bool :=
  match d.locate folder text with
  | .ok (_, .folder) => true
  | _ => false

/-! ## Reading -/

/-- The bytes of the file at a written path. Devices have none to give. -/
def read (d : Disk) (folder : Path) (text : String) : Except DiskError Bytes := do
  match (← d.locate folder text).2 with
  | .file bytes => return bytes
  | .folder => throw .isAFolder
  | .device .terminal => throw .noDevice
  | .device _ | .program _ => return []

/-- What stands in the folder at a written path, by name. -/
def list (d : Disk) (folder : Path) (text : String) : Except DiskError (List (String × Entry)) := do
  match ← d.locate folder text with
  | (path, .folder) => return d.children path
  | _ => throw .notAFolder

/-! ## Making -/

/-- Whether nothing can be made in a folder, since what stands there is not kept on the
disk. -/
def isSealed (path : Path) : Bool :=
  match path with
  | top :: _ => top = "proc" || top = "sys"
  | [] => false

/-- The path at which a file that is written as `text` may be opened for writing: that of a
file or a device, or one at which nothing stands. -/
def placeForFile (d : Disk) (folder : Path) (text : String) : Except DiskError Path := do
  let target ← d.reach folder text
  match target.last with
  | .name name =>
    if target.needsFolder then throw .isAFolder
    match d.childOf target.folder name with
    | .error .notFound =>
      if isSealed target.folder then throw .notFound
      return target.path
    | .error e => throw e
    | .ok .folder => throw .isAFolder
    | .ok (.program _) => throw .notPermitted
    | .ok (.device .terminal) => throw .noDevice
    | .ok (.file _) | .ok (.device _) => return target.path
  | _ => throw .isAFolder

/-- The disk after a file has been written, in place of one that was there. A device stays. -/
def write (d : Disk) (folder : Path) (text : String) (bytes : Bytes) : Except DiskError Disk := do
  let path ← d.placeForFile folder text
  match d.find? path with
  | some (.device .full) => throw .noSpace
  | some (.device _) => return d
  | _ => return d.set path (.file bytes)

/-- The disk with a folder at a path at which nothing stood. -/
def makeFolder (d : Disk) (folder : Path) (text : String) : Except DiskError Disk := do
  let target ← d.reach folder text
  match target.last with
  | .name name =>
    match d.childOf target.folder name with
    | .ok _ => throw .exists
    | .error .notFound =>
      if isSealed target.folder then throw .notFound
      return d.set target.path .folder
    | .error e => throw e
  | _ => throw .exists

/-- Whether a folder could be made at a written path if one stands there now, and the disk
after that. -/
def ensureFolder (d : Disk) (folder : Path) (text : String) : Except DiskError Disk :=
  match d.makeFolder folder text with
  | .ok d => .ok d
  | .error e => if d.hasFolder folder text then .ok d else .error e

/-- The disk with folders at written paths, of which each stands in the one behind it, or as
many of them as could be made, and what went wrong. -/
def makeChain (d : Disk) (folder : Path) : List String → Except DiskError Unit × Disk
  | [] => (.ok (), d)
  | text :: above =>
    match d.makeFolder folder text with
    | .ok d => (.ok (), d)
    | .error .notFound =>
      match d.makeChain folder above with
      | (.error e, d) => (.error e, d)
      | (.ok (), d) =>
        match d.ensureFolder folder text with
        | .ok d => (.ok (), d)
        | .error e => (.error e, d)
    | .error e => if d.hasFolder folder text then (.ok (), d) else (.error e, d)

/-- The disk with a folder at a written path and at each path above it. -/
def makeFolders (d : Disk) (folder : Path) (text : String) : Except DiskError Unit × Disk :=
  if text.isEmpty then (.ok (), d) else d.makeChain folder (Written.upward text)

/-! ## Moving and removing -/

/-- The disk after a file has taken the place of another, or of none. -/
def rename (d : Disk) (folder : Path) (source target : String) : Except DiskError Disk := do
  let (path, e) ← d.locate folder source
  let place ← d.placeForFile folder target
  return (d.erase path).set place e

/-- The disk without the file at a written path. -/
def removeFile (d : Disk) (folder : Path) (text : String) : Except DiskError Disk := do
  match ← d.locate folder text with
  | (_, .folder) => throw .isAFolder
  | (path, _) => return d.erase path

/-- The disk without the folder at a written path, in which nothing stands. A folder goes by
its own name only. -/
def removeFolder (d : Disk) (folder : Path) (text : String) : Except DiskError Disk := do
  let target ← d.reach folder text
  match target.last with
  | .root => throw .busy
  | .here => throw .invalid
  | .back => throw .notEmpty
  | .name name =>
    match ← d.childOf target.folder name with
    | .folder =>
      if (d.children target.path).isEmpty then return d.erase target.path else throw .notEmpty
    | _ => throw .notAFolder

/-- The disk without what stands in the folder at a written path, and without the folder
itself if it can be removed. A folder that was removed with what stood in it is not missed. -/
def removeTree (d : Disk) (folder : Path) (text : String) : Except DiskError Unit × Disk :=
  match d.locate folder text with
  | .error e => (.error e, d)
  | .ok (path, .folder) =>
    let d := d.eraseBelow path
    match d.removeFolder folder text with
    | .ok d => (.ok (), d)
    | .error .notFound => (.ok (), d)
    | .error e => (.error e, d)
  | .ok _ => (.error .notAFolder, d)

end Disk

end LineQuery.Files
