import LineQuery.Foreign.Programs.LineTools

/-!
# Programs for files

Small programs that make, copy, move, remove and list files and folders.
-/

namespace LineQuery.Programs

open LineQuery.Files (Disk DiskError Entry Path)
open LineQuery.Text (Bytes encodeUtf8)

/-! ## Changing a disk -/

/-- What comes of changes of a disk one after the other: what is said of those that fail, and the
disk after the others. -/
structure Changes where
  disk : Disk
  complaints : List String := []

/-- The program that makes a change of the disk for each of its operands. -/
def Program.changing (operands : List String)
    (change : Surroundings → Disk → String → Except String Disk) : Program := fun s _ =>
  let changes : Changes := operands.foldl
    (fun c operand =>
      match change s c.disk operand with
      | .ok disk => { c with disk }
      | .error message => { c with complaints := c.complaints ++ [message] })
    { disk := s.disk }
  { stopsAfter := some 0
    written := changes.complaints.map fun message =>
      (Outlet.err, encodeUtf8 (s.name ++ ": " ++ message ++ "\n"))
    exitCode := some (if changes.complaints.isEmpty then 0 else 1)
    disk := changes.disk }

/-- A failure in words. -/
def inWords (what name : String) (r : Except DiskError α) : Except String α :=
  r.mapError fun e => what ++ " '" ++ name ++ "': " ++ e.reason

/-- The program that needs an operand. -/
def needingOperand (o : Switches) (p : Program) : Program :=
  if o.operands.isEmpty then .misused "missing operand" 1 else p

def removeFiles (args : List String) : Program :=
  let known : SwitchSet :=
    { plain := "rRfidv", words := [("recursive", 'r'), ("force", 'f'), ("dir", 'd')] }
  known.program 1 args fun o =>
    let change := fun (s : Surroundings) (d : Disk) (operand : String) =>
      match d.locate s.folder operand with
      | .error e =>
        if o.has 'f' && e = .notFound then .ok d
        else inWords "cannot remove" operand (.error e)
      | .ok (path, .folder) =>
        if o.has 'r' || o.has 'R' then .ok (d.erase path)
        else if o.has 'd' then inWords "cannot remove" operand (d.removeFolder s.folder operand)
        else inWords "cannot remove" operand (.error .isAFolder)
      | .ok _ => inWords "cannot remove" operand (d.removeFile s.folder operand)
    if o.operands.isEmpty && o.has 'f' then .saying "" 0
    else needingOperand o (.changing o.operands change)

def makeFolders (args : List String) : Program :=
  let known : SwitchSet := { plain := "pv", valued := "m", words := [("parents", 'p')] }
  known.program 1 args fun o =>
    needingOperand o <| .changing o.operands fun s d operand =>
      let made :=
        if o.has 'p' then
          match d.makeFolders s.folder operand with
          | (.ok (), d) => .ok d
          | (.error e, _) => .error e
        else d.makeFolder s.folder operand
      inWords "cannot create directory" operand made

def removeFolders (args : List String) : Program :=
  ({ plain := "p" } : SwitchSet).program 1 args fun o =>
    needingOperand o <| .changing o.operands fun s d operand =>
      inWords "failed to remove" operand (d.removeFolder s.folder operand)

/-- The program that makes files unless they are there. -/
def touchFiles (args : List String) : Program :=
  ({ plain := "acm", valued := "drt" } : SwitchSet).program 1 args fun o =>
    needingOperand o <| .changing o.operands fun s d operand =>
      if d.has s.folder operand || o.has 'c' then .ok d
      else inWords "cannot touch" operand (d.write s.folder operand [])

def copyTree (d : Disk) (source target : Path) : Disk :=
  let moved := d.entries.filterMap fun (path, e) =>
    if source.isPrefixOf path then some (target ++ path.drop source.length, e) else none
  ⟨moved ++ (d.erase target).entries⟩

/-- The program that copies or moves files to the last of its operands. -/
def transferFiles (moves : Bool) (args : List String) : Program :=
  let known : SwitchSet :=
    { plain := "rRafpvnT", words := [("recursive", 'r'), ("force", 'f'), ("archive", 'a')] }
  known.program 1 args fun o =>
    match o.operands.reverse with
    | [] => .misused "missing file operand" 1
    | [only] => .misused ("missing destination file operand after '" ++ only ++ "'") 1
    | target :: sources => fun s input =>
      let intoFolder := s.disk.hasFolder s.folder target
      let change := fun (s : Surroundings) (d : Disk) (source : String) => do
        let (path, e) ← inWords "cannot stat" source (d.locate s.folder source)
        let place :=
          if intoFolder then Files.Written.within target (Files.Written.lastName source) else target
        let whole := moves || o.has 'r' || o.has 'R' || o.has 'a'
        if e = .folder then
          if !whole then throw ("-r not specified; omitting directory '" ++ source ++ "'")
          let made ← inWords "cannot create directory" place (d.ensureFolder s.folder place)
          match made.locate s.folder place with
          | .ok (goal, _) =>
            let copied := copyTree made path goal
            return if moves then copied.erase path else copied
          | .error _ => return d
        else if moves then
          inWords "cannot move" source (d.rename s.folder source place)
        else
          let bytes ← inWords "cannot open" source (d.read s.folder source)
          inWords "cannot create regular file" place (d.write s.folder place bytes)
      if 1 < sources.length && !intoFolder then
        Program.refusing ("target '" ++ target ++ "': " ++
          (if s.disk.has s.folder target then DiskError.notAFolder else .notFound).reason) 1 s input
      else Program.changing sources.reverse change s input

/-! ## Looking at a disk -/

/-- Texts in their order by bytes. -/
def sortTexts (texts : List String) : List String :=
  texts.mergeSort fun a b => decide (encodeUtf8 a ≤ encodeUtf8 b)

/-- The names in a folder that a list shows. -/
def shownNames (o : Switches) (d : Disk) (folder : Path) (operand : String) : List String :=
  let names := ((d.list folder operand).toOption.getD []).map Prod.fst
  let names := if o.has 'a' then "." :: ".." :: names else names
  let names :=
    if o.has 'a' || o.has 'A' then names else names.filter fun name => !name.startsWith "."
  let sorted := sortTexts names
  if o.has 'r' then sorted.reverse else sorted

def listFiles (args : List String) : Program :=
  ({ plain := "1aArdpFC" } : SwitchSet).program 2 args fun o s _ =>
    let operands := if o.operands.isEmpty then ["."] else sortTexts o.operands
    let isFolder := fun (operand : String) => s.disk.hasFolder s.folder operand && !o.has 'd'
    let missing := operands.filter fun operand => !s.disk.has s.folder operand
    let files := operands.filter fun operand =>
      s.disk.has s.folder operand && !isFolder operand
    let folders := operands.filter isFolder
    let lines := fun (names : List String) => String.join (names.map (· ++ "\n"))
    let blocks := folders.map fun folder =>
      (if 1 < operands.length then folder ++ ":\n" else "") ++
        lines (shownNames o s.disk s.folder folder)
    let blocks := (if files.isEmpty then [] else [lines files]) ++ blocks
    let complaint := fun (operand : String) =>
      let reason := match s.disk.locate s.folder operand with
        | .error e => e.reason
        | .ok _ => ""
      (Outlet.err, encodeUtf8 (s.name ++ ": cannot access '" ++ operand ++ "': " ++ reason ++ "\n"))
    { stopsAfter := some 0
      written := missing.map complaint ++ [(Outlet.out, encodeUtf8 ("\n".intercalate blocks))]
      exitCode := some (if missing.isEmpty then 0 else 2)
      disk := s.disk }

/-! ## Writing files -/

/-- The program that writes its input and copies it into files. -/
def teeInput (args : List String) : Program :=
  ({ plain := "aip", words := [("append", 'a')] } : SwitchSet).program 1 args fun o s input =>
    let change := fun (s : Surroundings) (d : Disk) (operand : String) =>
      let old := if o.has 'a' then (d.read s.folder operand).toOption.getD [] else []
      (d.write s.folder operand (old ++ input)).mapError fun e =>
        operand ++ ": " ++ e.reason
    let conduct := Program.changing o.operands change s input
    { conduct with stopsAfter := none, written := conduct.written ++ [(.out, input)] }

/-! ## Written paths -/

/-- The program that writes the last name of a path, without a given end. -/
def lastNameOf (args : List String) : Program :=
  match args with
  | [] => .misused "missing operand" 1
  | path :: ends =>
    let name := if (Files.Written.names path).isEmpty && !path.isEmpty then "/"
      else Files.Written.lastName path
    let ending := ends.headD ""
    let kept := if name.endsWith ending && name ≠ ending then
      String.ofList (name.toList.take (name.length - ending.length)) else name
    .saying (kept ++ "\n") 0

/-- The program that writes a path without its last name. -/
def folderOf (args : List String) : Program :=
  match args with
  | [] => .misused "missing operand" 1
  | path :: _ =>
    let cs := (path.toList.reverse.dropWhile (· = '/')).dropWhile (· ≠ '/')
    let above := String.ofList (cs.dropWhile (· = '/')).reverse
    let text :=
      if !above.isEmpty then above else if path.startsWith "/" then "/" else "."
    .saying (text ++ "\n") 0

end LineQuery.Programs
