import LineQuery.Foreign.Programs.Switches

/-!
# Programs for lines

Small programs that take the first or the last lines of files, count them, sort them, leave out
repeated ones, or cut columns out of them.
-/

namespace LineQuery.Programs

open LineQuery.Files (DiskError)
open LineQuery.Text (Bytes encodeUtf8 decodeLossy natText)

/-! ## Lines -/

def linesOf (line : Bytes) : Bytes → List Bytes
  | [] => if line.isEmpty then [] else [line.reverse]
  | b :: bs => if b = 10 then (10 :: line).reverse :: linesOf [] bs else linesOf (b :: line) bs

def plainLines (bs : Bytes) : List Bytes :=
  (linesOf [] bs).map fun line => if line.getLast? = some 10 then line.dropLast else line

def joinLines (lines : List Bytes) : Bytes :=
  lines.flatMap (· ++ [10])

/-! ## First and last lines -/

/-- How much of a file is wanted: lines or bytes, counted from the front or from the end, as many
or all but as many. -/
structure Extent where
  inBytes : Bool := false
  count : Nat := 10
  allBut : Bool := false
deriving DecidableEq, Repr

namespace Extent

/-- The extent that a text writes; a sign has a meaning of its own. -/
def ofText? (inBytes : Bool) (sign : Char) (text : String) : Option Extent :=
  match text.toList with
  | c :: cs =>
    if c = sign then (Text.readNat? cs).map fun n => ⟨inBytes, n, true⟩
    else if c = '-' || c = '+' then (Text.readNat? cs).map fun n => ⟨inBytes, n, false⟩
    else (Text.readNat? (c :: cs)).map fun n => ⟨inBytes, n, false⟩
  | [] => none

/-- The bytes at the front of a file. -/
def front (e : Extent) (bs : Bytes) : Bytes :=
  if e.inBytes then bs.take (if e.allBut then bs.length - e.count else e.count)
  else
    let lines := linesOf [] bs
    (lines.take (if e.allBut then lines.length - e.count else e.count)).flatten

/-- The bytes at the end of a file; those from a line or a byte on where all others are
wanted. -/
def back (e : Extent) (bs : Bytes) : Bytes :=
  if e.inBytes then bs.drop (if e.allBut then e.count - 1 else bs.length - e.count)
  else
    let lines := linesOf [] bs
    (lines.drop (if e.allBut then e.count - 1 else lines.length - e.count)).flatten

end Extent

/-- The arguments with a number behind a hyphen written as a switch with a value. -/
def openNumber : List String → List String
  | arg :: args =>
    match arg.toList with
    | '-' :: c :: cs =>
      if Text.isDigit c then ["-n", String.ofList (c :: cs)] ++ args else arg :: args
    | _ => arg :: args
  | [] => []

/-- The title of a file among several. -/
def fileTitle (i : Nat) (operand : String) : Bytes :=
  let name := if operand = "-" then "standard input" else operand
  encodeUtf8 ((if i = 0 then "" else "\n") ++ "==> " ++ name ++ " <==\n")

/-- The program that takes a part of its files. -/
def partly (sign : Char) (part : Extent → Bytes → Bytes) (args : List String) : Program :=
  let known : SwitchSet :=
    { plain := "qvf", valued := "nc"
      words := [("lines", 'n'), ("bytes", 'c'), ("quiet", 'q'), ("silent", 'q'), ("verbose", 'v')] }
  known.program 1 (openNumber args) fun o =>
    let extent : Except String Extent :=
      match o.given.reverse.find? fun entry => entry.1 = 'n' || entry.1 = 'c' with
      | some (letter, text) =>
        match Extent.ofText? (letter = 'c') sign text with
        | some e => .ok e
        | none =>
          .error ("invalid number of " ++ (if letter = 'c' then "bytes" else "lines") ++ ": '" ++
            text ++ "'")
      | none => .ok {}
    match extent with
    | .error message => .refusing message 1
    | .ok e =>
      let titled := o.has 'v' || (1 < o.files.length && !o.has 'q')
      let complaint := fun (operand : String) (cause : DiskError) =>
        if cause = .isAFolder then "error reading '" ++ operand ++ "': " ++ cause.reason
        else "cannot open '" ++ operand ++ "' for reading: " ++ cause.reason
      .overEach o.files complaint fun i operand bs =>
        (if titled then fileTitle i operand else []) ++ part e bs

/-- The number of bytes that a program takes from its input at once. -/
def blockSize : Nat := 8192

/-- The program that writes the first lines of files. It reads blocks of its input, and no more than
it needs. -/
def firstLines (args : List String) : Program := fun s input =>
  let conduct := partly '-' Extent.front args s input
  let taken := (conduct.stream .out).length
  let read := (taken + blockSize - 1) / blockSize * blockSize
  if conduct.stopsAfter.isSome || input.length ≤ taken || conduct.exitCode ≠ some 0 then conduct
  else { conduct with stopsAfter := some (min read input.length) }

/-- The program that writes the last lines of files. -/
def lastLines : List String → Program := partly '+' Extent.back

/-! ## Counting -/

def countWords (inWord : Bool) : Bytes → Nat
  | [] => if inWord then 1 else 0
  | b :: bs =>
    let isBlank := b = 32 || (9 ≤ b && b ≤ 13)
    if isBlank then (if inWord then 1 else 0) + countWords false bs else countWords true bs

def longestLine (bs : Bytes) : Nat :=
  ((plainLines bs).map fun line => (decodeLossy line).length).foldl max 0

/-- The counts that switches ask for. -/
def countsOf (o : Switches) (bs : Bytes) : List Nat :=
  let all := !(o.has 'l' || o.has 'w' || o.has 'c' || o.has 'm' || o.has 'L')
  (if all || o.has 'l' then [bs.count 10] else []) ++
    (if all || o.has 'w' then [countWords false bs] else []) ++
    (if o.has 'm' then [(decodeLossy bs).length] else []) ++
    (if all || o.has 'c' then [bs.length] else []) ++
    (if o.has 'L' then [longestLine bs] else [])

/-- The program that counts lines, words and bytes. Columns are as wide as the size of all files, or
seven characters where that is not known. -/
def countAll (args : List String) : Program :=
  let known : SwitchSet :=
    { plain := "lwcmL"
      words := [("lines", 'l'), ("words", 'w'), ("bytes", 'c'), ("chars", 'm'),
        ("max-line-length", 'L')] }
  known.program 1 args fun o s input =>
    let sources := s.sources input o.files
    let sizes := sources.map fun (_, source) => (source.toOption.map List.length).getD 0
    let single := o.files.length = 1 && (countsOf o []).length = 1
    let width :=
      if single then 1
      else if s.readsInput o.files then 7
      else (natText (sizes.foldl (· + ·) 0)).length
    let line := fun (counts : List Nat) (name : String) =>
      encodeUtf8 (" ".intercalate (counts.map fun n => Text.padLeft width (natText n)) ++
        (if name.isEmpty then "" else " " ++ name) ++ "\n")
    let written := sources.flatMap fun (operand, source) =>
      match source with
      | .ok bs => [(Outlet.out, line (countsOf o bs) (if o.operands.isEmpty then "" else operand))]
      | .error e =>
        (Outlet.err, encodeUtf8 (s.name ++ ": " ++ operand ++ ": " ++ e.reason ++ "\n")) ::
          (if e = .isAFolder then [(Outlet.out, line ((countsOf o []).map fun _ => 0) operand)]
           else [])
    let counts := sources.map fun (_, source) => countsOf o (source.toOption.getD [])
    let totals := counts.foldl (List.zipWith (· + ·)) ((countsOf o []).map fun _ => 0)
    let total := if 1 < o.files.length then [(Outlet.out, line totals "total")] else []
    { stopsAfter := if s.readsInput o.files then none else some 0
      written := written ++ total
      exitCode := some (if sources.all (·.2.isOk) then 0 else 1)
      disk := s.disk }

/-! ## Sorting -/

/-- The number at the front of a line, times a power of ten. -/
def lineNumber (line : Bytes) : Int :=
  let text := (line.dropWhile fun b => b = 32 || b = 9)
  let negative := text.head? = some 45
  let digits := fun (bs : Bytes) => bs.takeWhile fun b => 48 ≤ b && b ≤ 57
  let body := if negative then text.drop 1 else text
  let whole := digits body
  let rest := body.drop whole.length
  let fraction := if rest.head? = some 46 then (digits (rest.drop 1)).take 9 else []
  let padded := whole ++ fraction ++ List.replicate (9 - fraction.length) 48
  let n : Nat := padded.foldl (fun n b => 10 * n + (b.toNat - 48)) 0
  if negative then -(n : Int) else n

/-- The columns of a line: between separators, or each with the blanks before it. -/
def columnsOf (separator : Option UInt8) (column : Bytes) : Bytes → List Bytes
  | [] => [column.reverse]
  | b :: bs =>
    match separator with
    | some c =>
      if b = c then column.reverse :: columnsOf separator [] bs
      else columnsOf separator (b :: column) bs
    | none =>
      let isBlank := b = 32 || b = 9
      let wasBlank := column.head?.any fun c => c = 32 || c = 9
      if isBlank && !column.isEmpty && !wasBlank then
        column.reverse :: columnsOf separator [b] bs
      else columnsOf separator (b :: column) bs

/-- A key that lines are sorted by: from a column up to another, and how they are compared. -/
structure SortKey where
  first : Nat
  last : Option Nat
  numeric : Bool
  reversed : Bool
  folded : Bool
deriving DecidableEq, Repr

/-- The columns and letters that a text writes. -/
def SortKey.ofText? (o : Switches) (text : String) : Option SortKey :=
  let parts := (Text.split [','] text.toList).map fun part =>
    let digits := part.takeWhile Text.isDigit
    let rest := part.drop digits.length
    let letters := rest.dropWhile fun c => c = '.' || Text.isDigit c
    (Text.readNat? digits, letters)
  let make := fun (first : Nat) (last : Option Nat) (letters : List Char) =>
    let has := fun (c : Char) => letters.contains c || (letters.isEmpty && o.has c)
    (⟨first, last, has 'n', has 'r', has 'f'⟩ : SortKey)
  match parts with
  | [(some first, letters)] => some (make first none letters)
  | [(some first, letters), (some last, more)] => some (make first (some last) (letters ++ more))
  | _ => none

def foldCase (bs : Bytes) : Bytes :=
  bs.map fun b => if 97 ≤ b && b ≤ 122 then b - 32 else b

/-- The part of a line that a key takes. -/
def SortKey.part (k : SortKey) (separator : Option UInt8) (line : Bytes) : Bytes :=
  let columns := (columnsOf separator [] line).drop (k.first - 1)
  let columns := (k.last.map fun last => columns.take (last + 1 - k.first)).getD columns
  ((separator.map ([·])).getD []).intercalate columns

/-- How a key orders two lines. -/
def SortKey.compare (k : SortKey) (separator : Option UInt8) (a b : Bytes) : Ordering :=
  let x := k.part separator a
  let y := k.part separator b
  let order : Ordering :=
    if k.numeric then Ord.compare (lineNumber x) (lineNumber y)
    else
      let (x, y) := if k.folded then (foldCase x, foldCase y) else (x, y)
      if x < y then .lt else if y < x then .gt else .eq
  if k.reversed then order.swap else order

def sortLines (args : List String) : Program :=
  let known : SwitchSet :=
    { plain := "rnufbsc", valued := "kto"
      words := [("reverse", 'r'), ("numeric-sort", 'n'), ("unique", 'u'), ("ignore-case", 'f'),
        ("key", 'k'), ("field-separator", 't'), ("stable", 's'), ("output", 'o')] }
  known.program 2 args fun o s input =>
    let separator := ((o.value? 't').bind fun text => (encodeUtf8 text).head?)
    let keys := (o.given.filter (·.1 = 'k')).filterMap fun entry => SortKey.ofText? o entry.2
    let whole : SortKey := ⟨1, none, o.has 'n', o.has 'r', o.has 'f'⟩
    let keys := if keys.isEmpty then [whole] else keys
    let byKeys := fun (a b : Bytes) =>
      (keys.map fun k => k.compare separator a b).foldl Ordering.then .eq
    let plain : SortKey := ⟨1, none, false, o.has 'r', false⟩
    let order := fun (a b : Bytes) =>
      if o.has 'u' || o.has 's' then byKeys a b else (byKeys a b).then (plain.compare none a b)
    let sources := s.sources input o.files
    match sources.find? fun entry => !entry.2.isOk with
    | some (operand, .error e) =>
      Program.refusing ("cannot read: " ++ operand ++ ": " ++ e.reason) 2 s input
    | _ =>
      let lines := sources.flatMap fun (_, source) => plainLines (source.toOption.getD [])
      let sorted := lines.mergeSort fun a b => order a b != .gt
      let kept := if o.has 'u' then sorted.eraseRepsBy fun a b => byKeys a b == .eq else sorted
      let conduct := Program.filtering (fun _ => joinLines kept) s input
      { conduct with stopsAfter := if s.readsInput o.files then none else some 0 }

/-! ## Repeated lines -/

/-- Lines of which neighbours that are alike are one, with how many they were. -/
def countRepeats (alike : Bytes → Bytes → Bool) : List Bytes → List (Bytes × Nat)
  | [] => []
  | line :: lines =>
    match countRepeats alike lines with
    | (next, n) :: more =>
      if alike line next then (line, n + 1) :: more else (line, 1) :: (next, n) :: more
    | [] => [(line, 1)]

/-- The program that leaves out lines like the one before. -/
def dropRepeats (args : List String) : Program :=
  let known : SwitchSet :=
    { plain := "cdui"
      words := [("count", 'c'), ("repeated", 'd'), ("unique", 'u'), ("ignore-case", 'i')] }
  known.program 1 args fun o =>
    .overEach (o.files.take 1) plainComplaint fun _ _ bs =>
      let key := fun (line : Bytes) => if o.has 'i' then foldCase line else line
      let counted := countRepeats (fun a b => key a == key b) (plainLines bs)
      let kept := counted.filter fun (_, n) =>
        (!o.has 'd' || 1 < n) && (!o.has 'u' || n = 1)
      joinLines (kept.map fun (line, n) =>
        (if o.has 'c' then encodeUtf8 (Text.padLeft 7 (natText n) ++ " ") else []) ++ line)

/-! ## Columns -/

/-- Whether a number is in one of some ranges, of which either end may be open. -/
def inRanges (ranges : List (Option Nat × Option Nat)) (n : Nat) : Bool :=
  ranges.any fun (low, high) => low.getD 1 ≤ n && high.all fun h => n ≤ h

/-- The ranges that a text writes. -/
def rangesOf? (text : String) : Option (List (Option Nat × Option Nat)) :=
  (Text.split [','] text.toList).mapM fun part =>
    match Text.split ['-'] part with
    | [one] => (Text.readNat? one).map fun n => (some n, some n)
    | [[], high] => (Text.readNat? high).map fun n => (none, some n)
    | [low, []] => (Text.readNat? low).map fun n => (some n, none)
    | [low, high] =>
      (Text.readNat? low).bind fun m => (Text.readNat? high).map fun n => (some m, some n)
    | _ => none

/-- The elements of a list whose places are in ranges. -/
def inPlaces (ranges : List (Option Nat × Option Nat)) (xs : List α) : List α :=
  (xs.zipIdx.filter fun (_, i) => inRanges ranges (i + 1)).map (·.1)

/-- The program that cuts columns out of lines. -/
def cutColumns (args : List String) : Program :=
  let known : SwitchSet :=
    { plain := "sn", valued := "dfcb"
      words := [("delimiter", 'd'), ("fields", 'f'), ("characters", 'c'), ("bytes", 'b'),
        ("only-delimited", 's')] }
  known.program 1 args fun o =>
    let separator := ((o.value? 'd').bind fun text => (encodeUtf8 text).head?).getD 9
    let byBytes := ((o.value? 'c').or (o.value? 'b')).bind rangesOf?
    match byBytes, (o.value? 'f').bind rangesOf? with
    | some ranges, _ =>
      .overEach o.files plainComplaint fun _ _ bs =>
        joinLines ((plainLines bs).map (inPlaces ranges))
    | none, some ranges =>
      .overEach o.files plainComplaint fun _ _ bs =>
        joinLines ((plainLines bs).filterMap fun line =>
          if line.contains separator then
            some ([separator].intercalate (inPlaces ranges (columnsOf (some separator) [] line)))
          else if o.has 's' then none
          else some line)
    | none, none => .misused "you must specify a list of bytes, characters, or fields" 1

/-! ## Turning round -/

/-- The program that writes lines from the last to the first. -/
def reverseLines (args : List String) : Program :=
  ({ plain := "" } : SwitchSet).program 1 args fun o =>
    .overEach o.files plainComplaint fun _ _ bs => (linesOf [] bs).reverse.flatten

/-- The program that writes the characters of each line from the last to the first. -/
def reverseCharacters (args : List String) : Program :=
  ({ plain := "" } : SwitchSet).program 1 args fun o =>
    .overEach o.files plainComplaint fun _ _ bs =>
      (linesOf [] bs).flatMap fun line =>
        let ends := line.getLast? = some 10
        let text := decodeLossy (if ends then line.dropLast else line)
        encodeUtf8 (String.ofList text.toList.reverse) ++ (if ends then [10] else [])

end LineQuery.Programs
