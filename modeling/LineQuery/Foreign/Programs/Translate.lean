import LineQuery.Foreign.Programs.Basic
import LineQuery.Foreign.Programs.ByteSet
import LineQuery.Traced

/-!
# Translating bytes

The program that replaces bytes, deletes them, or squeezes repetitions of them into one. A
byte of the first set is replaced by the one at its place in the second set, whose last
byte goes on for ever; a class of letters of one case may stand at the place of the other.
-/

namespace LineQuery.Programs

open LineQuery.Text (Bytes encodeUtf8)

/-! ## Options -/

/-- The options of the program. -/
structure TranslateOptions where
  complement : Bool := false
  delete : Bool := false
  squeeze : Bool := false
  truncate : Bool := false
deriving DecidableEq, Repr

/-- Why arguments are refused. -/
inductive TranslateError where
  | letter (c : Char)
  | option (name : String)
  | noOperand
  | oneOperand (last : String) (deletes : Bool)
  /-- An operand too many, and whether it is the second of two. -/
  | operand (text : String) (isSecond : Bool)
  | set (e : SetError)
  | openInFirst
  | openTwice
  | openUntranslated
  | equivalent
  | otherClass
  | misaligned
  | emptySecond
  | endsInClass
  | manyTargets
deriving DecidableEq, Repr

namespace TranslateError

/-- Whether what is said of refused arguments ends with a hint at the usage. -/
def hintsAtUsage : TranslateError → Bool
  | letter _ | option _ | noOperand | oneOperand _ _ | operand _ _ => true
  | _ => false

/-- What is wrong with refused arguments. -/
def cause : TranslateError → String
  | letter c => "invalid option -- '" ++ String.ofList [c] ++ "'"
  | option name => "unrecognized option '" ++ name ++ "'"
  | noOperand => "missing operand"
  | oneOperand last deletes =>
    "missing operand after " ++ quoted (encodeUtf8 last) ++ "\n" ++
      (if deletes then "Two strings must be given when both deleting and squeezing repeats."
       else "Two strings must be given when translating.")
  | operand text isSecond =>
    "extra operand " ++ quoted (encodeUtf8 text) ++
      (if isSecond then "\nOnly one string may be given when deleting without squeezing repeats."
       else "")
  | set e => e.message
  | openInFirst => "the [c*] repeat construct may not appear in string1"
  | openTwice => "only one [c*] repeat construct may appear in string2"
  | openUntranslated => "the [c*] construct may appear in string2 only when translating"
  | equivalent => "[=c=] expressions may not appear in string2 when translating"
  | otherClass =>
    "when translating, the only character classes that may appear in\n" ++
      "string2 are 'upper' and 'lower'"
  | misaligned => "misaligned [:upper:] and/or [:lower:] construct"
  | emptySecond => "when not truncating set1, string2 must be non-empty"
  | endsInClass =>
    "when translating with string1 longer than string2,\n" ++
      "the latter string must not end with a character class"
  | manyTargets =>
    "when translating with complemented character classes,\n" ++
      "string2 must map all characters in the domain to one"

end TranslateError

namespace TranslateOptions

/-- The options with those of some letters. -/
def addLetters (o : TranslateOptions) : List Char → Except TranslateError TranslateOptions
  | [] => .ok o
  | 'c' :: cs | 'C' :: cs => { o with complement := true }.addLetters cs
  | 'd' :: cs => { o with delete := true }.addLetters cs
  | 's' :: cs => { o with squeeze := true }.addLetters cs
  | 't' :: cs => { o with truncate := true }.addLetters cs
  | c :: _ => .error (.letter c)

/-- The options with one that is written behind two hyphens, which may be cut short. -/
def addName (o : TranslateOptions) (arg : String) : Except TranslateError TranslateOptions :=
  let means := fun (name : String) => name.startsWith arg
  if means "--complement" then .ok { o with complement := true }
  else if means "--delete" then .ok { o with delete := true }
  else if means "--squeeze-repeats" then .ok { o with squeeze := true }
  else if means "--truncate-set1" then .ok { o with truncate := true }
  else .error (.option arg)

/-- The options at the front of the arguments, and the operands. -/
def ofArgs (o : TranslateOptions) :
    List String → Except TranslateError (TranslateOptions × List String)
  | [] => .ok (o, [])
  | arg :: args =>
    match arg.toList with
    | ['-', '-'] => .ok (o, args)
    | '-' :: '-' :: _ => (o.addName arg).bind fun o => o.ofArgs args
    | '-' :: c :: cs => (o.addLetters (c :: cs)).bind fun o => o.ofArgs args
    | _ => .ok (o, arg :: args)

/-- The one or two operands that options need. -/
def operands (o : TranslateOptions) (args : List String) :
    Except TranslateError (String × Option String) :=
  match args with
  | [] => .error .noOperand
  | [a] => if o.delete = o.squeeze then .error (.oneOperand a o.squeeze) else .ok (a, none)
  | a :: b :: more =>
    if o.delete && !o.squeeze then .error (.operand b more.isEmpty)
    else
      match more with
      | [] => .ok (a, some b)
      | c :: _ => .error (.operand c false)

end TranslateOptions

/-! ## Pairs -/

/-- The bytes that are not in a set. -/
def otherBytes (set : Bytes) : Bytes :=
  (byteRange 0 255).filter fun b => !set.contains b

/-- A place of a set: a byte, or all letters of one case. -/
inductive Place where
  | byte (b : UInt8)
  | letters (upper : Bool)
deriving DecidableEq, Repr

/-- The places of a set. -/
def ByteSet.places (set : ByteSet) : List Place :=
  set.flatMap fun item =>
    match item with
    | .ofClass .upper => [.letters true]
    | .ofClass .lower => [.letters false]
    | item => item.bytes.map .byte

/-- The letters of one case. -/
def lettersOf (upper : Bool) : Bytes :=
  (if upper then ByteClass.upper else .lower).bytes

/-- The bytes of places. -/
def placesBytes (places : List Place) : Bytes :=
  places.flatMap fun p =>
    match p with
    | .byte b => [b]
    | .letters upper => lettersOf upper

/-- The pairs of bytes that stand at the same places, and the bytes of the first places that
no byte stands beside, for `count` places at most. Letters in the second places stand beside
letters; beside their own case only the first of them is replaced, by itself. -/
def pairPlaces : (count : Nat) → List Place → List Place →
    Except TranslateError (List (UInt8 × UInt8) × Bytes)
  | 0, _, _ => .ok ([], [])
  | _ + 1, first, [] => .ok ([], placesBytes first)
  | count + 1, .letters a :: first, .letters b :: second =>
    let letters := (lettersOf a).zip (lettersOf b)
    (pairPlaces count first second).map fun (pairs, rest) =>
      ((if a = b then letters.take 1 else letters) ++ pairs, rest)
  | _ + 1, _, .letters _ :: _ => .error .misaligned
  | _ + 1, [], .byte _ :: _ => .ok ([], [])
  | count + 1, .letters a :: first, .byte b :: second =>
    pairPlaces count ((lettersOf a).map .byte ++ first) (.byte b :: second)
  | count + 1, .byte a :: first, .byte b :: second =>
    (pairPlaces count first second).map fun (pairs, rest) => ((a, b) :: pairs, rest)

/-- The bytes of the first set, or those that are not in it. -/
def TranslateOptions.source (o : TranslateOptions) (first : ByteSet) : Bytes :=
  if o.complement then otherBytes first.bytes else first.bytes

/-- The pairs of bytes of which the second replaces the first, where repetitions in the second
set have counts. -/
def replacements (o : TranslateOptions) (first second : ByteSet) :
    Except TranslateError (List (UInt8 × UInt8)) := do
  let source := o.source first
  let target := second.bytes
  let (pairs, rest) ←
    if o.complement then pure (source.zip target, source.drop target.length)
    else pairPlaces (2 * source.length + first.length + 1) first.places second.places
  let missing ←
    if rest.isEmpty || o.truncate then pure []
    else
      match target.getLast? with
      | none => throw .emptySecond
      | some last =>
        if second.endsInClass then throw .endsInClass else pure (rest.map fun b => (b, last))
  let isUniform := (target.eraseDups.length == 1) &&
    target.length + missing.length == source.length
  if o.complement && first.hasClass && !isUniform then throw .manyTargets
  else return pairs ++ missing

/-! ## Work -/

/-- Bytes without repetitions of the members of a set. -/
def squeeze (set : Bytes) : Option UInt8 → Bytes → Bytes
  | _, [] => []
  | last, b :: bs =>
    if last = some b ∧ set.contains b then squeeze set last bs else b :: squeeze set (some b) bs

/-- Bytes with replacements made; of two for the same byte the last one counts. -/
def replaceBytes (pairs : List (UInt8 × UInt8)) (bs : Bytes) : Bytes :=
  let table := pairs.foldl
    (fun (table : Array UInt8) pair => table.setIfInBounds pair.1.toNat pair.2)
    (byteRange 0 255).toArray
  bs.map fun b => (table[b.toNat]?).getD b

/-- The set of an operand; a backslash at its end is warned about. -/
def readOperand (text : String) : Traced TranslateError ByteSet :=
  { warnings :=
      if endsInBackslash (encodeUtf8 text) then
        ["warning: an unescaped backslash at end of string is not portable"]
      else []
    result := (ByteSet.ofText text).mapError .set }

/-- What the options make of bytes with one set. -/
def workOnOne (o : TranslateOptions) (first : ByteSet) : Bytes → Bytes :=
  let set := o.source first
  if o.delete then fun bs => bs.filter fun b => !set.contains b else squeeze set none

/-- What the options make of bytes with two sets. -/
def workOnTwo (o : TranslateOptions) (first second : ByteSet) :
    Except TranslateError (Bytes → Bytes) := do
  let set := o.source first
  let filled := second.filled set.length
  if 1 < second.openRepetitions then throw .openTwice
  else if o.delete then
    if second.openRepetitions = 1 then throw .openUntranslated
    else return fun bs => squeeze second.bytes none (bs.filter fun b => !set.contains b)
  else if second.hasEquivalent then throw .equivalent
  else if second.hasOtherClass then throw .otherClass
  else
    let pairs ← replacements o first filled
    return fun bs =>
      if o.squeeze then squeeze filled.bytes none (replaceBytes pairs bs)
      else replaceBytes pairs bs

/-- What arguments make of bytes, or why nothing can be made. -/
def translator (args : List String) : Traced TranslateError (Bytes → Bytes) := do
  let (o, args) ← Traced.of (TranslateOptions.ofArgs {} args)
  let (a, b) ← Traced.of (o.operands args)
  let first ← readOperand a
  match b with
  | none =>
    if 0 < first.openRepetitions then Traced.fail .openInFirst
    else return workOnOne o first
  | some b =>
    let second ← readOperand b
    if 0 < first.openRepetitions then Traced.fail .openInFirst
    else Traced.of (workOnTwo o first second)

def translate (args : List String) : Program := fun s input =>
  let t := translator args
  let warned := t.warnings.map fun w => (Outlet.err, encodeUtf8 (s.name ++ ": " ++ w ++ "\n"))
  let conduct : Conduct :=
    match t.result with
    | .ok f => Program.filtering f s input
    | .error e => (if e.hintsAtUsage then Program.misused else Program.refusing) e.cause 1 s input
  { conduct with written := warned ++ conduct.written }

end LineQuery.Programs
