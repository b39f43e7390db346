import LineQuery.Text.Casing.Table

/-!
# Upper and lower case

Full case mapping of Unicode text, without language rules: a character may map to
several, and a capital sigma becomes the final form `ς` at the end of a word.
-/

namespace LineQuery.Text

/-- Whether the run maps the character with number `n`. -/
def CaseRun.covers (run : CaseRun) (n : Nat) : Bool :=
  run.first ≤ n && n ≤ run.last && (n - run.first) % run.step == 0

/-- The character that `runs` map `c` to; `c` itself if no run covers it. -/
def mapCase (runs : List CaseRun) (c : Char) : Char :=
  match runs.find? (·.covers c.toNat) with
  | some run => Char.ofNat (c.toNat + run.shift).toNat
  | none => c

def inRanges (ranges : List (Nat × Nat)) (n : Nat) : Bool :=
  ranges.any fun r => r.1 ≤ n && n ≤ r.2

/-- Whether the first character of `cs` that case mapping does not ignore is cased. -/
def casedNext (cs : List Char) : Bool :=
  match cs.dropWhile fun c => inRanges caseIgnorableRanges c.toNat with
  | c :: _ => inRanges casedRanges c.toNat
  | [] => false

/-- The lower case of a capital sigma between `before` (read backwards) and `after`. -/
def lowerSigma (before after : List Char) : Char :=
  if casedNext before && !casedNext after then 'ς' else 'σ'

def lowerChar (c : Char) : List Char :=
  if c.toNat < 0x80 then [c.toLower]
  else if c = 'İ' then ['i', '\u0307']
  else [mapCase lowerRuns c]

/-- The lower case of `cs`, which stand after `before` (read backwards). -/
def lowerFrom (before : List Char) : List Char → List Char
  | [] => []
  | c :: cs =>
    (if c = 'Σ' then [lowerSigma before cs] else lowerChar c) ++ lowerFrom (c :: before) cs

def lower (cs : List Char) : List Char :=
  lowerFrom [] cs

def upperChar (c : Char) : List Char :=
  if c.toNat < 0x80 then [c.toUpper]
  else match upperExpansions.lookup c.toNat with
    | some expansion => expansion.map Char.ofNat
    | none => [mapCase upperRuns c]

def upper (cs : List Char) : List Char :=
  cs.flatMap upperChar

end LineQuery.Text
