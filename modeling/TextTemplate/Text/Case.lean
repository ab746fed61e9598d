import TextTemplate.Text.CaseRules

namespace TextTemplate.Text

def runImage (runs : Array CaseRun) (n : Nat) : Nat :=
  (runs.findSome? (·.image? n)).getD n

def caseImage (expansions : Array (Nat × List Nat)) (runs : Array CaseRun) (c : Char) : List Char :=
  match expansions.find? (·.1 == c.toNat) with
  | some (_, image) => image.map Char.ofNat
  | none => [Char.ofNat (runImage runs c.toNat)]

def upperChar (c : Char) : List Char :=
  if c.toNat < 0x80 then [c.toUpper] else caseImage upperExpansions upperRuns c

def lowerChar (c : Char) : List Char :=
  if c.toNat < 0x80 then [c.toLower] else caseImage lowerExpansions lowerRuns c

def isCased (c : Char) : Bool := casedRanges.contains c.toNat

def isCaseIgnorable (c : Char) : Bool := caseIgnorableRanges.contains c.toNat

def upper (cs : List Char) : List Char := cs.flatMap upperChar

/-- Whether the first character that the search does not look through has a case. -/
def reachesCased (cs : List Char) : Bool :=
  match cs.dropWhile isCaseIgnorable with
  | [] => false
  | c :: _ => isCased c

/-- Lower case of `cs` after the characters `before`, nearest first. A sigma that ends a word takes
its final form: a cased letter stands before it and none after it. -/
def lowerAfter (before : List Char) : List Char → List Char
  | [] => []
  | c :: cs =>
    (if c = 'Σ' then [if reachesCased before && !reachesCased cs then 'ς' else 'σ']
      else lowerChar c) ++ lowerAfter (c :: before) cs

def lower (cs : List Char) : List Char := lowerAfter [] cs

/-- Lower case of the unaccented Latin letters only. -/
def asciiLower (s : String) : String := s.map Char.toLower

end TextTemplate.Text
