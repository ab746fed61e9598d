import TextTemplate.Text.Cursor

/-! The words, quoted texts and signs that the parameter of a directive consists of. -/

namespace TextTemplate

/-- A token of the arguments and settings in a directive. -/
inductive ParameterToken where
  | opening
  | closing
  | comma
  | equals
  | quoted (text : String)
  | word (text : String)
  deriving DecidableEq, Repr

/-- A token and the bytes it takes. -/
structure PlacedToken where
  token : ParameterToken
  start : Nat
  stop : Nat
  deriving DecidableEq, Repr

/-- The bytes at which no token begins. -/
structure StrayText where
  start : Nat
  stop : Nat
  text : String
  deriving DecidableEq, Repr

namespace ParameterToken

/-- How messages show a token. -/
def shown : ParameterToken → String
  | opening => "`(`"
  | closing => "`)`"
  | comma => "`,`"
  | equals => "`=`"
  | quoted text => "'" ++ text ++ "'"
  | word text => "`" ++ text ++ "`"

def isGap (c : Char) : Bool := c == ' ' || c == '\t' || c == '\r' || c == '\n'

def isWordStart (c : Char) : Bool := c.isAlphanum || "_$/#%@+-".toList.contains c

def isWordPart (c : Char) : Bool := isWordStart c || c == '.' || c == ':'

/-- Reads what follows an opening quote, up to the closing one. A quote written twice stands for
itself. -/
def readQuoted : List Char → Option (List Char × List Char)
  | [] => none
  | '\'' :: '\'' :: rest => (readQuoted rest).map fun (text, rest) => ('\'' :: text, rest)
  | c :: rest =>
    if c = '\'' then some ([], rest)
    else (readQuoted rest).map fun (text, rest) => (c :: text, rest)

/-- Reads the token that begins with `c`. -/
def read (c : Char) (cs : List Char) : Option (ParameterToken × List Char) :=
  if c = '(' then some (opening, cs)
  else if c = ')' then some (closing, cs)
  else if c = ',' then some (comma, cs)
  else if c = '=' then some (equals, cs)
  else if c = '\'' then (readQuoted cs).map fun (text, rest) => (quoted (String.ofList text), rest)
  else if isWordStart c then
    some (word (String.ofList (c :: cs.takeWhile isWordPart)), cs.dropWhile isWordPart)
  else none

theorem readQuoted_length {cs text rest : List Char} (h : readQuoted cs = some (text, rest)) :
    rest.length ≤ cs.length := by
  fun_induction readQuoted cs generalizing text rest with
  | case1 => cases h
  | case2 r ih =>
    obtain ⟨⟨t, r'⟩, hr, heq⟩ := Option.map_eq_some_iff.1 h
    cases heq
    have := ih hr
    simp only [List.length_cons]
    omega
  | case3 r =>
    cases h
    simp only [List.length_cons]
    omega
  | case4 c r _ _ ih =>
    obtain ⟨⟨t, r'⟩, hr, heq⟩ := Option.map_eq_some_iff.1 h
    cases heq
    have := ih hr
    simp only [List.length_cons]
    omega

theorem read_length {c : Char} {cs rest : List Char} {t : ParameterToken}
    (h : read c cs = some (t, rest)) : rest.length ≤ cs.length := by
  unfold read at h
  iterate 4
    split at h
    · cases h
      exact Nat.le_refl _
  split at h
  · obtain ⟨⟨t, r'⟩, hr, heq⟩ := Option.map_eq_some_iff.1 h
    cases heq
    exact readQuoted_length hr
  · split at h
    · cases h
      exact (List.dropWhile_suffix _).length_le
    · cases h

/-- What is wrong where no token begins: a quote that is not closed up to the end, or one
character. -/
def strayAt (c : Cursor) (first : Char) : StrayText :=
  let cs := if first = '\'' then c.rest else [first]
  ⟨c.offset, c.offset + Text.utf8Length cs, String.ofList cs⟩

/-- The tokens from a place on. -/
def readAll (c : Cursor) : Except StrayText (List PlacedToken) :=
  match _h : c.rest with
  | [] => .ok []
  | first :: cs =>
    if isGap first then readAll ⟨c.offset + first.utf8Size, cs⟩
    else match _hr : read first cs with
      | none => .error (strayAt c first)
      | some (t, rest) =>
        let stop := c.moveTo rest
        (readAll stop).map (⟨t, c.offset, stop.offset⟩ :: ·)
termination_by c.rest.length
decreasing_by
  · simp only [_h, List.length_cons]
    omega
  · have := read_length _hr
    simp only [Cursor.moveTo, _h, List.length_cons]
    omega

/-- The tokens of a text. -/
def ofText (text : String) : Except StrayText (List PlacedToken) := readAll (Cursor.start text)

end ParameterToken

end TextTemplate
