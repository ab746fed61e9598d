/-! Places in a YAML text, by line and column. Besides the usual line breaks a text may hold a next
line character, which is one of them, and line and paragraph separators, which stay what they
are. -/

namespace TextTemplate.Yaml

def isBlank (c : Char) : Bool := c == ' ' || c == '\t'

/-- Whether the character is a line break that stands for a line feed. -/
def isPlainBreak (c : Char) : Bool := c == '\n' || c == '\r' || c == '\u0085'

/-- Whether the character is a line break that stands for itself. -/
def isSeparator (c : Char) : Bool := c == '\u2028' || c == '\u2029'

def isBreak (c : Char) : Bool := isPlainBreak c || isSeparator c

/-- Whether the text is at its end or begins with a blank or a line break. -/
def endsWord (cs : List Char) : Bool := cs.head?.all fun c => isBlank c || isBreak c

/-- Whether the text is at its end or begins with a line break. -/
def endsLine (cs : List Char) : Bool := cs.head?.all isBreak

/-- Whether the character may stand in a document at all. -/
def isPrintable (c : Char) : Bool :=
  c == '\t' || isPlainBreak c || (0x20 ≤ c.toNat && c.toNat ≤ 0x7e) ||
    (0xa0 ≤ c.toNat && c.toNat ≤ 0xfffd) || 0x10000 ≤ c.toNat

/-- A place in a text: the characters and the lines before it, its column, and what is left. -/
structure Place where
  index : Nat
  line : Nat
  column : Nat
  rest : List Char

namespace Place

def first (text : List Char) : Place := ⟨0, 0, 0, text⟩

/-- The place some characters further on in the line. -/
def forward (p : Place) (n : Nat) : Place :=
  { p with index := p.index + n, column := p.column + n, rest := p.rest.drop n }

/-- The place behind a line break of `width` characters. -/
def nextLine (p : Place) (width : Nat) : Place :=
  ⟨p.index + width, p.line + 1, 0, p.rest.drop width⟩

/-- What the line break at a place stands for, and the place behind it. -/
def break? (p : Place) : Option (List Char × Place) :=
  match p.rest with
  | '\r' :: '\n' :: _ => some (['\n'], p.nextLine 2)
  | c :: _ =>
    if isPlainBreak c then some (['\n'], p.nextLine 1)
    else if isSeparator c then some ([c], p.nextLine 1)
    else none
  | [] => none

def blanks (p : Place) : List Char := p.rest.takeWhile isBlank

def skipBlanks (p : Place) : Place := p.forward p.blanks.length

/-- The end of the line, if only blanks and a comment come before it. -/
def lineEnd? (p : Place) : Option Place :=
  let p := p.skipBlanks
  match p.rest with
  | '#' :: cs => some (p.forward (1 + (cs.takeWhile (!isBreak ·)).length))
  | cs => if endsLine cs then some p else none

/-- The place behind the line break, if there is one. -/
def skipBreak (p : Place) : Place := (p.break?.map (·.2)).getD p

/-- Whether the line begins with three times `mark` as a word. -/
def isAtMark (p : Place) (mark : Char) : Bool :=
  p.column == 0 && p.rest.take 3 == [mark, mark, mark] && endsWord (p.rest.drop 3)

/-- Whether a line begins here that divides documents. -/
def isAtDivision (p : Place) : Bool := p.isAtMark '-' || p.isAtMark '.'

/-- Skips the line breaks at a place, and the blanks after each of them. Gives what they stand for.
No tab may stand left of column `least`. -/
def breaks? (least : Nat) : Nat → Place → Option (List (List Char) × Place)
  | 0, p => some ([], p)
  | fuel + 1, p =>
    match p.break? with
    | none => some ([], p)
    | some (b, p) =>
      if (p.blanks.take least).contains '\t' then none
      else (breaks? least fuel p.skipBlanks).map fun (bs, p) => (b :: bs, p)

/-- What lies between two words of a scalar: the blanks on the line of the first one, and the line
breaks after them. -/
def gap? (least : Nat) (p : Place) : Option (List Char × List (List Char) × Place) :=
  (breaks? least p.rest.length p.skipBlanks).map fun (bs, q) => (p.blanks, bs, q)

end Place

/-- What the gap between two words of a scalar stands for. A single line break is a blank; of
several the first one is left out. Separators always stay. -/
def gapText (blanks : List Char) : List (List Char) → List Char
  | [] => blanks
  | first :: more =>
    if first ≠ ['\n'] then first ++ more.flatten
    else if more = [] then [' ']
    else more.flatten

end TextTemplate.Yaml
