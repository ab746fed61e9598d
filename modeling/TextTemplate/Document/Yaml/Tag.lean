import TextTemplate.Document.Json.Reader
import TextTemplate.Document.Yaml.Plain

/-! Tags, which say of what kind a value is, and the directives before a document. -/

namespace TextTemplate.Yaml

/-- Whether the character may stand in a name. -/
def isNameChar (c : Char) : Bool := c.isAlphanum || c == '_' || c == '-'

/-- Whether the character may stand in a tag. Only one in angles may hold commas and brackets. -/
def isTagChar (inAngles : Bool) (c : Char) : Bool :=
  isNameChar c || ";/?:@&=+$.%!~*'()".toList.contains c || (inAngles && ",[]".toList.contains c)

/-! ### Escaped characters -/

/-- The byte that a percent sign and two digits stand for. -/
def readByte? : List Char → Option Nat
  | '%' :: cs => (Json.readHex? 2 0 cs).map (·.1)
  | _ => none

/-- What the first byte of a character says: its own share of the code point, and how many bytes
follow. -/
def leadingByte? (b : Nat) : Option (Nat × Nat) :=
  if b < 0x80 then some (b, 0)
  else if b < 0xc0 then none
  else if b < 0xe0 then some (b % 32, 1)
  else if b < 0xf0 then some (b % 16, 2)
  else if b < 0xf8 then some (b % 8, 3)
  else none

/-- Reads the bytes that follow, each of which adds six bits. -/
def readFollowing? : Nat → Nat → List Char → Option Nat
  | 0, n, _ => some n
  | k + 1, n, cs => (readByte? cs).bind fun b =>
    if b / 64 = 2 then readFollowing? k (64 * n + b % 64) (cs.drop 3) else none

/-- Reads a character whose bytes are escaped. Gives it with the count of characters it takes. -/
def readEscaped? (cs : List Char) : Option (Char × Nat) := do
  let (share, k) ← (readByte? cs).bind leadingByte?
  let n ← readFollowing? k share (cs.drop 3)
  some (if n.isValidChar then Char.ofNat n else '\ufffd', 3 * (k + 1))

/-! ### Tags -/

/-- Reads the characters of a tag and gives their count. -/
def readTagText? (inAngles : Bool) : Nat → List Char → Option (List Char × Nat)
  | 0, _ | _, [] => some ([], 0)
  | fuel + 1, c :: cs =>
    if !isTagChar inAngles c then some ([], 0)
    else
      let one := if c = '%' then readEscaped? (c :: cs) else some (c, 1)
      one.bind fun (d, k) =>
        (readTagText? inAngles fuel ((c :: cs).drop k)).map fun (text, n) => (d :: text, k + n)

/-- A tag as it is written: a handle, which a directive may explain, and the rest. -/
structure TagName where
  handle : String
  rest : String
  deriving DecidableEq, Repr

/-- Reads a tag in angles from behind the first one. It has no handle. -/
def readAngles? (p : Place) : Option (TagName × Place) := do
  let (text, n) ← readTagText? true p.rest.length p.rest
  let p := p.forward n
  if n ≠ 0 ∧ p.rest.head? = some '>' then some (⟨"", String.ofList text⟩, p.forward 1) else none

/-- Reads a tag from behind its mark. A name before a second mark belongs to the handle. -/
def readShort? (p : Place) : Option (TagName × Place) := do
  let name := p.rest.takeWhile isNameChar
  let p := p.forward name.length
  if p.rest.head? = some '!' then
    let (text, n) ← readTagText? false p.rest.length p.rest.tail
    if n = 0 then none
    else some (⟨String.ofList ('!' :: name ++ ['!']), String.ofList text⟩, p.forward (n + 1))
  else
    let (text, n) ← readTagText? false p.rest.length p.rest
    let tag := if name ++ text = [] then ⟨"", "!"⟩ else ⟨"!", String.ofList (name ++ text)⟩
    some (tag, p.forward n)

/-- Reads a tag from its mark on. -/
def readTag? (inBrackets : Bool) (p : Place) : Option (TagName × Place) := do
  let (tag, p) ← if p.rest.tail.head? = some '<' then readAngles? (p.forward 2)
    else readShort? (p.forward 1)
  if endsWord p.rest ∨ (inBrackets ∧ p.rest.head? = some ',') then some (tag, p) else none

/-! ### Directives -/

inductive Directive where
  | version
  /-- What a handle stands for. -/
  | handle (name lead : String)
  deriving DecidableEq, Repr

/-- Reads a number of at most nine digits. -/
def readVersionPart? (p : Place) : Option (Nat × Place) :=
  let ds := p.rest.takeWhile Char.isDigit
  if ds ≠ [] ∧ ds.length ≤ 9 then
    (Decimal.readDigits 0 ds).map (·, p.forward ds.length)
  else none

/-- Reads the version of a document, which is 1.1 or 1.2. -/
def readVersion? (p : Place) : Option (Directive × Place) := do
  let (major, p) ← readVersionPart? p
  if p.rest.head? ≠ some '.' then none
  else
    let (minor, p) ← readVersionPart? (p.forward 1)
    if major = 1 ∧ (minor = 1 ∨ minor = 2) then some (.version, p) else none

/-- Reads a handle and what it stands for. -/
def readHandle? (p : Place) : Option (Directive × Place) := do
  match p.rest with
  | '!' :: cs =>
    let name := cs.takeWhile isNameChar
    let closed : Bool := (cs.drop name.length).head? = some '!'
    let handle := '!' :: name ++ if closed then ['!'] else []
    let p := p.forward handle.length
    let q := p.skipBlanks
    let (lead, n) ← readTagText? true q.rest.length q.rest
    let r := q.forward n
    if (closed ∨ name = []) ∧ p.blanks ≠ [] ∧ n ≠ 0 ∧ endsWord r.rest then
      some (.handle (String.ofList handle) (String.ofList lead), r)
    else none
  | _ => none

/-- Reads a directive up to the next line, from its mark on. -/
def readDirective? (p : Place) : Option (Directive × Place) := do
  let name := p.rest.tail.takeWhile isNameChar
  let p := p.forward (name.length + 1)
  if !endsWord p.rest then none
  else
    let (d, p) ← if name = "YAML".toList then readVersion? p.skipBlanks
      else if name = "TAG".toList then readHandle? p.skipBlanks
      else none
    p.lineEnd?.map fun p => (d, p.skipBreak)

end TextTemplate.Yaml
