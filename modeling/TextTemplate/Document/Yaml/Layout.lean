import TextTemplate.Document.Yaml.Block
import TextTemplate.Document.Yaml.Quoted
import TextTemplate.Document.Yaml.Token

/-! From a text to its tokens. Collections outside brackets begin and end where the indentation
changes. Whether a scalar is a key is seen only at the colon after it, so a place where a key may
have begun is kept in mind until then, and the token for the key is put there. -/

namespace TextTemplate.Yaml

/-- A place where a key may have begun, and how many tokens come before it. A needed one stands
where nothing but a key can stand. -/
structure PossibleKey where
  place : Place
  tokensBefore : Nat
  needed : Bool

namespace PossibleKey

/-- Keys are shorter than this. -/
def longest : Nat := 1024

/-- Whether a colon at `p` comes too late: in another line, or too far on. -/
def isPast (k : PossibleKey) (p : Place) : Bool :=
  k.place.line < p.line || k.place.index + longest < p.index

end PossibleKey

/-- What has been read of a text so far. -/
structure Layout where
  place : Place
  /-- The tokens, the last one first. -/
  tokens : List Token
  /-- The columns of the collections that are open, the innermost first. -/
  columns : List Nat
  /-- Whether a key may begin here. -/
  keyAllowed : Bool
  /-- Where a key may have begun that no bracket separates from here. -/
  key : Option PossibleKey
  /-- The same before each bracket that is open, the innermost first. -/
  outerKeys : List (Option PossibleKey)

namespace Layout

def start (text : List Char) : Layout := ⟨Place.first text, [], [], true, none, []⟩

def inBrackets (s : Layout) : Bool := s.outerKeys ≠ []

/-- Adds a token that `width` characters make up. -/
def emit (t : Token) (width : Nat) (s : Layout) : Layout :=
  { s with tokens := t :: s.tokens, place := s.place.forward width }

/-- Puts a token behind the first `before` ones. -/
def insert (t : Token) (before : Nat) (s : Layout) : Layout :=
  let later := s.tokens.length - before
  { s with tokens := s.tokens.take later ++ t :: s.tokens.drop later }

/-! ### Open collections -/

/-- Begins a collection at a column that lies right of all open ones. Inside brackets indentation
says nothing. -/
def openAt (column : Nat) (t : Token) (before : Nat) (s : Layout) : Layout :=
  if !s.inBrackets && s.columns.head?.all (· < column) then
    { s.insert t before with columns := column :: s.columns }
  else s

/-- Ends the open collections that stand right of `column`, or all of them. -/
def closeTo (column : Option Nat) (s : Layout) : Layout :=
  if s.inBrackets then s
  else
    let ended := s.columns.takeWhile fun c => column.all (· < c)
    { s with
      tokens := List.replicate ended.length .blockEnd ++ s.tokens
      columns := s.columns.drop ended.length }

/-- The column from which on a scalar belongs to the innermost collection. -/
def innerColumn (s : Layout) : Nat := (s.columns.head?.map (· + 1)).getD 0

/-! ### Possible keys -/

/-- Gives up a possible key, which must not be a needed one. -/
def dropKey (s : Layout) : Option Layout :=
  if s.key.any (·.needed) then none else some { s with key := none }

/-- Gives up the possible keys that a colon would come too late for. -/
def dropPastKeys (s : Layout) : Option Layout :=
  let past (k : PossibleKey) : Bool := k.isPast s.place
  if (s.key :: s.outerKeys).any (·.any fun k => k.needed && past k) then none
  else some { s with
    key := s.key.filter (!past ·)
    outerKeys := s.outerKeys.map (·.filter (!past ·)) }

/-- Keeps in mind that a key may begin here, if one may. -/
def noteKey (s : Layout) : Option Layout :=
  if s.keyAllowed then
    s.dropKey.map fun s =>
      let needed := !s.inBrackets && s.columns.head? == some s.place.column
      { s with key := some ⟨s.place, s.tokens.length, needed⟩ }
  else some s

/-! ### Marks -/

/-- Ends all that is open, as a line does that divides documents. No key may follow in that line. -/
def divide (s : Layout) : Option Layout :=
  (s.closeTo none).dropKey.map ({ · with keyAllowed := false })

def openBracket (t : Token) (s : Layout) : Option Layout :=
  s.noteKey.map fun s =>
    { s.emit t 1 with keyAllowed := true, key := none, outerKeys := s.key :: s.outerKeys }

def closeBracket (t : Token) (s : Layout) : Option Layout :=
  s.dropKey.map fun s =>
    { s.emit t 1 with
      keyAllowed := false
      key := s.outerKeys.head?.join
      outerKeys := s.outerKeys.tail }

def comma (s : Layout) : Option Layout :=
  s.dropKey.map fun s => { s.emit .comma 1 with keyAllowed := true }

/-- The dash of an item or the question mark of a key, which may begin a collection. -/
def beginEntry (start t : Token) (keyAllowed : Bool) (s : Layout) : Option Layout :=
  if !s.inBrackets && !s.keyAllowed then none
  else
    (s.openAt s.place.column start s.tokens.length).dropKey.map fun s =>
      { s.emit t 1 with keyAllowed }

def dash (s : Layout) : Option Layout := s.beginEntry .sequenceStart .dash true

def questionMark (s : Layout) : Option Layout :=
  s.beginEntry .mappingStart .key (!s.inBrackets)

/-- A colon makes a key of what a possible key began. Without one it follows a key that a question
mark began, or none at all. -/
def colon (s : Layout) : Option Layout :=
  match s.key with
  | some k =>
    let s := (s.insert .key k.tokensBefore).openAt k.place.column .mappingStart k.tokensBefore
    some { s.emit .colon 1 with key := none, keyAllowed := false }
  | none =>
    if s.inBrackets then some { s.emit .colon 1 with keyAllowed := false }
    else if !s.keyAllowed then none
    else
      let s := s.openAt s.place.column .mappingStart s.tokens.length
      some { s.emit .colon 1 with keyAllowed := true }

/-! ### Names, tags and scalars -/

/-- Adds what `read` reads, which may begin a key. -/
def content (read : Layout → Option (Token × Bool × Place)) (s : Layout) : Option Layout := do
  let s ← s.noteKey
  let (t, keyAllowed, place) ← read s
  some { s with tokens := t :: s.tokens, keyAllowed, place }

/-- Reads the name of a value after its mark. -/
def readName? (make : String → Token) (s : Layout) : Option (Token × Bool × Place) :=
  let name := s.place.rest.tail.takeWhile isNameChar
  let p := s.place.forward (name.length + 1)
  if name ≠ [] ∧ (endsWord p.rest ∨ p.rest.head?.any "?:,]\x7d%@`".toList.contains) then
    some (make (String.ofList name), false, p)
  else none

def readTag? (s : Layout) : Option (Token × Bool × Place) :=
  (Yaml.readTag? s.inBrackets s.place).map fun (tag, p) => (.tag tag, false, p)

def readQuoted? (quote : Char) (s : Layout) : Option (Token × Bool × Place) :=
  (Yaml.readQuoted? quote s.place.rest.length (s.place.forward 1)).map fun (text, p) =>
    (.scalar true (String.ofList text), false, p)

def readPlain? (s : Layout) : Option (Token × Bool × Place) :=
  (Yaml.readPlain? s.inBrackets s.innerColumn s.place.rest.length s.place).map
    fun (text, broken, p) => (.scalar false (String.ofList text), broken, p)

/-- Adds a text of several lines, behind which a key may begin. -/
def blockText (s : Layout) : Option Layout := do
  let s ← s.dropKey
  let (text, place) ← readBlock? s.columns.head? s.place
  some { s with
    tokens := .scalar true (String.ofList text) :: s.tokens
    keyAllowed := true
    place }

/-! ### The whole text -/

/-- Skips blanks, comments and line breaks up to the next token. Where a key may begin, no tab may
come before it. A byte order mark may begin a line, in which it takes up a column. -/
def skip : Nat → Layout → Layout
  | 0, s => s
  | fuel + 1, s =>
    let isGap (c : Char) : Bool := c == ' ' || (c == '\t' && (s.inBrackets || !s.keyAllowed))
    let p := s.place
    let p := if p.column = 0 ∧ p.rest.head? = some '\ufeff' then p.forward 1 else p
    let p := p.forward (p.rest.takeWhile isGap).length
    let p := if p.rest.head? = some '#' then p.forward (p.rest.takeWhile (!isBreak ·)).length else p
    match p.break? with
    | some (_, p) => skip fuel { s with place := p, keyAllowed := s.keyAllowed || !s.inBrackets }
    | none => { s with place := p }

/-- The marks that no scalar begins with. -/
def isReserved (c : Char) : Bool := ",[]\x7b\x7d#&*!|>'\"%@`".toList.contains c

/-- Reads the token that the character `c` begins, before `rest`. -/
def read (c : Char) (rest : List Char) (s : Layout) : Option Layout :=
  let p := s.place
  if p.column = 0 ∧ c = '%' then
    s.divide.bind fun s => (readDirective? p).map fun (d, place) =>
      { s with tokens := .directive d :: s.tokens, place }
  else if p.isAtMark '-' then s.divide.map (emit .documentStart 3)
  else if p.isAtMark '.' then s.divide.map (emit .documentEnd 3)
  else if c = '[' then s.openBracket .openBracket
  else if c = '\x7b' then s.openBracket .openBrace
  else if c = ']' then s.closeBracket .closeBracket
  else if c = '\x7d' then s.closeBracket .closeBrace
  else if c = ',' then s.comma
  else if c = '-' ∧ endsWord rest then s.dash
  else if c = '?' ∧ (s.inBrackets ∨ endsWord rest) then s.questionMark
  else if c = ':' ∧ (s.inBrackets ∨ endsWord rest) then s.colon
  else if c = '*' then s.content (readName? .alias)
  else if c = '&' then s.content (readName? .anchor)
  else if c = '!' then s.content readTag?
  else if (c = '|' ∨ c = '>') ∧ !s.inBrackets then s.blockText
  else if c = '\'' ∨ c = '"' then s.content (readQuoted? c)
  else if isBlank c ∨ isReserved c then none
  else s.content readPlain?

/-- Reads the tokens that are left. -/
def readAll? : Nat → Layout → Option (List Token)
  | 0, _ => none
  | fuel + 1, s => do
    let s ← (s.skip s.place.rest.length).dropPastKeys
    let s := s.closeTo (some s.place.column)
    match s.place.rest with
    | [] => (s.divide).map (·.tokens.reverse)
    | c :: rest => readAll? fuel (← s.read c rest)

end Layout

/-- The tokens of a text. -/
def tokens? (text : List Char) : Option (List Token) :=
  if text.all isPrintable then (Layout.start text).readAll? (text.length + 1) else none

end TextTemplate.Yaml
