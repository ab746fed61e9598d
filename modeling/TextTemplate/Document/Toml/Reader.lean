import TextTemplate.Document.Toml.Scalar
import TextTemplate.Text.Bytes

/-! Reading TOML documents line by line: tables, and keys with their values. -/

namespace TextTemplate.Toml

abbrev ReadItem := List Char → Option (Toml × List Char)

/-! ### Keys -/

def isKeyChar (c : Char) : Bool := c.isAlphanum || c == '_' || c == '-'

/-- Reads a bare or quoted part of a key. -/
def readKeyPart? (cs : List Char) : Option (String × List Char) :=
  match cs with
  | '"' :: rest =>
    (readLine? '"' true rest.length rest).map fun (name, rest) => (String.ofList name, rest)
  | '\'' :: rest =>
    (readLine? '\'' false rest.length rest).map fun (name, rest) => (String.ofList name, rest)
  | _ =>
    let name := cs.takeWhile isKeyChar
    if name = [] then none else some (String.ofList name, cs.dropWhile isKeyChar)

/-- Reads a key of at most `most` parts with dots between them. -/
def readParts? : (most : Nat) → List Char → Option (List String × List Char)
  | 0, _ => none
  | most + 1, cs => do
    let (part, rest) ← readKeyPart? (skipGap cs)
    match skipGap rest with
    | '.' :: rest =>
      let (parts, rest) ← readParts? most rest
      some (part :: parts, rest)
    | rest => some ([part], rest)

/-- Values may be nested this deep, and keys may have so many parts. -/
def deepestLevel : Nat := 80

def readKey? (cs : List Char) : Option (List String × List Char) := readParts? deepestLevel cs

/-- Reads a key and its value. Between them there is what `skip` skips, besides the equals sign. -/
def readPair? (item : ReadItem) (skip : List Char → Option (List Char)) (cs : List Char) :
    Option (List String × Toml × List Char) := do
  let (key, rest) ← readKey? cs
  let rest ← readMark? '=' (← skip rest)
  let (v, rest) ← item (← skip rest)
  some (key, v, ← skip rest)

/-! ### Lines -/

/-- The rest of a line from its comment on, which holds no control characters. -/
def skipComment? : List Char → Option (List Char)
  | '#' :: cs =>
    let comment := cs.takeWhile fun c => !isControl c
    let rest := cs.drop comment.length
    if rest = [] ∨ startsLine rest then some rest else none
  | cs => some cs

/-- The text after the end of a line, where only a comment may still stand. -/
def endLine? (cs : List Char) : Option (List Char) := do
  let rest ← skipComment? (skipGap cs)
  if rest = [] then some []
  else if startsLine rest then some (Text.skipLineBreak rest)
  else none

/-- Skips blanks, comments and line breaks, of which there are at most `most`. -/
def skipLinesOf? : (most : Nat) → List Char → Option (List Char)
  | 0, cs => some cs
  | most + 1, cs => do
    let rest ← skipComment? (skipGap cs)
    if startsLine rest then skipLinesOf? most (Text.skipLineBreak rest) else some rest

/-- Skips blanks, comments and line breaks. -/
def skipBetween? (cs : List Char) : Option (List Char) := skipLinesOf? cs.length cs

/-! ### Values -/

/-- Reads the items of an array up to its closing bracket. -/
def readArray? (item : ReadItem) : Nat → List Char → Option (List Toml × List Char)
  | 0, _ => none
  | fuel + 1, cs => do
    let cs ← skipBetween? cs
    match cs with
    | ']' :: rest => some ([], rest)
    | _ =>
      let (v, rest) ← item cs
      let rest ← skipBetween? rest
      match rest with
      | ',' :: rest =>
        let (vs, rest) ← readArray? item fuel rest
        some (v :: vs, rest)
      | ']' :: rest => some ([v], rest)
      | _ => none

/-- Reads the entries of a table in braces up to the closing one. -/
def readInline? (item : ReadItem) :
    Nat → Fields Toml → List Char → Option (Fields Toml × List Char)
  | 0, _, _ => none
  | fuel + 1, entries, cs => do
    let cs ← skipBetween? cs
    match cs with
    | '}' :: rest => some (entries, rest)
    | _ =>
      let (key, v, rest) ← readPair? item skipBetween? cs
      let entries ← assign key v entries
      match rest with
      | ',' :: rest => readInline? item fuel entries rest
      | '}' :: rest => some (entries, rest)
      | _ => none

/-- Reads a value that is nested at most `levels` deep. -/
def readValue? : Nat → ReadItem
  | levels, cs =>
    match cs, levels with
    | '"' :: _, _ | '\'' :: _, _ => (readText? cs).map fun (s, rest) => (text s, rest)
    | '[' :: _, 0 | '{' :: _, 0 => none
    | '[' :: rest, levels + 1 =>
      (readArray? (readValue? levels) (rest.length + 1) rest).map fun (vs, rest) => (array vs, rest)
    | '{' :: rest, levels + 1 =>
      (readInline? (readValue? levels) (rest.length + 1) [] rest).map fun (entries, rest) =>
        (table .inline entries, rest)
    | _, _ =>
      let w := word cs
      (ofWord? w).map (·, cs.drop w.length)

/-! ### Documents -/

/-- Reads a header of one table or of one more among several, after its first bracket. -/
def readHeader? (cs : List Char) : Option (Bool × List String × List Char) := do
  match cs with
  | '[' :: cs =>
    let (key, rest) ← readKey? cs
    let rest ← (readMark? ']' rest).bind (readMark? ']')
    some (true, key, rest)
  | _ =>
    let (key, rest) ← readKey? cs
    let rest ← readMark? ']' rest
    some (false, key, rest)

/-- Reads line after line. `header` is the table that entries belong to. -/
def readLinesFrom? : Nat → List String → Fields Toml → List Char → Option (Fields Toml)
  | 0, _, root, cs => if cs = [] then some root else none
  | fuel + 1, header, root, cs => do
    let cs ← skipBetween? cs
    match cs with
    | [] => some root
    | '[' :: rest =>
      let (several, header, rest) ← readHeader? rest
      let root ← if several then declareItem header root else declareTable header root
      readLinesFrom? fuel header root (← endLine? rest)
    | _ =>
      let (key, v, rest) ← readPair? (readValue? deepestLevel) (some ∘ skipGap) cs
      let root ← underHeader header (assign key v) root
      readLinesFrom? fuel header root (← endLine? rest)

/-- The entries of a document, if it is one. -/
def ofText? (s : String) : Option (Fields Toml) :=
  let cs := (Text.dropByteOrderMark s).toList
  readLinesFrom? (cs.length + 1) [] [] cs

end TextTemplate.Toml
