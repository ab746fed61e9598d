import TextTemplate.Document.Json.Basic

/-! Reading documents in JSON. -/

namespace TextTemplate.Json

def isBlank (c : Char) : Bool := c = ' ' ∨ c = '\t' ∨ c = '\n' ∨ c = '\r'

def skipBlanks (cs : List Char) : List Char := cs.dropWhile isBlank

def hexValue? (c : Char) : Option Nat :=
  if c.isDigit then some (c.toNat - '0'.toNat)
  else if 'a' ≤ c ∧ c ≤ 'f' then some (c.toNat - 'a'.toNat + 10)
  else if 'A' ≤ c ∧ c ≤ 'F' then some (c.toNat - 'A'.toNat + 10)
  else none

/-- Reads `width` hexadecimal digits. -/
def readHex? : Nat → Nat → List Char → Option (Nat × List Char)
  | 0, n, cs => some (n, cs)
  | _ + 1, _, [] => none
  | width + 1, n, c :: cs => (hexValue? c).bind fun d => readHex? width (16 * n + d) cs

/-- Reads the code unit after `\u`; a high surrogate is joined with the low one that follows. -/
def readUnit? (cs : List Char) : Option (Char × List Char) := do
  let (unit, rest) ← readHex? 4 0 cs
  if 0xd800 ≤ unit ∧ unit < 0xdc00 then
    match rest with
    | '\\' :: 'u' :: rest =>
      let (low, rest) ← readHex? 4 0 rest
      if 0xdc00 ≤ low ∧ low < 0xe000 then
        some (Char.ofNat (0x10000 + (unit - 0xd800) * 0x400 + (low - 0xdc00)), rest)
      else none
    | _ => none
  else if 0xdc00 ≤ unit ∧ unit < 0xe000 then none
  else some (Char.ofNat unit, rest)

def escaped? : Char → Option Char
  | '"' => some '"'
  | '\\' => some '\\'
  | '/' => some '/'
  | 'b' => some '\x08'
  | 'f' => some '\x0c'
  | 'n' => some '\n'
  | 'r' => some '\r'
  | 't' => some '\t'
  | _ => none

/-- Reads a text up to its closing quote. At most `fuel` characters are read. -/
def readText? : Nat → List Char → Option (List Char × List Char)
  | 0, _ => none
  | fuel + 1, cs =>
    match cs with
    | '"' :: rest => some ([], rest)
    | '\\' :: 'u' :: rest => do
      let (c, rest) ← readUnit? rest
      let (tail, rest) ← readText? fuel rest
      some (c :: tail, rest)
    | '\\' :: e :: rest => do
      let c ← escaped? e
      let (tail, rest) ← readText? fuel rest
      some (c :: tail, rest)
    | c :: rest =>
      if c = '\\' ∨ c.toNat < 0x20 then none
      else do
        let (tail, rest) ← readText? fuel rest
        some (c :: tail, rest)
    | [] => none

/-- Takes digits into a significand as long as it has room for them: 64 bits. The digits that are
left are returned. -/
def takeDigits (significand : Nat) : List Char → Nat × List Char
  | [] => (significand, [])
  | c :: cs =>
    let next := 10 * significand + (c.toNat - '0'.toNat)
    if next < twoTo 64 then takeDigits next cs else (significand, c :: cs)

def greatestPower : Nat := 308

def powerOfTen (n : Nat) : Binary64 := Binary64.ofDecimal false 1 (-(n : Int))

/-- The float for a significand and a power of ten. The significand, the power and their product or
quotient are each rounded, so this is not always the nearest float. A number that is too large is
none. -/
def scaled? (significand : Nat) (exponent : Int) : Option Binary64 :=
  let x := Binary64.nearest false significand 1
  let n := exponent.natAbs
  if significand = 0 then some x
  else if 0 ≤ exponent then
    if n ≤ greatestPower then (x.times (powerOfTen n)).filter Binary64.isFinite else none
  else if n ≤ greatestPower then x.dividedBy (powerOfTen n)
  else if n ≤ 2 * greatestPower then
    (x.dividedBy (powerOfTen greatestPower)).bind (·.dividedBy (powerOfTen (n - greatestPower)))
  else some (Binary64.nearest false 0 1)

/-- Whole numbers of 64 bits stay whole; zero with a minus sign, and all others, become floats.
Whole digits that have no room in the significand raise the power of ten, and digits of the fraction
that have none are left out. -/
def numberOf? (negative : Bool) (whole fraction : List Char) (exponent : Option Int) :
    Option Json :=
  let (n, wholeLeft) := takeDigits 0 whole
  let staysWhole := fraction.isEmpty && exponent.isNone && wholeLeft.isEmpty &&
    (!negative || n != 0 && n ≤ twoTo 63)
  if staysWhole then some (.int (if negative then -(n : Int) else n))
  else
    let (m, fractionLeft) := takeDigits n fraction
    let places := fraction.length - fractionLeft.length
    (scaled? m (exponent.getD 0 + wholeLeft.length - places)).map fun x =>
      .float (Float64.ofBinary (if negative then x.negated else x))

def readNumber? (cs : List Char) : Option (Json × List Char) := do
  let (negative, cs) := match cs with
    | '-' :: rest => (true, rest)
    | _ => (false, cs)
  let whole := cs.takeWhile Char.isDigit
  let cs := cs.dropWhile Char.isDigit
  if whole = [] ∨ (whole.length ≠ 1 ∧ whole.head? = some '0') then none
  else
    let (fraction, cs) ← match cs with
      | '.' :: rest =>
        let ds := rest.takeWhile Char.isDigit
        if ds = [] then none else some (some ds, rest.dropWhile Char.isDigit)
      | _ => some (none, cs)
    let (exponent, cs) ← match cs with
      | c :: rest =>
        if c = 'e' ∨ c = 'E' then
          let (sign, rest) := match rest with
            | '-' :: rest => (['-'], rest)
            | '+' :: rest => ([], rest)
            | _ => ([], rest)
          let ds := rest.takeWhile Char.isDigit
          (Decimal.readSigned? (sign ++ ds)).map fun n => (some n, rest.dropWhile Char.isDigit)
        else some (none, cs)
      | [] => some (none, cs)
    (numberOf? negative whole (fraction.getD []) exponent).map (·, cs)

abbrev ReadItem := List Char → Option (Json × List Char)

/-- Reads items up to the closing bracket, each with `item`. -/
def readItems? (item : ReadItem) : Nat → List Char → Option (List Json × List Char)
  | 0, _ => none
  | fuel + 1, cs => do
    let (v, rest) ← item (skipBlanks cs)
    match skipBlanks rest with
    | ',' :: rest =>
      let (tail, rest) ← readItems? item fuel rest
      some (v :: tail, rest)
    | ']' :: rest => some ([v], rest)
    | _ => none

/-- Reads members up to the closing brace. -/
def readMembers? (item : ReadItem) : Nat → List Char → Option (List (String × Json) × List Char)
  | 0, _ => none
  | fuel + 1, cs => do
    let (key, rest) ← match skipBlanks cs with
      | '"' :: rest => readText? (rest.length + 1) rest
      | _ => none
    let rest ← match skipBlanks rest with
      | ':' :: rest => some rest
      | _ => none
    let (v, rest) ← item (skipBlanks rest)
    match skipBlanks rest with
    | ',' :: rest =>
      let (tail, rest) ← readMembers? item fuel rest
      some ((String.ofList key, v) :: tail, rest)
    | '}' :: rest => some ([(String.ofList key, v)], rest)
    | _ => none

/-- Reads a value that is nested at most `levels` deep. -/
def readValue? : Nat → ReadItem
  | levels, cs =>
    match cs with
    | 'n' :: 'u' :: 'l' :: 'l' :: rest => some (.null, rest)
    | 't' :: 'r' :: 'u' :: 'e' :: rest => some (.bool true, rest)
    | 'f' :: 'a' :: 'l' :: 's' :: 'e' :: rest => some (.bool false, rest)
    | '"' :: rest =>
      (readText? (rest.length + 1) rest).map fun (s, r) => (.text (String.ofList s), r)
    | '[' :: rest =>
      match levels with
      | 0 => none
      | levels + 1 =>
        match skipBlanks rest with
        | ']' :: rest => some (.array [], rest)
        | _ =>
          (readItems? (readValue? levels) (rest.length + 1) rest).map fun (vs, r) => (.array vs, r)
    | '{' :: rest =>
      match levels with
      | 0 => none
      | levels + 1 =>
        match skipBlanks rest with
        | '}' :: rest => some (.object [], rest)
        | _ => (readMembers? (readValue? levels) (rest.length + 1) rest).map
            fun (ms, r) => (Json.ofMembers ms, r)
    | _ => readNumber? cs

/-- Documents may be nested this deep. -/
def deepestLevel : Nat := 127

def ofText? (s : String) : Option Json :=
  match readValue? deepestLevel (skipBlanks s.toList) with
  | some (v, rest) => if skipBlanks rest = [] then some v else none
  | none => none

end TextTemplate.Json
