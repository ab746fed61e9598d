import TextTemplate.Calendar.Date
import TextTemplate.Calendar.Digits
import TextTemplate.Decimal.Binary
import TextTemplate.Document.Json.Reader
import TextTemplate.Document.Toml.Basic
import TextTemplate.Text.Line
import TextTemplate.Value.Basic

/-! The values of TOML that are neither tables nor arrays. -/

namespace TextTemplate.Toml

def isGap (c : Char) : Bool := c == ' ' || c == '\t'

def skipGap (cs : List Char) : List Char := cs.dropWhile isGap

/-- Characters that stand in no document, line breaks apart. -/
def isControl (c : Char) : Bool := (c.toNat < 0x20 && c != '\t') || c.toNat == 0x7f

def startsLine (cs : List Char) : Bool := Text.skipLineBreak cs != cs

/-! ### Texts -/

def simpleEscape? : Char → Option Char
  | 'b' => some '\x08'
  | 'e' => some '\x1b'
  | 't' => some '\t'
  | 'n' => some '\n'
  | 'f' => some '\x0c'
  | 'r' => some '\r'
  | '"' => some '"'
  | '\\' => some '\\'
  | _ => none

/-- Reads a code point of `width` digits. -/
def readCode? (width : Nat) (cs : List Char) : Option (Char × List Char) :=
  (Json.readHex? width 0 cs).bind fun (n, rest) =>
    if n.isValidChar then some (Char.ofNat n, rest) else none

/-- Reads what follows a backslash. -/
def readEscape? : List Char → Option (Char × List Char)
  | 'x' :: cs => readCode? 2 cs
  | 'u' :: cs => readCode? 4 cs
  | 'U' :: cs => readCode? 8 cs
  | c :: rest => (simpleEscape? c).map (·, rest)
  | [] => none

/-- Reads a text of one line up to `quote`. Only in escaped texts a backslash says more. At most
`fuel` characters are read. -/
def readLine? (quote : Char) (escaped : Bool) : Nat → List Char → Option (List Char × List Char)
  | 0, _ | _, [] => none
  | fuel + 1, c :: cs =>
    if c = quote then some ([], cs)
    else if c = '\\' ∧ escaped then
      (readEscape? cs).bind fun (e, rest) =>
        (readLine? quote escaped fuel rest).map fun (tail, rest) => (e :: tail, rest)
    else if isControl c then none
    else (readLine? quote escaped fuel cs).map fun (tail, rest) => (c :: tail, rest)

/-- Skips blanks and line breaks. -/
def skipLines : List Char → List Char
  | '\r' :: '\n' :: cs => skipLines cs
  | c :: cs => if isGap c || c == '\n' then skipLines cs else c :: cs
  | [] => []

/-- Reads a text of several lines up to three quotes, of which up to two more may precede them. Line
breaks stay as they are written. -/
def readLines? (quote : Char) (escaped : Bool) : Nat → List Char → Option (List Char × List Char)
  | 0, _ | _, [] => none
  | fuel + 1, c :: cs =>
    let go := readLines? quote escaped fuel
    if c = quote ∧ 3 ≤ ((c :: cs).takeWhile (· = quote)).length then
      let run := ((c :: cs).takeWhile (· = quote)).length
      let extra := min (run - 3) 2
      some (List.replicate extra quote, (c :: cs).drop (extra + 3))
    else if c = '\\' ∧ escaped then
      if startsLine (skipGap cs) then go (skipLines cs)
      else (readEscape? cs).bind fun (e, rest) =>
        (go rest).map fun (tail, rest) => (e :: tail, rest)
    else if isControl c ∧ !startsLine (c :: cs) then none
    else (go cs).map fun (tail, rest) => (c :: tail, rest)

/-- Reads a text of one or of several lines. -/
def readText? (cs : List Char) : Option (String × List Char) :=
  let whole (r : Option (List Char × List Char)) : Option (String × List Char) :=
    r.map fun (cs, rest) => (String.ofList cs, rest)
  match cs with
  | '"' :: '"' :: '"' :: rest => whole (readLines? '"' true rest.length (Text.skipLineBreak rest))
  | '\'' :: '\'' :: '\'' :: rest =>
    whole (readLines? '\'' false rest.length (Text.skipLineBreak rest))
  | '"' :: rest => whole (readLine? '"' true rest.length rest)
  | '\'' :: rest => whole (readLine? '\'' false rest.length rest)
  | _ => none

/-! ### Numbers -/

/-- Digits of a class with single underscores between them. -/
def underscored (p : Char → Bool) (cs : List Char) : Option (List Char) :=
  let groups := Text.pieces (· = '_') cs
  if groups.all fun g => g ≠ [] ∧ g.all p then some groups.flatten else none

def signed (cs : List Char) : Option Bool × List Char :=
  match cs with
  | '-' :: rest => (some true, rest)
  | '+' :: rest => (some false, rest)
  | _ => (none, cs)

/-- Decimal digits without a leading zero. -/
def plainDigits? (cs : List Char) : Option (List Char) :=
  (underscored Char.isDigit cs).filter fun ds => ds.length = 1 ∨ ds.head? ≠ some '0'

def fitting (n : Int) : Option Toml :=
  if Value.leastInt ≤ n ∧ n ≤ Value.greatestInt then some (int n) else none

def digitValue (c : Char) : Nat := (Json.hexValue? c).getD 0

def inBase? (base : Nat) (cs : List Char) : Option Toml :=
  (underscored (fun c => (Json.hexValue? c).any (· < base)) cs).bind fun ds =>
    fitting (ds.foldl (fun n c => base * n + digitValue c) 0 : Nat)

def readInt? (cs : List Char) : Option Toml :=
  match cs with
  | '0' :: 'x' :: rest => inBase? 16 rest
  | '0' :: 'o' :: rest => inBase? 8 rest
  | '0' :: 'b' :: rest => inBase? 2 rest
  | _ =>
    let (sign, ds) := signed cs
    (plainDigits? ds).bind fun ds => (Decimal.readDigits 0 ds).bind fun n =>
      fitting (if sign = some true then -(n : Int) else n)

/-- A float. Only the word for it is infinite, not a number that is too large. -/
def readFloat? (cs : List Char) : Option Toml := do
  let (sign, cs) := signed cs
  let negative := sign == some true
  if cs = "inf".toList then
    some (float (Float64.ofBinary (.infinite negative)))
  else if cs = "nan".toList then some (float (Float64.ofBinary .notANumber))
  else
    let (mantissa, power) := match Text.splitFirst? (fun c => c = 'e' ∨ c = 'E') cs with
      | some (mantissa, power) => (mantissa, some power)
      | none => (cs, none)
    let (whole, fraction) := match Text.splitFirst? (· = '.') mantissa with
      | some (whole, fraction) => (whole, some fraction)
      | none => (mantissa, none)
    if power.isNone && fraction.isNone then none
    else
      let whole ← plainDigits? whole
      let fraction ← match fraction with
        | some fraction => underscored Char.isDigit fraction
        | none => some []
      let exponent ← match power with
        | some power =>
          let (sign, ds) := signed power
          (underscored Char.isDigit ds).bind fun ds => (Decimal.readDigits 0 ds).map fun n =>
            if sign = some true then -(n : Int) else n
        | none => some 0
      let n := (Decimal.readDigits 0 (whole ++ fraction)).getD 0
      match Binary64.ofDecimal negative n ((fraction.length : Int) - exponent) with
      | .infinite _ => none
      | x => some (float (Float64.ofBinary x))

/-! ### Dates and times -/

def readTwo? (most : Nat) (cs : List Char) : Option (Nat × List Char) :=
  (Calendar.readNumber? 2 2 cs).filter (·.1 ≤ most)

def readMark? (c : Char) : List Char → Option (List Char)
  | d :: cs => if c = d then some cs else none
  | [] => none

def readDate? (cs : List Char) : Option (List Char × List Char) := do
  let (year, cs) ← Calendar.readNumber? 4 4 cs
  let cs ← readMark? '-' cs
  let (month, cs) ← readTwo? 12 cs
  let cs ← readMark? '-' cs
  let (day, cs) ← readTwo? 31 cs
  let _ ← Calendar.Date.make? year month day
  let two := Calendar.zeroPadded 2
  some (Calendar.zeroPadded 4 year ++ '-' :: two month ++ '-' :: two day, cs)

/-- The decimals of a second: nine at most, and none at the end that are zero but for the first. -/
def fractionText (ds : List Char) : List Char :=
  match ((ds.take 9).reverse.dropWhile (· = '0')).reverse with
  | [] => ['.', '0']
  | ds => '.' :: ds

/-- Reads the seconds of a time, which may be left out. -/
def readSeconds? : List Char → Option (List Char × List Char)
  | ':' :: cs => do
    let (second, cs) ← readTwo? 60 cs
    let (fraction, cs) ← match cs with
      | '.' :: cs =>
        let ds := cs.takeWhile Char.isDigit
        if ds = [] then none else some (fractionText ds, cs.dropWhile Char.isDigit)
      | _ => some ([], cs)
    some (':' :: Calendar.zeroPadded 2 second ++ fraction, cs)
  | cs => some ([], cs)

def readTime? (cs : List Char) : Option (List Char × List Char) := do
  let (hour, cs) ← readTwo? 23 cs
  let cs ← readMark? ':' cs
  let (minute, cs) ← readTwo? 59 cs
  let (seconds, cs) ← readSeconds? cs
  let two := Calendar.zeroPadded 2
  some (two hour ++ ':' :: two minute ++ seconds, cs)

/-- Reads the offset of a time. Without a distance it has a plus sign. -/
def readOffset? (cs : List Char) : Option (List Char) :=
  match cs with
  | [] => some []
  | ['Z'] | ['z'] => some ['Z']
  | sign :: cs => do
    if sign ≠ '+' ∧ sign ≠ '-' then none
    else
      let (hour, cs) ← readTwo? 23 cs
      let cs ← readMark? ':' cs
      let (minute, cs) ← readTwo? 59 cs
      if cs = [] then
        let sign := if hour = 0 ∧ minute = 0 then '+' else sign
        some (sign :: Calendar.zeroPadded 2 hour ++ ':' :: Calendar.zeroPadded 2 minute)
      else none

def isDateSeparator (c : Char) : Bool := c == 'T' || c == 't' || c == ' '

def readMoment? (cs : List Char) : Option Toml := do
  match readDate? cs with
  | some (date, []) => some (moment (String.ofList date))
  | some (date, c :: rest) =>
    if isDateSeparator c then
      let (time, rest) ← readTime? rest
      let offset ← readOffset? rest
      some (moment (String.ofList (date ++ 'T' :: time ++ offset)))
    else none
  | none =>
    match readTime? cs with
    | some (time, []) => some (moment (String.ofList time))
    | _ => none

/-! ### Words -/

def isWordChar (c : Char) : Bool :=
  c.isAlphanum || c == '_' || c == '+' || c == '-' || c == '.' || c == ':'

/-- The characters that may belong to a number, a date or the like. One space may divide a date
from its time. -/
def word (cs : List Char) : List Char :=
  let first := cs.takeWhile isWordChar
  match cs.dropWhile isWordChar with
  | ' ' :: rest =>
    if (readDate? first).any (·.2 = []) ∧ rest.head?.any Char.isDigit then
      first ++ ' ' :: rest.takeWhile isWordChar
    else first
  | _ => first

def ofWord? (cs : List Char) : Option Toml :=
  if cs = "true".toList then some (bool true)
  else if cs = "false".toList then some (bool false)
  else (readMoment? cs).or ((readInt? cs).or (readFloat? cs))

end TextTemplate.Toml
