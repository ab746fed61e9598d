/-! Text between the quotes of a literal in a programming language, and text as one part of an
address. -/

namespace TextTemplate.Escape

/-- The languages whose text literals are written. -/
inductive LiteralLanguage where
  | ecma
  | java
  | json
  deriving DecidableEq, Repr

namespace LiteralLanguage

def name : LiteralLanguage → String
  | ecma => "ecma"
  | java => "java"
  | json => "json"

/-- The letter or sign that stands for the character after a backslash. -/
def shortEscape? (l : LiteralLanguage) (c : Char) : Option Char :=
  if c = '\\' then some '\\'
  else if c = '"' then some '"'
  else if c = '\x08' then some 'b'
  else if c = '\x0c' then some 'f'
  else if c = '\n' then some 'n'
  else if c = '\r' then some 'r'
  else if c = '\t' then some 't'
  else if c = '\'' ∧ l ≠ json then some '\''
  else if c = '`' ∧ l = ecma then some '`'
  else if c = '\x0b' ∧ l = ecma then some 'v'
  else if c = '/' ∧ l = json then some '/'
  else none

end LiteralLanguage

namespace Literal

/-- The digits of `n` in capitals, at least `width` of them. -/
def hexText (width n : Nat) : List Char :=
  let ds := (Nat.toDigits 16 n).map Char.toUpper
  List.replicate (width - ds.length) '0' ++ ds

/-- A code unit: backslash, `u` and four digits. -/
def unitText (n : Nat) : List Char := '\\' :: 'u' :: hexText 4 n

/-- The two code units of a character beyond the first plane. -/
def surrogates (n : Nat) : Nat × Nat :=
  (0xd800 + (n - 0x10000) / 0x400, 0xdc00 + (n - 0x10000) % 0x400)

def isUnprintable (n : Nat) : Bool := n < 0x20 || n == 0x7f || n == 0x2028 || n == 0x2029

def charText (l : LiteralLanguage) (ascii : Bool) (c : Char) : List Char :=
  match l.shortEscape? c with
  | some e => ['\\', e]
  | none =>
    let n := c.toNat
    if isUnprintable n then unitText n
    else if !ascii || n < 0x80 then [c]
    else if n < 0x10000 then unitText n
    else if l = .ecma then '\\' :: 'u' :: '{' :: hexText 1 n ++ ['}']
    else
      let (high, low) := surrogates n
      unitText high ++ unitText low

/-- Text as it stands between the quotes of a literal, in its own characters or in ASCII alone. -/
def escape (l : LiteralLanguage) (ascii : Bool) (cs : List Char) : List Char :=
  cs.flatMap (charText l ascii)

end Literal

end TextTemplate.Escape

namespace TextTemplate.Escape.Percent

/-- Letters, digits and `-`, `.`, `_`, `~` need no escaping in an address. -/
def isUnreserved (c : Char) : Bool :=
  c.isAlphanum || c == '-' || c == '.' || c == '_' || c == '~'

def byteText (b : UInt8) : List Char :=
  let digit (n : Nat) : Char := Char.ofNat (if n < 10 then 48 + n else 55 + n)
  ['%', digit (b.toNat / 16), digit (b.toNat % 16)]

def charText (c : Char) : List Char :=
  if isUnreserved c then [c] else (String.utf8EncodeChar c).flatMap byteText

/-- Text as one part of an address: each byte that is not unreserved as a percent sign and two
digits. -/
def escape (cs : List Char) : List Char := cs.flatMap charText

end TextTemplate.Escape.Percent
