import TextTemplate.Document.Json.Reader
import TextTemplate.Document.Yaml.Place

/-! Scalars in quotes, which may go on in further lines. -/

namespace TextTemplate.Yaml

def simpleEscape? : Char → Option Char
  | '0' => some '\x00'
  | 'a' => some '\x07'
  | 'b' => some '\x08'
  | 't' | '\t' => some '\t'
  | 'n' => some '\n'
  | 'v' => some '\x0b'
  | 'f' => some '\x0c'
  | 'r' => some '\r'
  | 'e' => some '\x1b'
  | ' ' => some ' '
  | '"' => some '"'
  | '/' => some '/'
  | '\\' => some '\\'
  | 'N' => some '\u0085'
  | '_' => some '\u00a0'
  | 'L' => some '\u2028'
  | 'P' => some '\u2029'
  | _ => none

/-- Reads a code point of `width` digits after its letter. Gives it with the count of characters
that it takes. -/
def readCode? (width : Nat) (cs : List Char) : Option (Char × Nat) :=
  (Json.readHex? width 0 cs).bind fun (n, _) =>
    if n.isValidChar then some (Char.ofNat n, width + 1) else none

/-- Reads what follows a backslash. -/
def readEscape? : List Char → Option (Char × Nat)
  | 'x' :: cs => readCode? 2 cs
  | 'u' :: cs => readCode? 4 cs
  | 'U' :: cs => readCode? 8 cs
  | c :: _ => (simpleEscape? c).map (·, 1)
  | [] => none

/-- Reads a scalar up to its closing quote. In single quotes only a doubled quote is special; in
double quotes a backslash escapes a character, or a line break, which then stands for nothing. -/
def readQuoted? (quote : Char) : Nat → Place → Option (List Char × Place)
  | 0, _ => none
  | fuel + 1, p =>
    let go (text : List Char) (p : Place) : Option (List Char × Place) :=
      (readQuoted? quote fuel p).map fun (tail, p) => (text ++ tail, p)
    if p.isAtDivision then none
    else match p.rest with
      | [] => none
      | c :: cs =>
        if isBlank c || isBreak c then
          (p.gap? 0).bind fun (blanks, breaks, p) => go (gapText blanks breaks) p
        else if c = '\'' ∧ quote = '\'' ∧ cs.head? = some '\'' then go ['\''] (p.forward 2)
        else if c = quote then some ([], p.forward 1)
        else if c = '\\' ∧ quote = '"' then
          match (p.forward 1).break? with
          | some (_, p) => (p.gap? 0).bind fun (_, breaks, p) => go breaks.flatten p
          | none => (readEscape? cs).bind fun (e, n) => go [e] (p.forward (n + 1))
        else go [c] (p.forward 1)

end TextTemplate.Yaml
