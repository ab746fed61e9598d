import TextTemplate.Document.Yaml.Place

/-! Scalars without quotes. -/

namespace TextTemplate.Yaml

/-- Whether the character ends a scalar without quotes inside brackets. -/
def isFlowMark (c : Char) : Bool :=
  c == ',' || c == '[' || c == ']' || c == '\x7b' || c == '\x7d'

/-- The characters up to a blank, a line break, or a mark that ends a scalar. In brackets a colon
before another mark is a mistake. -/
def plainWord? (inBrackets : Bool) : List Char → Option (List Char)
  | [] => some []
  | c :: cs =>
    if isBlank c || isBreak c || (inBrackets && isFlowMark c) then some []
    else if c = ':' ∧ endsWord cs then some []
    else if c = ':' ∧ inBrackets ∧ cs.head?.any (fun d => d == '?' || isFlowMark d) then none
    else (plainWord? inBrackets cs).map (c :: ·)

/-- A scalar without quotes, whether line breaks follow it, and the place behind those. Outside
brackets it goes on as long as its lines begin at column `least` or further right. -/
def readPlain? (inBrackets : Bool) (least : Nat) :
    Nat → Place → Option (List Char × Bool × Place)
  | 0, _ => none
  | fuel + 1, p => do
    let word ← plainWord? inBrackets p.rest
    let (blanks, breaks, q) ← (p.forward word.length).gap? least
    let next ← if q.rest.head? = some '#' then some [] else plainWord? inBrackets q.rest
    if (blanks = [] ∧ breaks = []) ∨ (!inBrackets ∧ q.column < least) ∨ q.isAtDivision ∨
        next = [] then
      some (word, breaks ≠ [], q)
    else
      let (tail, broken, q) ← readPlain? inBrackets least fuel q
      some (word ++ gapText blanks breaks ++ tail, broken, q)

end TextTemplate.Yaml
