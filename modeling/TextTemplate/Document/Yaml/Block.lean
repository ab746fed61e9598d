import TextTemplate.Document.Yaml.Place

/-! Texts of several lines that a bar or an angle introduces. -/

namespace TextTemplate.Yaml

/-- What becomes of the line breaks at the end of a text. -/
inductive BlockEnding where
  | strip
  | clip
  | keep
  deriving DecidableEq, Repr

/-- What the line that introduces a text says about it. -/
structure BlockHeader where
  folded : Bool
  ending : BlockEnding
  /-- How far the text is indented more than the lines around it. -/
  indentation : Option Nat
  deriving DecidableEq, Repr

namespace BlockHeader

def ending? : Char → Option BlockEnding
  | '-' => some .strip
  | '+' => some .keep
  | _ => none

def indentation? (c : Char) : Option Nat :=
  if '1' ≤ c ∧ c ≤ '9' then some (c.toNat - '0'.toNat) else none

/-- Reads the marks after the first one, in either order, and gives their count. -/
def ofMarks (folded : Bool) : List Char → BlockHeader × Nat
  | a :: cs =>
    match ending? a, indentation? a with
    | some e, _ =>
      match cs.head?.bind indentation? with
      | some n => (⟨folded, e, some n⟩, 2)
      | none => (⟨folded, e, none⟩, 1)
    | none, some n =>
      match cs.head?.bind ending? with
      | some e => (⟨folded, e, some n⟩, 2)
      | none => (⟨folded, .clip, some n⟩, 1)
    | none, none => (⟨folded, .clip, none⟩, 0)
  | [] => (⟨folded, .clip, none⟩, 0)

end BlockHeader

/-- A line of a text without its indentation: what is written in it, its line break, and the empty
lines after it. -/
structure BlockLine where
  text : List Char
  ending : List Char
  empty : List (List Char)

/-- Skips empty lines and the indentation of the line after them. Gives their line breaks and the
greatest indentation seen. Without an indentation given, any number of blanks is skipped. -/
def emptyLines? (indent : Option Nat) : Nat → Place → Option (List (List Char) × Nat × Place)
  | 0, _ => none
  | fuel + 1, p =>
    let spaces := (p.rest.takeWhile (· = ' ')).length
    let p := p.forward (match indent with
      | some n => min spaces (n - p.column)
      | none => spaces)
    if p.rest.head? = some '\t' ∧ indent.all (p.column < ·) then none
    else match p.break? with
      | none => some ([], p.column, p)
      | some (b, next) =>
        (emptyLines? indent fuel next).map fun (bs, most, q) => (b :: bs, max p.column most, q)

/-- The lines from a place on that are indented by `indent`. -/
def blockLines? (indent : Nat) : Nat → Place → Option (List BlockLine × Place)
  | 0, _ => none
  | fuel + 1, p =>
    if p.column ≠ indent ∨ p.rest = [] then some ([], p)
    else
      let text := p.rest.takeWhile (!isBreak ·)
      let p := p.forward text.length
      let (ending, p) := p.break?.getD ([], p)
      (emptyLines? (some indent) (p.rest.length + 1) p).bind fun (empty, _, p) =>
        (blockLines? indent fuel p).map fun (ls, p) => (⟨text, ending, empty⟩ :: ls, p)

/-- Joins lines. `pending` and `empty` are the line break of the line before and those of the empty
lines after it. A folded text turns a single line break between lines that no blank begins into a
blank, and leaves the first of several out. -/
def joinLines (h : BlockHeader) :
    (blankBefore : Bool) → (pending : List Char) → (empty : List Char) → List BlockLine → List Char
  | _, pending, empty, [] =>
    match h.ending with
    | .strip => []
    | .clip => pending
    | .keep => pending ++ empty
  | blankBefore, pending, empty, l :: ls =>
    let blank := l.text.head?.any isBlank
    let join :=
      if h.folded ∧ pending = ['\n'] ∧ !blankBefore ∧ !blank then
        if empty = [] then [' '] else []
      else pending
    join ++ empty ++ l.text ++ joinLines h blank l.ending l.empty.flatten ls

/-- Reads a text from the mark that introduces it. `around` is the indentation of the lines around
it, if they have one. -/
def readBlock? (around : Option Nat) (p : Place) : Option (List Char × Place) := do
  let (h, n) := BlockHeader.ofMarks (p.rest.head? = some '>') p.rest.tail
  let p ← (p.forward (n + 1)).lineEnd?
  let p := p.skipBreak
  let least := (around.map (· + 1)).getD 0
  let given := h.indentation.map (around.getD 0 + ·)
  let (empty, most, p) ← emptyLines? given (p.rest.length + 1) p
  let indent := given.getD (max (max most least) 1)
  let (ls, p) ← blockLines? indent (p.rest.length + 1) p
  some (joinLines h false [] empty.flatten ls, p)

end TextTemplate.Yaml
