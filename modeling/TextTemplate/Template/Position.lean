import TextTemplate.Text.Utf8

namespace TextTemplate

/-- A place in a text for human readers. Lines and columns count from one, columns by characters. -/
structure Position where
  line : Nat
  column : Nat
  deriving DecidableEq, Repr

namespace Position

def shown (p : Position) : String := toString p.line ++ ":" ++ toString p.column

/-- The position `offset` bytes into the text `cs`, which stands at `p`, `bytes` bytes into its
line. Inside a character, columns count bytes. -/
def advance (p : Position) (bytes : Nat) : Nat → List Char → Position
  | _, [] => p
  | offset, c :: cs =>
    if offset = 0 then p
    else if offset < c.utf8Size then ⟨p.line, bytes + offset + 1⟩
    else if c = '\n' then advance ⟨p.line + 1, 1⟩ 0 (offset - c.utf8Size) cs
    else advance ⟨p.line, p.column + 1⟩ (bytes + c.utf8Size) (offset - c.utf8Size) cs

/-- The position of a byte. Beyond the end it is that of the end. -/
def ofOffset (text : String) (offset : Nat) : Position := advance ⟨1, 1⟩ 0 offset text.toList

theorem ofOffset_zero (text : String) : ofOffset text 0 = ⟨1, 1⟩ := by
  rw [ofOffset]
  cases text.toList <;> rfl

def lineCount (text : String) : Nat := text.toList.count '\n' + 1

end Position

end TextTemplate
