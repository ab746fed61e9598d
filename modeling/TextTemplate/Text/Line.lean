import TextTemplate.Text.Split

namespace TextTemplate.Text

/-- The rest after the line break that the text begins with, if it does. -/
def skipLineBreak : List Char → List Char
  | '\r' :: '\n' :: rest => rest
  | '\n' :: rest => rest
  | cs => cs

theorem skipLineBreak_eq_append (cs : List Char) : ∃ lead, cs = lead ++ skipLineBreak cs := by
  unfold skipLineBreak
  split
  · exact ⟨['\r', '\n'], rfl⟩
  · exact ⟨['\n'], rfl⟩
  · exact ⟨[], rfl⟩

/-- A carriage return before a line feed belongs to the line break. -/
def dropCarriageReturn (line : List Char) : List Char :=
  if line.getLast? = some '\r' then line.dropLast else line

/-- The lines of a text. A line break at the end begins no further line. -/
def lines (cs : List Char) : List (List Char) :=
  let parts := pieces (· = '\n') cs
  let last := (parts.getLast?.getD [])
  parts.dropLast.map dropCarriageReturn ++ (if last = [] then [] else [last])

end TextTemplate.Text
