import TextTemplate.Fields
import TextTemplate.Text.Blank
import TextTemplate.Text.Line

/-! Bundles of messages as text: a key and a value on each line. -/

namespace TextTemplate.Properties

/-- Blank lines and lines that begin with `#` or `!` hold nothing. -/
def isSkipped : List Char → Bool
  | [] => true
  | c :: _ => c == '#' || c == '!'

/-- A line with the lines that continue it, and the lines after those. A backslash at its end
continues a line; the indentation of the next one does not count. -/
def continued (line : List Char) : List (List Char) → List Char × List (List Char)
  | [] => (if line.getLast? = some '\\' then line.dropLast else line, [])
  | next :: rest =>
    if line.getLast? = some '\\' then continued (line.dropLast ++ Text.trimStart next) rest
    else (line, next :: rest)

theorem continued_length (line : List Char) (rest : List (List Char)) :
    (continued line rest).2.length ≤ rest.length := by
  induction rest generalizing line with
  | nil => simp [continued]
  | cons next rest ih =>
    simp only [continued]
    split
    · exact Nat.le_succ_of_le (ih _)
    · exact Nat.le_refl _

/-- A key and its value, with `=` or `:` between them. -/
def entry (line : List Char) : String × String :=
  let (key, value) := (Text.splitFirst? (fun c => c = '=' ∨ c = ':') line).getD (line, [])
  (String.ofList (Text.trim key), String.ofList (Text.trimStart value))

def entries (lines : List (List Char)) : List (String × String) :=
  match lines with
  | [] => []
  | line :: rest =>
    let begun := Text.trimStart line
    if isSkipped begun then entries rest
    else entry (continued begun rest).1 :: entries (continued begun rest).2
termination_by lines.length
decreasing_by
  · simp
  · have := continued_length (Text.trimStart line) rest
    simp only [List.length_cons]
    omega

/-- The entries of a bundle of messages; the last one of a key counts. -/
def ofText (text : String) : Fields String := Fields.ofPairs (entries (Text.lines text.toList))

end TextTemplate.Properties
