import TextTemplate.Text.Name
import TextTemplate.Text.Split

namespace TextTemplate

/-- A part of a pattern text: characters as they are, or a percent sign and a name in braces that
stands for a fragment. -/
inductive PatternPart where
  | char (c : Char)
  | reference (name : List Char)
  deriving DecidableEq, Repr

namespace PatternPart

/-- The name that a percent sign is followed by, and the rest after it. -/
def readName? : List Char → Option (List Char × List Char)
  | '{' :: cs =>
    let name := cs.takeWhile Text.isNameChar
    match cs.dropWhile Text.isNameChar with
    | '}' :: rest => if Text.isName name then some (name, rest) else none
    | _ => none
  | _ => none

theorem readName?_length {cs name rest : List Char} (h : readName? cs = some (name, rest)) :
    rest.length < cs.length := by
  unfold readName? at h
  split at h
  · rename_i inner
    simp only at h
    split at h
    · rename_i hd
      split at h
      · cases h
        have := (List.dropWhile_suffix (l := inner) Text.isNameChar).length_le
        rw [hd] at this
        simp only [List.length_cons] at *
        omega
      · cases h
    · cases h
  · cases h

/-- The parts of a pattern text. What is no reference stands for itself. -/
def ofChars (cs : List Char) : List PatternPart :=
  match cs with
  | [] => []
  | '%' :: cs =>
    match _h : readName? cs with
    | some (name, rest) => reference name :: ofChars rest
    | none => char '%' :: ofChars cs
  | c :: cs => char c :: ofChars cs
termination_by cs.length
decreasing_by
  · have := readName?_length _h
    simp only [List.length_cons]
    omega
  · simp only [List.length_cons]
    omega
  · simp only [List.length_cons]
    omega

end PatternPart

end TextTemplate
