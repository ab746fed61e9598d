import TextTemplate.Text.Blank
import TextTemplate.Text.Split

/-! Locales, and the less specific ones that stand in for them. -/

namespace TextTemplate

/-- A language with its regions and variants. With no parts it is the root of all locales. -/
structure Locale where
  parts : List String
  deriving DecidableEq, Repr

namespace Locale

def root : Locale := ⟨[]⟩

def isRoot (l : Locale) : Bool := l.parts.isEmpty

def tag (l : Locale) : String := "_".intercalate l.parts

/-- How messages show the locale. -/
def shown (l : Locale) : String := if l.isRoot then "root" else l.tag

def isSeparator (c : Char) : Bool := c == '-' || c == '_'

/-- The language is written in small letters and a region of two letters in capitals. -/
def normalPart (i : Nat) (part : String) : String :=
  if i = 0 then part.map Char.toLower
  else if i = 1 ∧ part.utf8ByteSize = 2 then part.map Char.toUpper
  else part

/-- Reads a tag. Blanks around parts and empty parts do not count. -/
def ofText (tag : String) : Locale :=
  let parts := ((Text.pieces isSeparator tag.toList).map Text.trim).filter (· ≠ [])
  ⟨parts.zipIdx.map fun (part, i) => normalPart i (String.ofList part)⟩

/-- The locale and every less specific one, the root last. -/
def fallbacks (l : Locale) : List Locale :=
  (List.range (l.parts.length + 1)).reverse.map fun n => ⟨l.parts.take n⟩

end Locale

end TextTemplate
