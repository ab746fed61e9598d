import TextTemplate.Text.Blank
import TextTemplate.Text.Split

/-! Paths of templates. A path is kept clean: no empty segment, no dots, and no suffix at its end.
-/

namespace TextTemplate

/-- The path of a template: directories and a name. -/
structure SourcePath where
  directories : List String
  name : String
  deriving DecidableEq, Repr

namespace SourcePath

def segments (p : SourcePath) : List String := p.directories ++ [p.name]

/-- The segments without a slash before them. -/
def relative (p : SourcePath) : String := "/".intercalate p.segments

def text (p : SourcePath) : String := "/" ++ p.relative

/-- The directory of the path, with a slash at its end. -/
def directory (p : SourcePath) : String := String.join ("/" :: p.directories.map (· ++ "/"))

def isSlash (c : Char) : Bool := c == '/' || c == '\\'

/-- Adds a segment to those before it, innermost first: nothing and a dot stay where they are, two
dots go up. -/
def enter (above : List (List Char)) (segment : List Char) : List (List Char) :=
  match Text.trim segment with
  | [] | ['.'] => above
  | ['.', '.'] => above.tail
  | name => name :: above

/-- The name without the suffix, unless it is nothing but the suffix. -/
def dropSuffix (suffix name : List Char) : List Char :=
  if suffix ≠ [] ∧ suffix.length < name.length ∧ suffix.isSuffixOf name then
    name.take (name.length - suffix.length)
  else name

/-- The clean path of a text, if it names anything. A backslash is as good as a slash. -/
def clean? (raw suffix : String) : Option SourcePath :=
  match (Text.pieces isSlash raw.toList).foldl enter [] with
  | [] => none
  | name :: above =>
    some ⟨above.reverse.map String.ofList, String.ofList (dropSuffix suffix.toList name)⟩

/-- The text that `target` stands for as seen from the directory of `p`. -/
def sought (p : SourcePath) (target : String) : String :=
  match Text.trimStart target.toList with
  | '/' :: _ => target
  | _ => p.directory ++ target

/-- The path that `target` names as seen from the directory of `p`. -/
def resolve? (p : SourcePath) (target suffix : String) : Option SourcePath :=
  clean? (p.sought target) suffix

end SourcePath

end TextTemplate
