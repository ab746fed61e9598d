import TextTemplate.Escape.Literal
import TextTemplate.Escape.LogLine
import TextTemplate.Fields
import TextTemplate.Text.Blank
import TextTemplate.Text.Case

/-! Escape styles go by names whose spelling is forgiving: capitals count for nothing, and neither
does which separators stand between words. -/

namespace TextTemplate

/-- A way to write text so that it stays text in what it is put into. -/
inductive Escaper where
  | plain
  | markup (strict : Bool)
  | literal (language : Escape.LiteralLanguage) (ascii : Bool)
  | percent
  | log (form : Escape.LogForm)
  /-- Between two fixed texts. -/
  | enclosed (opening closing : String)
  deriving DecidableEq, Repr

def Escaper.escape : Escaper → List Char → List Char
  | plain, cs => cs
  | markup strict, cs => Escape.Markup.escape strict cs
  | literal language ascii, cs => Escape.Literal.escape language ascii cs
  | percent, cs => Escape.Percent.escape cs
  | log form, cs => form.escape cs
  | enclosed opening closing, cs => opening.toList ++ cs ++ closing.toList

/-- An escaper under its folded name. -/
structure EscapeStyle where
  name : String
  escaper : Escaper
  deriving Repr

namespace EscapeStyle

def none : EscapeStyle := ⟨"none", .plain⟩

def apply (s : EscapeStyle) (text : String) : String := String.ofList (s.escaper.escape text.toList)

/-- Styles go by their names. -/
def same (a b : EscapeStyle) : Bool := a.name == b.name

def isSeparator (c : Char) : Bool := c == '.' || c == '_' || c == '-' || Text.isBlank c

/-- Folds a name to lower case and each run of separators to one underscore. `separated` says that
an underscore was just written. -/
def foldChars (separated : Bool) : List Char → List Char
  | [] => []
  | c :: cs =>
    if isSeparator c then if separated then foldChars true cs else '_' :: foldChars true cs
    else Text.lowerChar c ++ foldChars false cs

/-- The one spelling that the spellings of a name have in common. -/
def foldName (name : String) : String := String.ofList (foldChars false (Text.trim name.toList))

end EscapeStyle

/-- The styles that can be named. -/
structure EscapeTable where
  styles : Fields EscapeStyle

namespace EscapeTable

def register (t : EscapeTable) (name : String) (e : Escaper) : EscapeTable :=
  let folded := EscapeStyle.foldName name
  ⟨t.styles.set folded ⟨folded, e⟩⟩

def find? (t : EscapeTable) (name : String) : Option EscapeStyle :=
  t.styles.get? (EscapeStyle.foldName name)

def builtins : List (String × Escaper) := [
  ("none", .plain),
  ("html", .markup false),
  ("html_strict", .markup true),
  ("ecma", .literal .ecma false),
  ("ecma_ascii", .literal .ecma true),
  ("java", .literal .java false),
  ("java_ascii", .literal .java true),
  ("json", .literal .json false),
  ("json_ascii", .literal .json true),
  ("url", .percent),
  ("log", .log .standard)]

/-- The table with the styles that are always there. -/
def standard : EscapeTable := builtins.foldl (fun t (name, e) => t.register name e) ⟨[]⟩

/-- The names of the styles that are always there are spelled as they are folded. -/
theorem find?_builtin {name : String} {e : Escaper} (h : (name, e) ∈ builtins) :
    standard.find? name = some ⟨name, e⟩ := by
  have hall : ∀ b ∈ builtins,
      (standard.find? b.1).map (fun style => (style.name, style.escaper)) = some b := by
    decide
  obtain ⟨style, hstyle, heq⟩ := Option.map_eq_some_iff.1 (hall _ h)
  cases heq
  exact hstyle

def names (t : EscapeTable) : List String := t.styles.sorted.map (·.1)

end EscapeTable

/-- A table that remembers the answers it gave, until a style is registered. -/
structure EscapeRegistry where
  table : EscapeTable
  remembered : Fields (Option EscapeStyle)

namespace EscapeRegistry

def standard : EscapeRegistry := ⟨.standard, []⟩

def register (r : EscapeRegistry) (name : String) (e : Escaper) : EscapeRegistry :=
  ⟨r.table.register name e, []⟩

/-- The style of that name, and the registry that remembers it. -/
def resolve (r : EscapeRegistry) (name : String) : Option EscapeStyle × EscapeRegistry :=
  match r.remembered.get? name with
  | some answer => (answer, r)
  | none =>
    let answer := r.table.find? name
    (answer, { r with remembered := r.remembered.set name answer })

end EscapeRegistry

end TextTemplate
