import TextTemplate.Text.Blank
import TextTemplate.Text.Name
import TextTemplate.Text.Split
import TextTemplate.Text.Word

/-! The marks of a template text, one reader each. A mark begins with a bracket or a brace and ends
with the one that closes it; whatever no reader accepts is text. -/

namespace TextTemplate

/-- What a marked place in a text says. -/
inductive Mark where
  | comment (ofValue : Bool)
  | value (escape : Option String) (path : String) (rest : Option String)
  /-- The head of a here-document, whose body ends where `marker` stands in braces. -/
  | hereDocument (escape path kind styles : Option String) (marker : String)
  | resource (first : String) (second : Option String)
  | directive (name param : String)
  deriving DecidableEq, Repr

/-- The kinds of marks. Of two that start at one place the earlier kind counts. -/
inductive MarkKind where
  | directiveComment
  | valueComment
  | hereDocument
  | value
  | resource
  | directive
  deriving DecidableEq, Repr

namespace Mark

/-- A name and further segments, with a dot before each. Segments may begin with digits. -/
def isPath (cs : List Char) : Bool :=
  match Text.pieces (· = '.') cs with
  | [] => false
  | first :: others => Text.isName first && others.all fun s => !s.isEmpty && s.all Text.isNameChar

def isStyleChar (c : Char) : Bool := Text.isNameChar c || c == '.' || c == '-'

def isKeyChar (c : Char) : Bool := isStyleChar c || c == '/'

/-- The key of a message or the path of a template, as a resource may name it. -/
def isKey (cs : List Char) : Bool := cs.head?.any Text.isNameChar && cs.all isKeyChar

/-- Splits off an escape style, which ends in a colon. -/
def readStyle (cs : List Char) : Option String × List Char :=
  let name := cs.takeWhile isStyleChar
  match cs.dropWhile isStyleChar with
  | ':' :: rest =>
    if name.head?.any Char.isAlpha then (some (String.ofList name), rest) else (none, cs)
  | _ => (none, cs)

/-- What braces hold up to the next closing one, if no other opens before it. -/
def readBraced (cs : List Char) : Option (List Char × List Char) :=
  (Text.splitFirst? (· = '}') cs).filter fun (inner, _) => !inner.contains '{'

def splitComma? (cs : List Char) : Option (List Char × List Char) := Text.splitFirst? (· = ',') cs

def readComment (opening : List Char) (ofValue : Bool) (closing cs : List Char) :
    Option (Mark × List Char) :=
  (Text.dropLead? opening cs).bind fun cs =>
    (Text.splitAtText? closing cs).map fun (_, rest) => (comment ofValue, rest)

/-- A path, and after a comma anything but braces. -/
def readValue : List Char → Option (Mark × List Char)
  | '{' :: cs =>
    let (escape, cs) := readStyle cs
    (readBraced cs).bind fun (inner, rest) =>
      let (path, extra) := match splitComma? inner with
        | some (path, extra) => (Text.trimEnd path, some (String.ofList extra))
        | none => (inner, none)
      if isPath path then some (value escape (String.ofList path) extra, rest) else none
  | _ => none

/-- The parts of the head of a here-document before its arrows: nothing, or a path, a kind and
styles, with a comma after each. The styles go up to the last comma. -/
def readHead : List Char → Option (Option String × Option String × Option String)
  | [] => some (none, none, none)
  | cs =>
    match (Text.trimEnd cs).reverse with
    | ',' :: before =>
      let (path, kinds) := match splitComma? before.reverse with
        | some (path, kinds) => (path, some kinds)
        | none => (before.reverse, none)
      let (kind, styles) := match kinds.map fun k => (k, splitComma? k) with
        | some (_, some (kind, styles)) => (some (Text.trim kind), some (Text.trim styles))
        | some (kind, none) => (some (Text.trim kind), none)
        | none => (none, none)
      if isPath (Text.trimEnd path) && kind.all Text.isName then
        some (some (String.ofList (Text.trimEnd path)), kind.map String.ofList,
          styles.map String.ofList)
      else none
    | _ => none

def readHereDocument : List Char → Option (Mark × List Char)
  | '{' :: cs =>
    let (escape, cs) := readStyle cs
    (readBraced cs).bind fun (inner, rest) =>
      (Text.splitAtText? ['>', '>'] inner.reverse).bind fun (marker, before) =>
        (readHead before.reverse).bind fun (path, kind, styles) =>
          let marker := Text.trim marker.reverse
          if Text.isName marker then
            some (hereDocument escape path kind styles (String.ofList marker), rest)
          else none
  | _ => none

/-- One key or two. -/
def readResource (cs : List Char) : Option (Mark × List Char) :=
  (Text.dropLead? ['[', '{'] cs).bind fun cs =>
    (Text.splitAtText? ['}', ']'] cs).bind fun (inner, rest) =>
      let (first, second) := match splitComma? inner with
        | some (first, second) => (Text.trim first, some (Text.trim second))
        | none => (Text.trim inner, none)
      if isKey first && second.all isKey then
        some (resource (String.ofList first) (second.map String.ofList), rest)
      else none

/-- Splits at the first closing bracket that stands outside of quotes. -/
def splitBracket? (quoted : Bool) : List Char → Option (List Char × List Char)
  | [] => none
  | c :: cs =>
    if c = ']' ∧ !quoted then some ([], cs)
    else (splitBracket? (if c = '\'' then !quoted else quoted) cs).map fun (a, b) => (c :: a, b)

/-- The name of a directive, which no word character may follow, and its parameter up to the
closing bracket. -/
def readNamed? (name : String) (cs : List Char) : Option (List Char × List Char) :=
  (Text.dropLead? name.toList cs).bind fun cs =>
    if cs.head?.any Text.isWordChar then none
    else (splitBracket? false cs).map fun (param, rest) => (Text.trim param, rest)

def directiveNames : List String :=
  ["if", "loop", "use", "apply", "include", "set", "else", "end"]

def readDirective : List Char → Option (Mark × List Char)
  | '[' :: cs => directiveNames.findSome? fun name =>
    (readNamed? name cs).map fun (param, rest) => (directive name (String.ofList param), rest)
  | _ => none

end Mark

namespace MarkKind

/-- Every kind, in the order in which they count. -/
def all : List MarkKind :=
  [directiveComment, valueComment, hereDocument, value, resource, directive]

/-- The mark of this kind that the text begins with, and what follows it. -/
def read? : MarkKind → List Char → Option (Mark × List Char)
  | directiveComment => Mark.readComment ['[', '*'] false ['*', ']']
  | valueComment => Mark.readComment ['{', '*'] true ['*', '}']
  | hereDocument => Mark.readHereDocument
  | value => Mark.readValue
  | resource => Mark.readResource
  | directive => Mark.readDirective

end MarkKind

end TextTemplate
