import TextTemplate.Document.Yaml.Token
import TextTemplate.Fields

/-! The structure of a document, and reading it from tokens. -/

namespace TextTemplate.Yaml

/-- A value as it is written. Values that others refer to have a number. -/
inductive Node where
  | alias (number : Nat)
  | scalar (number : Option Nat) (tag : Option String) (quoted : Bool) (text : String)
  | sequence (number : Option Nat) (tag : Option String) (items : List Node)
  | mapping (number : Option Nat) (tag : Option String) (pairs : List (Node × Node))

namespace Node

instance : Inhabited Node := ⟨.alias 0⟩

/-- What stands where nothing is written. -/
def empty : Node := .scalar none none false ""

end Node

/-- What is left to read, and the numbers that names have got. -/
structure Reading where
  tokens : List Token
  numbers : Fields Nat

abbrev NodeReader (α : Type) := StateT Reading Option α

namespace NodeReader

def peek : NodeReader (Option Token) := do return (← get).tokens.head?

def skip : NodeReader Unit := modify fun r => { r with tokens := r.tokens.tail }

/-- Reads a value, unless one of `ends` comes first, which stays. -/
def orEmpty (ends : List Token) (node : NodeReader Node) : NodeReader Node := do
  if (← peek).any ends.contains then return .empty else node

/-- Gives a name the number of those known before it. A name that is given again gets a new
number, which the next new name shares. -/
def number (name : String) : NodeReader Nat := do
  let n := (← get).numbers.length
  modify fun r => { r with numbers := r.numbers.set name n }
  return n

/-! ### Names and tags -/

/-- What a tag stands for, given what handles stand for. -/
def expand (handles : Fields String) (tag : TagName) : NodeReader String :=
  if tag.handle = "" then return tag.rest
  else match handles.get? tag.handle with
    | some lead => return lead ++ tag.rest
    | none => failure

def anchor? : NodeReader (Option Nat) := do
  match ← peek with
  | some (.anchor name) => do skip; return some (← number name)
  | _ => return none

def tag? (handles : Fields String) : NodeReader (Option String) := do
  match ← peek with
  | some (.tag name) => do skip; return some (← expand handles name)
  | _ => return none

/-- Reads the name and the tag of a value, in either order. -/
def properties (handles : Fields String) : NodeReader (Option Nat × Option String) := do
  let early ← anchor?
  let tag ← tag? handles
  let late ← if early.isSome || tag.isNone then pure none else anchor?
  return (early.or late, tag)

/-! ### Collections -/

/-- Reads the items of a collection up to its end, each after a dash. -/
def items (node : NodeReader Node) : Nat → NodeReader (List Node)
  | 0 => failure
  | fuel + 1 => do
    match ← peek with
    | some .dash => do
      skip
      let v ← orEmpty [.dash, .blockEnd] node
      return v :: (← items node fuel)
    | some .blockEnd => do skip; return []
    | _ => failure

/-- Reads items that stand no further right than the key they belong to, as long as there are
dashes. -/
def flatItems (node : NodeReader Node) : Nat → NodeReader (List Node)
  | 0 => failure
  | fuel + 1 => do
    match ← peek with
    | some .dash => do
      skip
      let v ← orEmpty [.dash, .key, .colon, .blockEnd] node
      return v :: (← flatItems node fuel)
    | _ => return []

/-- Reads what follows a colon, if there is one. -/
def afterColon (ends : List Token) (node : NodeReader Node) : NodeReader Node := do
  match ← peek with
  | some .colon => do skip; orEmpty ends node
  | _ => return .empty

/-- Reads the pairs of a collection up to its end. -/
def pairs (node : NodeReader Node) : Nat → NodeReader (List (Node × Node))
  | 0 => failure
  | fuel + 1 => do
    let ends := [.key, .colon, .blockEnd]
    match ← peek with
    | some .key => do
      skip
      let k ← orEmpty ends node
      let v ← afterColon ends node
      return (k, v) :: (← pairs node fuel)
    | some .blockEnd => do skip; return []
    | _ => failure

/-- Skips the comma before an entry that is not the first. -/
def separated (first : Bool) : NodeReader Unit := do
  if !first then
    if (← peek) = some .comma then skip else failure

/-- Reads a single pair inside square brackets, after its beginning. A key that is left out takes
the mark with it that stands there instead. -/
def bracketPair (node : NodeReader Node) : NodeReader Node := do
  let missing := (← peek).any [Token.colon, .comma, .closeBracket].contains
  let k ← if missing then do skip; pure .empty else node
  let v ← afterColon [.comma, .closeBracket] node
  return .mapping none none [(k, v)]

/-- Reads the items between square brackets. -/
def bracketItems (node : NodeReader Node) (first : Bool) : Nat → NodeReader (List Node)
  | 0 => failure
  | fuel + 1 => do
    if (← peek) = some .closeBracket then do skip; return []
    separated first
    match ← peek with
    | some .closeBracket => do skip; return []
    | some .key => do
      skip
      let v ← bracketPair node
      return v :: (← bracketItems node false fuel)
    | _ =>
      let v ← node
      return v :: (← bracketItems node false fuel)

/-- Reads the pairs between braces. What no key begins is a key without a value. -/
def bracePairs (node : NodeReader Node) (first : Bool) : Nat → NodeReader (List (Node × Node))
  | 0 => failure
  | fuel + 1 => do
    if (← peek) = some .closeBrace then do skip; return []
    separated first
    match ← peek with
    | some .closeBrace => do skip; return []
    | some .key => do
      skip
      let k ← orEmpty [.colon, .comma, .closeBrace] node
      let v ← afterColon [.comma, .closeBrace] node
      return (k, v) :: (← bracePairs node false fuel)
    | _ =>
      let k ← node
      return (k, .empty) :: (← bracePairs node false fuel)

/-! ### Values -/

/-- Where a value stands, which decides what it may be. -/
inductive Surroundings where
  /-- Inside brackets. -/
  | bracketed
  /-- In lines of its own. -/
  | indented
  /-- A key, or the value of one. -/
  | keyed
  deriving DecidableEq, Repr

/-- The tag of a scalar: a lone mark says that it is no other value than it looks like. -/
def scalarTag (tag : Option String) : Option String := tag.filter (· ≠ "!")

/-- Reads a value that is nested at most `levels` deep, of which `fuel` bounds the entries. -/
def node (handles : Fields String) (fuel : Nat) : Nat → Surroundings → NodeReader Node
  | 0, _ => failure
  | levels + 1, pos => do
    let inner := node handles fuel levels
    match ← peek with
    | some (.alias name) => do
      skip
      match (← get).numbers.get? name with
      | some n => return .alias n
      | none => failure
    | _ =>
      let (name, tag) ← properties handles
      match ← peek, pos with
      | some .dash, .keyed => return .sequence name tag (← flatItems (inner .indented) fuel)
      | some (.scalar quoted text), _ => do
        skip
        return .scalar name (scalarTag tag) quoted text
      | some .openBracket, _ => do
        skip
        return .sequence name tag (← bracketItems (inner .bracketed) true fuel)
      | some .openBrace, _ => do
        skip
        return .mapping name tag (← bracePairs (inner .bracketed) true fuel)
      | some .sequenceStart, .indented | some .sequenceStart, .keyed => do
        skip
        return .sequence name tag (← items (inner .indented) fuel)
      | some .mappingStart, .indented | some .mappingStart, .keyed => do
        skip
        return .mapping name tag (← pairs (inner .keyed) fuel)
      | _, _ => if name.isSome || tag.isSome then return .scalar name tag false "" else failure

/-! ### Documents -/

/-- What handles stand for if no directive says so. -/
def standardHandles : Fields String := [("!", "!"), ("!!", "tag:yaml.org,2002:")]

/-- Reads the directives before a document. None may be repeated. -/
def directives (version : Bool) (handles : Fields String) : Nat → NodeReader (Fields String)
  | 0 => failure
  | fuel + 1 => do
    match ← peek with
    | some (.directive .version) => do
      if version then failure
      skip
      directives true handles fuel
    | some (.directive (.handle name lead)) => do
      if handles.has name then failure
      skip
      directives version (handles.set name lead) fuel
    | _ => return handles ++ standardHandles

def startsDirective : Token → Bool
  | .directive _ => true
  | _ => false

/-- Whether a token begins a document, or divides it from the next. -/
def divides (t : Token) : Bool := startsDirective t || t == .documentStart || t == .documentEnd

/-- Reads what is in a document after the line that begins it. -/
def explicitDocument (fuel : Nat) : NodeReader Node := do
  let handles ← directives false [] fuel
  if (← peek) ≠ some .documentStart then failure
  skip
  if (← peek).all divides then return .empty
  node handles fuel fuel .indented

/-- Reads the only document there is. Nothing may follow it but lines that end it. -/
def document (fuel : Nat) : NodeReader (Option Node) := do
  match ← peek with
  | none => return none
  | some t =>
    let root ← if startsDirective t || t == .documentStart then explicitDocument fuel
      else node standardHandles fuel fuel .indented
    if (← get).tokens.all (· == .documentEnd) then return some root else failure

end NodeReader

/-- The document that the tokens make up; there may be none in them. -/
def Node.ofTokens? (tokens : List Token) : Option (Option Node) :=
  ((NodeReader.document (tokens.length + 1)).run ⟨tokens, []⟩).map (·.1)

end TextTemplate.Yaml
