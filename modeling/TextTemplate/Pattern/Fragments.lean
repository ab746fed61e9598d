import TextTemplate.Fields
import TextTemplate.Pattern.Reference

/-! Pattern texts built from named fragments. The fragments of a table refer to one another without
cycles, so each of them has one expansion. The patterns of the marks in templates are written with
such fragments, but reading marks goes through no table: `MarkKind.read?` says for each kind what
its pattern matches when it is expanded. -/

namespace TextTemplate

inductive FragmentError where
  | unknown (name : String)
  | cycle (name : String)
  deriving DecidableEq, Repr

def FragmentError.message : FragmentError → String
  | unknown name => "unknown pattern fragment `" ++ name ++ "`"
  | cycle name => "pattern fragment `" ++ name ++ "` refers to itself"

/-- Named pattern texts that may refer to one another, and the expansions that are known. -/
structure FragmentTable where
  texts : Fields String
  known : Fields (List Char)

namespace FragmentTable

/-- Making a text with the help of the expansions that are known, which may come to be more. -/
abbrev Expansion := Fields (List Char) → Except FragmentError (List Char × Fields (List Char))

/-- Puts every reference's expansion, as a group, in its place. -/
def substitute (expansion : String → Expansion) : List PatternPart → Expansion
  | [], known => .ok ([], known)
  | .char c :: rest, known => do
    let (text, known) ← substitute expansion rest known
    .ok (c :: text, known)
  | .reference name :: rest, known => do
    let (inner, known) ← expansion (String.ofList name) known
    let (text, known) ← substitute expansion rest known
    .ok ("(?:".toList ++ inner ++ ')' :: text, known)

/-- The expansion of a fragment, inside those that are being expanded, of which there are at most
`room` more. -/
def expandName (texts : Fields String) :
    Nat → List String → String → Expansion
  | room, open_, name, known =>
    match known.get? name with
    | some text => .ok (text, known)
    | none =>
      if open_.contains name then .error (.cycle name)
      else match texts.get? name, room with
        | none, _ => .error (.unknown name)
        | some _, 0 => .error (.cycle name)
        | some raw, room + 1 => do
          let (text, known) ← substitute (expandName texts room (name :: open_))
            (PatternPart.ofChars raw.toList) known
          .ok (text, known.set name text)

/-- The expansion of a text, and the table that knows the fragments used in it. -/
def expand (t : FragmentTable) (text : String) : Except FragmentError (String × FragmentTable) := do
  let (text, known) ← substitute (expandName t.texts t.texts.length [])
    (PatternPart.ofChars text.toList) t.known
  .ok (String.ofList text, { t with known })

/-- Expands each of the fragments named. -/
def expandAll (texts : Fields String) :
    List String → Fields (List Char) → Except FragmentError (Fields (List Char))
  | [], known => .ok known
  | name :: rest, known => do
    let (_, known) ← expandName texts texts.length [] name known
    expandAll texts rest known

/-- The table of some fragments, if none of them refers to itself or to an unknown one. The last
text of a name counts. -/
def ofPairs (pairs : List (String × String)) : Except FragmentError FragmentTable := do
  let texts := Fields.ofPairs pairs
  let known ← expandAll texts (pairs.map (·.1)) []
  .ok ⟨texts, known⟩

end FragmentTable

end TextTemplate
