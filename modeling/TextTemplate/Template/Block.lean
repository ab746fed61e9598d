import TextTemplate.Data.Path
import TextTemplate.Escape.Style
import TextTemplate.Format.Basic
import TextTemplate.Memo
import TextTemplate.Parameter.Basic
import TextTemplate.Parameter.Setting
import TextTemplate.Template.Id

/-! Compiled templates are trees of blocks. Templates that others refer to are named by their ids
and found when the output is written; the handle in the block remembers what was found. -/

namespace TextTemplate

/-- How data choose between the two parts of a branch. -/
inductive BranchKind where
  | condition
  | loop
  | use
  deriving DecidableEq, Repr

namespace BranchKind

/-- The name of the directive. -/
def name : BranchKind → String
  | condition => "if"
  | loop => "loop"
  | use => "use"

def ofName? : String → Option BranchKind
  | "if" => some condition
  | "loop" => some loop
  | "use" => some use
  | _ => none

end BranchKind

/-- A handle may stand for the id that it leads to. -/
instance : Coe (Handle TemplateId) TemplateId := ⟨Handle.key⟩

/-- A part of a compiled template. -/
inductive Block where
  /-- Text as it is. Text of a here-document is required even where layout is not. -/
  | text (s : String) (required : Bool)
  /-- The value at a path; the fallback stands in for a missing one. -/
  | value (path : DataPath) (escape : EscapeStyle) (fallback : Option String)
  | typed (path : DataPath) (escape : EscapeStyle) (format : Format)
  | apply (function : DataPath) (out : Option DataPath) (parameters : List Parameter)
  | branch (kind : BranchKind) (path : DataPath) (main otherwise : List Block)
  | inclusion (handle : Handle TemplateId)
  | resource (handle : Handle TemplateId)
  /-- Settings, which have taken effect already. -/
  | set (settings : List Setting)
  | comment (ofValue : Bool)
  /-- The body of a here-document that is a template itself. -/
  | nested (blocks : List Block)
  deriving Repr

/-- A compiled template. Its name is for messages only. -/
structure Template where
  name : String
  blocks : List Block
  deriving Repr

namespace Block

/-- Whether the block writes text that stems from data, or stands for one that does. -/
def isValueProducing : Block → Bool
  | value .. | typed .. | comment true => true
  | _ => false

/-- White space that only lays out the template: it has a line feed and no other text. -/
def isLayout : Block → Bool
  | text s false => s.toList.contains '\n' && s.toList.all Text.isBlank
  | _ => false

mutual

/-- Equality of blocks, where escape styles go by their names, and handles by where they lead. -/
def same : Block → Block → Bool
  | text s r, text s' r' => s == s' && r == r'
  | value p e f, value p' e' f' => p == p' && e.same e' && f == f'
  | typed p e f, typed p' e' f' => p == p' && e.same e' && f == f'
  | apply f o ps, apply f' o' ps' => f == f' && o == o' && ps == ps'
  | branch k p m o, branch k' p' m' o' => k == k' && p == p' && sameAll m m' && sameAll o o'
  | inclusion h, inclusion h' => h.key == h'.key
  | resource h, resource h' => h.key == h'.key
  | set s, set s' => s == s'
  | comment v, comment v' => v == v'
  | nested bs, nested bs' => sameAll bs bs'
  | _, _ => false

def sameAll : List Block → List Block → Bool
  | [], [] => true
  | b :: bs, b' :: bs' => same b b' && sameAll bs bs'
  | _, _ => false

end

mutual

/-- Gives each handle its place in the template of `owner`, counted from `n` on, and says where the
count goes on. -/
def withPlaces (owner : TemplateId) (n : Nat) : Block → Block × Nat
  | inclusion h => (inclusion { h with place := some (owner, n) }, n + 1)
  | resource h => (resource { h with place := some (owner, n) }, n + 1)
  | branch k p main otherwise =>
    let (main, n) := withPlacesAll owner n main
    let (otherwise, n) := withPlacesAll owner n otherwise
    (branch k p main otherwise, n)
  | nested bs =>
    let (bs, n) := withPlacesAll owner n bs
    (nested bs, n)
  | b => (b, n)

def withPlacesAll (owner : TemplateId) (n : Nat) : List Block → List Block × Nat
  | [] => ([], n)
  | b :: rest =>
    let (b, n) := withPlaces owner n b
    let (rest, n) := withPlacesAll owner n rest
    (b :: rest, n)

end

end Block

/-- The template as it is kept for its id: every handle has a place of its own. -/
def Template.withPlaces (owner : TemplateId) (t : Template) : Template :=
  { t with blocks := (Block.withPlacesAll owner 0 t.blocks).1 }

def Template.same (a b : Template) : Bool := Block.sameAll a.blocks b.blocks

end TextTemplate
