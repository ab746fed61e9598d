import TextTemplate.Document.Yaml.Layout
import TextTemplate.Document.Yaml.Node
import TextTemplate.Document.Yaml.Scalar

/-! Reading YAML documents. References are replaced by what they refer to, so a document that is
read has none. -/

namespace TextTemplate.Yaml

namespace Node

mutual

/-- The values that others may refer to, with their numbers, in the order in which they begin. -/
def numbered : Node → List (Nat × Node)
  | .alias _ => []
  | v@(.scalar n _ _ _) => n.toList.map (·, v)
  | v@(.sequence n _ items) => n.toList.map (·, v) ++ numberedItems items
  | v@(.mapping n _ pairs) => n.toList.map (·, v) ++ numberedPairs pairs

def numberedItems : List Node → List (Nat × Node)
  | [] => []
  | v :: rest => numbered v ++ numberedItems rest

def numberedPairs : List (Node × Node) → List (Nat × Node)
  | [] => []
  | (k, v) :: rest => numbered k ++ numbered v ++ numberedPairs rest

end

mutual

/-- The number of marks that a value takes: one for a scalar or a reference, two for the ends of a
collection. -/
def size : Node → Nat
  | .alias _ | .scalar .. => 1
  | .sequence _ _ items => 2 + sizeItems items
  | .mapping _ _ pairs => 2 + sizePairs pairs

def sizeItems : List Node → Nat
  | [] => 0
  | v :: rest => size v + sizeItems rest

def sizePairs : List (Node × Node) → Nat
  | [] => 0
  | (k, v) :: rest => size k + size v + sizePairs rest

end

end Node

/-- What the references of a document are replaced from. -/
structure References where
  /-- The values with their numbers. Of those with the same number the first one here counts. -/
  values : List (Nat × Node)
  /-- So many references may be replaced. -/
  most : Nat

namespace References

def ofNode (root : Node) : References := ⟨root.numbered.reverse, 100 * root.size⟩

/-- Counts the references that have been replaced. -/
abbrev Replacing := StateT Nat Option

/-- What a value stands for, if it is a reference. -/
def resolve (r : References) : Node → Replacing Node
  | .alias n => do
    let count ← get
    if r.most ≤ count then failure
    set (count + 1)
    (r.values.lookup n).elim failure pure
  | v => pure v

/-- The text of a key, which no tag changes. -/
def keyText (r : References) (k : Node) : Replacing String := do
  match ← r.resolve k with
  | .scalar _ _ _ text => pure text
  | _ => failure

/-- Whether a collection may carry the tag. -/
def suitsCollection (tag : Option String) : Bool := tag.all (Kind.ofTag · ≠ .custom)

/-- The value of a node that is nested at most `levels` deep. -/
def value (r : References) : Nat → Node → Replacing Json
  | levels, v => do
    match ← r.resolve v, levels with
    | .scalar _ tag quoted text, _ => (scalarValue? tag quoted text).elim failure pure
    | .sequence _ tag items, levels + 1 =>
      if suitsCollection tag then return .array (← items.mapM (value r levels)) else failure
    | .mapping _ tag pairs, levels + 1 =>
      if suitsCollection tag then
        return Json.ofMembers (← pairs.mapM fun (k, v) => do
          return (← r.keyText k, ← value r levels v))
      else failure
    | _, _ => failure

end References

/-- Documents may be nested this deep. -/
def deepestLevel : Nat := 128

/-- The value of a node with its references replaced. -/
def Node.value? (root : Node) : Option Json :=
  (((References.ofNode root).value deepestLevel root).run 0).map (·.1)

/-- The value of the document in a text, if it can be read. Without a document it is null. -/
def ofText? (s : String) : Option Json := do
  match ← Node.ofTokens? (← tokens? s.toList) with
  | none => some .null
  | some root => root.value?

end TextTemplate.Yaml
