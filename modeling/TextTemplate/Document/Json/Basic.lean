import TextTemplate.Decimal.Binary
import TextTemplate.Fields

namespace TextTemplate

/-- A plain document. Numbers are whole numbers or floats; the members of an object have no order
and are kept by name. -/
inductive Json where
  | null
  | bool (b : Bool)
  | int (n : Int)
  | float (x : Float)
  | text (s : String)
  | array (items : List Json)
  | object (members : List (String × Json))

namespace Json

instance : Inhabited Json := ⟨.null⟩

/-- An object with the given members, the last of a repeated name counting. -/
def ofMembers (members : List (String × Json)) : Json :=
  .object (Fields.sorted (Fields.ofPairs members))

def member? (name : String) : Json → Option Json
  | object members => Fields.get? name members
  | _ => none

end Json

end TextTemplate
