import TextTemplate.Document.Json.Basic
import TextTemplate.Value.Basic

namespace TextTemplate.Value

mutual

/-- A plain document as a value. Whole numbers beyond 64 bits become floats. -/
def ofJson : Json → Value
  | .null => .null
  | .bool b => .bool b
  | .int n =>
    if leastInt ≤ n ∧ n ≤ greatestInt then .int (Int64.ofInt n) else .float (Float64.ofInt n)
  | .float x => .float x
  | .text s => .text s
  | .array items => .list (ofJsonItems items)
  | .object members => .map (ofJsonMembers members)

def ofJsonItems : List Json → List Value
  | [] => []
  | j :: rest => ofJson j :: ofJsonItems rest

def ofJsonMembers : List (String × Json) → List (String × Value)
  | [] => []
  | (k, j) :: rest => (k, ofJson j) :: ofJsonMembers rest

end

end TextTemplate.Value
