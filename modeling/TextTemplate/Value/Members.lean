import TextTemplate.Value.Basic

/-! The names and positions that a value answers by itself, without any scope around it. -/

namespace TextTemplate.Value

/-- The names that every keyed or indexed scope answers, though it holds no such entries. -/
def isSizeName (name : String) : Bool := name == "size" || name == "isEmpty"

def sizeMember? (name : String) (length : Nat) : Option Value :=
  if name = "size" then some (ofNat length)
  else if name = "isEmpty" then some (bool (length == 0))
  else none

def indexedMember? (item : Nat → Option Value) (length : Nat) (name : String) : Option Value :=
  match readIndex? name with
  | some i => item i
  | none => sizeMember? name length

def pairAt? (pairs : List (Value × Value)) (i : Nat) : Option Value :=
  pairs[i]?.map fun (k, v) => entry k v

/-- The names of the positions below a length. -/
def positions (length : Nat) : List String := (List.range length).map toString

/-- The item of a collection at a position. It is asked for none beyond its length. -/
def itemAt? (items : List (String × Value)) (length i : Nat) : Option Value :=
  if i < length then Fields.get? (toString i) items else none

/-- The names of its properties in the order in which a host object lists them. -/
def propertyNames (isRecord : Bool) (names : List String) : List String :=
  if isRecord then names else names.mergeSort fun a b => decide (a ≤ b)

def entryFields (key value : Value) : List (String × Value) := [("key", key), ("value", value)]

/-- What `name` means inside the value itself. -/
def member? (name : String) : Value → Option Value
  | map fields => (Fields.get? name fields).or (sizeMember? name fields.length)
  | entry k v => (Fields.get? name (entryFields k v)).or (sizeMember? name 2)
  | list items => indexedMember? (items[·]?) items.length name
  | entries pairs => indexedMember? (pairAt? pairs) pairs.length name
  | collection _ items length => indexedMember? (itemAt? items length) length name
  | object _ _ _ _ props => Fields.get? name props
  | text s =>
    if name = "length" then some (ofNat s.length)
    else if name = "isEmpty" then some (bool (s == ""))
    else none
  | _ => none

def numbered (items : List Value) : List (String × Value) :=
  items.zipIdx.map fun (v, i) => (toString i, v)

/-- The entries of the value itself, in order. -/
def members : Value → List (String × Value)
  | map fields => fields
  | entry k v => entryFields k v
  | list items => numbered items
  | entries pairs => numbered (pairs.map fun (k, v) => entry k v)
  | collection _ items length => Fields.listed (positions length) items
  | object _ _ isRecord names props => Fields.listed (propertyNames isRecord names) props
  | _ => []

/-- Whether the value is addressed by position rather than by name. -/
def isIndexed : Value → Bool
  | list _ | entries _ | collection .. => true
  | _ => false

end TextTemplate.Value
