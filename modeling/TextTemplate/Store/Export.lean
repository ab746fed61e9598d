import TextTemplate.Document.Json.Basic
import TextTemplate.Store.Text

namespace TextTemplate

mutual

/-- A value as a plain document, where `scopeJson` gives scopes and `keyText` the text of keys.
What a document cannot hold is null. -/
def Value.toJson (keyText : Value → String) (scopeJson : Scope → Json) : Value → Json
  | .null | .function _ => .null
  | .bool b => .bool b
  | .int n => .int n.toInt
  | .float x => if x.isFinite then .float x else .null
  | .text s => .text s
  | .date t => .text (String.ofList t.rfc3339)
  | .list items => .array (Value.toJsonItems keyText scopeJson items)
  | .collection _ items length =>
    .array ((Value.toJsonFields keyText scopeJson items).getAll (Value.positions length) .null)
  | .map fields => Json.ofMembers (Value.toJsonFields keyText scopeJson fields)
  | .entries pairs => Json.ofMembers (Value.toJsonPairs keyText scopeJson pairs)
  | .entry k v =>
    Json.ofMembers [("key", k.toJson keyText scopeJson), ("value", v.toJson keyText scopeJson)]
  | .object _ _ _ names props =>
    Json.ofMembers ((Value.toJsonFields keyText scopeJson props).listed names)
  | .scope s => scopeJson s

def Value.toJsonItems (keyText : Value → String) (scopeJson : Scope → Json) :
    List Value → List Json
  | [] => []
  | v :: rest => v.toJson keyText scopeJson :: Value.toJsonItems keyText scopeJson rest

def Value.toJsonFields (keyText : Value → String) (scopeJson : Scope → Json) :
    List (String × Value) → Fields Json
  | [] => []
  | (k, v) :: rest => (k, v.toJson keyText scopeJson) :: Value.toJsonFields keyText scopeJson rest

def Value.toJsonPairs (keyText : Value → String) (scopeJson : Scope → Json) :
    List (Value × Value) → List (String × Json)
  | [] => []
  | (k, v) :: rest =>
    (keyText k, v.toJson keyText scopeJson) :: Value.toJsonPairs keyText scopeJson rest

end

theorem Value.toJsonFields_eq_map (keyText : Value → String) (scopeJson : Scope → Json)
    (fields : List (String × Value)) :
    Value.toJsonFields keyText scopeJson fields =
      fields.map fun (k, v) => (k, v.toJson keyText scopeJson) := by
  induction fields with
  | nil => rfl
  | cons field rest ih =>
    obtain ⟨k, v⟩ := field
    rw [Value.toJsonFields, ih, List.map_cons]

namespace Store

/-- A value as a document, down to scopes `levels` deep. A scope gives its own entries only. -/
def exportTo (st : Store) : Nat → Value → Json
  | 0 => Value.toJson st.text fun _ => .null
  | levels + 1 => Value.toJson st.text fun s =>
    Json.ofMembers ((st.members s).map fun (k, v) => (k, st.exportTo levels v))

/-- A value as a document. One in which a scope stands inside itself has none in a program, and here
the one that `nesting` leaves it. -/
def toJson (st : Store) (v : Value) : Json := st.exportTo (st.nesting true v) v

end Store

end TextTemplate
