import TextTemplate.Calendar.Rfc3339
import TextTemplate.Value.Members

namespace TextTemplate.Value

def commaSeparated (parts : List (List Char)) : List Char := List.intercalate [',', ' '] parts

def bracketed (parts : List (List Char)) : List Char := '[' :: commaSeparated parts ++ [']']

def braced (parts : List (List Char)) : List Char := '{' :: commaSeparated parts ++ ['}']

def assigned (name value : List Char) : List Char := name ++ '=' :: value

mutual

/-- A value spelled out, where `scopeText` spells scopes. -/
def spell (scopeText : Scope → List Char) : Value → List Char
  | .null => "null".toList
  | .bool b => (toString b).toList
  | .int n => (toString n.toInt).toList
  | .float x => (Binary64.ofBits x.toBits).text
  | .text s => s.toList
  | .list items => bracketed (spellItems scopeText items)
  | .map fields => braced ((spellFields scopeText fields).map fun (k, t) => assigned k.toList t)
  | .entries pairs => bracketed (spellPairs scopeText pairs)
  | .entry k v => assigned (spell scopeText k) (spell scopeText v)
  | .date t => t.rfc3339
  | .object _ typeName _ _ _ => typeName.toList
  | .collection _ items length =>
    bracketed ((spellFields scopeText items).getAll (positions length) "null".toList)
  | .function _ => "<function>".toList
  | .scope s => scopeText s

def spellItems (scopeText : Scope → List Char) : List Value → List (List Char)
  | [] => []
  | v :: rest => spell scopeText v :: spellItems scopeText rest

def spellFields (scopeText : Scope → List Char) : List (String × Value) → Fields (List Char)
  | [] => []
  | (k, v) :: rest => (k, spell scopeText v) :: spellFields scopeText rest

def spellPairs (scopeText : Scope → List Char) : List (Value × Value) → List (List Char)
  | [] => []
  | (k, v) :: rest =>
    assigned (spell scopeText k) (spell scopeText v) :: spellPairs scopeText rest

end

theorem spellFields_eq_map (scopeText : Scope → List Char) (fields : List (String × Value)) :
    spellFields scopeText fields = fields.map fun (k, v) => (k, spell scopeText v) := by
  induction fields with
  | nil => rfl
  | cons field rest ih =>
    obtain ⟨k, v⟩ := field
    rw [spellFields, ih, List.map_cons]

section
variable (scopeText : Scope → List Char)

@[simp] theorem spell_list (items : List Value) :
    spell scopeText (.list items) = bracketed (spellItems scopeText items) := rfl

@[simp] theorem spell_map (fields : List (String × Value)) :
    spell scopeText (.map fields) =
      braced ((spellFields scopeText fields).map fun (k, t) => assigned k.toList t) := rfl

@[simp] theorem spell_entries (pairs : List (Value × Value)) :
    spell scopeText (.entries pairs) = bracketed (spellPairs scopeText pairs) := rfl

@[simp] theorem spell_entry (k v : Value) :
    spell scopeText (.entry k v) = assigned (spell scopeText k) (spell scopeText v) := rfl

@[simp] theorem spell_collection (identity : Nat) (items : List (String × Value)) (length : Nat) :
    spell scopeText (.collection identity items length) =
      bracketed ((spellFields scopeText items).getAll (positions length) "null".toList) := rfl

@[simp] theorem spell_scope (s : Scope) : spell scopeText (.scope s) = scopeText s := rfl

end

end TextTemplate.Value
