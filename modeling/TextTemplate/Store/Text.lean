import TextTemplate.Store.Basic
import TextTemplate.Value.Text

namespace TextTemplate

mutual

/-- The scopes that stand inside a value, those inside other scopes with them. -/
def Value.inside : Value → List Scope
  | .list items => Value.insideItems items
  | .map fields => Value.insideFields fields
  | .entries pairs => Value.insidePairs pairs
  | .entry k v => k.inside ++ v.inside
  | .object _ _ _ _ props => Value.insideFields props
  | .collection _ items _ => Value.insideFields items
  | .scope s => s :: s.inside
  | _ => []

def Scope.inside : Scope → List Scope
  | .over own outer => own.inside ++ outer.inside
  | .host _ own => own.inside
  | .turn (some k) v _ _ outer => k.inside ++ v.inside ++ outer.inside
  | .turn none v _ _ outer => v.inside ++ outer.inside
  | _ => []

def Value.insideItems : List Value → List Scope
  | [] => []
  | v :: rest => v.inside ++ Value.insideItems rest

def Value.insideFields : List (String × Value) → List Scope
  | [] => []
  | (_, v) :: rest => v.inside ++ Value.insideFields rest

def Value.insidePairs : List (Value × Value) → List Scope
  | [] => []
  | (k, v) :: rest => k.inside ++ v.inside ++ Value.insidePairs rest

end

mutual

/-- The scopes that are met while a value is shown, those inside other scopes left out. Whether host
objects show their properties depends on `props`. -/
def Value.scopes (props : Bool) : Value → List Scope
  | .list items => Value.scopesItems props items
  | .map fields => (Value.scopesFields props fields).flatMap (·.2)
  | .entries pairs => Value.scopesPairs props pairs
  | .entry k v => k.scopes props ++ v.scopes props
  | .object _ _ _ names fields =>
    if props then ((Value.scopesFields props fields).listed names).flatMap (·.2) else []
  | .collection _ items length =>
    ((Value.scopesFields props items).listed (Value.positions length)).flatMap (·.2)
  | .scope s => [s]
  | _ => []

def Value.scopesItems (props : Bool) : List Value → List Scope
  | [] => []
  | v :: rest => v.scopes props ++ Value.scopesItems props rest

def Value.scopesFields (props : Bool) : List (String × Value) → Fields (List Scope)
  | [] => []
  | (k, v) :: rest => (k, v.scopes props) :: Value.scopesFields props rest

def Value.scopesPairs (props : Bool) : List (Value × Value) → List Scope
  | [] => []
  | (k, v) :: rest => k.scopes props ++ v.scopes props ++ Value.scopesPairs props rest

end

theorem Value.scopesFields_eq_map (props : Bool) (fields : List (String × Value)) :
    Value.scopesFields props fields = fields.map fun (k, v) => (k, v.scopes props) := by
  induction fields with
  | nil => rfl
  | cons field rest ih =>
    obtain ⟨k, v⟩ := field
    rw [Value.scopesFields, ih, List.map_cons]

namespace Store

/-- The scopes that stand inside what the store holds. -/
def inside (st : Store) : List Scope :=
  st.overlays.toList.flatMap fun o => Value.insideFields o.overrides ++ o.base.scope.inside

/-- Whether scopes stand at most `levels` deep inside one another in `v`. -/
def ends (st : Store) (props : Bool) : Nat → Value → Bool
  | 0, v => (v.scopes props).isEmpty
  | levels + 1, v =>
    (v.scopes props).all fun s => (st.members s).all fun (_, w) => st.ends props levels w

/-- How deep `v` is shown. That is as deep as any scopes can stand inside one another, unless one
stands inside itself: then `v` is shown without its scopes. A program that shows such a value does
not come to an end, so the text and the document that it has here stand for none. -/
def nesting (st : Store) (props : Bool) (v : Value) : Nat :=
  let bound := (v.inside ++ st.inside).length
  if st.ends props bound v then bound else 0

/-- A value spelled out, down to scopes `levels` deep. An indexed scope looks like a list, any other
like a map. -/
def spell (st : Store) : Nat → Value → List Char
  | 0 => Value.spell fun _ => []
  | levels + 1 => Value.spell fun s =>
    if st.isIndexed s then Value.bracketed ((st.members s).map fun (_, v) => st.spell levels v)
    else Value.braced ((st.members s).map fun (k, v) => Value.assigned k.toList (st.spell levels v))

theorem spell_succ (st : Store) (levels : Nat) :
    st.spell (levels + 1) = Value.spell fun s =>
      if st.isIndexed s then Value.bracketed ((st.members s).map fun (_, v) => st.spell levels v)
      else Value.braced
        ((st.members s).map fun (k, v) => Value.assigned k.toList (st.spell levels v)) := rfl

/-- How a value is shown to a reader of data. -/
def display (st : Store) (v : Value) : String := String.ofList (st.spell (st.nesting false v) v)

/-- The text that a value contributes to the output: nothing for null. -/
def text (st : Store) : Value → String
  | .null => ""
  | .text s => s
  | v => st.display v

end Store

end TextTemplate
