import TextTemplate.Data.Path
import TextTemplate.Store.Export
import TextTemplate.Store.Sequence

/-! Reading and writing at paths. Every value on the way becomes a scope inside the one before, so
what is not found further in is looked for further out. -/

namespace TextTemplate

namespace Store

/-- Follows a path: every value on the way becomes a scope inside the one it was found in. Nothing
is found behind null. `look` is how names are looked up in a scope. -/
def follow (look : Scope → String → Option Value) (s : Scope) : List String → Option Value
  | [] => some (.scope s)
  | [last] => look s last
  | name :: rest =>
    match look s name with
    | none | some .null => none
    | some v => follow look (v.toScope s) rest

/-- The value at a path, each name looked up outwards too. -/
def resolve (st : Store) (s : Scope) (p : DataPath) : Option Value := follow st.get? s p.segments

/-- The value at a path of which every scope defines its name itself. -/
def resolveLocal (st : Store) (s : Scope) (p : DataPath) : Option Value :=
  follow st.local? s p.segments

/-- Lays a new overlay over a base and sets it under a name of an overlay. -/
def lay (st : Store) (id : Nat) (name : String) (base : Base) : Nat × Store :=
  let (inner, st) := st.push base
  (inner, st.set id name (.scope (.overlay inner)))

/-- The overlay behind a name of an overlay, and the store that has it. A scope found there that
cannot be written to gets an overlay, and a missing one is made. -/
def enter (st : Store) (id : Nat) (name : String) : Nat × Store :=
  match st.get? (.overlay id) name with
  | none | some .null => st.lay id name (.fresh (.overlay id))
  | some found =>
    match found.toScope (.overlay id) with
    | .overlay inner => (inner, st)
    | s => st.lay id name (.delegate s)

/-- Writes `v` at the path below an overlay, and makes overlays on the way. Nothing is written at
the empty path. -/
def write (st : Store) (id : Nat) (v : Value) : List String → Store
  | [] => st
  | [last] => st.set id last v
  | name :: rest =>
    let (inner, st) := st.enter id name
    st.write inner v rest

end Store

/-- The data of one scope: the scope, and the store that holds what was written. -/
structure Data where
  store : Store
  scope : Scope

namespace Data

def empty : Data := ⟨.empty, .over .null .nowhere⟩

/-- The outermost scope over a value of the store. -/
def ofValue (store : Store) (v : Value) : Data := ⟨store, v.toScope .nowhere⟩

def get? (d : Data) (p : DataPath) : Option Value := d.store.resolve d.scope p

def getLocal? (d : Data) (p : DataPath) : Option Value := d.store.resolveLocal d.scope p

/-- The value at a path, null where there is none. -/
def get (d : Data) (p : DataPath) : Value := (d.get? p).getD .null

/-- The scope over a value inside this one. -/
def child (d : Data) (v : Value) : Data := { d with scope := v.toScope d.scope }

/-- The scope of one turn of a loop inside this one. A pair shows its key. -/
def turn (d : Data) (element : Value) (index size : Nat) : Data :=
  let scope := match element with
    | .entry k v => .turn (some k) v index size d.scope
    | v => .turn none v index size d.scope
  { d with scope }

/-- The data with a scope that can be written to, and the overlay that it is. -/
def writable (d : Data) : Nat × Data :=
  match d.scope with
  | .overlay id => (id, d)
  | s =>
    let (id, store) := d.store.push (.delegate s)
    (id, { store, scope := .overlay id })

def put (d : Data) (p : DataPath) (v : Value) : Data :=
  let (id, d) := d.writable
  { d with store := d.store.write id v p.segments }

/-- Writes unless the scope itself defines the path. Says whether it wrote. -/
def putIfMissing (d : Data) (p : DataPath) (v : Value) : Bool × Data :=
  let (id, d) := d.writable
  if (d.getLocal? p).isSome then (false, d)
  else (true, { d with store := d.store.write id v p.segments })

/-- The scope's own entries as a document. -/
def toJson (d : Data) : Json := d.store.toJson (.scope d.scope)

def members (d : Data) : List (String × Value) := d.store.members d.scope

end Data

end TextTemplate
