import TextTemplate.Store.Basic

/-! What a loop goes through, whatever kind of value it is given. -/

namespace TextTemplate

/-- What a loop goes through. -/
inductive Sequence where
  | nothing
  | single (v : Value)
  | list (items : List Value)
  | pairs (pairs : List (Value × Value))
  | collection (items : List (String × Value)) (length : Nat)
  /-- A scope addressed by position. -/
  | scope (s : Scope)

/-- A value as a sequence. Maps, and scopes that are not addressed by position, give their entries
as pairs; null is empty; any other single value is a sequence of one. -/
def Store.sequence (st : Store) : Value → Sequence
  | .null => .nothing
  | .list items => .list items
  | .entries pairs => .pairs pairs
  | .collection _ items length => .collection items length
  | .map fields => .pairs (fields.map fun (k, v) => (.text k, v))
  | .scope s =>
    if st.isIndexed s then .scope s else .pairs ((st.members s).map fun (k, v) => (.text k, v))
  | v => .single v

namespace Sequence

def length (st : Store) : Sequence → Nat
  | nothing => 0
  | single _ => 1
  | list items => items.length
  | pairs ps => ps.length
  | collection _ length => length
  | scope s =>
    match (st.local? s "size").bind Value.asInt? with
    | some n => n.toInt.toNat
    | none => 0

/-- The item at a position; a pair is an entry. -/
def item? (st : Store) (i : Nat) : Sequence → Option Value
  | nothing => none
  | single v => if i = 0 then some v else none
  | list items => items[i]?
  | pairs ps => Value.pairAt? ps i
  | collection items length => Value.itemAt? items length i
  | scope s => st.local? s (toString i)

/-- What `name` means where the sequence is the scope inside `outer`. -/
def get? (st : Store) (q : Sequence) (outer : Scope) (name : String) : Option Value :=
  (Value.indexedMember? (q.item? st ·) (q.length st) name).or (st.get? outer name)

end Sequence

end TextTemplate
