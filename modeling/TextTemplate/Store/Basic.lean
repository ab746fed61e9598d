import TextTemplate.Value.Members

/-! Names are looked up in a scope and then in the scopes outside it. Writing never changes what was
given: it lays an overlay over a scope, and all overlays are kept in a store, in the order in which
they were made. An overlay stands only over older ones, which is why every lookup ends. -/

namespace TextTemplate

/-- What an overlay reads through to. -/
inductive Base where
  /-- A scope whose entries the overlay may replace. -/
  | delegate (s : Scope)
  /-- Nothing of its own: a new scope inside `outer`. -/
  | fresh (outer : Scope)

/-- A scope that was written to: the values set, in front of what they were set over. -/
structure Overlay where
  overrides : Fields Value
  base : Base

/-- All overlays made so far; a later one may stand over an earlier one, never the reverse. -/
structure Store where
  overlays : Array Overlay

/-- One more than the newest overlay that looking names up in the scope can reach, apart from
values found there; zero if it reaches none. -/
def Scope.rank : Scope → Nat
  | .nowhere => 0
  | .over _ outer => outer.rank
  | .host _ _ => 0
  | .turn _ _ _ _ outer => outer.rank
  | .overlay id => id + 1

/-- The number of scopes passed on the way out, up to the first overlay. -/
def Scope.depth : Scope → Nat
  | .nowhere => 0
  | .over _ outer => outer.depth + 1
  | .host _ _ => 0
  | .turn _ _ _ _ outer => outer.depth + 1
  | .overlay _ => 0

def Base.scope : Base → Scope
  | .delegate s => s
  | .fresh outer => outer

def Base.rank (b : Base) : Nat := b.scope.rank

/-- What lies outside an overlay, given its base and everything outside that. -/
def Base.outside (b : Base) (chain : List Scope) : List Scope :=
  match b with
  | .delegate _ => chain.tail
  | .fresh _ => chain

/-- The entries of one turn of a loop. -/
def turnMembers (key : Option Value) (value : Value) (index size : Nat) : List (String × Value) :=
  ("value", value) :: (key.map fun k => ("key", k)).toList
    ++ [("index", Value.ofNat index), ("size", Value.ofNat size)]

namespace Store

def empty : Store := ⟨#[]⟩

def overlay? (st : Store) (id : Nat) : Option Overlay := st.overlays[id]?

/-- The number of overlays made so far, which is also the id of the next. -/
def size (st : Store) : Nat := st.overlays.size

/-- Adds an overlay with nothing set yet. -/
def push (st : Store) (base : Base) : Nat × Store :=
  (st.size, ⟨st.overlays.push ⟨[], base⟩⟩)

/-- Sets a name in an overlay. -/
def set (st : Store) (id : Nat) (name : String) (v : Value) : Store :=
  ⟨st.overlays.modify id fun o => { o with overrides := o.overrides.set name v }⟩

@[simp] theorem size_push (st : Store) (base : Base) : (st.push base).2.size = st.size + 1 := by
  simp [push, size]

@[simp] theorem size_set (st : Store) (id : Nat) (name : String) (v : Value) :
    (st.set id name v).size = st.size := by
  simp [set, size]

theorem overlay?_push (st : Store) (base : Base) (id : Nat) :
    (st.push base).2.overlay? id = if id = st.size then some ⟨[], base⟩ else st.overlay? id :=
  Array.getElem?_push

theorem overlay?_set (st : Store) (id other : Nat) (name : String) (v : Value) :
    (st.set id name v).overlay? other =
      if id = other then
        (st.overlay? other).map fun o => { o with overrides := o.overrides.set name v }
      else st.overlay? other := by
  simp only [set, overlay?, Array.getElem?_modify]

theorem lt_size {st : Store} {id : Nat} {o : Overlay} (h : st.overlay? id = some o) :
    id < st.size := (Array.getElem?_eq_some_iff.1 h).1

theorem overlay?_of_lt {st : Store} {id : Nat} (h : id < st.size) :
    ∃ o, st.overlay? id = some o := ⟨_, Array.getElem?_eq_getElem h⟩

/-- Every overlay stands over what was there before it. -/
def Ordered (st : Store) : Prop :=
  ∀ id o, st.overlay? id = some o → o.base.rank ≤ id

/-- The entries that the scope itself has, in order. In an overlay the entries it stands over come
first, without those whose names were set; all names that were set follow. -/
def members (st : Store) : Scope → List (String × Value)
  | .nowhere => []
  | .over own _ => own.members
  | .host _ own => own.members
  | .turn key value index size _ => turnMembers key value index size
  | .overlay id =>
    match st.overlay? id with
    | none => []
    | some o =>
      let below := match o.base with
        | .delegate s => if _h : s.rank ≤ id then members st s else []
        | .fresh _ => []
      below.filter (fun (k, _) => !o.overrides.has k) ++ o.overrides
termination_by s => s.rank
decreasing_by simp only [Scope.rank]; omega

/-- What `name` means in the scope itself. A size that an overlay does not really hold counts the
entries as they are now. -/
def local? (st : Store) : Scope → String → Option Value
  | .nowhere, _ => none
  | .over own _, name => own.member? name
  | .host _ own, name => own.member? name
  | .turn key value index size _, name => Fields.get? name (turnMembers key value index size)
  | .overlay id, name =>
    match st.overlay? id with
    | none => none
    | some o =>
      match o.overrides.get? name with
      | some v => some v
      | none =>
        let counted := Value.sizeMember? name (st.members (.overlay id)).length
        match o.base with
        | .fresh _ => counted
        | .delegate s =>
          if _h : s.rank ≤ id then
            match local? st s name with
            | none => none
            | some v =>
              if Value.isSizeName name && !Fields.has name (st.members s) then counted else some v
          else none
termination_by s => s.rank
decreasing_by simp only [Scope.rank]; omega

/-- The scope and everything outside it, innermost first. An overlay has outside it what the scope
it stands over has. -/
def chain (st : Store) : Scope → List Scope
  | .nowhere => []
  | .over own outer => .over own outer :: chain st outer
  | .host identity own => [.host identity own]
  | .turn key value index size outer => .turn key value index size outer :: chain st outer
  | .overlay id =>
    .overlay id :: match st.overlay? id with
      | none => []
      | some o => if _h : o.base.rank ≤ id then o.base.outside (chain st o.base.scope) else []
termination_by s => (s.rank, s.depth)
decreasing_by
  · exact Prod.Lex.right _ (by simp only [Scope.depth]; omega)
  · exact Prod.Lex.right _ (by simp only [Scope.depth]; omega)
  · exact Prod.Lex.left _ _ (by simp only [Scope.rank, Base.rank] at *; omega)

/-- What `name` means in the scope: the answer of the innermost scope that defines it. -/
def get? (st : Store) (s : Scope) (name : String) : Option Value :=
  (st.chain s).findSome? (st.local? · name)

/-- Whether the scope is addressed by position. -/
def isIndexed (st : Store) : Scope → Bool
  | .over own _ => own.isIndexed
  | .host _ own => own.isIndexed
  | .overlay id =>
    match st.overlay? id with
    | some ⟨_, .delegate s⟩ => if _h : s.rank ≤ id then isIndexed st s else false
    | _ => false
  | _ => false
termination_by s => s.rank
decreasing_by simp only [Scope.rank]; omega

end Store

/-- The scope over a value that was found in `outer`. Scopes stand for themselves. -/
def Value.toScope (v : Value) (outer : Scope) : Scope :=
  match v with
  | .scope s => s
  | own => .over own outer

end TextTemplate
