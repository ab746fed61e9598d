import TextTemplate.Proofs.Value.Plain
import TextTemplate.Proofs.Value.Positions

/-! Two values that are the same, but for the scopes inside them. Names mean the same inside both,
but for scopes again. -/

namespace TextTemplate

mutual

/-- The two values are the same, but that scopes inside them may be others that `R` relates. -/
inductive Value.SameBut (R : Scope → Scope → Prop) : Value → Value → Prop where
  | plain {v : Value} : v.Plain → SameBut R v v
  | list {items items' : List Value} : SameItems R items items' →
      SameBut R (.list items) (.list items')
  | map {fields fields' : List (String × Value)} : SameFields R fields fields' →
      SameBut R (.map fields) (.map fields')
  | entries {pairs pairs' : List (Value × Value)} : SamePairs R pairs pairs' →
      SameBut R (.entries pairs) (.entries pairs')
  | entry {k k' v v' : Value} : SameBut R k k' → SameBut R v v' →
      SameBut R (.entry k v) (.entry k' v')
  | object {identity : Nat} {typeName : String} {isRecord : Bool} {names : List String}
      {props props' : List (String × Value)} : SameFields R props props' →
      SameBut R (.object identity typeName isRecord names props)
        (.object identity typeName isRecord names props')
  | collection {identity length : Nat} {items items' : List (String × Value)} :
      SameFields R items items' →
      SameBut R (.collection identity items length) (.collection identity items' length)
  | scope {s s' : Scope} : R s s' → SameBut R (.scope s) (.scope s')

inductive Value.SameItems (R : Scope → Scope → Prop) : List Value → List Value → Prop where
  | nil : SameItems R [] []
  | cons {v v' : Value} {items items' : List Value} : SameBut R v v' → SameItems R items items' →
      SameItems R (v :: items) (v' :: items')

inductive Value.SameFields (R : Scope → Scope → Prop) :
    List (String × Value) → List (String × Value) → Prop where
  | nil : SameFields R [] []
  | cons {name : String} {v v' : Value} {fields fields' : List (String × Value)} :
      SameBut R v v' → SameFields R fields fields' →
      SameFields R ((name, v) :: fields) ((name, v') :: fields')

inductive Value.SamePairs (R : Scope → Scope → Prop) :
    List (Value × Value) → List (Value × Value) → Prop where
  | nil : SamePairs R [] []
  | cons {k k' v v' : Value} {pairs pairs' : List (Value × Value)} : SameBut R k k' →
      SameBut R v v' → SamePairs R pairs pairs' → SamePairs R ((k, v) :: pairs) ((k', v') :: pairs')

end

namespace Value
variable {R : Scope → Scope → Prop} {v v' own own' : Value} {items items' : List Value}
  {fields fields' : List (String × Value)} {pairs pairs' : List (Value × Value)} {name : String}

mutual

/-- Without scopes inside them, the values are the same altogether. -/
theorem SameBut.eq_of_plain {v' : Value} (v : Value) (h : SameBut R v v') (hv : v.inside = []) :
    v' = v := by
  cases v with
  | list items =>
    cases h with
    | plain => rfl
    | list h => rw [SameItems.eq_of_plain items h hv]
  | map fields =>
    cases h with
    | plain => rfl
    | map h => rw [SameFields.eq_of_plain fields h hv]
  | entries pairs =>
    cases h with
    | plain => rfl
    | entries h => rw [SamePairs.eq_of_plain pairs h hv]
  | entry k v =>
    cases h with
    | plain => rfl
    | entry hk hv' =>
      obtain ⟨hkey, hvalue⟩ := List.append_eq_nil_iff.1 hv
      rw [SameBut.eq_of_plain k hk hkey, SameBut.eq_of_plain v hv' hvalue]
  | object identity typeName isRecord names props =>
    cases h with
    | plain => rfl
    | object h => rw [SameFields.eq_of_plain props h hv]
  | collection identity items length =>
    cases h with
    | plain => rfl
    | collection h => rw [SameFields.eq_of_plain items h hv]
  | scope => cases hv
  | null | bool | int | float | text | date | function =>
    cases h
    rfl

theorem SameItems.eq_of_plain {items' : List Value} (items : List Value)
    (h : SameItems R items items') (hitems : insideItems items = []) : items' = items := by
  cases items with
  | nil =>
    cases h
    rfl
  | cons v rest =>
    cases h with
    | cons hv h =>
      obtain ⟨hfirst, hrest⟩ := List.append_eq_nil_iff.1 hitems
      rw [SameBut.eq_of_plain v hv hfirst, SameItems.eq_of_plain rest h hrest]

theorem SameFields.eq_of_plain {fields' : List (String × Value)} (fields : List (String × Value))
    (h : SameFields R fields fields') (hfields : insideFields fields = []) : fields' = fields := by
  cases fields with
  | nil =>
    cases h
    rfl
  | cons field rest =>
    obtain ⟨name, v⟩ := field
    cases h with
    | cons hv h =>
      obtain ⟨hfirst, hrest⟩ := List.append_eq_nil_iff.1 hfields
      rw [SameBut.eq_of_plain v hv hfirst, SameFields.eq_of_plain rest h hrest]

theorem SamePairs.eq_of_plain {pairs' : List (Value × Value)} (pairs : List (Value × Value))
    (h : SamePairs R pairs pairs') (hpairs : insidePairs pairs = []) : pairs' = pairs := by
  cases pairs with
  | nil =>
    cases h
    rfl
  | cons pair rest =>
    obtain ⟨k, v⟩ := pair
    cases h with
    | cons hk hv h =>
      obtain ⟨hfirst, hrest⟩ := List.append_eq_nil_iff.1 hpairs
      obtain ⟨hkey, hvalue⟩ := List.append_eq_nil_iff.1 hfirst
      rw [SameBut.eq_of_plain k hk hkey, SameBut.eq_of_plain v hv hvalue,
        SamePairs.eq_of_plain rest h hrest]

end

theorem SameBut.eq_null_iff (h : SameBut R v v') : v = .null ↔ v' = .null := by
  cases h with
  | plain => exact Iff.rfl
  | _ => exact ⟨nofun, nofun⟩

namespace SameItems

theorem length_eq (h : SameItems R items items') : items'.length = items.length := by
  induction items generalizing items' with
  | nil =>
    cases h
    rfl
  | cons v rest ih =>
    cases h with
    | cons _ h => rw [List.length_cons, List.length_cons, ih h]

theorem getElem? (h : SameItems R items items') (i : Nat) :
    Option.Rel (SameBut R) items[i]? items'[i]? := by
  induction items generalizing items' i with
  | nil =>
    cases h
    exact .none
  | cons v rest ih =>
    cases h with
    | cons hv h =>
      cases i with
      | zero => exact .some hv
      | succ i => exact ih h i

end SameItems

/-- The pairs as values. -/
theorem SamePairs.entries (h : SamePairs R pairs pairs') :
    SameItems R (pairs.map fun (k, v) => entry k v) (pairs'.map fun (k, v) => entry k v) := by
  induction pairs generalizing pairs' with
  | nil =>
    cases h
    exact .nil
  | cons pair rest ih =>
    cases h with
    | cons hk hv h => exact .cons (.entry hk hv) (ih h)

namespace SameFields

theorem names_eq (h : SameFields R fields fields') :
    fields'.map (·.1) = fields.map (·.1) := by
  induction fields generalizing fields' with
  | nil =>
    cases h
    rfl
  | cons field rest ih =>
    cases h with
    | cons _ h => rw [List.map_cons, List.map_cons, ih h]

theorem get? (h : SameFields R fields fields') (name : String) :
    Option.Rel (SameBut R) (Fields.get? name fields) (Fields.get? name fields') := by
  induction fields generalizing fields' with
  | nil =>
    cases h
    exact .none
  | cons field rest ih =>
    cases h with
    | @cons other _ _ _ _ hv h =>
      by_cases hname : other = name
      · simpa [Fields.get?, hname] using Option.Rel.some hv
      · simpa [Fields.get?, hname] using ih h

theorem has_eq (h : SameFields R fields fields') (name : String) :
    Fields.has name fields' = Fields.has name fields := by
  rw [Bool.eq_iff_iff, Fields.has_iff_mem, Fields.has_iff_mem, h.names_eq]

/-- The same fields are listed. -/
theorem names_listed_eq (h : SameFields R fields fields') (names : List String) :
    (Fields.listed names fields').map (·.1) = (Fields.listed names fields).map (·.1) := by
  rw [Fields.names_listed, Fields.names_listed]
  exact List.filter_congr fun name _ => h.has_eq name

end SameFields

/-- A size is counted from the same number. -/
theorem sameBut_sizeMember? (name : String) (n : Nat) :
    Option.Rel (SameBut R) (sizeMember? name n) (sizeMember? name n) := by
  cases hsize : sizeMember? name n with
  | none => exact .none
  | some v => exact .some (.plain (inside_sizeMember? hsize))

theorem sameBut_indexedMember? {item item' : Nat → Option Value} {n : Nat}
    (hitem : ∀ i, Option.Rel (SameBut R) (item i) (item' i)) (name : String) :
    Option.Rel (SameBut R) (indexedMember? item n name) (indexedMember? item' n name) := by
  unfold indexedMember?
  split
  · exact hitem _
  · exact sameBut_sizeMember? name n

theorem sameBut_or {a a' b b' : Option Value} (ha : Option.Rel (SameBut R) a a')
    (hb : Option.Rel (SameBut R) b b') : Option.Rel (SameBut R) (a.or b) (a'.or b') := by
  cases ha with
  | none => exact hb
  | some h => exact .some h

/-- What a name means inside a value. -/
theorem SameBut.member? (h : SameBut R own own') (name : String) :
    Option.Rel (SameBut R) (own.member? name) (own'.member? name) := by
  cases h with
  | plain hown =>
    cases hv : own.member? name with
    | none => exact .none
    | some v => exact .some (.plain (hown.member? hv))
  | list h =>
    rw [Value.member?, Value.member?, h.length_eq]
    exact sameBut_indexedMember? h.getElem? name
  | map h =>
    have hlength := congrArg List.length h.names_eq
    rw [List.length_map, List.length_map] at hlength
    rw [Value.member?, Value.member?, hlength]
    exact sameBut_or (h.get? name) (sameBut_sizeMember? name _)
  | entries h =>
    have hlength := h.entries.length_eq
    rw [List.length_map, List.length_map] at hlength
    have hpair (pairs : List (Value × Value)) (i : Nat) :
        pairAt? pairs i = (pairs.map fun (k, v) => Value.entry k v)[i]? := List.getElem?_map.symm
    rw [Value.member?, Value.member?, hlength]
    refine sameBut_indexedMember? (fun i => ?_) name
    rw [hpair, hpair]
    exact h.entries.getElem? i
  | entry hk hv =>
    exact sameBut_or (SameFields.get? (.cons hk (.cons hv .nil)) name)
      (sameBut_sizeMember? name 2)
  | object h => exact h.get? name
  | @collection _ length _ _ h =>
    refine sameBut_indexedMember? (fun i => ?_) name
    unfold itemAt?
    split
    · exact h.get? _
    · exact .none
  | scope => exact .none

/-- The names of the entries of a value. -/
theorem SameBut.names_members (h : SameBut R own own') :
    own'.members.map (·.1) = own.members.map (·.1) := by
  cases h with
  | plain | scope => rfl
  | list h => rw [members, members, names_numbered, names_numbered, h.length_eq]
  | map h => exact h.names_eq
  | entries h =>
    rw [members, members, names_numbered, names_numbered, h.entries.length_eq]
  | entry => rfl
  | object h => exact h.names_listed_eq _
  | collection h => exact h.names_listed_eq _

end Value

end TextTemplate
