import TextTemplate.Format.Basic
import TextTemplate.Proofs.Store.Reach
import TextTemplate.Store.Export

/-! Overlays are told apart by their numbers, and that is all the numbers are for. Whatever is asked
of a value whose overlays are numbered higher, the answer is the same, numbered higher. -/

namespace TextTemplate

mutual

/-- The value with all its overlays numbered `k` higher. -/
def Value.renumber (k : Nat) : Value → Value
  | .list items => .list (Value.renumberItems k items)
  | .map fields => .map (Value.renumberFields k fields)
  | .entries pairs => .entries (Value.renumberPairs k pairs)
  | .entry key v => .entry (key.renumber k) (v.renumber k)
  | .object identity typeName isRecord names props =>
    .object identity typeName isRecord names (Value.renumberFields k props)
  | .collection identity items length => .collection identity (Value.renumberFields k items) length
  | .scope s => .scope (s.renumber k)
  | v => v

def Scope.renumber (k : Nat) : Scope → Scope
  | .nowhere => .nowhere
  | .over own outer => .over (own.renumber k) (outer.renumber k)
  | .host identity own => .host identity (own.renumber k)
  | .turn (some key) v index size outer =>
    .turn (some (key.renumber k)) (v.renumber k) index size (outer.renumber k)
  | .turn none v index size outer => .turn none (v.renumber k) index size (outer.renumber k)
  | .overlay id => .overlay (id + k)

def Value.renumberItems (k : Nat) : List Value → List Value
  | [] => []
  | v :: rest => v.renumber k :: Value.renumberItems k rest

def Value.renumberFields (k : Nat) : List (String × Value) → List (String × Value)
  | [] => []
  | (name, v) :: rest => (name, v.renumber k) :: Value.renumberFields k rest

def Value.renumberPairs (k : Nat) : List (Value × Value) → List (Value × Value)
  | [] => []
  | (key, v) :: rest => (key.renumber k, v.renumber k) :: Value.renumberPairs k rest

end

namespace Value
variable {k : Nat}

theorem renumberItems_eq_map (items : List Value) :
    renumberItems k items = items.map (renumber k) := by
  induction items with
  | nil => rfl
  | cons v rest ih => rw [renumberItems, ih, List.map_cons]

theorem renumberFields_eq_map (fields : List (String × Value)) :
    renumberFields k fields = fields.map fun (name, v) => (name, v.renumber k) := by
  induction fields with
  | nil => rfl
  | cons field rest ih =>
    obtain ⟨name, v⟩ := field
    rw [renumberFields, ih, List.map_cons]

theorem renumberPairs_eq_map (pairs : List (Value × Value)) :
    renumberPairs k pairs = pairs.map fun (key, v) => (key.renumber k, v.renumber k) := by
  induction pairs with
  | nil => rfl
  | cons pair rest ih =>
    obtain ⟨key, v⟩ := pair
    rw [renumberPairs, ih, List.map_cons]

mutual

/-- Nothing changes in a value without overlays, or if no number does. -/
theorem renumber_eq_self (v : Value) (h : 0 < v.reach → k = 0) : v.renumber k = v := by
  cases v with
  | list items => rw [renumber, renumberItems_eq_self items h]
  | map fields => rw [renumber, renumberFields_eq_self fields h]
  | entries pairs => rw [renumber, renumberPairs_eq_self pairs h]
  | entry key v =>
    rw [reach] at h
    rw [renumber, renumber_eq_self key fun hpos => h (by omega),
      renumber_eq_self v fun hpos => h (by omega)]
  | object identity typeName isRecord names props => rw [renumber, renumberFields_eq_self props h]
  | collection identity items length => rw [renumber, renumberFields_eq_self items h]
  | scope s => rw [renumber, scope_renumber_eq_self s h]
  | null | bool | int | float | text | date | function => rfl

theorem scope_renumber_eq_self (s : Scope) (h : 0 < s.reach → k = 0) : s.renumber k = s := by
  cases s with
  | «over» own outer =>
    rw [Scope.reach] at h
    rw [Scope.renumber, renumber_eq_self own fun hpos => h (by omega),
      scope_renumber_eq_self outer fun hpos => h (by omega)]
  | host identity own => rw [Scope.renumber, renumber_eq_self own h]
  | turn key v index size outer =>
    cases key with
    | none =>
      rw [Scope.reach] at h
      rw [Scope.renumber, renumber_eq_self v fun hpos => h (by omega),
        scope_renumber_eq_self outer fun hpos => h (by omega)]
    | some key =>
      rw [Scope.reach] at h
      rw [Scope.renumber, renumber_eq_self key fun hpos => h (by omega),
        renumber_eq_self v fun hpos => h (by omega),
        scope_renumber_eq_self outer fun hpos => h (by omega)]
  | nowhere => rfl
  | overlay id =>
    rw [Scope.renumber, h (Nat.succ_pos id)]
    rfl

theorem renumberItems_eq_self (items : List Value) (h : 0 < reachItems items → k = 0) :
    renumberItems k items = items := by
  cases items with
  | nil => rfl
  | cons v rest =>
    rw [reachItems] at h
    rw [renumberItems, renumber_eq_self v fun hpos => h (by omega),
      renumberItems_eq_self rest fun hpos => h (by omega)]

theorem renumberFields_eq_self (fields : List (String × Value))
    (h : 0 < reachFields fields → k = 0) : renumberFields k fields = fields := by
  cases fields with
  | nil => rfl
  | cons field rest =>
    obtain ⟨name, v⟩ := field
    rw [reachFields] at h
    rw [renumberFields, renumber_eq_self v fun hpos => h (by omega),
      renumberFields_eq_self rest fun hpos => h (by omega)]

theorem renumberPairs_eq_self (pairs : List (Value × Value)) (h : 0 < reachPairs pairs → k = 0) :
    renumberPairs k pairs = pairs := by
  cases pairs with
  | nil => rfl
  | cons pair rest =>
    obtain ⟨key, v⟩ := pair
    rw [reachPairs] at h
    rw [renumberPairs, renumber_eq_self key fun hpos => h (by omega),
      renumber_eq_self v fun hpos => h (by omega),
      renumberPairs_eq_self rest fun hpos => h (by omega)]

end

section
variable (v : Value) (name : String)

@[simp] theorem isNull_renumber : (v.renumber k).isNull = v.isNull := by cases v <;> rfl

@[simp] theorem isTruthy_renumber : (v.renumber k).isTruthy = v.isTruthy := by cases v <;> rfl

@[simp] theorem isIndexed_renumber : (v.renumber k).isIndexed = v.isIndexed := by cases v <;> rfl

@[simp] theorem asInt?_renumber : (v.renumber k).asInt? = v.asInt? := by cases v <;> rfl

@[simp] theorem asDecimal?_renumber : (v.renumber k).asDecimal? = v.asDecimal? := by
  cases v <;> rfl

@[simp] theorem asWhole?_renumber : (v.renumber k).asWhole? = v.asWhole? := by cases v <;> rfl

@[simp] theorem asInstant?_renumber : (v.renumber k).asInstant? = v.asInstant? := by
  cases v <;> rfl

@[simp] theorem renumber_ofNat (n : Nat) : (ofNat n).renumber k = ofNat n := by
  unfold ofNat
  split <;> rfl

theorem get?_renumberFields (fields : List (String × Value)) :
    Fields.get? name (renumberFields k fields) = (Fields.get? name fields).map (renumber k) := by
  rw [renumberFields_eq_map, Fields.get?_map]

theorem has_renumberFields (fields : List (String × Value)) :
    Fields.has name (renumberFields k fields) = Fields.has name fields := by
  rw [Fields.has, Fields.has, get?_renumberFields, Option.isSome_map]

theorem renumberFields_append (fields others : List (String × Value)) :
    renumberFields k (fields ++ others) = renumberFields k fields ++ renumberFields k others := by
  rw [renumberFields_eq_map, renumberFields_eq_map, renumberFields_eq_map, List.map_append]

theorem filter_renumberFields (p : String → Bool) (fields : List (String × Value)) :
    (renumberFields k fields).filter (fun (name, _) => p name) =
      renumberFields k (fields.filter fun (name, _) => p name) := by
  rw [renumberFields_eq_map, renumberFields_eq_map, List.filter_map]
  rfl

theorem map_renumberFields {β : Type} (f : String → Value → β) (fields : List (String × Value)) :
    (renumberFields k fields).map (fun (name, v) => f name v) =
      fields.map fun (name, v) => f name (v.renumber k) := by
  rw [renumberFields_eq_map, List.map_map]
  rfl

/-- The entries of a map as pairs. -/
theorem map_text_renumberFields (fields : List (String × Value)) :
    (renumberFields k fields).map (fun (name, v) => (text name, v)) =
      renumberPairs k (fields.map fun (name, v) => (text name, v)) := by
  rw [map_renumberFields fun name v => (text name, v), renumberPairs_eq_map, List.map_map]
  rfl

theorem set_renumberFields (fields : List (String × Value)) :
    Fields.set name (v.renumber k) (renumberFields k fields) =
      renumberFields k (Fields.set name v fields) := by
  induction fields with
  | nil => rfl
  | cons field rest ih =>
    obtain ⟨other, w⟩ := field
    simp only [renumberFields, Fields.set]
    split
    · rfl
    · rw [ih, renumberFields]

@[simp] theorem length_renumberFields (fields : List (String × Value)) :
    (renumberFields k fields).length = fields.length := by
  rw [renumberFields_eq_map, List.length_map]

theorem map_sizeMember? (length : Nat) :
    (sizeMember? name length).map (renumber k) = sizeMember? name length := by
  unfold sizeMember?
  split
  · rw [Option.map_some, renumber_ofNat]
  · split <;> rfl

theorem indexedMember?_renumber {item item' : Nat → Option Value}
    (h : ∀ i, item' i = (item i).map (renumber k)) (length : Nat) :
    indexedMember? item' length name = (indexedMember? item length name).map (renumber k) := by
  unfold indexedMember?
  split
  · exact h _
  · exact (map_sizeMember? name length).symm

theorem pairAt?_renumber (pairs : List (Value × Value)) (i : Nat) :
    pairAt? (renumberPairs k pairs) i = (pairAt? pairs i).map (renumber k) := by
  rw [pairAt?, pairAt?, renumberPairs_eq_map, List.getElem?_map, Option.map_map, Option.map_map]
  rfl

theorem itemAt?_renumber (items : List (String × Value)) (length i : Nat) :
    itemAt? (renumberFields k items) length i = (itemAt? items length i).map (renumber k) := by
  unfold itemAt?
  split
  · exact get?_renumberFields _ items
  · rfl

theorem listed_renumberFields (names : List String) (fields : List (String × Value)) :
    Fields.listed names (renumberFields k fields) =
      renumberFields k (Fields.listed names fields) := by
  rw [renumberFields_eq_map, renumberFields_eq_map, Fields.listed_map]

theorem getElem?_renumberItems (items : List Value) (i : Nat) :
    (renumberItems k items)[i]? = items[i]?.map (renumber k) := by
  rw [renumberItems_eq_map, List.getElem?_map]

/-- What a name means inside a value. -/
theorem member?_renumber (own : Value) :
    (own.renumber k).member? name = (own.member? name).map (renumber k) := by
  cases own with
  | map fields =>
    simp only [renumber, member?, get?_renumberFields, length_renumberFields]
    rw [Option.map_or, map_sizeMember?]
  | entry key v =>
    have hfields : entryFields (key.renumber k) (v.renumber k) =
      renumberFields k (entryFields key v) := rfl
    simp only [renumber, member?, hfields, get?_renumberFields]
    rw [Option.map_or, map_sizeMember?]
  | list items =>
    rw [renumber, member?, member?, renumberItems_eq_map, List.length_map, ← renumberItems_eq_map]
    exact indexedMember?_renumber name (getElem?_renumberItems items) _
  | entries pairs =>
    rw [renumber, member?, member?, renumberPairs_eq_map, List.length_map, ← renumberPairs_eq_map]
    exact indexedMember?_renumber name (pairAt?_renumber pairs) _
  | collection identity items length =>
    exact indexedMember?_renumber name (itemAt?_renumber items length) length
  | object identity typeName isRecord names props => exact get?_renumberFields name props
  | text s =>
    simp only [renumber, member?]
    split
    · rw [Option.map_some, renumber_ofNat]
    · split <;> rfl
  | null | bool | int | float | date | function | scope => rfl

theorem numbered_renumber (items : List Value) :
    numbered (items.map (renumber k)) = renumberFields k (numbered items) := by
  rw [numbered, numbered, renumberFields_eq_map, List.zipIdx_map, List.map_map, List.map_map]
  rfl

/-- The entries of a value. -/
theorem members_renumber (own : Value) :
    (own.renumber k).members = renumberFields k own.members := by
  cases own with
  | list items => rw [renumber, members, members, renumberItems_eq_map, numbered_renumber]
  | entries pairs =>
    rw [renumber, members, members, renumberPairs_eq_map, ← numbered_renumber, List.map_map,
      List.map_map]
    rfl
  | collection identity items length => exact listed_renumberFields _ items
  | object identity typeName isRecord names props => exact listed_renumberFields _ props
  | map | entry | null | bool | int | float | text | date | function | scope => rfl

theorem toScope_renumber (outer : Scope) :
    (v.renumber k).toScope (outer.renumber k) = (v.toScope outer).renumber k := by
  cases v <;> rfl

end

/-- Scopes by name, with their overlays numbered higher. -/
theorem flatMap_scopes_map (fields : Fields (List Scope)) :
    (fields.map fun (name, ss) => (name, ss.map (Scope.renumber k))).flatMap (·.2) =
      (fields.flatMap (·.2)).map (Scope.renumber k) := by
  rw [List.flatMap_map, List.map_flatMap]

mutual

/-- The scopes that are met while a value is shown. -/
theorem scopes_renumber (props : Bool) (v : Value) :
    (v.renumber k).scopes props = (v.scopes props).map (Scope.renumber k) := by
  cases v with
  | list items => exact scopesItems_renumber props items
  | map fields => rw [renumber, scopes, scopes, scopesFields_renumber, flatMap_scopes_map]
  | entries pairs => exact scopesPairs_renumber props pairs
  | entry key v =>
    rw [renumber, scopes, scopes, scopes_renumber props key, scopes_renumber props v,
      List.map_append]
  | object identity typeName isRecord names fields =>
    rw [renumber, scopes, scopes]
    split
    · rw [scopesFields_renumber, Fields.listed_map, flatMap_scopes_map]
    · rfl
  | collection identity items length =>
    rw [renumber, scopes, scopes, scopesFields_renumber, Fields.listed_map, flatMap_scopes_map]
  | scope | null | bool | int | float | text | date | function => rfl

theorem scopesItems_renumber (props : Bool) (items : List Value) :
    scopesItems props (renumberItems k items) =
      (scopesItems props items).map (Scope.renumber k) := by
  cases items with
  | nil => rfl
  | cons v rest =>
    rw [renumberItems, scopesItems, scopesItems, scopes_renumber props v,
      scopesItems_renumber props rest, List.map_append]

theorem scopesFields_renumber (props : Bool) (fields : List (String × Value)) :
    scopesFields props (renumberFields k fields) =
      (scopesFields props fields).map fun (name, ss) => (name, ss.map (Scope.renumber k)) := by
  cases fields with
  | nil => rfl
  | cons field rest =>
    obtain ⟨name, v⟩ := field
    rw [renumberFields, scopesFields, scopesFields, scopes_renumber props v,
      scopesFields_renumber props rest, List.map_cons]

theorem scopesPairs_renumber (props : Bool) (pairs : List (Value × Value)) :
    scopesPairs props (renumberPairs k pairs) =
      (scopesPairs props pairs).map (Scope.renumber k) := by
  cases pairs with
  | nil => rfl
  | cons pair rest =>
    obtain ⟨key, v⟩ := pair
    rw [renumberPairs, scopesPairs, scopesPairs, scopes_renumber props key,
      scopes_renumber props v, scopesPairs_renumber props rest, List.map_append, List.map_append]

end

/-- The scopes met in a field that is listed are met while the fields are shown. -/
theorem mem_scopes_of_listed {props : Bool} {names : List String} {fields : List (String × Value)}
    {name : String} {v : Value} {s : Scope} (hname : name ∈ names)
    (hget : Fields.get? name fields = some v) (hs : s ∈ v.scopes props) :
    s ∈ (Fields.listed names (scopesFields props fields)).flatMap (·.2) := by
  refine List.mem_flatMap.2 ⟨(name, v.scopes props), Fields.mem_listed.2 ⟨hname, ?_⟩, hs⟩
  rw [scopesFields_eq_map, Fields.get?_map, hget, Option.map_some]

theorem mem_scopes_of_field {props : Bool} {fields : List (String × Value)} {name : String}
    {v : Value} {s : Scope} (hmem : (name, v) ∈ fields) (hs : s ∈ v.scopes props) :
    s ∈ (scopesFields props fields).flatMap (·.2) := by
  refine List.mem_flatMap.2 ⟨(name, v.scopes props), ?_, hs⟩
  rw [scopesFields_eq_map]
  exact List.mem_map.2 ⟨(name, v), hmem, rfl⟩

section
variable {f g : Scope → List Char}

mutual

/-- How a value is spelled, given how the scopes are that are met in it. -/
theorem spell_renumber (v : Value) (h : ∀ s ∈ v.scopes false, g (s.renumber k) = f s) :
    spell g (v.renumber k) = spell f v := by
  cases v with
  | list items => rw [renumber, spell_list, spell_list, spellItems_renumber items h]
  | map fields =>
    rw [renumber, spell_map, spell_map, spellFields_eq_map, spellFields_eq_map,
      renumberFields_eq_map, List.map_map, List.map_map, List.map_map]
    refine congrArg braced (List.map_congr_left fun (name, v) hmem => ?_)
    refine congrArg (assigned name.toList) (spellFields_renumber fields hmem fun s hs => ?_)
    exact h s (mem_scopes_of_field hmem hs)
  | entries pairs => rw [renumber, spell_entries, spell_entries, spellPairs_renumber pairs h]
  | entry key v =>
    have hkey := spell_renumber key fun s hs => h s (List.mem_append_left _ hs)
    have hv := spell_renumber v fun s hs => h s (List.mem_append_right _ hs)
    rw [renumber, spell_entry, spell_entry, hkey, hv]
  | collection identity items length =>
    rw [renumber, spell_collection, spell_collection, spellFields_eq_map, spellFields_eq_map]
    refine congrArg bracketed (Fields.getAll_congr fun name hname => ?_)
    rw [Fields.get?_map, Fields.get?_map, get?_renumberFields, Option.map_map]
    refine Option.map_congr fun v hv => ?_
    exact spellFields_renumber items (Fields.mem_of_get? hv) fun s hs =>
      h s (mem_scopes_of_listed hname hv hs)
  | scope s => exact h s (List.mem_singleton_self s)
  | null | bool | int | float | text | date | object | function => rfl

theorem spellItems_renumber (items : List Value)
    (h : ∀ s ∈ scopesItems false items, g (s.renumber k) = f s) :
    spellItems g (renumberItems k items) = spellItems f items := by
  cases items with
  | nil => rfl
  | cons v rest =>
    have hfirst := spell_renumber v fun s hs => h s (List.mem_append_left _ hs)
    have hrest := spellItems_renumber rest fun s hs => h s (List.mem_append_right _ hs)
    rw [renumberItems, spellItems, spellItems, hfirst, hrest]

theorem spellFields_renumber (fields : List (String × Value)) {name : String} {v : Value}
    (hmem : (name, v) ∈ fields) (h : ∀ s ∈ v.scopes false, g (s.renumber k) = f s) :
    spell g (v.renumber k) = spell f v := by
  cases fields with
  | nil => cases hmem
  | cons field rest =>
    obtain ⟨other, w⟩ := field
    rcases List.mem_cons.1 hmem with heq | hrest
    · rw [show v = w from congrArg Prod.snd heq] at h ⊢
      exact spell_renumber w h
    · exact spellFields_renumber rest hrest h

theorem spellPairs_renumber (pairs : List (Value × Value))
    (h : ∀ s ∈ scopesPairs false pairs, g (s.renumber k) = f s) :
    spellPairs g (renumberPairs k pairs) = spellPairs f pairs := by
  cases pairs with
  | nil => rfl
  | cons pair rest =>
    obtain ⟨key, v⟩ := pair
    have hkey := spell_renumber key fun s hs =>
      h s (List.mem_append_left _ (List.mem_append_left _ hs))
    have hv := spell_renumber v fun s hs =>
      h s (List.mem_append_left _ (List.mem_append_right _ hs))
    have hrest := spellPairs_renumber rest fun s hs => h s (List.mem_append_right _ hs)
    rw [renumberPairs, spellPairs, spellPairs, hkey, hv, hrest]

end

end

section
variable {keyText keyText' : Value → String} {f g : Scope → Json}

mutual

/-- The document of a value, given those of the scopes that are met in it. -/
theorem toJson_renumber (hkeys : ∀ v : Value, keyText' (v.renumber k) = keyText v)
    (v : Value) (h : ∀ s ∈ v.scopes true, g (s.renumber k) = f s) :
    (v.renumber k).toJson keyText' g = v.toJson keyText f := by
  cases v with
  | list items => rw [renumber, toJson, toJson, toJsonItems_renumber hkeys items h]
  | map fields =>
    rw [renumber, toJson, toJson, toJsonFields_eq_map, toJsonFields_eq_map, renumberFields_eq_map,
      List.map_map]
    refine congrArg Json.ofMembers (List.map_congr_left fun (name, v) hmem => ?_)
    refine congrArg (Prod.mk name) (toJsonFields_renumber hkeys fields hmem fun s hs => ?_)
    exact h s (mem_scopes_of_field hmem hs)
  | entries pairs => rw [renumber, toJson, toJson, toJsonPairs_renumber hkeys pairs h]
  | entry key v =>
    have hkey := toJson_renumber hkeys key fun s hs => h s (List.mem_append_left _ hs)
    have hv := toJson_renumber hkeys v fun s hs => h s (List.mem_append_right _ hs)
    rw [renumber, toJson, toJson, hkey, hv]
  | object identity typeName isRecord names props =>
    rw [renumber, toJson, toJson, toJsonFields_eq_map, toJsonFields_eq_map]
    refine congrArg Json.ofMembers (Fields.listed_congr fun name hname => ?_)
    rw [Fields.get?_map, Fields.get?_map, get?_renumberFields, Option.map_map]
    refine Option.map_congr fun v hv => ?_
    exact toJsonFields_renumber hkeys props (Fields.mem_of_get? hv) fun s hs =>
      h s (mem_scopes_of_listed hname hv hs)
  | collection identity items length =>
    rw [renumber, toJson, toJson, toJsonFields_eq_map, toJsonFields_eq_map]
    refine congrArg Json.array (Fields.getAll_congr fun name hname => ?_)
    rw [Fields.get?_map, Fields.get?_map, get?_renumberFields, Option.map_map]
    refine Option.map_congr fun v hv => ?_
    exact toJsonFields_renumber hkeys items (Fields.mem_of_get? hv) fun s hs =>
      h s (mem_scopes_of_listed hname hv hs)
  | scope s => exact h s (List.mem_singleton_self s)
  | null | bool | int | float | text | date | function => rfl

theorem toJsonItems_renumber (hkeys : ∀ v : Value, keyText' (v.renumber k) = keyText v)
    (items : List Value) (h : ∀ s ∈ scopesItems true items, g (s.renumber k) = f s) :
    toJsonItems keyText' g (renumberItems k items) = toJsonItems keyText f items := by
  cases items with
  | nil => rfl
  | cons v rest =>
    have hfirst := toJson_renumber hkeys v fun s hs => h s (List.mem_append_left _ hs)
    have hrest := toJsonItems_renumber hkeys rest fun s hs => h s (List.mem_append_right _ hs)
    rw [renumberItems, toJsonItems, toJsonItems, hfirst, hrest]

theorem toJsonFields_renumber (hkeys : ∀ v : Value, keyText' (v.renumber k) = keyText v)
    (fields : List (String × Value)) {name : String} {v : Value} (hmem : (name, v) ∈ fields)
    (h : ∀ s ∈ v.scopes true, g (s.renumber k) = f s) :
    (v.renumber k).toJson keyText' g = v.toJson keyText f := by
  cases fields with
  | nil => cases hmem
  | cons field rest =>
    obtain ⟨other, w⟩ := field
    rcases List.mem_cons.1 hmem with heq | hrest
    · rw [show v = w from congrArg Prod.snd heq] at h ⊢
      exact toJson_renumber hkeys w h
    · exact toJsonFields_renumber hkeys rest hrest h

theorem toJsonPairs_renumber (hkeys : ∀ v : Value, keyText' (v.renumber k) = keyText v)
    (pairs : List (Value × Value))
    (h : ∀ s ∈ scopesPairs true pairs, g (s.renumber k) = f s) :
    toJsonPairs keyText' g (renumberPairs k pairs) = toJsonPairs keyText f pairs := by
  cases pairs with
  | nil => rfl
  | cons pair rest =>
    obtain ⟨key, v⟩ := pair
    have hv := toJson_renumber hkeys v fun s hs =>
      h s (List.mem_append_left _ (List.mem_append_right _ hs))
    have hrest := toJsonPairs_renumber hkeys rest fun s hs => h s (List.mem_append_right _ hs)
    rw [renumberPairs, toJsonPairs, toJsonPairs, hkeys, hv, hrest]

end

end

end Value

theorem turnMembers_renumber {k : Nat} (key : Option Value) (value : Value) (index size : Nat) :
    turnMembers (key.map (Value.renumber k)) (value.renumber k) index size =
      Value.renumberFields k (turnMembers key value index size) := by
  cases key <;> simp [turnMembers, Value.renumberFields]

namespace Scope
variable {k : Nat}

theorem renumber_turn (key : Option Value) (v : Value) (index size : Nat) (outer : Scope) :
    (turn key v index size outer).renumber k =
      turn (key.map (Value.renumber k)) (v.renumber k) index size (outer.renumber k) := by
  cases key <;> rfl

theorem eq_overlay_of_renumber {s : Scope} {id : Nat} (h : s.renumber k = overlay id) :
    ∃ id, s = overlay id := by
  cases s with
  | overlay id => exact ⟨id, rfl⟩
  | turn key v index size outer =>
    rw [renumber_turn] at h
    cases h
  | nowhere | «over» | host => cases h

/-- A scope stands over older overlays or not, whatever their numbers. -/
theorem rank_renumber_le_iff {s : Scope} {id : Nat} :
    (s.renumber k).rank ≤ id + k ↔ s.rank ≤ id := by
  induction s using Scope.rank.induct with
  | case1 => simp [renumber, rank]
  | case2 own outer ih => exact ih
  | case3 => simp [renumber, rank]
  | case4 key v index size outer ih =>
    rw [renumber_turn]
    exact ih
  | case5 id' =>
    simp only [renumber, rank]
    omega

end Scope

namespace Format
variable {asText asText' : Value → String} {k : Nat} {v : Value}

/-- A typed value is written as its text and the numbers and dates in it say. -/
theorem write?_renumber (format : Format) (h : asText' (v.renumber k) = asText v) :
    format.write? asText' (v.renumber k) = format.write? asText v := by
  have hexact : format.writeExact? asText' (v.renumber k) = format.writeExact? asText v := by
    cases format with
    | number style => simp [writeExact?, NumberStyle.write?]
    | conversion format =>
      have hpiece : ∀ p : FormatPiece,
          p.write? asText' (v.renumber k) = p.write? asText v := by
        intro p
        cases p with
        | literal text => rfl
        | conversion c => simp [FormatPiece.write?, Conversion.write?, h]
      simp only [writeExact?, ConversionFormat.write?, hpiece]
    | date | time | dateTime | dateAndTime => simp [writeExact?]
  rw [write?, write?, Value.isNull_renumber, hexact, h]

end Format

end TextTemplate
