import TextTemplate.Proofs.Store.Growth
import TextTemplate.Proofs.Store.Shown

/-! What is read in a store stays as it is when overlays are added to it: names mean the same,
scopes have the same entries, and values are shown alike. -/

namespace TextTemplate

namespace Value

/-- The entries of a value lead no further than the value does. -/
theorem reach_of_mem_members {own v : Value} {name : String} (h : (name, v) ∈ own.members) :
    v.reach ≤ own.reach := by
  cases own with
  | map fields => exact reach_le_reachFields h
  | entry k w =>
    have := reach_le_reachFields h
    simpa [members, entryFields, reachFields, reach] using this
  | list items => exact reach_le_reachItems (mem_numbered h)
  | entries pairs =>
    obtain ⟨⟨k, w⟩, hmem, rfl⟩ := List.mem_map.1 (mem_numbered h)
    exact reach_le_reachPairs hmem
  | collection identity items length | object identity typeName isRecord names items =>
    exact reach_le_of_get? (Fields.mem_listed.1 h).2
  | null | bool | int | float | text | date | function | scope => cases h

mutual

/-- The scopes that are met in a value lead no further than the value does. -/
theorem reach_of_mem_scopes {props : Bool} {s : Scope} (v : Value) (h : s ∈ v.scopes props) :
    s.reach ≤ v.reach := by
  cases v with
  | list items => exact reach_of_mem_scopesItems items h
  | map fields =>
    rw [scopes] at h
    obtain ⟨⟨name, ss⟩, hmem, hs⟩ := List.mem_flatMap.1 h
    exact reach_of_mem_scopesFields fields hmem hs
  | entries pairs => exact reach_of_mem_scopesPairs pairs h
  | entry k v =>
    rw [scopes, List.mem_append] at h
    rw [reach]
    rcases h with h | h
    · exact Nat.le_trans (reach_of_mem_scopes k h) (Nat.le_max_left _ _)
    · exact Nat.le_trans (reach_of_mem_scopes v h) (Nat.le_max_right _ _)
  | object identity typeName isRecord names fields =>
    rw [scopes] at h
    split at h
    · obtain ⟨⟨name, ss⟩, hmem, hs⟩ := List.mem_flatMap.1 h
      have hfield := Fields.mem_of_get? (Fields.mem_listed.1 hmem).2
      exact reach_of_mem_scopesFields fields hfield hs
    · cases h
  | collection identity items length =>
    rw [scopes] at h
    obtain ⟨⟨name, ss⟩, hmem, hs⟩ := List.mem_flatMap.1 h
    have hfield := Fields.mem_of_get? (Fields.mem_listed.1 hmem).2
    exact reach_of_mem_scopesFields items hfield hs
  | scope t =>
    rw [scopes, List.mem_singleton] at h
    rw [h]
    exact Nat.le_refl _
  | null | bool | int | float | text | date | function => cases h

theorem reach_of_mem_scopesItems {props : Bool} {s : Scope} (items : List Value)
    (h : s ∈ scopesItems props items) : s.reach ≤ reachItems items := by
  cases items with
  | nil => cases h
  | cons v rest =>
    rw [scopesItems, List.mem_append] at h
    rw [reachItems]
    rcases h with h | h
    · exact Nat.le_trans (reach_of_mem_scopes v h) (Nat.le_max_left _ _)
    · exact Nat.le_trans (reach_of_mem_scopesItems rest h) (Nat.le_max_right _ _)

theorem reach_of_mem_scopesFields {props : Bool} {s : Scope} (fields : List (String × Value))
    {name : String} {ss : List Scope} (h : (name, ss) ∈ scopesFields props fields) (hs : s ∈ ss) :
    s.reach ≤ reachFields fields := by
  cases fields with
  | nil => cases h
  | cons field rest =>
    obtain ⟨k, v⟩ := field
    rw [scopesFields, List.mem_cons] at h
    rw [reachFields]
    rcases h with heq | hmem
    · rw [show ss = v.scopes props from congrArg Prod.snd heq] at hs
      exact Nat.le_trans (reach_of_mem_scopes v hs) (Nat.le_max_left _ _)
    · exact Nat.le_trans (reach_of_mem_scopesFields rest hmem hs) (Nat.le_max_right _ _)

theorem reach_of_mem_scopesPairs {props : Bool} {s : Scope} (pairs : List (Value × Value))
    (h : s ∈ scopesPairs props pairs) : s.reach ≤ reachPairs pairs := by
  cases pairs with
  | nil => cases h
  | cons pair rest =>
    obtain ⟨k, v⟩ := pair
    rw [scopesPairs, List.mem_append, List.mem_append] at h
    rw [reachPairs]
    rcases h with (h | h) | h
    · have := reach_of_mem_scopes k h
      omega
    · have := reach_of_mem_scopes v h
      omega
    · have := reach_of_mem_scopesPairs rest h
      omega

end

mutual

/-- The document of a value depends only on the texts of keys and on the scopes that lead no further
than the value does. -/
theorem toJson_of_agree {keyText keyText' : Value → String} {f g : Scope → Json} {bound : Nat}
    (hkeys : ∀ k : Value, k.reach ≤ bound → keyText' k = keyText k)
    (hscopes : ∀ s : Scope, s.reach ≤ bound → g s = f s) (v : Value) (h : v.reach ≤ bound) :
    v.toJson keyText' g = v.toJson keyText f := by
  cases v with
  | list items =>
    rw [toJson, toJson, toJsonItems_of_agree hkeys hscopes items h]
  | map fields => rw [toJson, toJson, toJsonFields_of_agree hkeys hscopes fields h]
  | entries pairs => rw [toJson, toJson, toJsonPairs_of_agree hkeys hscopes pairs h]
  | entry k v =>
    rw [reach] at h
    rw [toJson, toJson, toJson_of_agree hkeys hscopes k (by omega),
      toJson_of_agree hkeys hscopes v (by omega)]
  | object identity typeName isRecord names props =>
    rw [toJson, toJson, toJsonFields_of_agree hkeys hscopes props h]
  | collection identity items length =>
    rw [toJson, toJson, toJsonFields_of_agree hkeys hscopes items h]
  | scope s => exact hscopes s h
  | null | bool | int | float | text | date | function => rfl

theorem toJsonItems_of_agree {keyText keyText' : Value → String} {f g : Scope → Json} {bound : Nat}
    (hkeys : ∀ k : Value, k.reach ≤ bound → keyText' k = keyText k)
    (hscopes : ∀ s : Scope, s.reach ≤ bound → g s = f s) (items : List Value)
    (h : reachItems items ≤ bound) :
    toJsonItems keyText' g items = toJsonItems keyText f items := by
  cases items with
  | nil => rfl
  | cons v rest =>
    rw [reachItems] at h
    rw [toJsonItems, toJsonItems, toJson_of_agree hkeys hscopes v (by omega),
      toJsonItems_of_agree hkeys hscopes rest (by omega)]

theorem toJsonFields_of_agree {keyText keyText' : Value → String} {f g : Scope → Json} {bound : Nat}
    (hkeys : ∀ k : Value, k.reach ≤ bound → keyText' k = keyText k)
    (hscopes : ∀ s : Scope, s.reach ≤ bound → g s = f s) (fields : List (String × Value))
    (h : reachFields fields ≤ bound) :
    toJsonFields keyText' g fields = toJsonFields keyText f fields := by
  cases fields with
  | nil => rfl
  | cons field rest =>
    obtain ⟨k, v⟩ := field
    rw [reachFields] at h
    rw [toJsonFields, toJsonFields, toJson_of_agree hkeys hscopes v (by omega),
      toJsonFields_of_agree hkeys hscopes rest (by omega)]

theorem toJsonPairs_of_agree {keyText keyText' : Value → String} {f g : Scope → Json} {bound : Nat}
    (hkeys : ∀ k : Value, k.reach ≤ bound → keyText' k = keyText k)
    (hscopes : ∀ s : Scope, s.reach ≤ bound → g s = f s) (pairs : List (Value × Value))
    (h : reachPairs pairs ≤ bound) :
    toJsonPairs keyText' g pairs = toJsonPairs keyText f pairs := by
  cases pairs with
  | nil => rfl
  | cons pair rest =>
    obtain ⟨k, v⟩ := pair
    rw [reachPairs] at h
    rw [toJsonPairs, toJsonPairs, hkeys k (by omega), toJson_of_agree hkeys hscopes v (by omega),
      toJsonPairs_of_agree hkeys hscopes rest (by omega)]

end

end Value

namespace Store
variable {st st' : Store} {s : Scope} {v : Value} {name : String} {props : Bool}

/-- What a scope of the store holds leads only to overlays of the store. -/
theorem Sound.reach_members (h : st.Sound) (hs : s.reach ≤ st.size)
    (hmem : (name, v) ∈ st.members s) : v.reach ≤ st.size := by
  fun_induction members st s with
  | case1 => cases hmem
  | case2 own outer =>
    have := Value.reach_of_mem_members hmem
    simp only [Scope.reach] at hs
    omega
  | case3 identity own => exact Nat.le_trans (Value.reach_of_mem_members hmem) hs
  | case4 key value index size outer =>
    have := Value.reach_le_reachFields hmem
    cases key <;> simp [turnMembers, Value.reachFields, Scope.reach] at this hs <;> omega
  | case5 id hnone => cases hmem
  | case6 id o ho below ih =>
    rcases List.mem_append.1 hmem with hbelow | hover
    · have hmem : (name, v) ∈ below := (List.mem_filter.1 hbelow).1
      dsimp only [below] at hmem
      cases hbase : o.base with
      | fresh outer =>
        rw [hbase] at hmem
        cases hmem
      | delegate inner =>
        rw [hbase] at hmem
        have hreach := h.bases id o ho
        rw [hbase] at hreach
        have hrank : inner.rank ≤ id := Nat.le_trans (Scope.rank_le_reach inner) hreach
        simp only [hrank, dite_true] at hmem
        exact ih inner hrank (Nat.le_trans hreach (Nat.le_of_lt (lt_size ho))) hmem
    · exact Nat.le_trans (Value.reach_le_reachFields hover) (h.overrides id o ho)

/-- All overlays are as they were, whatever was added. -/
def Extends (st st' : Store) : Prop := ∀ id < st.size, st'.overlay? id = st.overlay? id

theorem extends_push (st : Store) (base : Base) : st.Extends (st.push base).2 := by
  intro id hid
  rw [overlay?_push, if_neg (by omega)]

theorem overlay?_push_new (st : Store) (base : Base) :
    (st.push base).2.overlay? st.size = some ⟨[], base⟩ := by
  rw [overlay?_push, if_pos rfl]

namespace Extends
variable (h : st.Extends st')
include h

theorem grows : Grows [] st st' := by
  constructor
  intro id o ho
  exact ⟨o, (h id (lt_size ho)).trans ho, rfl, fun _ _ => rfl⟩

theorem members_eq (hs : s.rank ≤ st.size) : st'.members s = st.members s := members_of_agree h hs

theorem isIndexed_eq (hs : s.rank ≤ st.size) : st'.isIndexed s = st.isIndexed s :=
  isIndexed_of_agree h hs

theorem local?_eq (hordered : st.Ordered) (hs : s.rank ≤ st.size) (name : String) :
    st'.local? s name = st.local? s name := by
  induction hn : s.rank using Nat.strongRecOn generalizing s with
  | ind n ih =>
    cases s with
    | overlay id =>
      have hmembers := h.members_eq hs
      obtain ⟨o, ho⟩ := overlay?_of_lt hs
      have ho' : st'.overlay? id = some o := (h id hs).trans ho
      cases hover : o.overrides.get? name with
      | some v => rw [local?_of_override ho hover, local?_of_override ho' hover]
      | none =>
        cases hbase : o.base with
        | fresh outer => rw [local?_fresh ho hover hbase, local?_fresh ho' hover hbase, hmembers]
        | delegate inner =>
          have hrank := hordered.rank_le ho hbase
          have hinner : inner.rank ≤ st.size := Nat.le_trans hrank (Nat.le_of_lt hs)
          rw [local?_delegate ho hover hbase hrank, local?_delegate ho' hover hbase hrank, hmembers,
            h.members_eq hinner, ih inner.rank (by rw [← hn, Scope.rank]; omega) hinner rfl]
    | _ => rw [local?, local?]

theorem get?_eq (hordered : st.Ordered) (hs : s.rank ≤ st.size) (name : String) :
    st'.get? s name = st.get? s name := by
  have hlocal : ∀ t ∈ st.chain s, st'.local? t name = st.local? t name := fun t ht =>
    h.local?_eq hordered (Nat.le_trans (rank_le_of_mem_chain ht) hs) name
  rw [get?, get?, h.grows.chain_eq hs]
  generalize st.chain s = scopes at hlocal
  induction scopes with
  | nil => rfl
  | cons t rest ih =>
    obtain ⟨ht, hrest⟩ := List.forall_mem_cons.1 hlocal
    rw [List.findSome?_cons, List.findSome?_cons, ht, ih hrest]

variable (hst : st.Sound)
include hst

theorem ends_eq (hv : v.reach ≤ st.size) (n : Nat) :
    st'.ends props n v = st.ends props n v := by
  induction n generalizing v with
  | zero => rfl
  | succ n ih =>
    rw [Bool.eq_iff_iff, ends_iff, @ends_iff st]
    refine forall₂_congr fun s hs => ?_
    have hreach := Nat.le_trans (Value.reach_of_mem_scopes v hs) hv
    rw [ends_scope, ends_scope, h.members_eq (Nat.le_trans (Scope.rank_le_reach s) hreach)]
    refine forall₃_congr fun name w hmem => ?_
    rw [ih (hst.reach_members hreach hmem)]

theorem spell_eq (hv : v.reach ≤ st.size) (n : Nat) : st'.spell n v = st.spell n v := by
  induction n generalizing v with
  | zero => rfl
  | succ n ih =>
    rw [spell_succ, spell_succ]
    refine Value.spell_congr v fun s hs => ?_
    have hreach := Nat.le_trans (Value.reach_of_mem_scopes v hs) hv
    have hrank := Nat.le_trans (Scope.rank_le_reach s) hreach
    have hentries (name : String) (w : Value) (hmem : (name, w) ∈ st.members s) :
        st'.spell n w = st.spell n w := ih (hst.reach_members hreach hmem)
    rw [h.members_eq hrank, h.isIndexed_eq hrank]
    split
    · exact congrArg Value.bracketed (Fields.map_congr hentries)
    · exact congrArg Value.braced (Fields.map_congr fun name w hmem =>
        congrArg (Value.assigned name.toList) (hentries name w hmem))

theorem text_eq (hv : v.reach ≤ st.size) : st'.text v = st.text v := by
  have hdisplay : st'.display v = st.display v :=
    display_of_levels (fun n => h.ends_eq hst hv n) fun n => h.spell_eq hst hv n
  cases v with
  | null | text => rfl
  | _ => exact hdisplay

theorem exportTo_eq (hv : v.reach ≤ st.size) (n : Nat) : st'.exportTo n v = st.exportTo n v := by
  induction n generalizing v with
  | zero => exact Value.toJson_of_agree (fun k hk => h.text_eq hst hk) (fun _ _ => rfl) v hv
  | succ n ih =>
    refine Value.toJson_of_agree (fun k hk => h.text_eq hst hk) (fun s hs => ?_) v hv
    rw [h.members_eq (Nat.le_trans (Scope.rank_le_reach s) hs)]
    exact congrArg Json.ofMembers (Fields.map_congr fun name w hmem =>
      congrArg (Prod.mk name) (ih (hst.reach_members hs hmem)))

end Extends
end Store
end TextTemplate
