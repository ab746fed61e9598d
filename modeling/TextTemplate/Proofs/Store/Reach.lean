import TextTemplate.Store.Basic

/-! What a store holds leads only to overlays of the store, and what an overlay stands over only to
older ones. Looking names up never leads out of it. -/

namespace TextTemplate

mutual

/-- One more than the newest overlay that occurs anywhere in the value; zero if none does. -/
def Value.reach : Value → Nat
  | .list items => Value.reachItems items
  | .map fields => Value.reachFields fields
  | .entries pairs => Value.reachPairs pairs
  | .entry k v => max k.reach v.reach
  | .object _ _ _ _ props => Value.reachFields props
  | .collection _ items _ => Value.reachFields items
  | .scope s => s.reach
  | _ => 0

def Scope.reach : Scope → Nat
  | .nowhere => 0
  | .over own outer => max own.reach outer.reach
  | .host _ own => own.reach
  | .turn (some k) v _ _ outer => max (max k.reach v.reach) outer.reach
  | .turn none v _ _ outer => max v.reach outer.reach
  | .overlay id => id + 1

def Value.reachItems : List Value → Nat
  | [] => 0
  | v :: rest => max v.reach (Value.reachItems rest)

def Value.reachFields : List (String × Value) → Nat
  | [] => 0
  | (_, v) :: rest => max v.reach (Value.reachFields rest)

def Value.reachPairs : List (Value × Value) → Nat
  | [] => 0
  | (k, v) :: rest => max (max k.reach v.reach) (Value.reachPairs rest)

end

namespace Value

theorem reach_le_reachItems {v : Value} {items : List Value} (h : v ∈ items) :
    v.reach ≤ reachItems items := by
  induction items with
  | nil => cases h
  | cons w rest ih =>
    simp only [reachItems]
    rcases List.mem_cons.1 h with rfl | hmem
    · omega
    · have := ih hmem
      omega

theorem reach_le_reachFields {name : String} {v : Value} {fields : List (String × Value)}
    (h : (name, v) ∈ fields) : v.reach ≤ reachFields fields := by
  induction fields with
  | nil => cases h
  | cons field rest ih =>
    simp only [reachFields]
    rcases List.mem_cons.1 h with rfl | hmem
    · dsimp only
      omega
    · have := ih hmem
      omega

theorem reach_le_reachPairs {k v : Value} {pairs : List (Value × Value)} (h : (k, v) ∈ pairs) :
    max k.reach v.reach ≤ reachPairs pairs := by
  induction pairs with
  | nil => cases h
  | cons pair rest ih =>
    simp only [reachPairs]
    rcases List.mem_cons.1 h with rfl | hmem
    · dsimp only
      omega
    · have := ih hmem
      omega

theorem reach_le_of_get? {name : String} {v : Value} {fields : List (String × Value)}
    (h : Fields.get? name fields = some v) : v.reach ≤ reachFields fields :=
  reach_le_reachFields (Fields.mem_of_get? h)

@[simp] theorem reach_ofNat (n : Nat) : (ofNat n).reach = 0 := by
  unfold ofNat
  split <;> rfl

theorem reach_sizeMember? {name : String} {length : Nat} {v : Value}
    (h : sizeMember? name length = some v) : v.reach = 0 := by
  unfold sizeMember? at h
  split at h
  · cases h
    exact reach_ofNat length
  · split at h
    · cases h
      rfl
    · cases h

theorem reach_indexedMember? {item : Nat → Option Value} {length bound : Nat} {name : String}
    {v : Value} (hitem : ∀ i w, item i = some w → w.reach ≤ bound)
    (h : indexedMember? item length name = some v) : v.reach ≤ bound := by
  unfold indexedMember? at h
  split at h
  · exact hitem _ v h
  · have := reach_sizeMember? h
    omega

theorem reach_itemAt? {items : List (String × Value)} {length i : Nat} {v : Value}
    (h : itemAt? items length i = some v) : v.reach ≤ reachFields items := by
  unfold itemAt? at h
  split at h
  · exact reach_le_of_get? h
  · cases h

theorem reach_pairAt? {pairs : List (Value × Value)} {i : Nat} {v : Value}
    (h : pairAt? pairs i = some v) : v.reach ≤ reachPairs pairs := by
  obtain ⟨⟨k, w⟩, hget, rfl⟩ := Option.map_eq_some_iff.1 h
  exact reach_le_reachPairs (List.mem_of_getElem? hget)

/-- What a name means inside a value leads no further than the value does. -/
theorem reach_member? {name : String} {own v : Value} (h : own.member? name = some v) :
    v.reach ≤ own.reach := by
  cases own with
  | map fields =>
    rcases Option.or_eq_some_iff.1 h with hget | ⟨_, hsize⟩
    · exact reach_le_of_get? hget
    · have := reach_sizeMember? hsize
      omega
  | entry k w =>
    rcases Option.or_eq_some_iff.1 h with hget | ⟨_, hsize⟩
    · have := reach_le_of_get? hget
      simpa [entryFields, reachFields, reach] using this
    · have := reach_sizeMember? hsize
      omega
  | list items =>
    exact reach_indexedMember? (fun i w hi => reach_le_reachItems (List.mem_of_getElem? hi)) h
  | entries pairs => exact reach_indexedMember? (fun i w hi => reach_pairAt? hi) h
  | collection identity items length =>
    exact reach_indexedMember? (fun i w hi => reach_itemAt? hi) h
  | object identity typeName isRecord names props => exact reach_le_of_get? h
  | text s =>
    simp only [member?] at h
    split at h
    · cases h
      simp
    · split at h
      · cases h
        exact Nat.zero_le _
      · cases h
  | null | bool | int | float | date | function | scope => cases h

end Value

namespace Scope

theorem rank_le_reach : ∀ s : Scope, s.rank ≤ s.reach
  | .nowhere => Nat.le_refl _
  | .over own outer => by
    have := rank_le_reach outer
    simp only [rank, reach]
    omega
  | .host identity own => Nat.zero_le _
  | .turn (some k) v index size outer => by
    have := rank_le_reach outer
    simp only [rank, reach]
    omega
  | .turn none v index size outer => by
    have := rank_le_reach outer
    simp only [rank, reach]
    omega
  | .overlay id => Nat.le_refl _

end Scope

theorem reach_turnMembers {key : Option Value} {value v : Value} {index size : Nat} {name : String}
    {outer : Scope} (h : Fields.get? name (turnMembers key value index size) = some v) :
    v.reach ≤ (Scope.turn key value index size outer).reach := by
  have := Value.reach_le_of_get? h
  cases key <;> simp [turnMembers, Value.reachFields, Scope.reach] at this ⊢ <;> omega

/-- The scope over a value found in `outer` leads no further than the two. -/
theorem Value.reach_toScope (v : Value) (outer : Scope) :
    (v.toScope outer).reach ≤ max v.reach outer.reach := by
  cases v with
  | scope s => exact Nat.le_max_left _ _
  | _ => exact Nat.le_refl _

theorem Base.mem_of_mem_outside {b : Base} {chain : List Scope} {s : Scope}
    (h : s ∈ b.outside chain) : s ∈ chain := by
  cases b with
  | delegate inner => exact List.mem_of_mem_tail h
  | fresh outer => exact h

namespace Store

/-- What the store holds leads only to its own overlays, and what an overlay stands over only to
older ones. -/
structure Sound (st : Store) : Prop where
  bases : ∀ id o, st.overlay? id = some o → o.base.scope.reach ≤ id
  overrides : ∀ id o, st.overlay? id = some o → Value.reachFields o.overrides ≤ st.size

theorem sound_empty : Sound empty := by
  constructor <;> intro id o h <;> simp [empty, overlay?] at h

theorem Sound.ordered {st : Store} (h : st.Sound) : st.Ordered := by
  intro id o ho
  exact Nat.le_trans (Scope.rank_le_reach _) (h.bases id o ho)

theorem Sound.push {st : Store} {base : Base} (h : st.Sound) (hbase : base.scope.reach ≤ st.size) :
    (st.push base).2.Sound := by
  constructor <;> intro id o ho
  · rw [overlay?_push] at ho
    split at ho
    · next hid =>
      cases ho
      rw [hid]
      exact hbase
    · exact h.bases id o ho
  · rw [overlay?_push] at ho
    rw [size_push]
    split at ho
    · cases ho
      exact Nat.zero_le _
    · have := h.overrides id o ho
      omega

theorem reachFields_set {name : String} {v : Value} {fields : Fields Value} {bound : Nat}
    (hv : v.reach ≤ bound) (h : Value.reachFields fields ≤ bound) :
    Value.reachFields (fields.set name v) ≤ bound := by
  induction fields with
  | nil =>
    simp only [Fields.set, Value.reachFields]
    omega
  | cons field rest ih =>
    obtain ⟨k, w⟩ := field
    simp only [Value.reachFields] at h
    by_cases hk : k = name
    · simp only [Fields.set, hk, if_true, Value.reachFields]
      omega
    · have := ih (by omega)
      simp only [Fields.set, hk, if_false, Value.reachFields]
      omega

theorem Sound.set {st : Store} {id : Nat} {name : String} {v : Value} (h : st.Sound)
    (hv : v.reach ≤ st.size) : (st.set id name v).Sound := by
  constructor <;> intro other o ho <;> rw [overlay?_set] at ho
  · split at ho
    · obtain ⟨o', ho', rfl⟩ := Option.map_eq_some_iff.1 ho
      exact h.bases other o' ho'
    · exact h.bases other o ho
  · rw [size_set]
    split at ho
    · obtain ⟨o', ho', rfl⟩ := Option.map_eq_some_iff.1 ho
      exact reachFields_set hv (h.overrides other o' ho')
    · exact h.overrides other o ho

variable {st : Store} {s : Scope} {name : String} {v : Value}

/-- What a name means in a scope of the store leads only to overlays of the store. -/
theorem Sound.reach_local? (h : st.Sound) (hs : s.reach ≤ st.size)
    (hv : st.local? s name = some v) : v.reach ≤ st.size := by
  fun_induction local? st s name generalizing v with
  | case1 => cases hv
  | case2 own outer name =>
    have := Value.reach_member? hv
    simp only [Scope.reach] at hs
    omega
  | case3 identity own name => exact Nat.le_trans (Value.reach_member? hv) hs
  | case4 key value index size outer name => exact Nat.le_trans (reach_turnMembers hv) hs
  | case5 => cases hv
  | case6 id name o ho w hw =>
    cases hv
    exact Nat.le_trans (Value.reach_le_of_get? hw) (h.overrides id o ho)
  | case7 id name o ho hw outer hbase =>
    have := Value.reach_sizeMember? hv
    omega
  | case8 => cases hv
  | case9 id name o ho hw inner hbase hrank w hlocal hsize ih =>
    have := Value.reach_sizeMember? hv
    omega
  | case10 id name o ho hw inner hbase hrank w hlocal hsize ih =>
    cases hv
    refine ih ?_ hlocal
    have hreach := h.bases id o ho
    rw [hbase] at hreach
    exact Nat.le_trans hreach (Nat.le_of_lt (lt_size ho))
  | case11 => cases hv

theorem Sound.reach_chain (h : st.Sound) (hs : s.reach ≤ st.size) {t : Scope}
    (ht : t ∈ st.chain s) : t.reach ≤ st.size := by
  fun_induction chain st s with
  | case1 => cases ht
  | case2 own outer ih =>
    rcases List.mem_cons.1 ht with rfl | hmem
    · exact hs
    · exact ih (by simp only [Scope.reach] at hs; omega) hmem
  | case3 identity own =>
    rw [List.mem_singleton.1 ht]
    exact hs
  | case4 key value index size outer ih =>
    rcases List.mem_cons.1 ht with rfl | hmem
    · exact hs
    · exact ih (by cases key <;> simp only [Scope.reach] at hs <;> omega) hmem
  | case5 id ih =>
    rcases List.mem_cons.1 ht with rfl | hmem
    · exact hs
    · cases ho : st.overlay? id with
      | none =>
        rw [ho] at hmem
        cases hmem
      | some o =>
        have hreach := h.bases id o ho
        have hrank := h.ordered id o ho
        simp only [ho, hrank, dite_true] at hmem
        exact ih o hrank (Nat.le_trans hreach (Nat.le_of_lt (lt_size ho)))
          (Base.mem_of_mem_outside hmem)

theorem Sound.reach_get? (h : st.Sound) (hs : s.reach ≤ st.size)
    (hv : st.get? s name = some v) : v.reach ≤ st.size := by
  obtain ⟨t, ht, hlocal⟩ := List.exists_of_findSome?_eq_some hv
  exact h.reach_local? (h.reach_chain hs ht) hlocal

end Store

end TextTemplate
