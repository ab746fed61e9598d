import TextTemplate.Proofs.Store.Lookup

/-! What stays as it is when a store grows: names that were not set mean the same in every scope
that was there before, apart from sizes, which count the entries as they are. -/

namespace TextTemplate

namespace Store

/-- Every overlay is still there over the same base, and holds what it held but for some names. -/
structure Grows (names : List String) (st st' : Store) : Prop where
  kept : ∀ id o, st.overlay? id = some o → ∃ o', st'.overlay? id = some o' ∧ o'.base = o.base ∧
    ∀ name, name ∉ names → o'.overrides.get? name = o.overrides.get? name

namespace Grows
variable {names others : List String} {st st' st'' : Store}

theorem refl (names : List String) (st : Store) : Grows names st st :=
  ⟨fun _ o h => ⟨o, h, rfl, fun _ _ => rfl⟩⟩

theorem mono (h : Grows names st st') (hsub : names ⊆ others) : Grows others st st' := by
  constructor
  intro id o ho
  obtain ⟨o', ho', hbase, hget⟩ := h.kept id o ho
  exact ⟨o', ho', hbase, fun name hname => hget name fun hmem => hname (hsub hmem)⟩

theorem trans (h : Grows names st st') (h' : Grows names st' st'') : Grows names st st'' := by
  constructor
  intro id o ho
  obtain ⟨o', ho', hbase, hget⟩ := h.kept id o ho
  obtain ⟨o'', ho'', hbase', hget'⟩ := h'.kept id o' ho'
  exact ⟨o'', ho'', hbase'.trans hbase, fun name hname =>
    (hget' name hname).trans (hget name hname)⟩

theorem push (names : List String) (st : Store) (base : Base) :
    Grows names st (st.push base).2 := by
  constructor
  intro id o ho
  have hid := lt_size ho
  refine ⟨o, ?_, rfl, fun _ _ => rfl⟩
  rw [overlay?_push, if_neg (by omega), ho]

theorem set (st : Store) (id : Nat) (name : String) (v : Value) :
    Grows [name] st (st.set id name v) := by
  constructor
  intro other o ho
  by_cases hid : id = other
  · refine ⟨{ o with overrides := o.overrides.set name v }, ?_, rfl, fun k hk => ?_⟩
    · rw [overlay?_set, if_pos hid, ho]
      rfl
    · rw [Fields.get?_set, if_neg]
      exact fun heq => hk (by rw [heq]; exact List.mem_singleton_self k)
  · exact ⟨o, by rw [overlay?_set, if_neg hid, ho], rfl, fun _ _ => rfl⟩

theorem size_le (h : Grows names st st') : st.size ≤ st'.size := by
  apply Nat.le_of_not_lt
  intro hlt
  obtain ⟨o, ho⟩ := overlay?_of_lt hlt
  obtain ⟨o', ho', _⟩ := h.kept _ o ho
  have := lt_size ho'
  omega

variable {s : Scope} {name : String}

/-- The scopes outside a scope are those that were there. -/
theorem chain_eq (h : Grows names st st') (hs : s.rank ≤ st.size) : st'.chain s = st.chain s := by
  fun_induction chain st s with
  | case1 => rw [chain]
  | case2 own outer ih => rw [chain, ih hs]
  | case3 identity own => rw [chain]
  | case4 key value index size outer ih => rw [chain, ih hs]
  | case5 id ih =>
    obtain ⟨o, ho⟩ := overlay?_of_lt hs
    obtain ⟨o', ho', hbase, _⟩ := h.kept id o ho
    rw [chain, ho, ho']
    simp only [hbase]
    by_cases hrank : o.base.rank ≤ id
    · simp only [hrank, dite_true]
      rw [ih o hrank (Nat.le_trans hrank (Nat.le_of_lt hs))]
    · simp only [hrank, dite_false]

variable (hordered : st.Ordered)
include hordered

/-- A scope has the same entries under the names that were not set. -/
theorem has_members_eq (h : Grows names st st') (hs : s.rank ≤ st.size) (hname : name ∉ names) :
    Fields.has name (st'.members s) = Fields.has name (st.members s) := by
  -- The induction goes down through what overlays stand over.
  induction hn : s.rank using Nat.strongRecOn generalizing s with
  | ind n ih =>
    cases s with
    | overlay id =>
      obtain ⟨o, ho⟩ := overlay?_of_lt hs
      obtain ⟨o', ho', hbase', hget⟩ := h.kept id o ho
      have hhas : o'.overrides.has name = o.overrides.has name := by
        rw [Fields.has, Fields.has, hget name hname]
      cases hbase : o.base with
      | fresh outer =>
        rw [has_members_fresh ho hbase, has_members_fresh ho' (hbase'.trans hbase), hhas]
      | delegate inner =>
        have hrank := hordered.rank_le ho hbase
        have hinner := ih inner.rank (by rw [← hn, Scope.rank]; omega)
          (Nat.le_trans hrank (Nat.le_of_lt hs)) rfl
        rw [has_members_delegate ho hbase hrank,
          has_members_delegate ho' (hbase'.trans hbase) hrank, hinner, hhas]
    | _ => rw [members, members]

/-- In the scope itself, a name that was not set means what it meant, sizes apart. -/
theorem local?_alike (h : Grows names st st') (hs : s.rank ≤ st.size) (hname : name ∉ names) :
    Value.Alike name (st.local? s name) (st'.local? s name) := by
  induction hn : s.rank using Nat.strongRecOn generalizing s with
  | ind n ih =>
    cases s with
    | overlay id =>
      obtain ⟨o, ho⟩ := overlay?_of_lt hs
      obtain ⟨o', ho', hbase', hget⟩ := h.kept id o ho
      replace hget := hget name hname
      cases hover : o.overrides.get? name with
      | some v =>
        rw [local?_of_override ho hover, local?_of_override ho' (hget.trans hover)]
        exact .refl _
      | none =>
        cases hbase : o.base with
        | fresh outer =>
          rw [local?_fresh ho hover hbase,
            local?_fresh ho' (hget.trans hover) (hbase'.trans hbase)]
          exact .sizeMember? _ _
        | delegate inner =>
          have hrank := hordered.rank_le ho hbase
          have hinner := ih inner.rank (by rw [← hn, Scope.rank]; omega)
            (Nat.le_trans hrank (Nat.le_of_lt hs)) rfl
          have hhas := h.has_members_eq hordered (Nat.le_trans hrank (Nat.le_of_lt hs)) hname
          rw [local?_delegate ho hover hbase hrank,
            local?_delegate ho' (hget.trans hover) (hbase'.trans hbase) hrank, hhas]
          exact hinner.counted _ _ _
    | _ =>
      rw [local?, local?]
      exact .refl _

/-- A name that was not set means what it meant, sizes apart. -/
theorem get?_alike (h : Grows names st st') (hs : s.rank ≤ st.size) (hname : name ∉ names) :
    Value.Alike name (st.get? s name) (st'.get? s name) := by
  unfold get?
  rw [h.chain_eq hs]
  apply Value.Alike.findSome?
  intro t ht
  exact h.local?_alike hordered (Nat.le_trans (rank_le_of_mem_chain ht) hs) hname

end Grows

end Store

end TextTemplate
