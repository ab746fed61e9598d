import TextTemplate.Proofs.Store.Reach

/-! What names mean in an overlay: what was set there, then what it stands over says. Sizes that it
does not really hold count the entries as they are, and so are the only answers that change while
nothing is set under their name. -/

namespace TextTemplate

namespace Value

/-- What a name means at two times: the same, or a size counted anew. -/
def Alike (name : String) (a b : Option Value) : Prop :=
  a = b ∨ ∃ m n, a = sizeMember? name m ∧ b = sizeMember? name n

theorem sizeMember?_eq_none_iff {name : String} {n : Nat} :
    sizeMember? name n = none ↔ isSizeName name = false := by
  unfold sizeMember? isSizeName
  by_cases hsize : name = "size"
  · simp [hsize]
  · by_cases hempty : name = "isEmpty" <;> simp [hsize, hempty]

/-- A counted size is neither null nor a scope, and no name means anything in it. -/
theorem plain_of_sizeMember? {name : String} {n : Nat} {v : Value}
    (h : sizeMember? name n = some v) :
    v ≠ .null ∧ (∀ s, v ≠ .scope s) ∧ ∀ other, v.member? other = none := by
  unfold sizeMember? at h
  split at h
  · cases h
    unfold ofNat
    split <;> simp [member?]
  · split at h
    · cases h
      simp [member?]
    · cases h

namespace Alike
variable {name : String} {a b c : Option Value}

theorem refl (a : Option Value) : Alike name a a := .inl rfl

theorem symm (h : Alike name a b) : Alike name b a := by
  rcases h with rfl | ⟨m, n, ha, hb⟩
  · exact .refl a
  · exact .inr ⟨n, m, hb, ha⟩

theorem trans (h : Alike name a b) (h' : Alike name b c) : Alike name a c := by
  rcases h with rfl | ⟨m, n, ha, hb⟩
  · exact h'
  · rcases h' with rfl | ⟨k, l, _, hc⟩
    · exact .inr ⟨m, n, ha, hb⟩
    · exact .inr ⟨m, l, ha, hc⟩

theorem sizeMember? (m n : Nat) :
    Alike name (Value.sizeMember? name m) (Value.sizeMember? name n) :=
  .inr ⟨m, n, rfl, rfl⟩

theorem eq_scope {s : Scope} (h : Alike name a b) (ha : a = some (.scope s)) :
    b = some (.scope s) := by
  rcases h with rfl | ⟨m, n, hm, _⟩
  · exact ha
  · exact absurd rfl ((plain_of_sizeMember? (hm.symm.trans ha)).2.1 s)

theorem eq_null (h : Alike name a b) (ha : a = some .null) : b = some .null := by
  rcases h with rfl | ⟨m, n, hm, _⟩
  · exact ha
  · exact absurd rfl (plain_of_sizeMember? (hm.symm.trans ha)).1

theorem eq_none_iff (h : Alike name a b) : a = none ↔ b = none := by
  rcases h with rfl | ⟨m, n, rfl, rfl⟩
  · exact Iff.rfl
  · rw [sizeMember?_eq_none_iff, sizeMember?_eq_none_iff]

theorem eq_none (h : Alike name a b) (ha : a = none) : b = none := h.eq_none_iff.1 ha

theorem or {a' b' : Option Value} (h : Alike name a b) (h' : Alike name a' b') :
    Alike name (a.or a') (b.or b') := by
  cases ha : a with
  | none =>
    rw [h.eq_none ha]
    exact h'
  | some v =>
    cases hb : b with
    | none =>
      rw [h.symm.eq_none hb] at ha
      cases ha
    | some w =>
      rw [ha, hb] at h
      exact h

/-- An answer that gives way to a count in both cases, or in none. -/
theorem counted (h : Alike name a b) (counting : Bool) (m n : Nat) :
    Alike name (a.bind fun v => if counting then Value.sizeMember? name m else some v)
      (b.bind fun v => if counting then Value.sizeMember? name n else some v) := by
  cases ha : a with
  | none =>
    rw [h.eq_none ha]
    exact .refl none
  | some v =>
    cases hb : b with
    | none =>
      rw [h.symm.eq_none hb] at ha
      cases ha
    | some w =>
      cases counting with
      | false =>
        rw [ha, hb] at h
        exact h
      | true => exact .sizeMember? m n

theorem findSome? {scopes : List Scope} {f g : Scope → Option Value}
    (h : ∀ s ∈ scopes, Alike name (f s) (g s)) :
    Alike name (scopes.findSome? f) (scopes.findSome? g) := by
  induction scopes with
  | nil => exact .refl none
  | cons s rest ih =>
    have hrest := ih fun t ht => h t (List.mem_cons_of_mem s ht)
    have hor : ∀ k : Scope → Option Value,
        (s :: rest).findSome? k = (k s).or (rest.findSome? k) := by
      intro k
      rw [List.findSome?_cons]
      cases k s <;> rfl
    rw [hor, hor]
    exact (h s List.mem_cons_self).or hrest

end Alike

theorem readIndex?_of_isSizeName {name : String} (h : isSizeName name = true) :
    readIndex? name = none := by
  unfold isSizeName at h
  rcases Bool.or_eq_true_iff.1 h with hname | hname <;> rw [eq_of_beq hname] <;> decide

theorem mem_propertyNames {isRecord : Bool} {name : String} {names : List String} :
    name ∈ propertyNames isRecord names ↔ name ∈ names := by
  cases isRecord with
  | true => exact Iff.rfl
  | false => exact List.mem_mergeSort

theorem length_numbered (items : List Value) : (numbered items).length = items.length := by
  simp [numbered]

/-- How many entries, items or characters a value says that it has. A host object may say
anything. -/
def number? : Value → Option Nat
  | map fields => some fields.length
  | entry _ _ => some 2
  | list items => some items.length
  | entries pairs => some pairs.length
  | collection _ _ length => some length
  | text s => some s.length
  | _ => none

/-- A size that a value answers without holding it as an entry is the number that the value says, or
the answer of a host object that does not list it. -/
theorem sizeMember?_of_member? {own v : Value} {name : String} (hname : isSizeName name = true)
    (hhas : Fields.has name own.members = false) (h : own.member? name = some v) :
    (∃ n, own.number? = some n ∧ some v = sizeMember? name n) ∨
      ∃ identity typeName isRecord names props,
        own = object identity typeName isRecord names props ∧ name ∉ names ∧
          Fields.get? name props = some v := by
  have notHeld {fields : List (String × Value)} (hfields : Fields.has name fields = false) :
      Fields.get? name fields = none := by simpa [Fields.has] using hfields
  cases own with
  | map fields =>
    have hget : Fields.get? name fields = none := notHeld hhas
    rw [member?, hget, Option.none_or] at h
    exact .inl ⟨_, rfl, h.symm⟩
  | entry k w =>
    have hget : Fields.get? name (entryFields k w) = none := notHeld hhas
    rw [member?, hget, Option.none_or] at h
    exact .inl ⟨_, rfl, h.symm⟩
  | list | entries | collection =>
    rw [member?, indexedMember?, readIndex?_of_isSizeName hname] at h
    exact .inl ⟨_, rfl, h.symm⟩
  | object identity typeName isRecord names props =>
    refine .inr ⟨_, _, _, _, _, rfl, fun hmem => ?_, h⟩
    rw [member?] at h
    have hlisted : Fields.has name (object identity typeName isRecord names props).members = true :=
      (Fields.has_listed _ _ _).2 ⟨mem_propertyNames.2 hmem, by rw [Fields.has, h]; rfl⟩
    rw [hhas] at hlisted
    cases hlisted
  | text s =>
    refine .inl ⟨s.length, rfl, ?_⟩
    unfold isSizeName at hname
    rcases Bool.or_eq_true_iff.1 hname with heq | heq
    · rw [eq_of_beq heq] at h
      simp [member?] at h
    · rw [eq_of_beq heq] at h ⊢
      have hempty : (s == "") = (s.length == 0) := by
        rw [Bool.eq_iff_iff]
        simp
      simpa [member?, sizeMember?, hempty] using h.symm
  | null | bool | int | float | date | function | scope => cases h

/-- If the value is a host object that answers a size without listing it, the answer is a count of
something. Sizes of other values are counts anyhow. -/
def SaysCount (name : String) : Value → Prop
  | object _ _ _ names props => isSizeName name = true → name ∉ names →
    ∀ v, Fields.get? name props = some v → ∃ n, some v = sizeMember? name n
  | _ => True

theorem SaysCount.sizeMember? {own v : Value} {name : String} (h : own.SaysCount name)
    (hname : isSizeName name = true) (hhas : Fields.has name own.members = false)
    (hv : own.member? name = some v) : ∃ n, some v = Value.sizeMember? name n := by
  rcases sizeMember?_of_member? hname hhas hv with ⟨n, -, hn⟩ |
    ⟨_, _, _, _, _, rfl, hunlisted, hget⟩
  · exact ⟨n, hn⟩
  · exact h hname hunlisted v hget

end Value

/-- The value that a scope is over. -/
def Scope.own? : Scope → Option Value
  | .over own _ => some own
  | .host _ own => some own
  | _ => none

/-- A size that a host object answers in the scope without listing it is a count of something. -/
def Scope.SaysCount (s : Scope) (name : String) : Prop :=
  ∀ own, s.own? = some own → own.SaysCount name

namespace Store
variable {st st' : Store} {id : Nat} {o : Overlay} {s t outer : Scope} {name : String}
  {v : Value}

/-- The entries of a scope are decided by the overlays that it can reach. -/
theorem members_of_agree {bound : Nat} (h : ∀ id < bound, st'.overlay? id = st.overlay? id)
    (hs : s.rank ≤ bound) : st'.members s = st.members s := by
  fun_induction members st s with
  | case1 => rw [members]
  | case2 own outer => rw [members]
  | case3 identity own => rw [members]
  | case4 key value index size outer => rw [members]
  | case5 id hnone => rw [members, h id hs, hnone]
  | case6 id o ho below ih =>
    rw [members, h id hs, ho]
    dsimp only [below]
    cases hbase : o.base with
    | fresh outer => rfl
    | delegate inner =>
      by_cases hrank : inner.rank ≤ id
      · simp only [hrank, dite_true]
        rw [ih inner hrank (Nat.le_trans hrank (Nat.le_of_lt hs))]
      · simp only [hrank, dite_false]

theorem isIndexed_of_agree {bound : Nat} (h : ∀ id < bound, st'.overlay? id = st.overlay? id)
    (hs : s.rank ≤ bound) : st'.isIndexed s = st.isIndexed s := by
  fun_induction isIndexed st s with
  | case1 own outer => rw [isIndexed]
  | case2 identity own => rw [isIndexed]
  | case3 id overrides inner ho hrank ih =>
    rw [isIndexed, h id hs, ho]
    simp only [hrank, dite_true]
    exact ih (Nat.le_trans hrank (Nat.le_of_lt hs))
  | case4 id overrides inner ho hrank =>
    rw [isIndexed, h id hs, ho]
    simp only [hrank, dite_false]
  | case5 id hother =>
    rw [isIndexed, h id hs]
    split
    · next overrides inner ho => exact absurd ho (hother overrides inner)
    · rfl
  | case6 s hover hhost hoverlay =>
    cases s with
    | nowhere | turn => rw [isIndexed] <;> simp
    | «over» own outer => exact absurd rfl (hover own outer)
    | host identity own => exact absurd rfl (hhost identity own)
    | overlay id => exact absurd rfl (hoverlay id)

theorem Ordered.rank_le (h : st.Ordered) (ho : st.overlay? id = some o)
    (hbase : o.base = .delegate s) : s.rank ≤ id := by
  have hrank := h id o ho
  rwa [hbase] at hrank

theorem members_fresh (ho : st.overlay? id = some o) (hbase : o.base = .fresh outer) :
    st.members (.overlay id) = o.overrides := by
  rw [members, ho]
  simp only [hbase, List.filter_nil, List.nil_append]

theorem members_delegate (ho : st.overlay? id = some o) (hbase : o.base = .delegate s)
    (hrank : s.rank ≤ id) :
    st.members (.overlay id) =
      (st.members s).filter (fun (k, _) => !o.overrides.has k) ++ o.overrides := by
  rw [members, ho]
  simp only [hbase, hrank, dite_true]

theorem has_members_fresh (ho : st.overlay? id = some o) (hbase : o.base = .fresh outer) :
    Fields.has name (st.members (.overlay id)) = o.overrides.has name := by
  rw [members_fresh ho hbase]

theorem has_members_delegate (ho : st.overlay? id = some o) (hbase : o.base = .delegate s)
    (hrank : s.rank ≤ id) :
    Fields.has name (st.members (.overlay id)) =
      (Fields.has name (st.members s) || o.overrides.has name) := by
  rw [members_delegate ho hbase hrank]
  rw [Fields.has_append, Fields.has_filter name fun k => !o.overrides.has k]
  cases o.overrides.has name <;> simp

theorem has_members_of_override (ho : st.overlay? id = some o)
    (hget : o.overrides.get? name = some v) :
    Fields.has name (st.members (.overlay id)) = true := by
  rw [members, ho]
  dsimp only
  have hhas : o.overrides.has name = true := by rw [Fields.has, hget]; rfl
  rw [Fields.has_append, hhas, Bool.or_true]

theorem local?_of_override (ho : st.overlay? id = some o) (hget : o.overrides.get? name = some v) :
    st.local? (.overlay id) name = some v := by
  rw [local?, ho]
  simp only [hget]

theorem local?_fresh (ho : st.overlay? id = some o) (hget : o.overrides.get? name = none)
    (hbase : o.base = .fresh outer) :
    st.local? (.overlay id) name =
      Value.sizeMember? name (st.members (.overlay id)).length := by
  rw [local?, ho]
  simp only [hget, hbase]

theorem local?_delegate (ho : st.overlay? id = some o) (hget : o.overrides.get? name = none)
    (hbase : o.base = .delegate s) (hrank : s.rank ≤ id) :
    st.local? (.overlay id) name =
      (st.local? s name).bind fun w =>
        if Value.isSizeName name && !Fields.has name (st.members s) then
          Value.sizeMember? name (st.members (.overlay id)).length
        else some w := by
  rw [local?, ho]
  simp only [hget, hbase, hrank, dite_true]
  cases st.local? s name <;> rfl

theorem chain_overlay (ho : st.overlay? id = some o) (hrank : o.base.rank ≤ id) :
    st.chain (.overlay id) = .overlay id :: o.base.outside (st.chain o.base.scope) := by
  rw [chain, ho]
  simp only [hrank, dite_true]

/-- No scope outside leads to a newer overlay. -/
theorem rank_le_of_mem_chain (h : t ∈ st.chain s) : t.rank ≤ s.rank := by
  fun_induction chain st s with
  | case1 => cases h
  | case2 own outer ih =>
    rcases List.mem_cons.1 h with rfl | hmem
    · exact Nat.le_refl _
    · exact ih hmem
  | case3 identity own =>
    obtain rfl := List.mem_singleton.1 h
    exact Nat.le_refl _
  | case4 key value index size outer ih =>
    rcases List.mem_cons.1 h with rfl | hmem
    · exact Nat.le_refl _
    · exact ih hmem
  | case5 id ih =>
    rcases List.mem_cons.1 h with rfl | hmem
    · exact Nat.le_refl _
    · cases ho : st.overlay? id with
      | none =>
        rw [ho] at hmem
        cases hmem
      | some o =>
        rw [ho] at hmem
        by_cases hrank : o.base.rank ≤ id
        · simp only [hrank, dite_true] at hmem
          have hle : t.rank ≤ o.base.rank := ih o hrank (Base.mem_of_mem_outside hmem)
          simp only [Scope.rank]
          omega
        · simp only [hrank, dite_false] at hmem
          cases hmem

/-- A scope answers first itself. -/
theorem chain_eq_cons (st : Store) (hs : s ≠ .nowhere) : ∃ outside, st.chain s = s :: outside := by
  cases s with
  | nowhere => exact absurd rfl hs
  | _ => exact ⟨_, by rw [chain]⟩

theorem get?_of_chain {outside : List Scope} (h : st.chain s = t :: outside) :
    st.get? s name = (st.local? t name).or (outside.findSome? (st.local? · name)) := by
  rw [get?, h, List.findSome?_cons]
  cases st.local? t name <;> rfl

theorem get?_of_local? (h : st.local? s name = some v) : st.get? s name = some v := by
  by_cases hs : s = .nowhere
  · rw [hs, local?] at h
    cases h
  · obtain ⟨outside, hchain⟩ := chain_eq_cons st hs
    rw [get?_of_chain hchain, h, Option.some_or]

theorem get?_over (st : Store) (own : Value) (outer : Scope) (name : String) :
    st.get? (.over own outer) name = (own.member? name).or (st.get? outer name) := by
  have hchain : st.chain (.over own outer) = .over own outer :: st.chain outer := by rw [chain]
  rw [get?_of_chain hchain, local?]
  rfl

/-- If the scope answers a size of this name that it does not hold as an entry, it is the number of
its entries. -/
def Counts (st : Store) (s : Scope) (name : String) : Prop :=
  Value.isSizeName name = true → Fields.has name (st.members s) = false →
    ∀ v, st.local? s name = some v → some v = Value.sizeMember? name (st.members s).length

theorem counts_turn {key : Option Value} {value : Value} {index size : Nat} :
    st.Counts (.turn key value index size outer) name := by
  intro _ hhas v hv
  rw [members, Fields.has] at hhas
  rw [local?] at hv
  rw [hv] at hhas
  cases hhas

/-- An overlay counts its entries, whatever it stands over. -/
theorem counts_overlay (hordered : st.Ordered) : st.Counts (.overlay id) name := by
  intro hname hhas v hv
  cases ho : st.overlay? id with
  | none =>
    rw [local?, ho] at hv
    cases hv
  | some o =>
    cases hget : o.overrides.get? name with
    | some w =>
      rw [has_members_of_override ho hget] at hhas
      cases hhas
    | none =>
      cases hbase : o.base with
      | fresh outer =>
        rw [local?_fresh ho hget hbase] at hv
        exact hv.symm
      | delegate inner =>
        have hrank := hordered.rank_le ho hbase
        rw [has_members_delegate ho hbase hrank, Bool.or_eq_false_iff] at hhas
        rw [local?_delegate ho hget hbase hrank, hname, hhas.1] at hv
        obtain ⟨w, _, hw⟩ := Option.bind_eq_some_iff.1 hv
        exact hw.symm

/-- A size that a scope answers without holding it as an entry is a count, if no host object answers
otherwise. -/
theorem sizeMember?_of_local? (hordered : st.Ordered) (hanswer : s.SaysCount name)
    (hname : Value.isSizeName name = true) (hhas : Fields.has name (st.members s) = false)
    (h : st.local? s name = some v) : ∃ n, some v = Value.sizeMember? name n := by
  cases s with
  | nowhere =>
    rw [local?] at h
    cases h
  | «over» own outer | host identity own =>
    rw [members] at hhas
    rw [local?] at h
    exact (hanswer own rfl).sizeMember? hname hhas h
  | turn => exact ⟨_, counts_turn hname hhas v h⟩
  | overlay id => exact ⟨_, counts_overlay hordered hname hhas v h⟩

/-- An overlay in which a name is not set answers as the scope that it stands over, sizes apart, if
these were counts. -/
theorem local?_wrapped (hordered : st.Ordered) (ho : st.overlay? id = some o)
    (hget : o.overrides.get? name = none) (hbase : o.base = .delegate s)
    (hanswer : s.SaysCount name) :
    Value.Alike name (st.local? s name) (st.local? (.overlay id) name) := by
  have hrank := hordered.rank_le ho hbase
  rw [local?_delegate ho hget hbase hrank]
  cases hlocal : st.local? s name with
  | none => exact .refl none
  | some w =>
    rw [Option.bind_some]
    split
    · next hcounted =>
      obtain ⟨hname, hhas⟩ := Bool.and_eq_true_iff.1 hcounted
      obtain ⟨n, hn⟩ :=
        sizeMember?_of_local? hordered hanswer hname (Bool.not_eq_true' _ ▸ hhas) hlocal
      rw [hn]
      exact .sizeMember? _ _
    · exact .refl _

theorem get?_wrapped (hordered : st.Ordered) (ho : st.overlay? id = some o)
    (hget : o.overrides.get? name = none) (hbase : o.base = .delegate s)
    (hanswer : s.SaysCount name) :
    Value.Alike name (st.get? s name) (st.get? (.overlay id) name) := by
  have hlocal := local?_wrapped hordered ho hget hbase hanswer
  have hchain := chain_overlay ho (hordered id o ho)
  rw [hbase] at hchain
  rw [get?_of_chain hchain]
  by_cases hs : s = .nowhere
  · subst hs
    simpa [get?, chain, local?, Base.outside, Base.scope] using hlocal
  · obtain ⟨outside, houtside⟩ := chain_eq_cons st hs
    rw [get?_of_chain houtside]
    simp only [Base.outside, Base.scope, houtside, List.tail_cons]
    exact hlocal.or (.refl _)

end Store

end TextTemplate
