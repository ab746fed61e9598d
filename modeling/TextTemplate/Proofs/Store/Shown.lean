import Mathlib.Data.List.Basic
import Mathlib.Order.Monotone.Basic
import TextTemplate.Proofs.Value.Renumber

/-! How deep values are shown. If scopes stand only finitely deep inside one another, they stand no
deeper than there are scopes, so that a value is shown as it would be down to any greater depth. -/

namespace TextTemplate

/-- What is chosen more and more often, and no more once it stood still, is chosen after as many
steps as there are choices. -/
theorem chosen_at_length {α : Type} {nodes : List α} {p : Nat → α → Bool}
    (hmono : ∀ n x, p n x = true → p (n + 1) x = true)
    (hstill : ∀ n, (∀ x ∈ nodes, p (n + 1) x = true → p n x = true) →
      ∀ x ∈ nodes, p (n + 2) x = true → p (n + 1) x = true)
    {n : Nat} {x : α} (hx : x ∈ nodes) (h : p n x = true) : p nodes.length x = true := by
  have hgrow : ∀ m n, m ≤ n → ∀ x, p m x = true → p n x = true := by
    intro m n hle x hm
    induction hle with
    | refl => exact hm
    | step _ ih => exact hmono _ x ih
  have hsub : ∀ m n, m ≤ n → (nodes.filter (p m)).Sublist (nodes.filter (p n)) := fun m n hle =>
    List.monotone_filter_right nodes (hgrow m n hle)
  have hsame : ∀ m n, m ≤ n → (nodes.filter (p m)).length = (nodes.filter (p n)).length →
      ∀ x ∈ nodes, p n x = true → p m x = true := by
    intro m n hle hlength x hx hn
    have heq := (hsub m n hle).eq_of_length hlength
    have hmem : x ∈ nodes.filter (p m) := heq ▸ List.mem_filter.2 ⟨hx, hn⟩
    exact (List.mem_filter.1 hmem).2
  have hstop : (nodes.filter (p (n + nodes.length))).length =
      (nodes.filter (p nodes.length)).length := by
    refine Nat.stabilises_of_monotone (f := fun n => (nodes.filter (p n)).length)
      (fun m n hle => (hsub m n hle).length_le) (fun m => List.length_filter_le _ _)
      (fun m hm => ?_) (Nat.le_add_left _ _)
    have hback := hstill m (hsame m (m + 1) (Nat.le_succ m) hm)
    congr 1
    refine List.filter_congr fun x hx => ?_
    exact Bool.eq_iff_iff.2 ⟨hmono (m + 1) x, hback x hx⟩
  refine hsame _ _ (Nat.le_add_left _ n) hstop.symm x hx ?_
  exact hgrow n _ (Nat.le_add_right _ _) x h

namespace Value

theorem mem_insideItems {t : Scope} {items : List Value} :
    t ∈ insideItems items ↔ ∃ v ∈ items, t ∈ v.inside := by
  induction items with
  | nil => simp [insideItems]
  | cons v rest ih => simp [insideItems, ih]

theorem mem_insideFields {t : Scope} {fields : List (String × Value)} :
    t ∈ insideFields fields ↔ ∃ name v, (name, v) ∈ fields ∧ t ∈ v.inside := by
  induction fields with
  | nil => simp [insideFields]
  | cons field rest ih =>
    obtain ⟨k, v⟩ := field
    simp only [insideFields, List.mem_append, ih, List.mem_cons, Prod.mk.injEq]
    constructor
    · rintro (h | ⟨name, w, hw, h⟩)
      · exact ⟨k, v, .inl ⟨rfl, rfl⟩, h⟩
      · exact ⟨name, w, .inr hw, h⟩
    · rintro ⟨name, w, ⟨rfl, rfl⟩ | hw, h⟩
      · exact .inl h
      · exact .inr ⟨name, w, hw, h⟩

theorem mem_insidePairs {t : Scope} {pairs : List (Value × Value)} :
    t ∈ insidePairs pairs ↔ ∃ k v, (k, v) ∈ pairs ∧ (t ∈ k.inside ∨ t ∈ v.inside) := by
  induction pairs with
  | nil => simp [insidePairs]
  | cons pair rest ih =>
    obtain ⟨k, v⟩ := pair
    simp only [insidePairs, List.mem_append, ih, List.mem_cons, Prod.mk.injEq]
    constructor
    · rintro (h | ⟨k', w, hw, h⟩)
      · exact ⟨k, v, .inl ⟨rfl, rfl⟩, h⟩
      · exact ⟨k', w, .inr hw, h⟩
    · rintro ⟨k', w, ⟨rfl, rfl⟩ | hw, h⟩
      · exact .inl h
      · exact .inr ⟨k', w, hw, h⟩

mutual

/-- What stands inside a scope that stands inside a value, stands inside the value. -/
theorem inside_trans {s t : Scope} (v : Value) (hs : s ∈ v.inside) (ht : t ∈ s.inside) :
    t ∈ v.inside := by
  cases v with
  | list items => exact insideItems_trans items hs ht
  | map fields => exact insideFields_trans fields hs ht
  | entries pairs => exact insidePairs_trans pairs hs ht
  | entry k v =>
    rw [inside, List.mem_append] at hs ⊢
    exact hs.imp (fun hs => inside_trans k hs ht) fun hs => inside_trans v hs ht
  | object identity typeName isRecord names props => exact insideFields_trans props hs ht
  | collection identity items length => exact insideFields_trans items hs ht
  | scope r =>
    rw [inside, List.mem_cons] at hs ⊢
    rcases hs with rfl | hs
    · exact .inr ht
    · exact .inr (scope_inside_trans r hs ht)
  | null | bool | int | float | text | date | function => cases hs

theorem scope_inside_trans {s t : Scope} (r : Scope) (hs : s ∈ r.inside) (ht : t ∈ s.inside) :
    t ∈ r.inside := by
  cases r with
  | «over» own outer =>
    rw [Scope.inside, List.mem_append] at hs ⊢
    exact hs.imp (fun hs => inside_trans own hs ht) fun hs => scope_inside_trans outer hs ht
  | host identity own => exact inside_trans own hs ht
  | turn key v index size outer =>
    cases key with
    | none =>
      rw [Scope.inside, List.mem_append] at hs ⊢
      exact hs.imp (fun hs => inside_trans v hs ht) fun hs => scope_inside_trans outer hs ht
    | some k =>
      rw [Scope.inside, List.mem_append, List.mem_append] at hs ⊢
      exact hs.imp (fun hs => hs.imp (fun hs => inside_trans k hs ht) fun hs =>
        inside_trans v hs ht) fun hs => scope_inside_trans outer hs ht
  | nowhere | overlay => cases hs

theorem insideItems_trans {s t : Scope} (items : List Value) (hs : s ∈ insideItems items)
    (ht : t ∈ s.inside) : t ∈ insideItems items := by
  cases items with
  | nil => cases hs
  | cons v rest =>
    rw [insideItems, List.mem_append] at hs ⊢
    exact hs.imp (fun hs => inside_trans v hs ht) fun hs => insideItems_trans rest hs ht

theorem insideFields_trans {s t : Scope} (fields : List (String × Value))
    (hs : s ∈ insideFields fields) (ht : t ∈ s.inside) : t ∈ insideFields fields := by
  cases fields with
  | nil => cases hs
  | cons field rest =>
    obtain ⟨k, v⟩ := field
    rw [insideFields, List.mem_append] at hs ⊢
    exact hs.imp (fun hs => inside_trans v hs ht) fun hs => insideFields_trans rest hs ht

theorem insidePairs_trans {s t : Scope} (pairs : List (Value × Value))
    (hs : s ∈ insidePairs pairs) (ht : t ∈ s.inside) : t ∈ insidePairs pairs := by
  cases pairs with
  | nil => cases hs
  | cons pair rest =>
    obtain ⟨k, v⟩ := pair
    rw [insidePairs, List.mem_append, List.mem_append] at hs ⊢
    exact hs.imp (fun hs => hs.imp (fun hs => inside_trans k hs ht) fun hs =>
      inside_trans v hs ht) fun hs => insidePairs_trans rest hs ht

end

mutual

/-- The scopes that are met stand inside the value. -/
theorem scopes_subset_inside (props : Bool) (v : Value) : v.scopes props ⊆ v.inside := by
  cases v with
  | list items => exact scopesItems_subset_inside props items
  | map fields =>
    intro s hs
    rw [scopes] at hs
    obtain ⟨⟨name, ss⟩, hmem, hs⟩ := List.mem_flatMap.1 hs
    exact scopesFields_subset_inside props fields hmem hs
  | entries pairs => exact scopesPairs_subset_inside props pairs
  | entry k v =>
    intro s hs
    rw [scopes, List.mem_append] at hs
    rw [inside, List.mem_append]
    exact hs.imp (fun hs => scopes_subset_inside props k hs) fun hs =>
      scopes_subset_inside props v hs
  | object identity typeName isRecord names fields =>
    intro s hs
    rw [scopes] at hs
    split at hs
    · obtain ⟨⟨name, ss⟩, hmem, hs⟩ := List.mem_flatMap.1 hs
      have hfield := Fields.mem_of_get? (Fields.mem_listed.1 hmem).2
      exact scopesFields_subset_inside props fields hfield hs
    · cases hs
  | collection identity items length =>
    intro s hs
    rw [scopes] at hs
    obtain ⟨⟨name, ss⟩, hmem, hs⟩ := List.mem_flatMap.1 hs
    have hfield := Fields.mem_of_get? (Fields.mem_listed.1 hmem).2
    exact scopesFields_subset_inside props items hfield hs
  | scope s => simp [scopes, inside]
  | null | bool | int | float | text | date | function => exact List.nil_subset _

theorem scopesItems_subset_inside (props : Bool) (items : List Value) :
    scopesItems props items ⊆ insideItems items := by
  cases items with
  | nil => exact List.nil_subset _
  | cons v rest =>
    intro s hs
    rw [scopesItems, List.mem_append] at hs
    rw [insideItems, List.mem_append]
    exact hs.imp (fun hs => scopes_subset_inside props v hs) fun hs =>
      scopesItems_subset_inside props rest hs

theorem scopesFields_subset_inside (props : Bool) (fields : List (String × Value)) {name : String}
    {ss : List Scope} (h : (name, ss) ∈ scopesFields props fields) :
    ss ⊆ insideFields fields := by
  cases fields with
  | nil => cases h
  | cons field rest =>
    obtain ⟨k, v⟩ := field
    intro s hs
    rw [scopesFields, List.mem_cons] at h
    rw [insideFields, List.mem_append]
    rcases h with heq | hmem
    · rw [show ss = v.scopes props from congrArg Prod.snd heq] at hs
      exact .inl (scopes_subset_inside props v hs)
    · exact .inr (scopesFields_subset_inside props rest hmem hs)

theorem scopesPairs_subset_inside (props : Bool) (pairs : List (Value × Value)) :
    scopesPairs props pairs ⊆ insidePairs pairs := by
  cases pairs with
  | nil => exact List.nil_subset _
  | cons pair rest =>
    obtain ⟨k, v⟩ := pair
    intro s hs
    rw [scopesPairs, List.mem_append, List.mem_append] at hs
    rw [insidePairs, List.mem_append, List.mem_append]
    exact hs.imp (fun hs => hs.imp (fun hs => scopes_subset_inside props k hs) fun hs =>
      scopes_subset_inside props v hs) fun hs => scopesPairs_subset_inside props rest hs

end

theorem mem_numbered {name : String} {v : Value} {items : List Value}
    (h : (name, v) ∈ numbered items) : v ∈ items := by
  obtain ⟨⟨w, i⟩, hmem, heq⟩ := List.mem_map.1 h
  cases heq
  exact (List.mem_zipIdx' hmem).2 ▸ List.getElem_mem _

/-- The entries of a value stand inside it. -/
theorem inside_of_mem_members {own v : Value} {name : String} {t : Scope}
    (h : (name, v) ∈ own.members) (ht : t ∈ v.inside) : t ∈ own.inside := by
  cases own with
  | map fields => exact mem_insideFields.2 ⟨name, v, h, ht⟩
  | entry k w =>
    rw [inside, List.mem_append]
    simp only [members, entryFields, List.mem_cons, Prod.mk.injEq, List.not_mem_nil, or_false] at h
    rcases h with ⟨-, rfl⟩ | ⟨-, rfl⟩
    · exact .inl ht
    · exact .inr ht
  | list items => exact mem_insideItems.2 ⟨v, mem_numbered h, ht⟩
  | entries pairs =>
    obtain ⟨⟨k, w⟩, hmem, rfl⟩ := List.mem_map.1 (mem_numbered h)
    rw [inside, List.mem_append] at ht
    exact mem_insidePairs.2 ⟨k, w, hmem, ht⟩
  | collection identity items length | object identity typeName isRecord names items =>
    have hfield := Fields.mem_of_get? (Fields.mem_listed.1 h).2
    exact mem_insideFields.2 ⟨name, v, hfield, ht⟩
  | null | bool | int | float | text | date | function | scope => cases h

/-- How a value is spelled depends only on the scopes that are met in it. -/
theorem spell_congr {f g : Scope → List Char} (v : Value) (h : ∀ s ∈ v.scopes false, g s = f s) :
    spell g v = spell f v := by
  have hzero : ∀ s ∈ v.scopes false, g (s.renumber 0) = f s := fun s hs => by
    rw [scope_renumber_eq_self s fun _ => rfl, h s hs]
  rw [← spell_renumber v hzero, renumber_eq_self v fun _ => rfl]

/-- The document of a value depends only on the scopes that are met in it. -/
theorem toJson_congr {keyText : Value → String} {f g : Scope → Json} (v : Value)
    (h : ∀ s ∈ v.scopes true, g s = f s) : v.toJson keyText g = v.toJson keyText f := by
  have hzero : ∀ s ∈ v.scopes true, g (s.renumber 0) = f s := fun s hs => by
    rw [scope_renumber_eq_self s fun _ => rfl, h s hs]
  have hkeys : ∀ w : Value, keyText (w.renumber 0) = keyText w := fun w => by
    rw [renumber_eq_self w fun _ => rfl]
  rw [← toJson_renumber hkeys v hzero, renumber_eq_self v fun _ => rfl]

end Value

@[simp] theorem Value.inside_ofNat (n : Nat) : (ofNat n).inside = [] := by
  unfold ofNat
  split <;> rfl

theorem inside_of_mem_turnMembers {key : Option Value} {value v : Value} {index size : Nat}
    {name : String} {outer t : Scope} (h : (name, v) ∈ turnMembers key value index size)
    (ht : t ∈ v.inside) : t ∈ (Scope.turn key value index size outer).inside := by
  have hcases : v = value ∨ some v = key ∨ v = .ofNat index ∨ v = .ofNat size := by
    simp only [turnMembers, List.mem_append, List.mem_cons, Option.mem_toList,
      Option.map_eq_some_iff, Prod.mk.injEq, List.not_mem_nil, or_false] at h
    rcases h with (⟨-, rfl⟩ | ⟨k, hk, -, rfl⟩) | ⟨-, rfl⟩ | ⟨-, rfl⟩
    · exact .inl rfl
    · exact .inr (.inl hk.symm)
    · exact .inr (.inr (.inl rfl))
    · exact .inr (.inr (.inr rfl))
  rcases hcases with rfl | rfl | rfl | rfl
  · cases key <;> simp [Scope.inside, ht]
  · simp [Scope.inside, ht]
  · simp at ht
  · simp at ht

namespace Store
variable {st : Store} {props : Bool} {s t : Scope} {v w : Value} {name : String} {n : Nat}

theorem inside_of_overlay {id : Nat} {o : Overlay} (ho : st.overlay? id = some o)
    (ht : t ∈ Value.insideFields o.overrides ∨ t ∈ o.base.scope.inside) : t ∈ st.inside := by
  refine List.mem_flatMap.2 ⟨o, ?_, List.mem_append.2 ht⟩
  exact Array.mem_toList_iff.2 (Array.mem_of_getElem? ho)

/-- The entries of a scope stand inside it, or else in the store. -/
theorem inside_of_mem_members (h : (name, v) ∈ st.members s) (ht : t ∈ v.inside) :
    t ∈ s.inside ∨ t ∈ st.inside := by
  fun_induction members st s with
  | case1 => cases h
  | case2 own outer => exact .inl (List.mem_append_left _ (Value.inside_of_mem_members h ht))
  | case3 identity own => exact .inl (Value.inside_of_mem_members h ht)
  | case4 key value index size outer => exact .inl (inside_of_mem_turnMembers h ht)
  | case5 id hnone => cases h
  | case6 id o ho below ih =>
    right
    rcases List.mem_append.1 h with hbelow | hover
    · have hmem : (name, v) ∈ below := (List.mem_filter.1 hbelow).1
      dsimp only [below] at hmem
      cases hbase : o.base with
      | fresh outer =>
        rw [hbase] at hmem
        cases hmem
      | delegate inner =>
        rw [hbase] at hmem
        by_cases hrank : inner.rank ≤ id
        · simp only [hrank, dite_true] at hmem
          refine (ih inner hrank hmem).elim (fun hin => ?_) fun hin => hin
          refine inside_of_overlay ho (.inr ?_)
          rwa [hbase]
        · simp only [hrank, dite_false] at hmem
          cases hmem
    · exact inside_of_overlay ho (.inl (Value.mem_insideFields.2 ⟨name, v, hover, ht⟩))

/-- What stands inside a scope that stands in the store, stands in the store. -/
theorem inside_trans (hs : s ∈ st.inside) (ht : t ∈ s.inside) : t ∈ st.inside := by
  obtain ⟨o, ho, hs⟩ := List.mem_flatMap.1 hs
  refine List.mem_flatMap.2 ⟨o, ho, List.mem_append.2 ?_⟩
  exact (List.mem_append.1 hs).imp (fun hs => Value.insideFields_trans _ hs ht) fun hs =>
    Value.scope_inside_trans _ hs ht

/-- The scopes that are met after a scope in a value stand there too, or in the store. -/
theorem inside_of_met (hs : s ∈ w.inside ++ st.inside) (h : (name, v) ∈ st.members s)
    (ht : t ∈ v.scopes props) : t ∈ w.inside ++ st.inside := by
  rw [List.mem_append] at hs ⊢
  rcases inside_of_mem_members h (Value.scopes_subset_inside props v ht) with hin | hstore
  · exact hs.imp (fun hs => Value.inside_trans w hs hin) fun hs => inside_trans hs hin
  · exact .inr hstore

/-- Whether scopes end is decided by each of them. -/
theorem ends_iff : st.ends props n v = true ↔
    ∀ s ∈ v.scopes props, st.ends props n (.scope s) = true := by
  cases n with
  | zero =>
    rw [ends, List.isEmpty_iff]
    refine ⟨fun h s hs => ?_, fun h => List.eq_nil_iff_forall_not_mem.2 fun s hs => ?_⟩
    · rw [h] at hs
      cases hs
    · cases h s hs
  | succ n => simp [ends, Value.scopes]

theorem ends_scope : st.ends props (n + 1) (.scope s) = true ↔
    ∀ name v, (name, v) ∈ st.members s → st.ends props n v = true := by
  simp [ends, Value.scopes]

theorem ends_succ (h : st.ends props n v = true) : st.ends props (n + 1) v = true := by
  induction n generalizing v with
  | zero =>
    rw [ends, List.isEmpty_iff] at h
    simp [ends, h]
  | succ n ih =>
    rw [ends_iff] at h ⊢
    intro s hs
    rw [ends_scope]
    exact fun name w hw => ih (ends_scope.1 (h s hs) name w hw)

/-- Scopes that end at all end as many levels deep as there are scopes. -/
theorem ends_length (h : st.ends props n v = true) :
    st.ends props (v.inside ++ st.inside).length v = true := by
  rw [ends_iff] at h ⊢
  intro s hs
  refine chosen_at_length (p := fun n s => st.ends props n (.scope s)) (fun n s => ends_succ)
    (fun n hstill t ht hends => ?_)
    (List.mem_append_left _ (Value.scopes_subset_inside props v hs)) (h s hs)
  rw [ends_scope] at hends ⊢
  intro name w hw
  have hmet := hends name w hw
  rw [ends_iff] at hmet ⊢
  exact fun r hr => hstill r (inside_of_met ht hw hr) (hmet r hr)

/-- Where scopes end, nothing more is shown further down. -/
theorem spell_of_ends {m : Nat} (h : st.ends false n v = true) (hle : n ≤ m) :
    st.spell m v = st.spell n v := by
  induction n generalizing m v with
  | zero =>
    have hnone : v.scopes false = [] := List.isEmpty_iff.1 h
    cases m with
    | zero => rfl
    | succ m =>
      refine Value.spell_congr v fun s hs => ?_
      rw [hnone] at hs
      cases hs
  | succ n ih =>
    cases m with
    | zero => cases hle
    | succ m =>
      refine Value.spell_congr v fun s hs => ?_
      have hentries (name : String) (w : Value) (hentry : (name, w) ∈ st.members s) :
          st.spell m w = st.spell n w :=
        ih (ends_scope.1 (ends_iff.1 h s hs) name w hentry) (Nat.le_of_succ_le_succ hle)
      split
      · exact congrArg Value.bracketed (Fields.map_congr hentries)
      · exact congrArg Value.braced (Fields.map_congr fun name w hentry =>
          congrArg (Value.assigned name.toList) (hentries name w hentry))

theorem exportTo_of_ends {m : Nat} (h : st.ends true n v = true) (hle : n ≤ m) :
    st.exportTo m v = st.exportTo n v := by
  induction n generalizing m v with
  | zero =>
    have hnone : v.scopes true = [] := List.isEmpty_iff.1 h
    cases m with
    | zero => rfl
    | succ m =>
      refine Value.toJson_congr v fun s hs => ?_
      rw [hnone] at hs
      cases hs
  | succ n ih =>
    cases m with
    | zero => cases hle
    | succ m =>
      refine Value.toJson_congr v fun s hs => ?_
      exact congrArg Json.ofMembers (Fields.map_congr fun name w hentry =>
        congrArg (Prod.mk name) (ih (ends_scope.1 (ends_iff.1 h s hs) name w hentry)
          (Nat.le_of_succ_le_succ hle)))

/-- A value is shown as deep as its scopes go, or without them if they never end. -/
theorem nesting_cases (st : Store) (props : Bool) (v : Value) :
    st.ends props (st.nesting props v) v = true ∨
      (∀ n, st.ends props n v = false) ∧ st.nesting props v = 0 := by
  unfold nesting
  dsimp only
  split
  · next hends => exact .inl hends
  · next hends =>
    refine .inr ⟨fun n => ?_, rfl⟩
    cases hn : st.ends props n v with
    | false => rfl
    | true => exact absurd (ends_length hn) hends

theorem spell_nesting (h : st.ends false n v = true) :
    st.spell (st.nesting false v) v = st.spell n v := by
  rcases nesting_cases st false v with hends | ⟨hnever, -⟩
  · rcases Nat.le_total n (st.nesting false v) with hle | hle
    · exact spell_of_ends h hle
    · exact (spell_of_ends hends hle).symm
  · rw [hnever n] at h
    cases h

theorem toJson_of_ends (h : st.ends true n v = true) : st.toJson v = st.exportTo n v := by
  rw [toJson]
  rcases nesting_cases st true v with hends | ⟨hnever, -⟩
  · rcases Nat.le_total n (st.nesting true v) with hle | hle
    · exact exportTo_of_ends h hle
    · exact (exportTo_of_ends hends hle).symm
  · rw [hnever n] at h
    cases h

variable {st' : Store}

/-- Two values of two stores are shown as deep if they end alike. -/
theorem nesting_cases_of_ends (hends : ∀ n, st'.ends props n v = st.ends props n w) :
    (∃ n, st.ends props n w = true ∧ st'.ends props n v = true) ∨
      st.nesting props w = 0 ∧ st'.nesting props v = 0 := by
  rcases nesting_cases st props w with hw | ⟨hnever, hzero⟩
  · exact .inl ⟨_, hw, (hends _).trans hw⟩
  · rcases nesting_cases st' props v with hv | ⟨-, hzero'⟩
    · rw [hends, hnever] at hv
      cases hv
    · exact .inr ⟨hzero, hzero'⟩

/-- Two values that end alike and are spelled alike down to every level are shown alike. -/
theorem display_of_levels (hends : ∀ n, st'.ends false n v = st.ends false n w)
    (hspell : ∀ n, st'.spell n v = st.spell n w) : st'.display v = st.display w := by
  rw [display, display]
  congr 1
  rcases nesting_cases_of_ends hends with ⟨n, hw, hv⟩ | ⟨hzero, hzero'⟩
  · rw [spell_nesting hv, spell_nesting hw, hspell]
  · rw [hzero, hzero', hspell]

theorem toJson_of_levels (hends : ∀ n, st'.ends true n v = st.ends true n w)
    (hexport : ∀ n, st'.exportTo n v = st.exportTo n w) : st'.toJson v = st.toJson w := by
  rcases nesting_cases_of_ends hends with ⟨n, hw, hv⟩ | ⟨hzero, hzero'⟩
  · rw [toJson_of_ends hv, toJson_of_ends hw, hexport]
  · rw [toJson, toJson, hzero, hzero', hexport]

end Store

end TextTemplate
