import TextTemplate.Proofs.Data.Missing
import TextTemplate.Proofs.Store.Extends
import TextTemplate.Proofs.Value.Positions

/-! A new overlay answers as the scope that it is laid over, except where that scope says that it
has another size than the number of its entries: the overlay counts them. -/

namespace TextTemplate

namespace Value
variable {own : Value} {name : String} {m n : Nat}

/-- If the value answers a size of this name that it does not hold as an entry, it is the number of
its entries. -/
def Counts (own : Value) (name : String) : Prop :=
  isSizeName name = true → Fields.has name own.members = false →
    ∀ v, own.member? name = some v → some v = sizeMember? name own.members.length

/-- A size of the value is not the number of its entries: it is text with characters, a host
collection that is not as long as it has items, or a host object that answers a size without listing
it, and not with that number. -/
def Miscounts (own : Value) : Prop :=
  match own with
  | text s => s ≠ ""
  | collection _ _ length => ofNat length ≠ ofNat own.members.length
  | object _ _ _ names props => ∃ name v, isSizeName name = true ∧ name ∉ names ∧
      Fields.get? name props = some v ∧ some v ≠ sizeMember? name own.members.length
  | _ => False

/-- Counts that are the same number are zero alike. -/
theorem eq_zero_iff_of_ofNat_eq (h : ofNat m = ofNat n) : m = 0 ↔ n = 0 := by
  have hzero : ∀ {k l}, ofNat k = ofNat l → k = 0 → l = 0 := by
    intro k l h hk
    subst hk
    by_cases hl : l < 2 ^ 63
    · have hread := asInt?_ofNat hl
      rw [← h, asInt?_ofNat (by decide)] at hread
      exact (Option.some.inj hread).symm
    · rw [ofNat, ofNat, if_pos (by decide), if_neg (by omega)] at h
      cases h
  exact ⟨hzero h, hzero h.symm⟩

theorem sizeMember?_congr (h : ofNat m = ofNat n) (name : String) :
    sizeMember? name m = sizeMember? name n := by
  have hzero : (m == 0) = (n == 0) := by
    rw [Bool.eq_iff_iff, beq_iff_eq, beq_iff_eq]
    exact eq_zero_iff_of_ofNat_eq h
  rw [sizeMember?, sizeMember?, h, hzero]

/-- A value that says the number of its entries answers sizes by it. -/
theorem counts_of_number? (hn : own.number? = some n) (h : ofNat n = ofNat own.members.length)
    (name : String) : own.Counts name := by
  intro hname hhas v hv
  rcases sizeMember?_of_member? hname hhas hv with ⟨k, hk, hvk⟩ | ⟨_, _, _, _, _, rfl, -, -⟩
  · cases hn.symm.trans hk
    rw [hvk, sizeMember?_congr h]
  · cases hn

theorem counts_text_iff {s : String} : (∀ name, (text s).Counts name) ↔ s = "" := by
  constructor
  · intro hcounts
    have hempty := hcounts "isEmpty" rfl rfl (bool (s == "")) rfl
    simpa [sizeMember?, members] using hempty
  · rintro rfl
    exact counts_of_number? rfl rfl

theorem counts_collection_iff {identity length : Nat} {items : List (String × Value)} :
    (∀ name, (collection identity items length).Counts name) ↔
      ofNat length = ofNat (collection identity items length).members.length := by
  refine ⟨fun hcounts => ?_, counts_of_number? rfl⟩
  have hhas : Fields.has "size" (collection identity items length).members = false := by
    rw [← Bool.not_eq_true, members, Fields.has_listed]
    exact fun h => not_mem_positions rfl length h.1
  exact Option.some.inj (hcounts "size" rfl hhas (ofNat length) rfl)

theorem has_members_object {identity : Nat} {typeName : String} {isRecord : Bool}
    {names : List String} {props : List (String × Value)} {v : Value}
    (h : Fields.get? name props = some v) :
    Fields.has name (object identity typeName isRecord names props).members = false ↔
      name ∉ names := by
  have hhas : Fields.has name props = true := by rw [Fields.has, h]; rfl
  rw [← Bool.not_eq_true, members, Fields.has_listed, mem_propertyNames, hhas]
  simp

/-- A value counts its entries under all names of sizes, unless it miscounts them. -/
theorem counts_iff : (∀ name, own.Counts name) ↔ ¬ own.Miscounts := by
  cases own with
  | text s => exact counts_text_iff.trans not_not.symm
  | collection identity items length => exact counts_collection_iff.trans not_not.symm
  | object identity typeName isRecord names props =>
    constructor
    · rintro hcounts ⟨name, v, hname, hunlisted, hget, hother⟩
      exact hother (hcounts name hname ((has_members_object hget).2 hunlisted) v hget)
    · intro hcounts name hname hhas v hget
      by_contra hother
      exact hcounts ⟨name, v, hname, (has_members_object hget).1 hhas, hget, hother⟩
  | map | entry => exact ⟨fun _ => id, fun _ => counts_of_number? rfl rfl⟩
  | list | entries =>
    refine ⟨fun _ => id, fun _ => counts_of_number? rfl ?_⟩
    simp [members, length_numbered]
  | null | bool | int | float | date | function | scope =>
    exact ⟨fun _ => id, fun _ _ _ _ v hv => by cases hv⟩

end Value

namespace Store
variable {st st' : Store} {s s' : Scope} {id : Nat} {name : String} {P : String → Prop}

theorem counts_of_not_isSizeName (h : Value.isSizeName name = false) : st.Counts s name := by
  intro hname
  rw [h] at hname
  cases hname

theorem counts_over {own : Value} {outer : Scope} :
    st.Counts (.over own outer) name ↔ own.Counts name := by
  rw [Counts, Value.Counts, members, local?]

theorem counts_host {identity : Nat} {own : Value} :
    st.Counts (.host identity own) name ↔ own.Counts name := by
  rw [Counts, Value.Counts, members, local?]

/-- A scope counts its entries, unless it is over a value that miscounts them. -/
theorem counts_iff_own (hordered : st.Ordered) :
    (∀ name, st.Counts s name) ↔ ∀ own, s.own? = some own → ¬ own.Miscounts := by
  have hnone : s.own? = none → ∀ own, s.own? = some own → ¬ own.Miscounts := by
    intro hnone own hown
    rw [hnone] at hown
    cases hown
  cases s with
  | nowhere =>
    refine ⟨fun _ => hnone rfl, fun _ _ _ _ v hv => ?_⟩
    rw [local?] at hv
    cases hv
  | «over» own outer =>
    simp only [counts_over, Value.counts_iff, Scope.own?, Option.some.injEq, forall_eq']
  | host identity own =>
    simp only [counts_host, Value.counts_iff, Scope.own?, Option.some.injEq, forall_eq']
  | turn => exact ⟨fun _ => hnone rfl, fun _ _ => counts_turn⟩
  | overlay id => exact ⟨fun _ => hnone rfl, fun _ _ => counts_overlay hordered⟩

/-- A new overlay has the entries of what it stands over. -/
theorem members_wrapped (ho : st.overlay? id = some ⟨[], .delegate s⟩) (hrank : s.rank ≤ id) :
    st.members (.overlay id) = st.members s := by
  rw [members_delegate ho rfl hrank, List.append_nil]
  exact List.filter_eq_self.2 fun _ _ => rfl

/-- A new overlay answers a name as what it stands over, but for a size that is no count. -/
theorem local?_wrapped_eq_iff (ho : st.overlay? id = some ⟨[], .delegate s⟩) (hrank : s.rank ≤ id) :
    st.local? (.overlay id) name = st.local? s name ↔ st.Counts s name := by
  rw [local?_delegate ho rfl rfl hrank, members_wrapped ho hrank]
  cases hlocal : st.local? s name with
  | none => exact ⟨fun _ _ _ v hv => (by rw [hlocal] at hv; cases hv), fun _ => rfl⟩
  | some w =>
    rw [Option.bind_some]
    cases hname : Value.isSizeName name with
    | false => exact ⟨fun _ => counts_of_not_isSizeName hname, fun _ => rfl⟩
    | true =>
      cases hhas : Fields.has name (st.members s) with
      | true =>
        refine ⟨fun _ _ hhas' => ?_, fun _ => rfl⟩
        rw [hhas] at hhas'
        cases hhas'
      | false =>
        refine ⟨fun hsame _ _ v hv => ?_, fun hcounts => (hcounts hname hhas w hlocal).symm⟩
        rw [← hv, hlocal]
        exact hsame.symm

theorem get?_wrapped_eq (hordered : st.Ordered) (ho : st.overlay? id = some ⟨[], .delegate s⟩)
    (hlocal : st.local? (.overlay id) name = st.local? s name) :
    st.get? (.overlay id) name = st.get? s name := by
  have hchain := chain_overlay ho (hordered id _ ho)
  rw [get?_of_chain hchain, hlocal]
  by_cases hs : s = .nowhere
  · subst hs
    simp [get?, chain, local?, Base.outside, Base.scope]
  · obtain ⟨outside, houtside⟩ := chain_eq_cons st hs
    rw [get?_of_chain houtside]
    simp only [Base.outside, Base.scope, houtside, List.tail_cons]

theorem counts_of_extends (hext : st.Extends st') (hordered : st.Ordered) (hs : s.rank ≤ st.size) :
    st'.Counts s name ↔ st.Counts s name := by
  rw [Counts, Counts, hext.members_eq hs, hext.local?_eq hordered hs]

/-- Names of which `P` holds mean the same in the two scopes. -/
def SameBy (P : String → Prop) (st : Store) (s : Scope) (st' : Store) (s' : Scope) : Prop :=
  ∀ name, P name → st'.local? s' name = st.local? s name ∧ st'.get? s' name = st.get? s name

namespace SameBy

theorem laidOver (h : SameBy P st s st' s') (own : Value) :
    SameBy P st (.over own s) st' (.over own s') := by
  intro name hname
  rw [local?, local?, get?_over, get?_over, (h name hname).2]
  exact ⟨rfl, rfl⟩

theorem of_extends (h : st.Extends st') (hordered : st.Ordered) (hs : s.rank ≤ st.size) :
    SameBy P st s st' s := fun name _ => ⟨h.local?_eq hordered hs name, h.get?_eq hordered hs name⟩

theorem toScope {v : Value} (h : SameBy P st s st' s') (hext : st.Extends st')
    (hordered : st.Ordered) (hv : v.reach ≤ st.size) :
    SameBy P st (v.toScope s) st' (v.toScope s') := by
  by_cases hscope : ∃ t, v = .scope t
  · obtain ⟨t, rfl⟩ := hscope
    exact .of_extends hext hordered (Nat.le_trans (Scope.rank_le_reach t) hv)
  · rw [not_exists] at hscope
    rw [Value.toScope_of_plain hscope, Value.toScope_of_plain hscope]
    exact h.laidOver v

/-- A path of such names leads to the same value from either scope. -/
theorem follow_eq {names : List String} (h : SameBy P st s st' s') (hext : st.Extends st')
    (hst : st.Sound) (hs : s.reach ≤ st.size) (hnames : ∀ name ∈ names, P name) (hne : names ≠ []) :
    follow st'.get? s' names = follow st.get? s names ∧
      follow st'.local? s' names = follow st.local? s names := by
  induction names generalizing s s' with
  | nil => exact absurd rfl hne
  | cons name rest ih =>
    obtain ⟨hname, hrest⟩ := List.forall_mem_cons.1 hnames
    obtain ⟨hlocal, hget⟩ := h name hname
    cases rest with
    | nil => exact ⟨hget, hlocal⟩
    | cons next rest =>
      have hscope : ∀ v : Value, v.reach ≤ st.size →
          follow st'.get? (v.toScope s') (next :: rest) =
              follow st.get? (v.toScope s) (next :: rest) ∧
            follow st'.local? (v.toScope s') (next :: rest) =
              follow st.local? (v.toScope s) (next :: rest) := by
        intro v hv
        have hreach := Value.reach_toScope v s
        exact ih (h.toScope hext hst.ordered hv) (by omega) hrest (List.cons_ne_nil _ _)
      rw [follow_cons, follow_cons, follow_cons, follow_cons, hget, hlocal]
      constructor
      · split
        · rfl
        · rfl
        · next v _ hv => exact (hscope v (hst.reach_get? hs hv)).1
      · split
        · rfl
        · rfl
        · next v _ hv => exact (hscope v (hst.reach_local? hs hv)).2

end SameBy

end Store

end TextTemplate
