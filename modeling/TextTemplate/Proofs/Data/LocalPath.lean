import TextTemplate.Proofs.Data.Through
import TextTemplate.Proofs.Store.Positions
import TextTemplate.Proofs.Value.SameBut

/-! Local lookup along a path never looks outside. Where scopes are the same in what they have of
their own, it comes to the same, whatever lies outside each of them. Scopes that stand inside values
are met on the way; of them no more is asked. -/

namespace TextTemplate

namespace Store

/-- The two scopes have the same of their own, and so has what an overlay stands over. What lies
outside them plays no part. -/
inductive SameLayer (st st' : Store) (R : Scope → Scope → Prop) : Scope → Scope → Prop where
  | nowhere : SameLayer st st' R .nowhere .nowhere
  | over {own own' : Value} {outer outer' : Scope} : own.SameBut R own' →
      SameLayer st st' R (.over own outer) (.over own' outer')
  | host {identity : Nat} {own own' : Value} : own.SameBut R own' →
      SameLayer st st' R (.host identity own) (.host identity own')
  | turn {key key' : Option Value} {value value' : Value} {index size : Nat}
      {outer outer' : Scope} : Option.Rel (Value.SameBut R) key key' → value.SameBut R value' →
      SameLayer st st' R (.turn key value index size outer) (.turn key' value' index size outer')
  | overlaid {id id' : Nat} {o o' : Overlay} {s s' : Scope} : st.overlay? id = some o →
      st'.overlay? id' = some o' → o.base = .delegate s → o'.base = .delegate s' →
      Value.SameFields R o.overrides o'.overrides → SameLayer st st' R s s' →
      SameLayer st st' R (.overlay id) (.overlay id')
  | fresh {id id' : Nat} {o o' : Overlay} {outer outer' : Scope} : st.overlay? id = some o →
      st'.overlay? id' = some o' → o.base = .fresh outer → o'.base = .fresh outer' →
      Value.SameFields R o.overrides o'.overrides →
      SameLayer st st' R (.overlay id) (.overlay id')

/-- Scopes that are related are the same layers. -/
def Keeps (R : Scope → Scope → Prop) (st st' : Store) : Prop :=
  ∀ s s', R s s' → SameLayer st st' R s s'

namespace SameLayer
variable {st st' : Store} {R : Scope → Scope → Prop} {s s' : Scope} {v v' : Value}

theorem turnMembers {key key' : Option Value} {value value' : Value} {index size : Nat}
    (hkey : Option.Rel (Value.SameBut R) key key') (hvalue : value.SameBut R value') :
    Value.SameFields R (turnMembers key value index size) (turnMembers key' value' index size) := by
  have hcounts : Value.SameFields R [("index", .ofNat index), ("size", .ofNat size)]
      [("index", .ofNat index), ("size", .ofNat size)] :=
    .cons (.plain (Value.inside_ofNat _)) (.cons (.plain (Value.inside_ofNat _)) .nil)
  cases hkey with
  | none => exact .cons hvalue hcounts
  | some hk => exact .cons hvalue (.cons hk hcounts)

variable (hst : st.Ordered) (hst' : st'.Ordered)
include hst hst'

theorem names_eq (h : SameLayer st st' R s s') : st'.names s' = st.names s := by
  induction h with
  | nowhere => rw [names, names, members, members]
  | «over» hown | host hown =>
    rw [names, names, members, members]
    exact hown.names_members
  | turn hkey hvalue =>
    rw [names, names, members, members]
    exact (turnMembers hkey hvalue).names_eq
  | @overlaid id id' o o' s s' ho ho' hbase hbase' hover _ ih =>
    have hrank := hst.rank_le ho hbase
    have hrank' := hst'.rank_le ho' hbase'
    rw [names, names, members_delegate ho hbase hrank, members_delegate ho' hbase' hrank',
      List.map_append, List.map_append, Fields.names_filter fun k => !o.overrides.has k,
      Fields.names_filter fun k => !o'.overrides.has k, hover.names_eq]
    -- The two overlays replace the same names of what is below them.
    simp only [hover.has_eq]
    rw [names, names] at ih
    rw [ih]
  | fresh ho ho' hbase hbase' hover =>
    rw [names, names, members_fresh ho hbase, members_fresh ho' hbase', hover.names_eq]

theorem length_members_eq (h : SameLayer st st' R s s') :
    (st'.members s').length = (st.members s).length := by
  have hnames := congrArg List.length (h.names_eq hst hst')
  rwa [names, names, List.length_map, List.length_map] at hnames

theorem has_members_eq (h : SameLayer st st' R s s') (name : String) :
    Fields.has name (st'.members s') = Fields.has name (st.members s) := by
  rw [Bool.eq_iff_iff, ← mem_names, ← mem_names, h.names_eq hst hst']

/-- What a name means in the scope itself. -/
theorem local? (h : SameLayer st st' R s s') (name : String) :
    Option.Rel (Value.SameBut R) (st.local? s name) (st'.local? s' name) := by
  induction h with
  | nowhere =>
    rw [Store.local?, Store.local?]
    exact .none
  | «over» hown | host hown =>
    rw [Store.local?, Store.local?]
    exact hown.member? name
  | turn hkey hvalue =>
    rw [Store.local?, Store.local?]
    exact (turnMembers hkey hvalue).get? name
  | @overlaid id id' o o' s s' ho ho' hbase hbase' hover hbelow ih =>
    have hcount := length_members_eq hst hst' (.overlaid ho ho' hbase hbase' hover hbelow)
    have hhas := has_members_eq hst hst' hbelow name
    have hget := hover.get? name
    generalize hnow : Fields.get? name o.overrides = w, hnow' : Fields.get? name o'.overrides = w'
      at hget
    cases hget with
    | some hv =>
      rw [local?_of_override ho hnow, local?_of_override ho' hnow']
      exact .some hv
    | none =>
      rw [local?_delegate ho hnow hbase (hst.rank_le ho hbase),
        local?_delegate ho' hnow' hbase' (hst'.rank_le ho' hbase'), hcount, hhas]
      -- Below, a size may be another value than the count that stands for it in the overlay.
      generalize st.local? s name = below, st'.local? s' name = below' at ih
      cases ih with
      | none => exact .none
      | some hv =>
        rw [Option.bind_some, Option.bind_some]
        split
        · exact Value.sameBut_sizeMember? name _
        · exact .some hv
  | @fresh id id' o o' outer outer' ho ho' hbase hbase' hover =>
    have hcount := length_members_eq hst hst' (.fresh ho ho' hbase hbase' hover)
    have hget := hover.get? name
    generalize hnow : Fields.get? name o.overrides = w, hnow' : Fields.get? name o'.overrides = w'
      at hget
    cases hget with
    | some hv =>
      rw [local?_of_override ho hnow, local?_of_override ho' hnow']
      exact .some hv
    | none =>
      rw [local?_fresh ho hnow hbase, local?_fresh ho' hnow' hbase', hcount]
      exact Value.sameBut_sizeMember? name _

omit hst hst' in
/-- The scopes over the same value are the same layer, wherever it was found. -/
theorem toScope (hR : Keeps R st st') (hv : v.SameBut R v') (s s' : Scope) :
    SameLayer st st' R (v.toScope s) (v'.toScope s') := by
  cases hv with
  | plain hv =>
    rw [hv.toScope, hv.toScope]
    exact .over (.plain hv)
  | scope h => exact hR _ _ h
  | list h => exact .over (.list h)
  | map h => exact .over (.map h)
  | entries h => exact .over (.entries h)
  | entry hk hv => exact .over (.entry hk hv)
  | object h => exact .over (.object h)
  | collection h => exact .over (.collection h)

/-- What a path of names leads to, if each means something in the scope itself. -/
theorem follow_local? (hR : Keeps R st st') (h : SameLayer st st' R s s') {names : List String}
    (hne : names ≠ []) :
    Option.Rel (Value.SameBut R) (follow st.local? s names) (follow st'.local? s' names) := by
  induction names generalizing s s' with
  | nil => exact absurd rfl hne
  | cons name rest ih =>
    have hlocal := local? hst hst' h name
    cases rest with
    | nil => exact hlocal
    | cons next rest =>
      generalize hnow : st.local? s name = found, hnow' : st'.local? s' name = found' at hlocal
      cases hlocal with
      | none =>
        rw [follow_of_none hnow, follow_of_none hnow']
        exact .none
      | @some v v' hv =>
        by_cases hnull : v = .null
        · have hnull' := hv.eq_null_iff.1 hnull
          subst hnull hnull'
          rw [follow_cons, follow_cons, hnow, hnow']
          exact .none
        · have hnull' := mt hv.eq_null_iff.2 hnull
          rw [follow_of_found hnow hnull (List.cons_ne_nil _ _),
            follow_of_found hnow' hnull' (List.cons_ne_nil _ _)]
          exact ih (toScope hR hv s s') (List.cons_ne_nil _ _)

end SameLayer

/-- What each name on a path means in its scope itself, it means there by inheritance too. -/
theorem follow_get?_of_local? {st : Store} {s : Scope} {names : List String} {v : Value}
    (h : follow st.local? s names = some v) : follow st.get? s names = some v := by
  induction names generalizing s with
  | nil => exact h
  | cons name rest ih =>
    cases rest with
    | nil => exact get?_of_local? h
    | cons next rest =>
      obtain ⟨w, hw, hnull, hnext⟩ := follow_cons_eq_some.1 h
      exact follow_cons_eq_some.2 ⟨w, get?_of_local? hw, hnull, ih hnext⟩

/-- Local lookup along a path comes to the same in scopes that are the same in what they have of
their own, whatever lies outside them: to the very same value if no scope stands inside it. What it
finds is found by inheritance too. -/
theorem SameLayer.resolves_alike {st st' : Store} {R : Scope → Scope → Prop} {s s' : Scope}
    (h : SameLayer st st' R s s') (hR : Keeps R st st') (hst : st.Ordered) (hst' : st'.Ordered)
    (p : DataPath) :
    (p.segments ≠ [] →
      Option.Rel (Value.SameBut R) (st.resolveLocal s p) (st'.resolveLocal s' p) ∧
      ∀ v, v.Plain → st.resolveLocal s p = some v → st'.resolveLocal s' p = some v) ∧
    ∀ v, st.resolveLocal s p = some v → st.resolve s p = some v := by
  refine ⟨fun hne => ?_, fun v hv => follow_get?_of_local? hv⟩
  have hsame := h.follow_local? hst hst' hR hne
  refine ⟨hsame, fun v hplain hv => ?_⟩
  have hlocal : follow st.local? s p.segments = some v := hv
  rw [hlocal] at hsame
  generalize hfound : follow st'.local? s' p.segments = found at hsame
  cases hsame with
  | some hsame => rw [resolveLocal, hfound, hsame.eq_of_plain v hplain]

/-- The same is written into a map inside another map and into one inside an overlay. Of the two
overlays that this makes, one holds the other, and both have other numbers the second time; what was
written is found in either. -/
theorem SameLayer.resolves_alike_inside_overlay :
    let below := Value.map [("a", .map [("b", .text "inner")])]
    let outside : Scope := .over (.map [("c", .null)]) .nowhere
    let d := Data.put ⟨.empty, .over below outside⟩ ⟨["a", "d"]⟩ (.bool true)
    let st := (Store.empty.push (.fresh .nowhere)).2.set 0 "c" .null
    let d' := Data.put ⟨st, .over below (.overlay 0)⟩ ⟨["a", "d"]⟩ (.bool true)
    let R := fun s s' => s = Scope.overlay 1 ∧ s' = Scope.overlay 2
    SameLayer d.store d'.store R d.scope d'.scope ∧ Keeps R d.store d'.store ∧
      d.store.Ordered ∧ d'.store.Ordered ∧
      d'.store.resolveLocal d'.scope ⟨["a", "d"]⟩ = some (.bool true) ∧
      d.store.resolve d.scope ⟨["a", "d"]⟩ = some (.bool true) := by
  intro below outside d st d' R
  have hlast : d.store.overlay? 1 = some ⟨[("d", .bool true)], .delegate
      (.over (.map [("b", .text "inner")]) (.overlay 0))⟩ := by cbv
  have hlast' : d'.store.overlay? 2 = some ⟨[("d", .bool true)], .delegate
      (.over (.map [("b", .text "inner")]) (.overlay 1))⟩ := by cbv
  have hfirst : d.store.overlay? 0 = some ⟨[("a", .scope (.overlay 1))], .delegate
      (.over below outside)⟩ := by cbv
  have hfirst' : d'.store.overlay? 1 = some ⟨[("a", .scope (.overlay 2))], .delegate
      (.over below (.overlay 0))⟩ := by cbv
  have hkeeps : Keeps R d.store d'.store := by
    rintro _ _ ⟨rfl, rfl⟩
    exact .overlaid hlast hlast' rfl rfl (.cons (.plain rfl) .nil) (.over (.plain rfl))
  have hsame : SameLayer d.store d'.store R d.scope d'.scope :=
    .overlaid hfirst hfirst' rfl rfl (.cons (.scope ⟨rfl, rfl⟩) .nil) (.over (.plain rfl))
  have hsound : Data.Sound ⟨.empty, .over below outside⟩ := ⟨sound_empty, Nat.zero_le _⟩
  have hordered := (hsound.put (v := .bool true) (Nat.zero_le _) ⟨["a", "d"]⟩).1.store.ordered
  have hst : st.Sound := (sound_empty.push (Nat.zero_le _)).set (v := .null) (Nat.zero_le _)
  have hsound' : Data.Sound ⟨st, .over below (.overlay 0)⟩ := ⟨hst, Nat.le_refl _⟩
  have hordered' := (hsound'.put (v := .bool true) (Nat.zero_le _) ⟨["a", "d"]⟩).1.store.ordered
  have hwritten : d.store.resolveLocal d.scope ⟨["a", "d"]⟩ = some (.bool true) := by cbv
  obtain ⟨hlocal, houter⟩ := hsame.resolves_alike hkeeps hordered hordered' ⟨["a", "d"]⟩
  have hfound := (hlocal (List.cons_ne_nil _ _)).2 (.bool true) rfl hwritten
  exact ⟨hsame, hkeeps, hordered, hordered', hfound, houter _ hwritten⟩

end Store

end TextTemplate
