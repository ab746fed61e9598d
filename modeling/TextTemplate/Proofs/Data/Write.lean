import TextTemplate.Data.Basic
import TextTemplate.Proofs.Store.Growth

/-! What one write does, hop by hop: it enters the overlay behind each name but the last, and sets
the last one there. It touches no name that is not on its path, so that following the path again
leads to what was written. -/

namespace TextTemplate

namespace Store
variable {st : Store} {id : Nat} {name : String} {v : Value} {base : Base}

theorem overlay?_lay (h : id < st.size) :
    ∃ o, (st.lay id name base).2.overlay? id = some o ∧
      o.overrides.get? name = some (.scope (.overlay st.size)) := by
  obtain ⟨o, ho⟩ := overlay?_of_lt h
  refine ⟨{ o with overrides := o.overrides.set name (.scope (.overlay st.size)) }, ?_, ?_⟩
  · rw [lay, overlay?_set, if_pos rfl, overlay?_push, if_neg (by omega), ho]
    rfl
  · rw [Fields.get?_set, if_pos rfl]

/-- The new overlay itself has nothing set. -/
theorem overlay?_lay_new (h : id < st.size) :
    (st.lay id name base).2.overlay? st.size = some ⟨[], base⟩ := by
  rw [lay, overlay?_set, if_neg (by omega), overlay?_push, if_pos rfl]

theorem size_lay : (st.lay id name base).2.size = st.size + 1 := by
  simp [lay]

theorem grows_lay : Grows [name] st (st.lay id name base).2 :=
  (Grows.push [name] st base).trans (.set _ id name _)

theorem Sound.lay (h : st.Sound) (hbase : base.scope.reach ≤ st.size) :
    (st.lay id name base).2.Sound := by
  apply (h.push hbase).set
  simp [Value.reach, Scope.reach]

/-- An overlay is entered that is there already, or a new one is laid over nothing or over the scope
of what is there. -/
theorem enter_cases (st : Store) (id : Nat) (name : String) :
    (∃ inner, st.get? (.overlay id) name = some (.scope (.overlay inner)) ∧
      st.enter id name = (inner, st)) ∨
    ((st.get? (.overlay id) name = none ∨ st.get? (.overlay id) name = some .null) ∧
      st.enter id name = st.lay id name (.fresh (.overlay id))) ∨
    (∃ found, st.get? (.overlay id) name = some found ∧ found ≠ .null ∧
      (∀ inner, found ≠ .scope (.overlay inner)) ∧
      st.enter id name = st.lay id name (.delegate (found.toScope (.overlay id)))) := by
  unfold enter
  cases hfound : st.get? (.overlay id) name with
  | none => exact .inr (.inl ⟨.inl rfl, rfl⟩)
  | some found =>
    cases found with
    | null => exact .inr (.inl ⟨.inr rfl, rfl⟩)
    | scope s =>
      cases s with
      | overlay inner => exact .inl ⟨inner, rfl, rfl⟩
      | _ =>
        refine .inr (.inr ⟨_, rfl, nofun, fun inner h => ?_, rfl⟩)
        cases h
    | bool | int | float | text | list | map | entries | entry | date | object | collection
      | function =>
      refine .inr (.inr ⟨_, rfl, nofun, nofun, rfl⟩)

/-- Entering keeps the store sound and changes nothing under other names. -/
theorem Sound.enter (h : st.Sound) (hid : id < st.size) (name : String) :
    (st.enter id name).2.Sound ∧ (st.enter id name).1 < (st.enter id name).2.size ∧
      Grows [name] st (st.enter id name).2 := by
  have hreach : (Scope.overlay id).reach ≤ st.size := hid
  rcases enter_cases st id name with ⟨inner, hget, henter⟩ | ⟨_, henter⟩ |
    ⟨found, hget, _, _, henter⟩
  · rw [henter]
    exact ⟨h, h.reach_get? hreach hget, .refl _ st⟩
  · rw [henter]
    refine ⟨h.lay hreach, ?_, grows_lay⟩
    rw [size_lay]
    exact Nat.lt_succ_self _
  · rw [henter]
    have hfound := h.reach_get? hreach hget
    have hscope := Value.reach_toScope found (.overlay id)
    refine ⟨h.lay (Nat.le_trans hscope (by omega)), ?_, grows_lay⟩
    rw [size_lay]
    exact Nat.lt_succ_self _

/-- The overlay that was entered is what the name means from then on. -/
theorem get?_enter (hid : id < st.size) (name : String) :
    (st.enter id name).2.get? (.overlay id) name =
      some (.scope (.overlay (st.enter id name).1)) := by
  rcases enter_cases st id name with ⟨inner, hget, henter⟩ | ⟨_, henter⟩ | ⟨_, _, _, _, henter⟩
  · rw [henter]
    exact hget
  all_goals
    rw [henter]
    obtain ⟨o, ho, hover⟩ := overlay?_lay hid
    exact get?_of_local? (local?_of_override ho hover)

theorem write_cons (st : Store) (id : Nat) (v : Value) (name next : String) (rest : List String) :
    st.write id v (name :: next :: rest) =
      (st.enter id name).2.write (st.enter id name).1 v (next :: rest) := rfl

theorem grows_write (h : st.Sound) (hid : id < st.size) (v : Value) (names : List String) :
    Grows names st (st.write id v names) := by
  induction names generalizing st id with
  | nil => exact .refl [] st
  | cons name rest ih =>
    cases rest with
    | nil => exact .set st id name v
    | cons next rest =>
      obtain ⟨hsound, hlt, hgrows⟩ := h.enter hid name
      rw [write_cons]
      have hfirst : Grows (name :: next :: rest) st (st.enter id name).2 := hgrows.mono (by simp)
      have hrest := (ih hsound hlt).mono (List.subset_cons_self name _)
      exact hfirst.trans hrest

theorem Sound.write (h : st.Sound) (hid : id < st.size) (hv : v.reach ≤ st.size)
    (names : List String) : (st.write id v names).Sound := by
  induction names generalizing st id with
  | nil => exact h
  | cons name rest ih =>
    cases rest with
    | nil => exact h.set hv
    | cons next rest =>
      obtain ⟨hsound, hlt, hgrows⟩ := h.enter hid name
      rw [write_cons]
      exact ih hsound hlt (Nat.le_trans hv hgrows.size_le)

theorem follow_cons (look : Scope → String → Option Value) (s : Scope) (name next : String)
    (rest : List String) :
    follow look s (name :: next :: rest) =
      match look s name with
      | none | some .null => none
      | some v => follow look (v.toScope s) (next :: rest) := rfl

theorem follow_of_found {look : Scope → String → Option Value} {s : Scope} {names : List String}
    (hv : look s name = some v) (hnull : v ≠ .null) (hne : names ≠ []) :
    follow look s (name :: names) = follow look (v.toScope s) names := by
  obtain ⟨next, rest, rfl⟩ := List.exists_cons_of_ne_nil hne
  rw [follow_cons, hv]
  cases v with
  | null => exact absurd rfl hnull
  | _ => rfl

theorem follow_of_scope {look : Scope → String → Option Value} {s t : Scope} {next : String}
    {rest : List String} (h : look s name = some (.scope t)) :
    follow look s (name :: next :: rest) = follow look t (next :: rest) := by
  rw [follow_cons, h]
  rfl

theorem follow_of_none {look : Scope → String → Option Value} {s : Scope} {next : String}
    {rest : List String} (h : look s name = none) :
    follow look s (name :: next :: rest) = none := by
  rw [follow_cons, h]

/-- A path leads no further than the names on it do. -/
theorem reach_of_follow {look : Scope → String → Option Value} {bound : Nat}
    (hlook : ∀ s name v, s.reach ≤ bound → look s name = some v → v.reach ≤ bound) {s : Scope}
    (hs : s.reach ≤ bound) {names : List String} (hv : follow look s names = some v) :
    v.reach ≤ bound := by
  induction names generalizing s with
  | nil =>
    cases hv
    exact hs
  | cons name rest ih =>
    cases rest with
    | nil => exact hlook s name v hs hv
    | cons next rest =>
      rw [follow_cons] at hv
      split at hv
      · cases hv
      · cases hv
      · next found _ hfound =>
        have hscope := Value.reach_toScope found s
        have := hlook s name found hs hfound
        exact ih (by omega) hv

/-- What is found at a path leads only to overlays of the store. -/
theorem Sound.reach_follow (h : st.Sound) {s : Scope} (hs : s.reach ≤ st.size) {names : List String}
    (hv : follow st.get? s names = some v) : v.reach ≤ st.size :=
  reach_of_follow (fun _ _ _ hs => h.reach_get? hs) hs hv

theorem set_overrides (hid : id < st.size) (name : String) (v : Value) :
    (st.set id name v).local? (.overlay id) name = some v := by
  obtain ⟨o, ho⟩ := overlay?_of_lt hid
  have hset : (st.set id name v).overlay? id =
      some { o with overrides := o.overrides.set name v } := by
    rw [overlay?_set, if_pos rfl, ho]
    rfl
  refine local?_of_override hset ?_
  rw [Fields.get?_set, if_pos rfl]

/-- What is written at a path of distinct names is found by following it again: no hop of the write
changes what an earlier name means. -/
theorem Sound.follow_write (h : st.Sound) (hid : id < st.size) {names : List String}
    (hne : names ≠ []) (hdistinct : names.Nodup) (v : Value) :
    follow (st.write id v names).get? (.overlay id) names = some v := by
  induction names generalizing st id with
  | nil => exact absurd rfl hne
  | cons name rest ih =>
    cases rest with
    | nil => exact get?_of_local? (set_overrides hid name v)
    | cons next rest =>
      obtain ⟨hname, hrest⟩ := List.nodup_cons.1 hdistinct
      obtain ⟨hsound, hlt, hgrows⟩ := h.enter hid name
      have hentered := get?_enter hid name
      have hlater := grows_write hsound hlt v (next :: rest)
      have hrank : (Scope.overlay id).rank ≤ (st.enter id name).2.size :=
        Nat.lt_of_lt_of_le hid hgrows.size_le
      have hfound := (hlater.get?_alike hsound.ordered hrank hname).eq_scope hentered
      rw [write_cons, follow_of_scope hfound]
      exact ih hsound hlt (List.cons_ne_nil _ _) hrest

end Store

end TextTemplate
