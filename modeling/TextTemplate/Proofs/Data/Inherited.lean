import TextTemplate.Proofs.Data.Through
import TextTemplate.Proofs.Value.Plain

/-! Inheritance along a path. Where no scope stands inside a value, every value on the way is one
scope further in, and a name after the path means what the innermost of all these scopes says. -/

namespace TextTemplate

namespace Store

/-- The scope and those outside it are over values, and hold values, that no scope stands inside. -/
inductive Plain (st : Store) : Scope → Prop where
  | nowhere : Plain st .nowhere
  | over {own : Value} {outer : Scope} : own.Plain → Plain st outer → Plain st (.over own outer)
  | host {identity : Nat} {own : Value} : own.Plain → Plain st (.host identity own)
  | turn {key : Option Value} {value : Value} {index size : Nat} {outer : Scope} :
      (∀ k ∈ key, k.Plain) → value.Plain → Plain st outer →
      Plain st (.turn key value index size outer)
  | overlay {id : Nat} {o : Overlay} : st.overlay? id = some o →
      Value.insideFields o.overrides = [] → Plain st o.base.scope → Plain st (.overlay id)

/-- The names lead from the scope to the values, one after the other: each means a value other than
null in the scope over the one before, or outside it. -/
inductive Visits (st : Store) : Scope → List String → List Value → Prop where
  | start {s : Scope} : Visits st s [] []
  | hop {s : Scope} {name : String} {v : Value} {names : List String} {values : List Value} :
      st.get? s name = some v → v ≠ .null → Visits st (v.toScope s) names values →
      Visits st s (name :: names) (v :: values)

/-- The scopes over values, each inside the one before: the last first. -/
def scopesOver (s : Scope) : List Value → List Scope
  | [] => []
  | v :: rest => scopesOver (.over v s) rest ++ [.over v s]

variable {st : Store} {s t : Scope} {name : String} {v : Value} {names : List String}
  {values : List Value}

theorem Plain.turnMembers {key : Option Value} {value : Value} {index size : Nat}
    (hkey : ∀ k ∈ key, k.Plain) (hvalue : value.Plain)
    (hv : Fields.get? name (turnMembers key value index size) = some v) : v.Plain := by
  have hnone : (Scope.turn key value index size .nowhere).inside = [] := by
    cases key with
    | none => simpa [Scope.inside, Value.Plain] using hvalue
    | some k => simpa [Scope.inside, Value.Plain] using And.intro (hkey k rfl) hvalue
  exact List.eq_nil_iff_forall_not_mem.2 fun t ht => List.eq_nil_iff_forall_not_mem.1 hnone t
    (inside_of_mem_turnMembers (Fields.mem_of_get? hv) ht)

/-- Names mean values that no scope stands inside, at any depth of overlays. -/
theorem Plain.local? (h : st.Plain s) (hv : st.local? s name = some v) : v.Plain := by
  induction h generalizing v with
  | nowhere =>
    rw [Store.local?] at hv
    cases hv
  | «over» hown _ _ | host hown =>
    rw [Store.local?] at hv
    exact hown.member? hv
  | turn hkey hvalue _ _ =>
    rw [Store.local?] at hv
    exact Plain.turnMembers hkey hvalue hv
  | @overlay id o ho hover _ ih =>
    cases hget : o.overrides.get? name with
    | some w =>
      rw [local?_of_override ho hget] at hv
      cases hv
      exact .of_get? hover hget
    | none =>
      cases hbase : o.base with
      | fresh outer =>
        rw [local?_fresh ho hget hbase] at hv
        exact Value.inside_sizeMember? hv
      | delegate inner =>
        rw [hbase] at ih
        by_cases hrank : inner.rank ≤ id
        · rw [local?_delegate ho hget hbase hrank] at hv
          obtain ⟨w, hw, hv⟩ := Option.bind_eq_some_iff.1 hv
          split at hv
          · exact Value.inside_sizeMember? hv
          · cases hv
            exact ih hw
        · rw [Store.local?, ho] at hv
          simp only [hget, hbase, hrank, dite_false] at hv
          cases hv

theorem Plain.of_mem_chain (h : st.Plain s) (ht : t ∈ st.chain s) : st.Plain t := by
  induction h with
  | nowhere =>
    rw [chain] at ht
    cases ht
  | «over» hown houter ih =>
    rw [chain] at ht
    rcases List.mem_cons.1 ht with rfl | hmem
    · exact .over hown houter
    · exact ih hmem
  | host hown =>
    rw [chain] at ht
    rw [List.mem_singleton.1 ht]
    exact .host hown
  | turn hkey hvalue houter ih =>
    rw [chain] at ht
    rcases List.mem_cons.1 ht with rfl | hmem
    · exact .turn hkey hvalue houter
    · exact ih hmem
  | @overlay id o ho hover hbase ih =>
    rw [chain, ho] at ht
    rcases List.mem_cons.1 ht with rfl | hmem
    · exact .overlay ho hover hbase
    · by_cases hrank : o.base.rank ≤ id
      · simp only [hrank, dite_true] at hmem
        exact ih (Base.mem_of_mem_outside hmem)
      · simp only [hrank, dite_false] at hmem
        cases hmem

theorem Plain.get? (h : st.Plain s) (hv : st.get? s name = some v) : v.Plain := by
  obtain ⟨t, ht, hlocal⟩ := List.exists_of_findSome?_eq_some hv
  exact (h.of_mem_chain ht).local? hlocal

/-- A name after a path is asked of the scopes over its values, then of those where it began. -/
theorem Plain.follow_append (h : st.Plain s) (hvisits : st.Visits s names values) (x : String) :
    follow st.get? s (names ++ [x]) =
      (scopesOver s values ++ st.chain s).findSome? (st.local? · x) := by
  induction hvisits with
  | start => rfl
  | @hop s name v names values hget hnull _ ih =>
    -- The rest of the path begins one scope further in, with that scope in front of the chain.
    have hv := h.get? hget
    rw [hv.toScope] at ih
    rw [List.cons_append, follow_of_found hget hnull (by simp), hv.toScope, ih (.over hv h),
      scopesOver, List.append_assoc, chain]
    rfl

/-- Along a path through plain values, a name means what the innermost scope that defines it says:
of those over the values, the last first, and then of the scope where the path began and those
outside it. If none of the values defines it, it is read as where the path began. -/
theorem Plain.resolve_append (h : st.Plain s) (hvisits : st.Visits s names values) (x : String) :
    let scopes := scopesOver s values ++ st.chain s
    (∀ v, st.resolve s ⟨names ++ [x]⟩ = some v ↔ ∃ inner t outer, scopes = inner ++ t :: outer ∧
      (∀ u ∈ inner, st.local? u x = none) ∧ st.local? t x = some v) ∧
    (st.resolve s ⟨names ++ [x]⟩ = none ↔ ∀ t ∈ scopes, st.local? t x = none) ∧
    ((∀ t ∈ scopesOver s values, st.local? t x = none) → ∀ v, st.local? s x = some v →
      st.resolve s ⟨names ++ [x]⟩ = some v) := by
  intro scopes
  have hresolve : st.resolve s ⟨names ++ [x]⟩ = scopes.findSome? (st.local? · x) :=
    h.follow_append hvisits x
  refine ⟨fun v => ?_, ?_, fun hnone v hv => ?_⟩
  · rw [hresolve, List.findSome?_eq_some_iff]
    constructor
    · rintro ⟨inner, t, outer, hscopes, ht, hinner⟩
      exact ⟨inner, t, outer, hscopes, hinner, ht⟩
    · rintro ⟨inner, t, outer, hscopes, hinner, ht⟩
      exact ⟨inner, t, outer, hscopes, ht, hinner⟩
  · rw [hresolve, List.findSome?_eq_none_iff]
  · rw [hresolve, List.findSome?_append, List.findSome?_eq_none_iff.2 hnone, Option.none_or]
    exact get?_of_local? hv

/-- A text inside a map inside the scope is passed, and from there the map again, which is found
further out: the title is that of the scope. -/
theorem Plain.resolve_append_twice :
    let inner := Value.map [("b", .text "inner")]
    let below : Scope := .over (.map [("title", .text "outer"), ("a", inner)]) .nowhere
    let st := (Store.empty.push (.delegate below)).2.set 0 "n" .null
    let names := ["a", "b", "a"]
    st.Plain (.overlay 0) ∧ st.Visits (.overlay 0) names [inner, .text "inner", inner] ∧
      st.resolve (.overlay 0) ⟨names ++ ["title"]⟩ = some (.text "outer") := by
  intro inner below st names
  have hplain : st.Plain (.overlay 0) := .overlay rfl rfl (.over rfl .nowhere)
  have hvisits : st.Visits (.overlay 0) names [inner, .text "inner", inner] :=
    .hop (by cbv) nofun (.hop (by cbv) nofun (.hop (by cbv) nofun .start))
  have hnone : ∀ t ∈ scopesOver (.overlay 0) [inner, .text "inner", inner],
      st.local? t "title" = none := by
    intro t ht
    simp only [scopesOver, List.nil_append, List.cons_append, List.mem_cons,
      List.not_mem_nil, or_false] at ht
    rcases ht with rfl | rfl | rfl <;> cbv
  exact ⟨hplain, hvisits, (hplain.resolve_append hvisits "title").2.2 hnone _ (by cbv)⟩

end Store

end TextTemplate
