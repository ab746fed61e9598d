import TextTemplate.Proofs.Store.Shown

/-! Values that no scope stands inside. What their names mean is such a value again. -/

namespace TextTemplate

namespace Value
variable {own v : Value} {name : String} {t : Scope}

theorem inside_sizeMember? {length : Nat} (h : sizeMember? name length = some v) :
    v.inside = [] := by
  unfold sizeMember? at h
  split at h
  · cases h
    exact inside_ofNat length
  · split at h
    · cases h
      rfl
    · cases h

/-- What a name means inside a value holds no other scopes than the value does. -/
theorem inside_of_member? (h : own.member? name = some v) (ht : t ∈ v.inside) : t ∈ own.inside := by
  have counted {n : Nat} (hsize : sizeMember? name n = some v) : t ∈ own.inside := by
    rw [inside_sizeMember? hsize] at ht
    cases ht
  have indexed {item : Nat → Option Value} {n : Nat}
      (hitem : ∀ i, item i = some v → t ∈ own.inside)
      (hv : indexedMember? item n name = some v) : t ∈ own.inside := by
    unfold indexedMember? at hv
    split at hv
    · exact hitem _ hv
    · exact counted hv
  cases own with
  | map fields =>
    rcases Option.or_eq_some_iff.1 h with hget | ⟨_, hsize⟩
    · exact mem_insideFields.2 ⟨name, v, Fields.mem_of_get? hget, ht⟩
    · exact counted hsize
  | entry k w =>
    rcases Option.or_eq_some_iff.1 h with hget | ⟨_, hsize⟩
    · exact @inside_of_mem_members (.entry k w) _ _ _ (Fields.mem_of_get? hget) ht
    · exact counted hsize
  | list items => exact indexed (fun i hi => mem_insideItems.2 ⟨v, List.mem_of_getElem? hi, ht⟩) h
  | entries pairs =>
    refine indexed (fun i hi => ?_) h
    obtain ⟨⟨k, w⟩, hget, rfl⟩ := Option.map_eq_some_iff.1 hi
    rw [inside, List.mem_append] at ht
    exact mem_insidePairs.2 ⟨k, w, List.mem_of_getElem? hget, ht⟩
  | collection identity items length =>
    refine indexed (fun i hi => ?_) h
    unfold itemAt? at hi
    split at hi
    · exact mem_insideFields.2 ⟨_, v, Fields.mem_of_get? hi, ht⟩
    · cases hi
  | object identity typeName isRecord names props =>
    exact mem_insideFields.2 ⟨name, v, Fields.mem_of_get? h, ht⟩
  | text s =>
    simp only [member?] at h
    split at h
    · cases h
      rw [inside_ofNat] at ht
      cases ht
    · split at h
      · cases h
        cases ht
      · cases h
  | null | bool | int | float | date | function | scope => cases h

/-- No scope stands inside the value. -/
def Plain (v : Value) : Prop := v.inside = []

theorem Plain.member? (h : own.Plain) (hv : own.member? name = some v) : v.Plain :=
  List.eq_nil_iff_forall_not_mem.2 fun _ ht =>
    List.eq_nil_iff_forall_not_mem.1 h _ (inside_of_member? hv ht)

theorem Plain.of_get? {fields : Fields Value} (h : insideFields fields = [])
    (hv : fields.get? name = some v) : v.Plain :=
  List.eq_nil_iff_forall_not_mem.2 fun _ ht => List.eq_nil_iff_forall_not_mem.1 h _
    (mem_insideFields.2 ⟨name, v, Fields.mem_of_get? hv, ht⟩)

theorem Plain.toScope (h : v.Plain) (outer : Scope) : v.toScope outer = .over v outer := by
  cases v with
  | scope => cases h
  | _ => rfl

end Value

end TextTemplate
