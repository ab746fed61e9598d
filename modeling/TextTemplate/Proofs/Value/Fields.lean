import Mathlib.Data.List.Sort
import Mathlib.Data.String.Basic
import TextTemplate.Fields

/-! Fields that are given one after the other keep the order in which their names came first. Fields
in the order of their names are decided by what the names mean. -/

namespace TextTemplate

namespace Fields
variable {α : Type} {fields others : Fields α} {name : String} {v : α}

/-- One value after the other is given to its name. -/
def setAll (fields : Fields α) (writes : List (String × α)) : Fields α :=
  writes.foldl (fun fields (k, v) => fields.set k v) fields

/-- Of the names that are not known yet, the first one is the first to be new. -/
theorem eraseDups_removeAll_cons {known : List String} {name : String} (h : name ∉ known)
    (names : List String) :
    ((name :: names).removeAll known).eraseDups =
      name :: (names.removeAll (known ++ [name])).eraseDups := by
  simp only [List.removeAll]
  rw [List.filter_cons_of_pos (by simpa using h), List.eraseDups_cons, List.filter_filter]
  congr 3
  funext other
  by_cases heq : other = name <;> simp [heq]

/-- The names come in the order in which they were first given. -/
theorem names_setAll (fields : Fields α) (writes : List (String × α)) :
    (fields.setAll writes).map (·.1) =
      fields.map (·.1) ++ ((writes.map (·.1)).removeAll (fields.map (·.1))).eraseDups := by
  induction writes generalizing fields with
  | nil => simp [setAll, List.removeAll]
  | cons write rest ih =>
    obtain ⟨k, v⟩ := write
    have hnames := names_set k v fields
    change ((fields.set k v).setAll rest).map (·.1) = _
    rw [ih, List.map_cons]
    by_cases hk : fields.has k
    · rw [if_pos hk] at hnames
      have hmem : k ∈ fields.map (·.1) := has_iff_mem.1 hk
      rw [hnames]
      simp only [List.removeAll]
      rw [List.filter_cons_of_neg (by simpa using hmem)]
    · rw [if_neg hk] at hnames
      have hmem : k ∉ fields.map (·.1) := fun h => hk (has_iff_mem.2 h)
      rw [hnames, eraseDups_removeAll_cons hmem, List.append_assoc, List.singleton_append]

theorem has_setAll (fields : Fields α) (writes : List (String × α)) (name : String) :
    (fields.setAll writes).has name = (fields.has name || writes.any (·.1 == name)) := by
  induction writes generalizing fields with
  | nil => simp [setAll]
  | cons write rest ih =>
    obtain ⟨k, v⟩ := write
    change ((fields.set k v).setAll rest).has name = _
    rw [ih, has_set, List.any_cons, Bool.or_comm (k == name), Bool.or_assoc]

/-- A name has the value that it was given last. -/
theorem get?_setAll (fields : Fields α) (writes : List (String × α)) (name : String) :
    (fields.setAll writes).get? name = (get? name writes.reverse).or (fields.get? name) := by
  induction writes generalizing fields with
  | nil => rfl
  | cons write rest ih =>
    obtain ⟨k, v⟩ := write
    change ((fields.set k v).setAll rest).get? name = _
    rw [ih, get?_set, List.reverse_cons, get?_append]
    by_cases hk : k = name <;> cases get? name rest.reverse <;> simp [get?, hk]

theorem get?_ofPairs (pairs : List (String × α)) (name : String) :
    (ofPairs pairs).get? name = get? name pairs.reverse := by
  change (setAll [] pairs).get? name = _
  rw [get?_setAll]
  exact Option.or_none

/-- No name is given twice. -/
def Distinct (fields : Fields α) : Prop := (fields.map (·.1)).Nodup

theorem Distinct.set (h : fields.Distinct) (name : String) (v : α) :
    (fields.set name v).Distinct := by
  rw [Distinct, names_set]
  split
  · exact h
  · next hnew =>
    refine List.nodup_append.2 ⟨h, List.nodup_singleton name, fun other hother => ?_⟩
    rintro _ hsame rfl
    exact hnew (has_iff_mem.2 (List.mem_singleton.1 hsame ▸ hother))

theorem distinct_ofPairs (pairs : List (String × α)) : (ofPairs pairs).Distinct := by
  suffices ∀ fields : Fields α, fields.Distinct → (fields.setAll pairs).Distinct from
    this [] List.nodup_nil
  induction pairs with
  | nil => exact fun _ h => h
  | cons pair rest ih => exact fun fields h => ih _ (h.set pair.1 pair.2)

theorem Distinct.get?_eq_some_iff (h : fields.Distinct) :
    fields.get? name = some v ↔ (name, v) ∈ fields := by
  refine ⟨mem_of_get?, fun hmem => ?_⟩
  obtain ⟨w, hw⟩ := Option.isSome_iff_exists.1 (has_of_mem hmem)
  cases List.inj_on_of_nodup_map h (mem_of_get? hw) hmem rfl
  exact hw

theorem Distinct.get?_of_perm (h : fields.Distinct) (hperm : others.Perm fields)
    (name : String) : others.get? name = fields.get? name := by
  have hothers : others.Distinct := (hperm.map _).nodup_iff.2 h
  refine Option.ext fun v => ?_
  rw [h.get?_eq_some_iff, hothers.get?_eq_some_iff, hperm.mem_iff]

theorem Distinct.map {β : Type} (h : fields.Distinct) (f : α → β) :
    Distinct (fields.map fun (k, v) => (k, f v)) := by
  rw [Distinct, List.map_map]
  exact h

theorem names_filter (p : String → Bool) (fields : Fields α) :
    (fields.filter fun (k, _) => p k).map (·.1) = (fields.map (·.1)).filter p := by
  rw [List.filter_map]
  rfl

/-- Fields that give way to others: what a name means there, it means now. -/
theorem get?_merged (below above : Fields α) (name : String) :
    get? name (below.filter (fun (k, _) => !above.has k) ++ above) =
      (above.get? name).or (below.get? name) := by
  rw [get?_append, get?_filter name fun k => !above.has k, has]
  cases above.get? name <;> cases below.get? name <;> rfl

theorem Distinct.merged {below above : Fields α} (h : below.Distinct) (h' : above.Distinct) :
    Distinct (below.filter (fun (k, _) => !above.has k) ++ above) := by
  have hbelow : Distinct (below.filter fun (k, _) => !above.has k) :=
    List.Nodup.sublist (List.filter_sublist.map _) h
  rw [Distinct, List.map_append]
  refine List.nodup_append.2 ⟨hbelow, h', fun name hname => ?_⟩
  rintro _ hover rfl
  obtain ⟨⟨k, v⟩, hkept, rfl⟩ := List.mem_map.1 hname
  have hnew : (!above.has k) = true := (List.mem_filter.1 hkept).2
  rw [has_iff_mem.2 hover] at hnew
  cases hnew

/-- The names stand in their order, each of them once. -/
def Increasing (fields : Fields α) : Prop := fields.Pairwise fun a b => a.1 < b.1

theorem Increasing.distinct (h : fields.Increasing) : fields.Distinct :=
  List.pairwise_map.2 (h.imp fun hlt => ne_of_lt hlt)

theorem sorted_perm (fields : Fields α) : (sorted fields).Perm fields := List.mergeSort_perm _ _

theorem Distinct.increasing_sorted (h : fields.Distinct) : (sorted fields).Increasing := by
  have hle : (sorted fields).Pairwise fun a b => decide (a.1 ≤ b.1) = true := by
    refine List.pairwise_mergeSort (fun a b c hab hbc => ?_) (fun a b => ?_) fields
    · simp only [decide_eq_true_eq] at hab hbc ⊢
      exact le_trans hab hbc
    · simp only [Bool.or_eq_true, decide_eq_true_eq]
      exact le_total a.1 b.1
  have hne : (sorted fields).Pairwise fun a b => a.1 ≠ b.1 :=
    List.pairwise_map.1 (((sorted_perm fields).map _).nodup_iff.2 h)
  exact (hle.and hne).imp fun ⟨hab, hne⟩ => lt_of_le_of_ne (of_decide_eq_true hab) hne

/-- Fields in the order of their names are the same when all names mean the same. -/
theorem Increasing.ext (h : fields.Increasing) (h' : others.Increasing)
    (hget : ∀ name, fields.get? name = others.get? name) : fields = others := by
  have hnodup {fields : Fields α} (h : fields.Increasing) : fields.Nodup :=
    List.Nodup.of_map _ h.distinct
  have hperm : fields.Perm others := (List.perm_ext_iff_of_nodup (hnodup h) (hnodup h')).2
    fun (name, v) => by rw [← h.distinct.get?_eq_some_iff, ← h'.distinct.get?_eq_some_iff, hget]
  exact hperm.eq_of_pairwise (fun a b _ _ hab hba => absurd hab (not_lt_of_gt hba)) h h'

end Fields

end TextTemplate
