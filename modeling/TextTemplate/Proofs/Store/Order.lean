import TextTemplate.Data.Basic
import TextTemplate.Proofs.Store.Lookup
import TextTemplate.Proofs.Value.Fields
import TextTemplate.Store.Text

/-! In which order a scope gives its entries once it was written to. Entries that were never written
come first, in the order of the scope below; all written ones follow, in the order in which their
names were first written. So writing to an entry moves it behind the entries that were not written.
-/

namespace TextTemplate

namespace Store
variable {st st' : Store} {id : Nat} {o : Overlay} {s : Scope}

/-- One value after the other is set under its name in an overlay. -/
def setAll (st : Store) (id : Nat) (writes : List (String × Value)) : Store :=
  writes.foldl (fun st (name, v) => st.set id name v) st

theorem overlay?_setAll (st : Store) (id other : Nat) (writes : List (String × Value)) :
    (st.setAll id writes).overlay? other =
      if id = other then
        (st.overlay? other).map fun o => { o with overrides := o.overrides.setAll writes }
      else st.overlay? other := by
  induction writes generalizing st with
  | nil => cases h : st.overlay? other <;> simp [setAll, Fields.setAll, h]
  | cons write rest ih =>
    obtain ⟨name, v⟩ := write
    change ((st.set id name v).setAll id rest).overlay? other = _
    rw [ih, overlay?_set]
    by_cases hid : id = other
    · simp only [hid, if_true, Option.map_map]
      rfl
    · simp only [hid, if_false]

/-- Writing at a name of a scope that was written to sets it there. -/
theorem put_entries (st : Store) (id : Nat) (writes : List (String × Value)) :
    writes.foldl (fun (d : Data) (name, v) => d.put ⟨[name]⟩ v) ⟨st, .overlay id⟩ =
      ⟨st.setAll id writes, .overlay id⟩ := by
  induction writes generalizing st with
  | nil => rfl
  | cons write rest ih => exact ih (st.set id write.1 write.2)

theorem members_setAll (ho : st.overlay? id = some ⟨[], .delegate s⟩) (hrank : s.rank ≤ id)
    (writes : List (String × Value)) :
    (st.setAll id writes).members (.overlay id) =
      (st.members s).filter (fun (k, _) => !writes.any (·.1 == k)) ++
        Fields.setAll [] writes := by
  have hover : (st.setAll id writes).overlay? id =
      some ⟨Fields.setAll [] writes, .delegate s⟩ := by
    rw [overlay?_setAll, if_pos rfl, ho]
    rfl
  have hbelow : (st.setAll id writes).members s = st.members s := by
    refine members_of_agree (fun other hother => ?_) hrank
    rw [overlay?_setAll, if_neg (Nat.ne_of_gt hother)]
  rw [members, hover]
  simp only [hrank, dite_true, hbelow, Fields.has_setAll]
  rfl

theorem isIndexed_setAll (ho : st.overlay? id = some ⟨[], .delegate s⟩) (hrank : s.rank ≤ id)
    (writes : List (String × Value)) :
    (st.setAll id writes).isIndexed (.overlay id) = st.isIndexed s := by
  rw [isIndexed, overlay?_setAll, if_pos rfl, ho]
  simp only [Option.map_some, hrank, dite_true]
  refine isIndexed_of_agree (fun other hother => ?_) hrank
  rw [overlay?_setAll, if_neg (Nat.ne_of_gt hother)]

/-- After any writes to the scope that a first write laid over `s`, its entries are those of `s`
that were not written, in their order and with their values, and then those that were: in the order
in which their names were first written, whether `s` has them or not, and each with its last value.
A loop over a written map takes them in this order, and so does the text of a written list. -/
theorem order_after_writes (ho : st.overlay? id = some ⟨[], .delegate s⟩) (hrank : s.rank ≤ id)
    (writes : List (String × Value)) :
    let after := st.setAll id writes
    let kept := (st.members s).filter fun (k, _) => !writes.any (·.1 == k)
    let written := Fields.setAll [] writes
    writes.foldl (fun (d : Data) (name, v) => d.put ⟨[name]⟩ v) ⟨st, .overlay id⟩ =
        ⟨after, .overlay id⟩ ∧
      after.members (.overlay id) = kept ++ written ∧
      written.map (·.1) = (writes.map (·.1)).eraseDups ∧
      (∀ name, Fields.get? name written = Fields.get? name writes.reverse) ∧
      (st.isIndexed s = false → after.sequence (.scope (.overlay id)) =
        .pairs ((kept ++ written).map fun (k, v) => (.text k, v))) ∧
      (st.isIndexed s = true → ∀ levels, after.spell (levels + 1) (.scope (.overlay id)) =
        Value.bracketed ((kept ++ written).map fun (_, v) => after.spell levels v)) := by
  intro after kept written
  have hmembers : after.members (.overlay id) = kept ++ written := members_setAll ho hrank writes
  have hindexed : after.isIndexed (.overlay id) = st.isIndexed s :=
    isIndexed_setAll ho hrank writes
  refine ⟨put_entries st id writes, hmembers, ?_, fun name => ?_, fun hmap => ?_,
    fun hlist levels => ?_⟩
  · rw [Fields.names_setAll]
    simp only [List.removeAll, List.map_nil, List.elem_nil, Bool.not_false, List.nil_append]
    rw [List.filter_eq_self.2 fun _ _ => rfl]
  · rw [Fields.get?_setAll]
    exact Option.or_none
  · rw [sequence, hindexed, hmap, hmembers]
    rfl
  · rw [spell_succ, Value.spell_scope, hindexed, hlist, if_pos rfl, hmembers]

/-- The first of two items is written to, and from then on the second comes first. -/
theorem order_after_writes_to_list :
    let items : Scope := .over (.list [.text "a", .text "b"]) .nowhere
    let st : Store := ⟨#[⟨[], .delegate items⟩]⟩
    let after := st.setAll 0 [("0", .text "c")]
    st.overlay? 0 = some ⟨[], .delegate items⟩ ∧ items.rank ≤ 0 ∧
      after.members (.overlay 0) = [("1", .text "b"), ("0", .text "c")] ∧
      after.spell 1 (.scope (.overlay 0)) = "[b, c]".toList := by
  intro items st after
  have ho : st.overlay? 0 = some ⟨[], .delegate items⟩ := rfl
  have hindexed : st.isIndexed items = true := by cbv
  have hkept : (st.members items).filter (fun (k, _) => !([("0", Value.text "c")].any (·.1 == k))) =
      [("1", .text "b")] := by cbv
  obtain ⟨-, hmembers, -, -, -, htext⟩ := order_after_writes ho (Nat.zero_le 0) [("0", .text "c")]
  rw [hkept] at hmembers htext
  exact ⟨ho, Nat.zero_le 0, hmembers, htext hindexed 0⟩

/-- An entry that is written to does not keep its place: of two entries, the first comes last. -/
theorem order_not_kept :
    let d := Data.ofValue .empty (.map [("a", .text "1"), ("b", .text "2")])
    d.members = [("a", .text "1"), ("b", .text "2")] ∧
      (d.put ⟨["a"]⟩ (.text "9")).members = [("b", .text "2"), ("a", .text "9")] := by
  refine ⟨?_, ?_⟩
  all_goals cbv

end Store
end TextTemplate
