import TextTemplate.Proofs.Value.Positions
import TextTemplate.Store.Sequence

/-! A list that was written to is gone through by position, but as many times as it has entries
under any name. The two agree exactly if the entries are the positions below their number. -/

namespace TextTemplate

/-- Exactly the positions below the length have an item. -/
def Sequence.Gapless (st : Store) (q : Sequence) : Prop :=
  ∀ i, (q.item? st i).isSome = true ↔ i < q.length st

/-- A sequence that has an item at every position among some names, and as many turns as there are
names, is gapless exactly if the names are the positions below their number. -/
theorem Sequence.gapless_iff {st : Store} {q : Sequence} {names : List String} (h : names.Nodup)
    (hitems : ∀ i, (q.item? st i).isSome = true ↔ toString i ∈ names)
    (hlength : q.length st = names.length) :
    q.Gapless st ↔ ∀ name ∈ names, ∃ i < names.length, name = toString i := by
  rw [← Value.positions_iff h, Gapless, hlength]
  exact forall_congr' fun i => by rw [hitems]

/-- A scope by position is as long as its `size` says. -/
theorem Sequence.length_of_size {st : Store} {s : Scope} {v : Value}
    (h : st.local? s "size" = some v) :
    (Sequence.scope s).length st = (v.asInt?.map (·.toInt.toNat)).getD 0 := by
  rw [length, h, Option.bind_some]
  cases v.asInt? <;> rfl

namespace Store

/-- No overlay sets a name twice. -/
def Distinct (st : Store) : Prop := ∀ id o, st.overlay? id = some o → o.overrides.Distinct

/-- The names of the entries that the scope itself has. -/
def names (st : Store) (s : Scope) : List String := (st.members s).map (·.1)

variable {st : Store} {id i : Nat} {o : Overlay} {s outer : Scope} {items : List Value}
  {name : String}

theorem mem_names : name ∈ st.names s ↔ Fields.has name (st.members s) = true :=
  Fields.has_iff_mem.symm

theorem names_list (st : Store) (items : List Value) (outer : Scope) :
    st.names (.over (.list items) outer) = Value.positions items.length := by
  rw [names, members, Value.members, Value.names_numbered]

theorem nodup_names_list (st : Store) (items : List Value) (outer : Scope) :
    (st.names (.over (.list items) outer)).Nodup := by
  rw [names_list]
  exact Value.nodup_positions _

theorem mem_names_list :
    name ∈ st.names (.over (.list items) outer) ↔ ∃ i < items.length, name = toString i := by
  rw [names_list, Value.mem_positions]

theorem size_not_mem_names_list : "size" ∉ st.names (.over (.list items) outer) := by
  rw [names_list]
  exact Value.not_mem_positions rfl _

theorem toString_mem_names_list :
    toString i ∈ st.names (.over (.list items) outer) ↔ i < items.length := by
  rw [mem_names_list]
  constructor
  · rintro ⟨j, hj, heq⟩
    rwa [Decimal.toString_injective heq]
  · exact fun hi => ⟨i, hi, rfl⟩

section OverList
variable (hordered : st.Ordered) (ho : st.overlay? id = some o)
  (hbase : o.base = .delegate (.over (.list items) outer))
include hordered ho hbase

theorem sequence_overList :
    st.sequence (.scope (.overlay id)) = .scope (.overlay id) := by
  have hrank := hordered.rank_le ho hbase
  have hindexed : st.isIndexed (.overlay id) = true := by
    obtain ⟨overrides, base⟩ := o
    dsimp only at hbase
    subst hbase
    rw [isIndexed, ho]
    simp only [hrank, dite_true]
    rw [isIndexed]
    rfl
  rw [sequence, if_pos hindexed]

/-- The entries are the positions of the list and the names that were set. -/
theorem mem_names_overList :
    name ∈ st.names (.overlay id) ↔
      name ∈ st.names (.over (.list items) outer) ∨ o.overrides.has name = true := by
  rw [mem_names, mem_names,
    has_members_delegate ho hbase (hordered.rank_le ho hbase), Bool.or_eq_true]

theorem nodup_names_overList (hdistinct : o.overrides.Distinct) :
    (st.names (.overlay id)).Nodup := by
  have hrank := hordered.rank_le ho hbase
  have hlist : st.members (.over (.list items) outer) = Value.numbered items := by
    rw [members, Value.members]
  rw [names, members_delegate ho hbase hrank, hlist]
  exact (Value.distinct_numbered items).merged hdistinct

theorem length_le_names_overList : items.length ≤ (st.names (.overlay id)).length := by
  have hsub : st.names (.over (.list items) outer) ⊆ st.names (.overlay id) := fun name hname =>
    (mem_names_overList hordered ho hbase).2 (.inl hname)
  have hle := (List.subperm_of_subset (nodup_names_list st items outer) hsub).length_le
  rwa [names_list, Value.length_positions] at hle

/-- At a position stands what was set there, or what the list has there. -/
theorem local?_toString (hcount : items.length ≤ 2 ^ 64) (i : Nat) :
    st.local? (.overlay id) (toString i) = (o.overrides.get? (toString i)).or items[i]? := by
  cases hget : o.overrides.get? (toString i) with
  | some v =>
    rw [local?_of_override ho hget]
    rfl
  | none =>
    rw [local?_delegate ho hget hbase (hordered.rank_le ho hbase), local?,
      Value.member?_list_toString hcount, Value.isSizeName_toString, Option.none_or]
    cases items[i]? <;> rfl

theorem isSome_item?_overList (hcount : items.length ≤ 2 ^ 64) :
    ((Sequence.scope (.overlay id)).item? st i).isSome = true ↔
      toString i ∈ st.names (.overlay id) := by
  rw [mem_names_overList hordered ho hbase, toString_mem_names_list, Sequence.item?]
  rw [local?_toString hordered ho hbase hcount, Option.isSome_or, Bool.or_eq_true, or_comm]
  simp [Fields.has]

/-- As long as `size` is not set, the length counts all entries. -/
theorem length_overList (hset : "size" ∉ st.names (.overlay id))
    (hcount : (st.names (.overlay id)).length < 2 ^ 63) :
    (Sequence.scope (.overlay id)).length st = (st.names (.overlay id)).length := by
  have hsize : st.local? (.overlay id) "size" = some (.ofNat (st.names (.overlay id)).length) := by
    have hlist : (Value.list items).member? "size" = some (.ofNat items.length) := rfl
    have hnew : Fields.has "size" (st.members (.over (.list items) outer)) = false := by
      rw [← Bool.not_eq_true, ← mem_names]
      exact size_not_mem_names_list
    have hget : o.overrides.get? "size" = none := by
      have hhas : o.overrides.has "size" ≠ true := fun h =>
        hset ((mem_names_overList hordered ho hbase).2 (.inr h))
      simpa [Fields.has] using hhas
    rw [local?_delegate ho hget hbase (hordered.rank_le ho hbase), local?, hlist,
      Option.bind_some, hnew, names, List.length_map]
    rfl
  rw [Sequence.length_of_size hsize, Value.asInt?_ofNat hcount, Option.getD_some]

end OverList

end Store
end TextTemplate
