import TextTemplate.Proofs.Store.Lookup
import TextTemplate.Proofs.Store.Shown
import TextTemplate.Data.Basic

/-! A store whose overlays are those of another one, numbered higher because other overlays were
made before. Nothing that is asked of the stores tells them apart, and what is written to both
leaves them so. -/

namespace TextTemplate

def Base.renumber (k : Nat) : Base → Base
  | .delegate s => .delegate (s.renumber k)
  | .fresh outer => .fresh (outer.renumber k)

def Overlay.renumber (k : Nat) (o : Overlay) : Overlay :=
  ⟨Value.renumberFields k o.overrides, o.base.renumber k⟩

def Sequence.renumber (k : Nat) : Sequence → Sequence
  | .nothing => .nothing
  | .single v => .single (v.renumber k)
  | .list items => .list (Value.renumberItems k items)
  | .pairs ps => .pairs (Value.renumberPairs k ps)
  | .collection items length => .collection (Value.renumberFields k items) length
  | .scope s => .scope (s.renumber k)

namespace Store

/-- Paths lead to the same. -/
theorem follow_renumber {k : Nat} {look look' : Scope → String → Option Value}
    (hlook : ∀ s name, look' (s.renumber k) name = (look s name).map (Value.renumber k))
    (s : Scope) (names : List String) :
    follow look' (s.renumber k) names = (follow look s names).map (Value.renumber k) := by
  induction names generalizing s with
  | nil => rfl
  | cons name rest ih =>
    cases rest with
    | nil => exact hlook s name
    | cons next rest =>
      simp only [follow, hlook]
      cases hfound : look s name with
      | none => rfl
      | some v =>
        have hnext := ih (v.toScope s)
        rw [← Value.toScope_renumber] at hnext
        cases v with
        | null => rfl
        | _ => exact hnext

/-- The second store has the overlays of the first above `k` others. -/
structure Above (k : Nat) (st st' : Store) : Prop where
  size : st'.size = st.size + k
  overlay? : ∀ id, st'.overlay? (id + k) = (st.overlay? id).map (Overlay.renumber k)

/-- Any store is above the empty one. -/
theorem above_empty (st : Store) : Above st.size empty st := by
  refine ⟨(Nat.zero_add _).symm, fun id => ?_⟩
  have hnone : st.overlay? (id + st.size) = none :=
    Array.getElem?_eq_none (Nat.le_add_left _ _)
  rw [hnone]
  rfl

namespace Above
variable {k : Nat} {st st' : Store} (h : Above k st st')
include h

theorem members (s : Scope) :
    st'.members (s.renumber k) = Value.renumberFields k (st.members s) := by
  fun_induction Store.members st s with
  | case1 => rw [Scope.renumber, Store.members]; rfl
  | case2 own outer => rw [Scope.renumber, Store.members, Value.members_renumber]
  | case3 identity own => rw [Scope.renumber, Store.members, Value.members_renumber]
  | case4 key value index size outer =>
    rw [Scope.renumber_turn, Store.members, turnMembers_renumber]
  | case5 id hnone =>
    rw [Scope.renumber, Store.members, h.overlay? id, hnone]
    rfl
  | case6 id o ho below ih =>
    rw [Scope.renumber, Store.members, h.overlay? id, ho, Option.map_some]
    dsimp only [Overlay.renumber, below]
    simp only [Value.has_renumberFields]
    rw [Value.renumberFields_append,
      ← Value.filter_renumberFields fun name => !o.overrides.has name]
    cases hbase : o.base with
    | fresh outer => rfl
    | delegate inner =>
      simp only [Base.renumber, Scope.rank_renumber_le_iff]
      by_cases hrank : inner.rank ≤ id
      · simp only [hrank, dite_true]
        rw [ih inner hrank]
      · simp only [hrank, dite_false]
        rfl

theorem has_members (s : Scope) (name : String) :
    Fields.has name (st'.members (s.renumber k)) = Fields.has name (st.members s) := by
  rw [h.members, Value.has_renumberFields]

theorem length_members (s : Scope) :
    (st'.members (s.renumber k)).length = (st.members s).length := by
  rw [h.members, Value.length_renumberFields]

theorem overlay?_some {id : Nat} {o : Overlay} (ho : st.overlay? id = some o) :
    st'.overlay? (id + k) = some (o.renumber k) := by
  rw [h.overlay? id, ho]
  rfl

/-- What a name means in a scope itself. -/
theorem local? (s : Scope) (name : String) :
    st'.local? (s.renumber k) name = (st.local? s name).map (Value.renumber k) := by
  have hover : ∀ o : Overlay, Fields.get? name (o.renumber k).overrides =
      (o.overrides.get? name).map (Value.renumber k) := fun o =>
    Value.get?_renumberFields name o.overrides
  induction s, name using Store.local?.induct st with
  | case1 => rw [Scope.renumber, Store.local?, Store.local?]; rfl
  | case2 own outer name => rw [Scope.renumber, Store.local?, Store.local?, Value.member?_renumber]
  | case3 identity own name =>
    rw [Scope.renumber, Store.local?, Store.local?, Value.member?_renumber]
  | case4 key value index size outer name =>
    rw [Scope.renumber_turn, Store.local?, Store.local?, turnMembers_renumber,
      Value.get?_renumberFields]
  | case5 id name hnone =>
    rw [Scope.renumber, Store.local?, Store.local?, h.overlay? id, hnone]
    rfl
  | case6 id name o ho v hget =>
    have hget' := hover o
    rw [hget] at hget'
    rw [Scope.renumber, local?_of_override ho hget, local?_of_override (h.overlay?_some ho) hget']
    rfl
  | case7 id name o ho hget outer hbase =>
    have hget' := hover o
    rw [hget] at hget'
    have hbase' : (o.renumber k).base = .fresh (outer.renumber k) := by
      rw [Overlay.renumber, hbase, Base.renumber]
    rw [local?_fresh ho hget hbase, Value.map_sizeMember?, ← h.length_members]
    exact local?_fresh (h.overlay?_some ho) hget' hbase'
  | case11 id name o ho hget s hbase hrank =>
    have hrank' : ¬ (s.renumber k).rank ≤ id + k := mt Scope.rank_renumber_le_iff.1 hrank
    rw [Scope.renumber, Store.local?, Store.local?, h.overlay?_some ho, ho]
    simp only [hget, Value.get?_renumberFields, Option.map_none, Overlay.renumber, hbase,
      Base.renumber, hrank, hrank', dite_false]
  | case8 id name o ho hget s hbase hrank _ ih | case9 id name o ho hget s hbase hrank _ _ _ ih
  | case10 id name o ho hget s hbase hrank _ _ _ ih =>
    have hget' := hover o
    rw [hget] at hget'
    have hbase' : (o.renumber k).base = .delegate (s.renumber k) := by
      rw [Overlay.renumber, hbase, Base.renumber]
    have hrank' : (s.renumber k).rank ≤ id + k := Scope.rank_renumber_le_iff.2 hrank
    rw [local?_delegate ho hget hbase hrank, ← h.length_members, ← h.has_members]
    refine (local?_delegate (h.overlay?_some ho) hget' hbase' hrank').trans ?_
    rw [ih hover]
    cases st.local? s name with
    | none => rfl
    | some v =>
      simp only [Option.map_some, Option.bind_some]
      split
      · exact (Value.map_sizeMember? name _).symm
      · rfl

/-- The scopes outside a scope. -/
theorem chain (s : Scope) : st'.chain (s.renumber k) = (st.chain s).map (Scope.renumber k) := by
  induction s using Store.chain.induct with
  | case1 => rw [Scope.renumber, Store.chain, Store.chain]; rfl
  | case2 own outer ih => rw [Scope.renumber, Store.chain, Store.chain, ih]; rfl
  | case3 identity own => rw [Scope.renumber, Store.chain, Store.chain]; rfl
  | case4 key value index size outer ih =>
    rw [Scope.renumber_turn, Store.chain, Store.chain, ih, List.map_cons, Scope.renumber_turn]
  | case5 id ih =>
    rw [Scope.renumber, Store.chain, Store.chain, h.overlay? id]
    cases ho : st.overlay? id with
    | none => rfl
    | some o =>
      have hscope : (o.renumber k).base.scope = o.base.scope.renumber k := by
        obtain ⟨overrides, base⟩ := o
        cases base <;> rfl
      have hrank : (o.renumber k).base.rank ≤ id + k ↔ o.base.rank ≤ id := by
        rw [Base.rank, hscope]
        exact Scope.rank_renumber_le_iff
      simp only [Option.map_some, hrank, List.map_cons, Scope.renumber]
      congr 1
      by_cases hle : o.base.rank ≤ id
      · simp only [hle, dite_true]
        rw [hscope, ih o hle]
        obtain ⟨overrides, base⟩ := o
        cases base with
        | delegate inner => exact List.map_tail.symm
        | fresh outer => rfl
      · simp only [hle, dite_false, List.map_nil]

/-- What a name means in a scope or outside it. -/
theorem get? (s : Scope) (name : String) :
    st'.get? (s.renumber k) name = (st.get? s name).map (Value.renumber k) := by
  rw [Store.get?, Store.get?, h.chain, List.findSome?_map, List.map_findSome?]
  congr 1
  funext t
  exact h.local? t name

theorem isIndexed (s : Scope) : st'.isIndexed (s.renumber k) = st.isIndexed s := by
  fun_induction Store.isIndexed st s with
  | case1 own outer => rw [Scope.renumber, Store.isIndexed, Value.isIndexed_renumber]
  | case2 identity own => rw [Scope.renumber, Store.isIndexed, Value.isIndexed_renumber]
  | case3 id overrides inner ho hrank ih =>
    rw [Scope.renumber, Store.isIndexed, h.overlay?_some ho]
    simp only [Overlay.renumber, Base.renumber, Scope.rank_renumber_le_iff, hrank, dite_true]
    exact ih
  | case4 id overrides inner ho hrank =>
    rw [Scope.renumber, Store.isIndexed, h.overlay?_some ho]
    simp only [Overlay.renumber, Base.renumber, Scope.rank_renumber_le_iff, hrank, dite_false]
  | case5 id hother =>
    rw [Scope.renumber, Store.isIndexed, h.overlay? id]
    cases ho : st.overlay? id with
    | none => rfl
    | some o =>
      obtain ⟨overrides, base⟩ := o
      cases base with
      | delegate inner => exact absurd ho (hother overrides inner)
      | fresh outer => rfl
  | case6 s hover hhost hoverlay =>
    cases s with
    | nowhere => rw [Scope.renumber, Store.isIndexed] <;> simp
    | turn => rw [Scope.renumber_turn, Store.isIndexed] <;> simp
    | «over» own outer => exact absurd rfl (hover own outer)
    | host identity own => exact absurd rfl (hhost identity own)
    | overlay id => exact absurd rfl (hoverlay id)

/-- Scopes stand equally deep inside one another. -/
theorem ends (props : Bool) (n : Nat) (v : Value) :
    st'.ends props n (v.renumber k) = st.ends props n v := by
  induction n generalizing v with
  | zero => rw [Store.ends, Store.ends, Value.scopes_renumber, List.isEmpty_map]
  | succ n ih =>
    rw [Store.ends, Store.ends, Value.scopes_renumber, List.all_map]
    congr 1
    funext s
    simp only [Function.comp_apply, h.members, Value.renumberFields_eq_map, List.all_map]
    congr 1
    funext entry
    exact ih entry.2

theorem spell (n : Nat) (v : Value) : st'.spell n (v.renumber k) = st.spell n v := by
  induction n generalizing v with
  | zero => exact Value.spell_renumber v fun _ _ => rfl
  | succ n ih =>
    refine Value.spell_renumber v fun s _ => ?_
    rw [h.isIndexed, h.members, Value.map_renumberFields fun _ v => st'.spell n v,
      Value.map_renumberFields fun name v => Value.assigned name.toList (st'.spell n v)]
    simp only [ih]

theorem exportTo (n : Nat) (v : Value)
    (hkeys : ∀ v : Value, st'.text (v.renumber k) = st.text v) :
    st'.exportTo n (v.renumber k) = st.exportTo n v := by
  induction n generalizing v with
  | zero => exact Value.toJson_renumber hkeys v fun _ _ => rfl
  | succ n ih =>
    refine Value.toJson_renumber hkeys v fun s _ => ?_
    rw [h.members, Value.map_renumberFields fun name v => (name, st'.exportTo n v)]
    simp only [ih]

/-- A value is shown alike. -/
theorem display (v : Value) : st'.display (v.renumber k) = st.display v :=
  display_of_levels (fun n => h.ends false n v) fun n => h.spell n v

theorem text (v : Value) : st'.text (v.renumber k) = st.text v := by
  cases v with
  | null | text => rfl
  | _ => exact h.display _

theorem toJson (v : Value) : st'.toJson (v.renumber k) = st.toJson v :=
  toJson_of_levels (fun n => h.ends true n v) fun n => h.exportTo n v h.text

/-- What a loop goes through. -/
theorem sequence (v : Value) : st'.sequence (v.renumber k) = (st.sequence v).renumber k := by
  cases v with
  | map fields => exact congrArg Sequence.pairs (Value.map_text_renumberFields fields)
  | scope s =>
    rw [Value.renumber, Store.sequence, Store.sequence, h.isIndexed, h.members,
      Value.map_text_renumberFields]
    split <;> rfl
  | _ => rfl

theorem length (q : Sequence) : (q.renumber k).length st' = q.length st := by
  cases q with
  | list items => simp [Sequence.renumber, Sequence.length, Value.renumberItems_eq_map]
  | pairs ps => simp [Sequence.renumber, Sequence.length, Value.renumberPairs_eq_map]
  | scope s =>
    rw [Sequence.renumber, Sequence.length, Sequence.length, h.local?, Option.bind_map]
    simp only [Function.comp_def, Value.asInt?_renumber]
  | nothing | single | collection => rfl

theorem item? (q : Sequence) (i : Nat) :
    (q.renumber k).item? st' i = (q.item? st i).map (Value.renumber k) := by
  cases q with
  | single v =>
    rw [Sequence.renumber, Sequence.item?, Sequence.item?]
    split <;> rfl
  | list items => exact Value.getElem?_renumberItems items i
  | pairs ps => exact Value.pairAt?_renumber ps i
  | collection items length => exact Value.itemAt?_renumber items length i
  | scope s => exact h.local? s _
  | nothing => rfl

/-- An overlay is added to both. -/
theorem push (base : Base) : (st'.push (base.renumber k)).1 = (st.push base).1 + k ∧
    Above k (st.push base).2 (st'.push (base.renumber k)).2 := by
  refine ⟨h.size, ?_, fun id => ?_⟩
  · rw [size_push, size_push, h.size, Nat.add_right_comm]
  · rw [overlay?_push, overlay?_push, h.size, h.overlay? id]
    by_cases hid : id = st.size
    · subst hid
      rw [if_pos rfl, if_pos rfl]
      rfl
    · rw [if_neg (by omega), if_neg hid]

theorem set (id : Nat) (name : String) (v : Value) :
    Above k (st.set id name v) (st'.set (id + k) name (v.renumber k)) := by
  refine ⟨?_, fun other => ?_⟩
  · rw [size_set, size_set, h.size]
  · rw [overlay?_set, overlay?_set, h.overlay? other]
    by_cases hid : id = other
    · rw [if_pos (by rw [hid]), if_pos hid, Option.map_map, Option.map_map]
      congr 1
      funext o
      exact congrArg (Overlay.mk · _) (Value.set_renumberFields v name o.overrides)
    · rw [if_neg (by omega), if_neg hid]

theorem lay (id : Nat) (name : String) (base : Base) :
    (st'.lay (id + k) name (base.renumber k)).1 = (st.lay id name base).1 + k ∧
      Above k (st.lay id name base).2 (st'.lay (id + k) name (base.renumber k)).2 := by
  obtain ⟨hid, hpush⟩ := h.push base
  refine ⟨hid, ?_⟩
  have hset := hpush.set id name (.scope (.overlay (st.push base).1))
  rw [Value.renumber, Scope.renumber, ← hid] at hset
  exact hset

theorem enter (id : Nat) (name : String) :
    (st'.enter (id + k) name).1 = (st.enter id name).1 + k ∧
      Above k (st.enter id name).2 (st'.enter (id + k) name).2 := by
  have hget : st'.get? (.overlay (id + k)) name =
    (st.get? (.overlay id) name).map (Value.renumber k) := h.get? (.overlay id) name
  unfold Store.enter
  rw [hget]
  cases st.get? (.overlay id) name with
  | none => exact h.lay id name (.fresh (.overlay id))
  | some found =>
    cases found with
    | null => exact h.lay id name (.fresh (.overlay id))
    | scope s =>
      cases s with
      | overlay inner => exact ⟨rfl, h⟩
      | turn key v index size outer =>
        have hlay := h.lay id name (.delegate (.turn key v index size outer))
        simp only [Base.renumber, Scope.renumber_turn] at hlay
        simp only [Option.map_some, Value.renumber, Scope.renumber_turn]
        exact hlay
      | nowhere => exact h.lay id name (.delegate .nowhere)
      | «over» own outer => exact h.lay id name (.delegate (.over own outer))
      | host identity own => exact h.lay id name (.delegate (.host identity own))
    | bool | int | float | text | list | map | entries | entry | date | object | collection
      | function =>
      exact h.lay id name (.delegate (.over _ (.overlay id)))

theorem write (id : Nat) (v : Value) (names : List String) :
    Above k (st.write id v names) (st'.write (id + k) (v.renumber k) names) := by
  induction names generalizing st st' id with
  | nil => exact h
  | cons name rest ih =>
    cases rest with
    | nil => exact h.set id name v
    | cons next rest =>
      obtain ⟨hid, hentered⟩ := h.enter id name
      have hrest := ih hentered (st.enter id name).1
      rw [← hid] at hrest
      exact hrest

end Above

end Store

end TextTemplate
