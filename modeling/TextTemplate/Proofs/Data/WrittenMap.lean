import TextTemplate.Proofs.Data.WrittenList
import TextTemplate.Proofs.Store.Counts

/-! Maps that were written to. However many overlays lie over each other, and whatever is set in any
of them, the names, the entries and the size of a scope tell the same. -/

namespace TextTemplate

namespace Value
variable {own : Value}

/-- The value has entries by name, no name twice. -/
def Keyed : Value → Prop
  | map fields => Fields.Distinct fields
  | entry _ _ => True
  | _ => False

theorem Keyed.distinct (h : own.Keyed) : Fields.Distinct own.members := by
  cases own with
  | map fields => exact h
  | entry k v => simp [members, entryFields, Fields.Distinct]
  | _ => cases h

theorem Keyed.member?_eq (h : own.Keyed) (name : String) :
    own.member? name =
      (Fields.get? name own.members).or (sizeMember? name own.members.length) := by
  cases own with
  | map fields => rfl
  | entry k v => rfl
  | _ => cases h

end Value

namespace Store

/-- What the scope says about itself under its names, by its entries and as its size fits together.
An entry that is called like a size is no size. -/
structure Coherent (st : Store) (s : Scope) : Prop where
  once : (st.names s).Nodup
  entry : ∀ {name v}, (name, v) ∈ st.members s → st.local? s name = some v
  named : ∀ {name v}, Value.isSizeName name = false → st.local? s name = some v →
    (name, v) ∈ st.members s
  size : "size" ∉ st.names s → st.local? s "size" = some (.ofNat (st.members s).length)
  isEmpty : "isEmpty" ∉ st.names s →
    st.local? s "isEmpty" = some (.bool (st.members s).isEmpty)

/-- An overlay over a map, over another such overlay, or over nothing. -/
inductive WrittenMap (st : Store) : Nat → Prop where
  | keyed {id : Nat} {o : Overlay} {s : Scope} {own : Value} : st.overlay? id = some o →
      o.base = .delegate s → s.own? = some own → own.Keyed → WrittenMap st id
  | overlaid {id inner : Nat} {o : Overlay} : st.overlay? id = some o →
      o.base = .delegate (.overlay inner) → WrittenMap st inner → WrittenMap st id
  | fresh {id : Nat} {o : Overlay} {outer : Scope} : st.overlay? id = some o →
      o.base = .fresh outer → WrittenMap st id

/-- One value after the other is set in an overlay. -/
def setEach (st : Store) (writes : List (Nat × String × Value)) : Store :=
  writes.foldl (fun st (id, name, v) => st.set id name v) st

/-- A name means the entry of that name, and a size that is no entry counts them. -/
def Counted (st : Store) (s : Scope) : Prop :=
  Fields.Distinct (st.members s) ∧ ∀ name, st.local? s name =
    (Fields.get? name (st.members s)).or (Value.sizeMember? name (st.members s).length)

variable {st : Store} {s : Scope} {id : Nat} {o : Overlay} {own : Value} {outer : Scope}

theorem Counted.coherent (h : st.Counted s) : st.Coherent s := by
  obtain ⟨hdistinct, hlocal⟩ := h
  have absent {name : String} (hname : name ∉ st.names s) :
      Fields.get? name (st.members s) = none := by
    rw [mem_names, Fields.has] at hname
    simpa using hname
  refine ⟨hdistinct, fun hmem => ?_, fun hname hv => ?_, fun hsize => ?_, fun hempty => ?_⟩
  · rw [hlocal, hdistinct.get?_eq_some_iff.2 hmem, Option.some_or]
  · rw [hlocal, Value.sizeMember?_eq_none_iff.2 hname, Option.or_none] at hv
    exact hdistinct.get?_eq_some_iff.1 hv
  · rw [hlocal, absent hsize]
    rfl
  · rw [hlocal, absent hempty]
    cases st.members s <;> rfl

theorem counted_of_keyed (hs : s.own? = some own) (h : own.Keyed) : st.Counted s := by
  cases s with
  | «over» own' outer | host identity own' =>
    cases hs
    rw [Counted]
    simp only [members, local?]
    exact ⟨h.distinct, h.member?_eq⟩
  | nowhere | turn | overlay => cases hs

theorem counted_fresh (ho : st.overlay? id = some o) (hdistinct : o.overrides.Distinct)
    (hbase : o.base = .fresh outer) : st.Counted (.overlay id) := by
  have hmembers := members_fresh ho hbase
  rw [Counted]
  refine ⟨hmembers ▸ hdistinct, fun name => ?_⟩
  cases hget : o.overrides.get? name with
  | some v => rw [local?_of_override ho hget, hmembers, hget, Option.some_or]
  | none => rw [local?_fresh ho hget hbase, hmembers, hget, Option.none_or]

/-- The overlay counts anew what the scope under it counted, and keeps its answers otherwise. -/
theorem Counted.overlaid (h : st.Counted s) (hordered : st.Ordered) (ho : st.overlay? id = some o)
    (hdistinct : o.overrides.Distinct) (hbase : o.base = .delegate s) :
    st.Counted (.overlay id) := by
  have hrank := hordered.rank_le ho hbase
  have hmembers := members_delegate ho hbase hrank
  obtain ⟨hbelow, hlocal⟩ := h
  rw [Counted]
  refine ⟨hmembers ▸ hbelow.merged hdistinct, fun name => ?_⟩
  have hnow : Fields.get? name (st.members (.overlay id)) =
      (o.overrides.get? name).or (Fields.get? name (st.members s)) := by
    rw [hmembers, Fields.get?_merged]
  cases hget : o.overrides.get? name with
  | some v => rw [local?_of_override ho hget, hnow, hget, Option.some_or, Option.some_or]
  | none =>
    rw [local?_delegate ho hget hbase hrank, hlocal, hnow, hget, Option.none_or, Fields.has]
    cases Fields.get? name (st.members s) with
    | some w => simp
    | none =>
      cases hname : Value.isSizeName name with
      | false => simp [Value.sizeMember?_eq_none_iff.2 hname]
      | true =>
        -- Under the name of a size there is some count below, and its value plays no part.
        obtain ⟨count, hcount⟩ : ∃ count, Value.sizeMember? name (st.members s).length =
            some count := by
          rw [← Option.ne_none_iff_exists', Ne, Value.sizeMember?_eq_none_iff, hname]
          exact Bool.noConfusion
        simp [hcount]

theorem WrittenMap.counted (h : st.WrittenMap id) (hordered : st.Ordered)
    (hdistinct : st.Distinct) : st.Counted (.overlay id) := by
  induction h with
  | keyed ho hbase hs hown =>
    exact (counted_of_keyed hs hown).overlaid hordered ho (hdistinct _ _ ho) hbase
  | overlaid ho hbase _ ih => exact ih.overlaid hordered ho (hdistinct _ _ ho) hbase
  | fresh ho hbase => exact counted_fresh ho (hdistinct _ _ ho) hbase

/-- Setting a name leaves an overlay over what it stands over. -/
theorem overlay?_set_base (ho : st.overlay? id = some o) (other : Nat) (name : String) (v : Value) :
    ∃ o', (st.set other name v).overlay? id = some o' ∧ o'.base = o.base := by
  rw [overlay?_set, ho]
  split
  · exact ⟨_, rfl, rfl⟩
  · exact ⟨o, rfl, rfl⟩

theorem Ordered.set (h : st.Ordered) (id : Nat) (name : String) (v : Value) :
    (st.set id name v).Ordered := by
  intro other o ho
  rw [overlay?_set] at ho
  split at ho
  · obtain ⟨o', ho', rfl⟩ := Option.map_eq_some_iff.1 ho
    exact h other o' ho'
  · exact h other o ho

theorem WrittenMap.set (h : st.WrittenMap id) (other : Nat) (name : String) (v : Value) :
    (st.set other name v).WrittenMap id := by
  induction h with
  | keyed ho hbase hs hown =>
    obtain ⟨o', ho', hsame⟩ := overlay?_set_base ho other name v
    exact .keyed ho' (hsame.trans hbase) hs hown
  | overlaid ho hbase _ ih =>
    obtain ⟨o', ho', hsame⟩ := overlay?_set_base ho other name v
    exact .overlaid ho' (hsame.trans hbase) ih
  | fresh ho hbase =>
    obtain ⟨o', ho', hsame⟩ := overlay?_set_base ho other name v
    exact .fresh ho' (hsame.trans hbase)

/-- Whatever is set in overlays, each written map stays one, and so do the two properties of the
store that its count rests on. -/
theorem WrittenMap.setEach (h : st.WrittenMap id) (hordered : st.Ordered)
    (hdistinct : st.Distinct) (writes : List (Nat × String × Value)) :
    (st.setEach writes).WrittenMap id ∧ (st.setEach writes).Ordered ∧
      (st.setEach writes).Distinct := by
  induction writes generalizing st with
  | nil => exact ⟨h, hordered, hdistinct⟩
  | cons write rest ih =>
    obtain ⟨other, name, v⟩ := write
    exact ih (h.set other name v) (hordered.set other name v) (hdistinct.set other name v)

end Store

namespace Session
variable {w : Session} {id : Nat}

/-- In every session, an overlay over a map, over another such overlay or over nothing stays
coherent, whatever is set in it and in the overlays below it. -/
theorem Reachable.coherent_written_map (h : w.Reachable) (hid : w.store.WrittenMap id)
    (writes : List (Nat × String × Value)) :
    (w.store.setEach writes).Coherent (.overlay id) := by
  obtain ⟨hmap, hordered, hdistinct⟩ :=
    hid.setEach h.sound.1.ordered h.distinct writes
  exact (hmap.counted hordered hdistinct).coherent

/-- Two overlays lie over a map with an entry `isEmpty`. The inner one is given a name, and the outer
one another and one of the map's: these are four entries, and `isEmpty` is what the map says. -/
theorem Reachable.coherent_written_map_twice :
    let below : Scope := .over (.map [("isEmpty", .text "no"), ("a", .null)]) .nowhere
    let first := (Store.empty.push (.delegate below)).2
    let st := (first.push (.delegate (.overlay 0))).2
    let writes := [(0, "b", Value.bool true), (1, "c", .text ""), (1, "a", .bool false)]
    Reachable ⟨st, [.overlay 1, .overlay 0]⟩ ∧ st.WrittenMap 1 ∧
      (st.setEach writes).names (.overlay 1) = ["isEmpty", "b", "c", "a"] ∧
      (st.setEach writes).local? (.overlay 1) "size" = some (.ofNat 4) ∧
      (st.setEach writes).local? (.overlay 1) "isEmpty" = some (.text "no") := by
  intro below first st writes
  have hfirst : Reachable ⟨first, [.overlay 0]⟩ :=
    .step .start (@Step.push _ (.delegate below) (Nat.zero_le _))
  have hsecond : Reachable ⟨st, [.overlay 1, .overlay 0]⟩ :=
    .step hfirst (@Step.push _ (.delegate (.overlay 0)) (Nat.le_refl _))
  have hkeyed : (Value.map [("isEmpty", .text "no"), ("a", .null)]).Keyed :=
    List.nodup_cons.2 ⟨by decide, List.nodup_singleton "a"⟩
  have hmap : st.WrittenMap 1 := .overlaid rfl rfl (.keyed rfl rfl rfl hkeyed)
  have hcoherent := hsecond.coherent_written_map hmap writes
  have hmembers : (st.setEach writes).members (.overlay 1) =
      [("isEmpty", .text "no"), ("b", .bool true), ("c", .text ""), ("a", .bool false)] := by cbv
  have hnames : (st.setEach writes).names (.overlay 1) = ["isEmpty", "b", "c", "a"] := by
    rw [Store.names, hmembers]
    rfl
  refine ⟨hsecond, hmap, hnames, ?_, hcoherent.entry (hmembers ▸ List.mem_cons_self)⟩
  have hsize := hcoherent.size (by rw [hnames]; decide)
  rwa [hmembers] at hsize

end Session

end TextTemplate
