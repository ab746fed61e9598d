import Mathlib
import TextTemplate.Proofs.Data.Session

/-! When a value that was written because it was missing is found afterwards. Whether it is missing
is asked of each scope on the path by itself, but the write follows what the names mean, by the
scopes outside too. So it is found exactly if no name on the way led the write from a scope that
does not define it to an overlay of a scope outside. -/

namespace TextTemplate

theorem Value.toScope_of_plain {v : Value} (h : ∀ s, v ≠ .scope s) (outer : Scope) :
    v.toScope outer = .over v outer := by
  cases v with
  | scope s => exact absurd rfl (h s)
  | _ => rfl

namespace Store

/-- The scope does not define the name, which means an overlay in a scope outside. -/
def Leaves (st : Store) (s : Scope) (name : String) : Prop :=
  st.local? s name = none ∧ ∃ id, st.get? s name = some (.scope (.overlay id))

/-- No name before the last leads a write out of the overlay that it has come to. -/
def StaysWithin (st : Store) (id : Nat) : List String → Prop
  | name :: next :: rest =>
    ¬ st.Leaves (.overlay id) name ∧
      (st.enter id name).2.StaysWithin (st.enter id name).1 (next :: rest)
  | _ => True

variable {st : Store} {id : Nat} {name : String} {names : List String}

/-- A write that a name leads out of its scope leaves the scope without the name. -/
theorem local?_enter_of_leaves (h : st.Leaves (.overlay id) name) :
    (st.enter id name).2.local? (.overlay id) name = none := by
  obtain ⟨hlocal, inner, hget⟩ := h
  unfold enter
  rw [hget]
  exact hlocal

/-- Any other write leaves the name in the scope, for the overlay that it went on in. -/
theorem local?_enter (hid : id < st.size) (h : ¬ st.Leaves (.overlay id) name) :
    (st.enter id name).2.local? (.overlay id) name =
      some (.scope (.overlay (st.enter id name).1)) := by
  rcases enter_cases st id name with ⟨inner, hget, henter⟩ | ⟨_, henter⟩ | ⟨_, _, _, _, henter⟩
  · rw [henter]
    cases hlocal : st.local? (.overlay id) name with
    | none => exact absurd ⟨hlocal, inner, hget⟩ h
    | some v => exact (get?_of_local? hlocal).symm.trans hget
  all_goals
    rw [henter]
    obtain ⟨o, ho, hover⟩ := overlay?_lay hid
    exact local?_of_override ho hover

/-- What is written at a path of distinct names is found by the scopes on the path themselves if the
write stays within them, and otherwise not. -/
theorem Sound.follow_local?_write (h : st.Sound) (hid : id < st.size) (hne : names ≠ [])
    (hdistinct : names.Nodup) (v : Value) :
    (st.StaysWithin id names → follow (st.write id v names).local? (.overlay id) names = some v) ∧
    (¬ st.StaysWithin id names →
      follow (st.write id v names).local? (.overlay id) names = none) := by
  induction names generalizing st id with
  | nil => exact absurd rfl hne
  | cons name rest ih =>
    cases rest with
    | nil => exact ⟨fun _ => set_overrides hid name v, fun hleaves => absurd trivial hleaves⟩
    | cons next rest =>
      obtain ⟨hname, hrest⟩ := List.nodup_cons.1 hdistinct
      obtain ⟨hsound, hlt, hgrows⟩ := h.enter hid name
      -- The rest of the write changes nothing under this name.
      have hkept := (grows_write hsound hlt v (next :: rest)).local?_alike hsound.ordered
        (s := .overlay id) (Nat.lt_of_lt_of_le hid hgrows.size_le) hname
      rw [write_cons]
      by_cases hout : st.Leaves (.overlay id) name
      · refine ⟨fun hwithin => absurd hout hwithin.1, fun _ => follow_of_none ?_⟩
        exact hkept.eq_none (local?_enter_of_leaves hout)
      · rw [follow_of_scope (hkept.eq_scope (local?_enter hid hout))]
        obtain ⟨hin, hnot⟩ := ih hsound hlt (List.cons_ne_nil _ _) hrest
        refine ⟨fun hwithin => hin hwithin.2, fun hnotwithin => hnot fun hwithin => ?_⟩
        exact hnotwithin ⟨hout, hwithin⟩

end Store

namespace Data
variable {d : Data} {p : DataPath} {v : Value}

/-- A write to the data at the path is led out of no scope that it comes to. -/
def StaysWithin (d : Data) (p : DataPath) : Prop :=
  d.writable.2.store.StaysWithin d.writable.1 p.segments

theorem Sound.getLocal?_put (h : d.Sound) (hne : p.segments ≠ []) (hdistinct : p.segments.Nodup)
    (v : Value) :
    (d.StaysWithin p → (d.put p v).getLocal? p = some v) ∧
    (¬ d.StaysWithin p → (d.put p v).getLocal? p = none) := by
  obtain ⟨hstore, hid⟩ := h.writable
  rw [put_eq]
  exact hstore.follow_local?_write hid hne hdistinct v

/-- Data that were written to can be written to. -/
theorem writable_put (d : Data) (p : DataPath) (v : Value) :
    (d.put p v).writable.2 = d.put p v := by
  rw [put_eq]
  rfl

end Data

namespace Session
variable {w : Session} {s : Scope} {p : DataPath} {u v : Value} {after : Data}

/-- In every session, what was written because it was missing at a path of distinct names is found
in the scope itself, and is not missing any more, if the write stays within the scopes on its way. A
write that leaves them is not found there: the next one overwrites it. -/
theorem Reachable.putIfMissing_twice (h : w.Reachable) (hs : s ∈ w.scopes) (hne : p.segments ≠ [])
    (hdistinct : p.segments.Nodup) (hput : (w.data s).putIfMissing p v = (true, after)) :
    ((w.data s).StaysWithin p →
      after.getLocal? p = some v ∧ after.putIfMissing p u = (false, after)) ∧
    (¬ (w.data s).StaysWithin p →
      after.getLocal? p = none ∧ after.putIfMissing p u = (true, after.put p u)) := by
  have hafter : after = (w.data s).put p v := by
    rcases Data.putIfMissing_cases (w.data s) p v with ⟨_, hunchanged⟩ | ⟨_, hwritten⟩
    · rw [hunchanged] at hput
      cases hput
    · rw [hwritten] at hput
      exact (Prod.mk.inj hput).2.symm
  have hwritable : after.writable.2 = after := by rw [hafter, Data.writable_put]
  obtain ⟨hwithin, hleaves⟩ := (h.sound.2 s hs).getLocal?_put hne hdistinct v
  rw [← hafter] at hwithin hleaves
  refine ⟨fun hstays => ⟨hwithin hstays, ?_⟩, fun hout => ⟨hleaves hout, ?_⟩⟩
  all_goals
    have hcases := Data.putIfMissing_cases after p u
    rw [hwritable] at hcases
  · rcases hcases with ⟨_, hunchanged⟩ | ⟨hnone, _⟩
    · exact hunchanged
    · rw [hwithin hstays] at hnone
      cases hnone
  · rcases hcases with ⟨hsome, _⟩ | ⟨_, hwritten⟩
    · rw [hleaves hout] at hsome
      cases hsome
    · exact hwritten

/-- In a scope that encloses no other, what was missing is found once it was written. -/
theorem Reachable.putIfMissing_twice_outermost :
    ∃ (w : Session) (after : Data), w.Reachable ∧ Scope.over (.map []) .nowhere ∈ w.scopes ∧
      (w.data (.over (.map []) .nowhere)).putIfMissing ⟨["a", "b"]⟩ (.bool true) = (true, after) ∧
      after.getLocal? ⟨["a", "b"]⟩ = some (.bool true) ∧
      after.putIfMissing ⟨["a", "b"]⟩ .null = (false, after) := by
  have hroot : Reachable ⟨.empty, [.over (.map []) .nowhere]⟩ :=
    .step .start (.ofValue (v := .map []) (Nat.zero_le _))
  have hput : (Data.ofValue .empty (.map [])).putIfMissing ⟨["a", "b"]⟩ (.bool true) =
      (true, (Data.ofValue .empty (.map [])).put ⟨["a", "b"]⟩ (.bool true)) := by
    cbv
  have htwice := hroot.putIfMissing_twice (u := .null) (List.mem_singleton_self _) (by decide)
    (by decide) hput
  have hnone : (Store.empty.push (.delegate (.over (.map []) .nowhere))).2.get? (.overlay 0) "a" =
      none := by
    cbv
  refine ⟨_, _, hroot, List.mem_singleton_self _, hput, htwice.1 ⟨?_, trivial⟩⟩
  rintro ⟨_, id, hfound⟩
  cases hnone.symm.trans hfound

/-- A scope inside one in which `a` was written to: the write to `a.c` goes to the scope outside, is
not found in the scope itself, and is overwritten by the next. -/
theorem Reachable.putIfMissing_twice_inside :
    let root := Data.ofValue .empty (.map [])
    let outer := root.put ⟨["a", "b"]⟩ (.bool true)
    let inner := outer.child (.map [])
    let first := inner.putIfMissing ⟨["a", "c"]⟩ (.text "first")
    let second := first.2.putIfMissing ⟨["a", "c"]⟩ (.text "second")
    Reachable ⟨inner.store, [inner.scope, outer.scope, root.scope]⟩ ∧
      first.1 = true ∧ first.2.getLocal? ⟨["a", "c"]⟩ = none ∧
      second.1 = true ∧ second.2.get? ⟨["a", "c"]⟩ = some (.text "second") := by
  have hroot : Reachable ⟨.empty, [.over (.map []) .nowhere]⟩ :=
    .step .start (.ofValue (v := .map []) (Nat.zero_le _))
  have houter := hroot.step (.put (v := .bool true) ⟨["a", "b"]⟩ List.mem_cons_self (Nat.zero_le _))
  have hinner := houter.step (.child (v := .map []) List.mem_cons_self (Nat.zero_le _))
  refine ⟨hinner, ?_, ?_, ?_, ?_⟩
  all_goals cbv

end Session

end TextTemplate
