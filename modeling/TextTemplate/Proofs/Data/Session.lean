import TextTemplate.Proofs.Data.Write

/-! Whatever a program does with its data, they stay sound: every scope and value that it holds
leads only to overlays of the store. So what it writes at a path of distinct names it reads back
there. -/

namespace TextTemplate

namespace Data

/-- The scope leads only to overlays of the store, and the store is sound. -/
structure Sound (d : Data) : Prop where
  store : d.store.Sound
  scope : d.scope.reach ≤ d.store.size

variable {d : Data} {p : DataPath} {v : Value}

theorem sound_ofValue {st : Store} (h : st.Sound) (hv : v.reach ≤ st.size) :
    (ofValue st v).Sound := by
  refine ⟨h, Nat.le_trans (Value.reach_toScope v .nowhere) ?_⟩
  simpa [ofValue, Scope.reach] using hv

/-- What making a scope writable does: nothing if it is an overlay, else an overlay is laid over
it. -/
theorem writable_cases (d : Data) :
    (∃ id, d.scope = .overlay id ∧ d.writable = (id, d)) ∨
    ((∀ id, d.scope ≠ .overlay id) ∧ d.writable =
      (d.store.size, ⟨(d.store.push (.delegate d.scope)).2, .overlay d.store.size⟩)) := by
  obtain ⟨st, s⟩ := d
  cases s with
  | overlay id => exact .inl ⟨id, rfl, rfl⟩
  | _ => exact .inr ⟨nofun, rfl⟩

theorem scope_writable (d : Data) : d.writable.2.scope = .overlay d.writable.1 := by
  rcases writable_cases d with ⟨id, hscope, hw⟩ | ⟨_, hw⟩
  · rw [hw]
    exact hscope
  · rw [hw]

/-- Data that are writable are left as they are. -/
theorem writable_writable (d : Data) : d.writable.2.writable = d.writable := by
  rcases writable_cases d with ⟨id, hscope, hw⟩ | ⟨_, hw⟩
  · rw [hw, hw]
  · rw [hw]
    rfl

theorem grows_writable (d : Data) : Store.Grows [] d.store d.writable.2.store := by
  rcases writable_cases d with ⟨id, _, hw⟩ | ⟨_, hw⟩
  · rw [hw]
    exact .refl [] _
  · rw [hw]
    exact .push [] _ _

theorem put_eq (d : Data) (p : DataPath) (v : Value) :
    d.put p v = ⟨d.writable.2.store.write d.writable.1 v p.segments, .overlay d.writable.1⟩ := by
  rw [put, ← scope_writable]

theorem putIfMissing_cases (d : Data) (p : DataPath) (v : Value) :
    ((d.writable.2.getLocal? p).isSome ∧ d.putIfMissing p v = (false, d.writable.2)) ∨
    (d.writable.2.getLocal? p = none ∧ d.putIfMissing p v = (true, d.put p v)) := by
  unfold putIfMissing put
  cases hlocal : d.writable.2.getLocal? p with
  | none => exact .inr ⟨rfl, by simp [hlocal]⟩
  | some found => exact .inl ⟨rfl, by simp [hlocal]⟩

namespace Sound

theorem child (h : d.Sound) (hv : v.reach ≤ d.store.size) : (d.child v).Sound := by
  refine ⟨h.store, Nat.le_trans (Value.reach_toScope v d.scope) ?_⟩
  have := h.scope
  simp only [Data.child]
  omega

theorem turn (h : d.Sound) (hv : v.reach ≤ d.store.size) (index size : Nat) :
    (d.turn v index size).Sound := by
  refine ⟨h.store, ?_⟩
  have hscope := h.scope
  cases v <;> simp only [Data.turn, Scope.reach, Value.reach] at hv ⊢ <;> omega

/-- What is at a path leads only to overlays of the store. -/
theorem reach_get (h : d.Sound) (p : DataPath) : (d.get p).reach ≤ d.store.size := by
  unfold get
  cases hget : d.get? p with
  | none => exact Nat.zero_le _
  | some v => exact h.store.reach_follow h.scope hget

theorem writable (h : d.Sound) :
    d.writable.2.store.Sound ∧ d.writable.1 < d.writable.2.store.size := by
  rcases writable_cases d with ⟨id, hscope, hw⟩ | ⟨_, hw⟩
  · rw [hw]
    refine ⟨h.store, ?_⟩
    have := h.scope
    rwa [hscope] at this
  · rw [hw]
    refine ⟨h.store.push h.scope, ?_⟩
    rw [Store.size_push]
    exact Nat.lt_succ_self _

/-- Writing at any path keeps the data sound, and the store that there was a part of it. -/
theorem write (h : d.Sound) (hv : v.reach ≤ d.store.size) (names : List String) :
    Sound ⟨d.writable.2.store.write d.writable.1 v names, .overlay d.writable.1⟩ ∧
      d.store.size ≤ (d.writable.2.store.write d.writable.1 v names).size := by
  obtain ⟨hstore, hid⟩ := h.writable
  have hsize := (grows_writable d).size_le
  have hlater := (Store.grows_write hstore hid v names).size_le
  refine ⟨⟨hstore.write hid (Nat.le_trans hv hsize) names, ?_⟩, Nat.le_trans hsize hlater⟩
  exact Nat.lt_of_lt_of_le hid hlater

theorem put (h : d.Sound) (hv : v.reach ≤ d.store.size) (p : DataPath) :
    (d.put p v).Sound ∧ d.store.size ≤ (d.put p v).store.size := by
  rw [put_eq]
  exact h.write hv p.segments

theorem putIfMissing (h : d.Sound) (hv : v.reach ≤ d.store.size) (p : DataPath) :
    (d.putIfMissing p v).2.Sound ∧ d.store.size ≤ (d.putIfMissing p v).2.store.size := by
  rcases putIfMissing_cases d p v with ⟨_, hunchanged⟩ | ⟨_, hwritten⟩
  · rw [hunchanged]
    obtain ⟨hstore, hid⟩ := h.writable
    refine ⟨⟨hstore, ?_⟩, (grows_writable d).size_le⟩
    rw [scope_writable]
    exact hid
  · rw [hwritten]
    exact h.put hv p

end Sound

/-- What is written at a path of distinct names is read back there. -/
theorem Sound.get?_of_put (h : d.Sound) (hne : p.segments ≠ []) (hdistinct : p.segments.Nodup)
    (v : Value) : (d.put p v).get? p = some v := by
  obtain ⟨hstore, hid⟩ := h.writable
  rw [put_eq]
  exact hstore.follow_write hid hne hdistinct v

end Data

/-- What a program has at hand: a store, and the scopes it has come by so far. -/
structure Session where
  store : Store
  scopes : List Scope

namespace Session

/-- The data of a scope at hand. -/
def data (w : Session) (s : Scope) : Data := ⟨w.store, s⟩

/-- Goes on with new data, and still has the scopes from before. -/
def keep (w : Session) (d : Data) : Session := ⟨d.store, d.scope :: w.scopes⟩

/-- A value that can be at hand: it leads only to overlays that were made. -/
def Holds (w : Session) (v : Value) : Prop := v.reach ≤ w.store.size

/-- Anything a program can do with data. Every value that it writes or opens may hold scopes it had
before, scopes of the host, and overlays. -/
inductive Step (w : Session) : Session → Prop where
  | ofValue {v : Value} : w.Holds v → Step w (w.keep (.ofValue w.store v))
  | child {s : Scope} {v : Value} : s ∈ w.scopes → w.Holds v → Step w (w.keep ((w.data s).child v))
  | turn {s : Scope} {v : Value} (index size : Nat) : s ∈ w.scopes → w.Holds v →
      Step w (w.keep ((w.data s).turn v index size))
  | put {s : Scope} {v : Value} (p : DataPath) : s ∈ w.scopes → w.Holds v →
      Step w (w.keep ((w.data s).put p v))
  | putIfMissing {s : Scope} {v : Value} (p : DataPath) : s ∈ w.scopes → w.Holds v →
      Step w (w.keep ((w.data s).putIfMissing p v).2)
  /-- The host lays an overlay of its own over any scope, or over nothing inside it. -/
  | push {base : Base} : w.Holds (.scope base.scope) →
      Step w (w.keep ⟨(w.store.push base).2, .overlay (w.store.push base).1⟩)
  /-- The host sets a name in an overlay. -/
  | set {id : Nat} {v : Value} (name : String) : id < w.store.size → w.Holds v →
      Step w { w with store := w.store.set id name v }

/-- A session that any number of steps lead to. -/
inductive Reachable : Session → Prop where
  | start : Reachable ⟨.empty, []⟩
  | step {w w' : Session} : Reachable w → Step w w' → Reachable w'

/-- All data at hand are sound. -/
def Sound (w : Session) : Prop := w.store.Sound ∧ ∀ s ∈ w.scopes, (w.data s).Sound

variable {w w' : Session} {s : Scope} {p : DataPath}

theorem Sound.keep (h : w.Sound) {d : Data} (hd : d.Sound) (hsize : w.store.size ≤ d.store.size) :
    (w.keep d).Sound := by
  refine ⟨hd.store, fun s hs => ?_⟩
  rcases List.mem_cons.1 hs with rfl | hmem
  · exact hd
  · exact ⟨hd.store, Nat.le_trans (h.2 s hmem).scope hsize⟩

theorem Sound.step (h : w.Sound) (hstep : w.Step w') : w'.Sound := by
  cases hstep with
  | ofValue hv => exact h.keep (Data.sound_ofValue h.1 hv) (Nat.le_refl _)
  | child hs hv => exact h.keep ((h.2 _ hs).child hv) (Nat.le_refl _)
  | turn index size hs hv => exact h.keep ((h.2 _ hs).turn hv index size) (Nat.le_refl _)
  | put p hs hv =>
    obtain ⟨hsound, hsize⟩ := (h.2 _ hs).put hv p
    exact h.keep hsound hsize
  | putIfMissing p hs hv =>
    obtain ⟨hsound, hsize⟩ := (h.2 _ hs).putIfMissing hv p
    exact h.keep hsound hsize
  | @push base hbase =>
    have hsize : w.store.size ≤ (w.store.push base).2.size := by
      rw [Store.size_push]
      exact Nat.le_succ _
    refine h.keep ⟨h.1.push hbase, ?_⟩ hsize
    rw [Store.size_push]
    exact Nat.le_refl _
  | @set id v name hid hv =>
    have hstore : (w.store.set id name v).Sound := h.1.set hv
    refine ⟨hstore, fun s hs => ⟨hstore, ?_⟩⟩
    rw [data, Store.size_set]
    exact (h.2 s hs).scope

theorem Reachable.sound (h : w.Reachable) : w.Sound := by
  induction h with
  | start => exact ⟨Store.sound_empty, nofun⟩
  | step _ hstep ih => exact ih.step hstep

/-- A scope at hand can be written as a value, within itself too. -/
theorem Reachable.holds_scope (h : w.Reachable) (hs : s ∈ w.scopes) : w.Holds (.scope s) :=
  (h.sound.2 s hs).scope

/-- In every session, what is written at a path of distinct names is read back there. -/
theorem Reachable.get?_put (h : w.Reachable) (hs : s ∈ w.scopes) (hne : p.segments ≠ [])
    (hdistinct : p.segments.Nodup) (v : Value) : ((w.data s).put p v).get? p = some v :=
  (h.sound.2 s hs).get?_of_put hne hdistinct v

/-- Data that hold themselves are written to on a path through themselves. -/
theorem Reachable.get?_put_within_itself :
    ∃ w : Session, w.Reachable ∧ Scope.overlay 0 ∈ w.scopes ∧
      (w.data (.overlay 0)).get? ⟨["me"]⟩ = some (.scope (.overlay 0)) ∧
      ((w.data (.overlay 0)).put ⟨["me", "a", "b"]⟩ (.bool true)).get? ⟨["me", "a", "b"]⟩ =
        some (.bool true) := by
  let outer : Scope := .over (.map [("a", .map [])]) .nowhere
  have hroot : Reachable ⟨.empty, [outer]⟩ :=
    .step .start (.ofValue (v := .map [("a", .map [])]) (Nat.zero_le _))
  have houter : outer ∈ [outer] := List.mem_singleton_self outer
  have hfirst := hroot.step (.put (v := .null) ⟨["a"]⟩ houter (Nat.zero_le _))
  have hmem : ∀ others, Scope.overlay 0 ∈ Scope.overlay 0 :: others :=
    fun others => List.mem_cons_self
  have hheld := hfirst.step (.put ⟨["me"]⟩ (hmem _) (hfirst.holds_scope (hmem _)))
  refine ⟨_, hheld, hmem _, ?_, hheld.get?_put (hmem _) (by decide) (by decide) _⟩
  exact hfirst.get?_put (p := ⟨["me"]⟩) (hmem _) (by decide) (by decide) _

end Session

end TextTemplate
