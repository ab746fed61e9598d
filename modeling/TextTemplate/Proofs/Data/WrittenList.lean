import TextTemplate.Proofs.Data.Through
import TextTemplate.Proofs.Store.Positions

/-! Loops over a list that was written to. The list is gone through by position, but as often as it
has entries under any name, so that a name that is no position makes it longer than its items reach,
and so does a position that leaves some out. -/

namespace TextTemplate

namespace Store
variable {st : Store}

theorem Distinct.push (h : st.Distinct) (base : Base) : (st.push base).2.Distinct := by
  intro id o ho
  rw [overlay?_push] at ho
  split at ho
  · cases ho
    exact List.nodup_nil
  · exact h id o ho

theorem Distinct.set (h : st.Distinct) (id : Nat) (name : String) (v : Value) :
    (st.set id name v).Distinct := by
  intro other o ho
  rw [overlay?_set] at ho
  split at ho
  · obtain ⟨o', ho', rfl⟩ := Option.map_eq_some_iff.1 ho
    exact (h other o' ho').set name v
  · exact h other o ho

theorem Distinct.write (h : st.Distinct) (id : Nat) (v : Value) (names : List String) :
    (st.write id v names).Distinct :=
  write_induction (R := fun st st' => st.Distinct → st'.Distinct) (fun _ h => h)
    (fun h h' => h' ∘ h) (fun _ base h => h.push base) (fun _ id name v h => h.set id name v)
    st id v names h

end Store

/-- What a program can do to the data by writes that lead into what stands at a path. Of the writes
that were made it keeps the names after the path, the last first. -/
inductive WrittenInto (p : DataPath) (d : Data) : List (List String) → Data → Prop where
  | start : WrittenInto p d [] d
  | put {done : List (List String)} {d' : Data} {names : List String} {v : Value} :
      WrittenInto p d done d' → names ≠ [] → (p.segments ++ names).Nodup →
      v.reach ≤ d'.store.size → WrittenInto p d (names :: done) (d'.put ⟨p.segments ++ names⟩ v)
  | putIfMissing {done : List (List String)} {d' d'' : Data} {names : List String} {v : Value}
      {wrote : Bool} :
      WrittenInto p d done d' → names ≠ [] → (p.segments ++ names).Nodup →
      v.reach ≤ d'.store.size → d'.putIfMissing ⟨p.segments ++ names⟩ v = (wrote, d'') →
      WrittenInto p d (if wrote then names :: done else done) d''

namespace Data
variable {p : DataPath} {first d d' : Data} {items : List Value} {done : List (List String)}
  {names : List String} {v : Value}

/-- At the path stands the list itself, where the data were made writable at most, or an overlay over
it that sets the names of the writes. -/
inductive ListAt (p : DataPath) (items : List Value) (first d : Data) :
    List (List String) → Prop where
  | itself : d = first ∨ d = first.writable.2 → ListAt p items first d []
  | overlaid {done : List (List String)} {id last : Nat} {o : Overlay} {outer : Scope} :
      d.scope = .overlay id → d.store.Through id p.segments last →
      d.store.overlay? last = some o → o.base = .delegate (.over (.list items) outer) →
      (∀ name, [name] ∈ done → o.overrides.has name = true) →
      (∀ name, o.overrides.has name = true → ∃ names ∈ done, name ∈ names) →
      ListAt p items first d done

theorem writable_of_overlay {id : Nat} (h : d.scope = .overlay id) : d.writable = (id, d) := by
  rcases writable_cases d with ⟨other, hscope, hw⟩ | ⟨hother, _⟩
  · rw [hw]
    cases h.symm.trans hscope
    rfl
  · exact absurd h (hother id)

theorem distinct_writable (h : d.store.Distinct) : d.writable.2.store.Distinct := by
  rcases writable_cases d with ⟨_, _, hw⟩ | ⟨_, hw⟩
  · rw [hw]
    exact h
  · rw [hw]
    exact h.push _

theorem distinct_put (h : d.store.Distinct) (p : DataPath) (v : Value) :
    (d.put p v).store.Distinct := by
  rw [put_eq]
  exact (distinct_writable h).write _ v _

theorem distinct_putIfMissing (h : d.store.Distinct) (p : DataPath) (v : Value) :
    (d.putIfMissing p v).2.store.Distinct := by
  rcases putIfMissing_cases d p v with ⟨_, hunchanged⟩ | ⟨_, hwritten⟩
  · rw [hunchanged]
    exact distinct_writable h
  · rw [hwritten]
    exact distinct_put h p v

theorem segments_ne_of_list (h : d.get? p = some (.list items)) : p.segments ≠ [] := by
  intro hnil
  rw [get?, Store.resolve, hnil] at h
  cases h

/-- An overlay over all the data mirrors them, if the sizes that it counts were counts. -/
theorem Sound.mirrors_writable (h : d.Sound) (hanswer : ∀ name ∈ names, d.scope.SaysCount name) :
    Store.Mirrors d.store d.scope d.writable.2.store (.overlay d.writable.1) names := by
  rcases writable_cases d with ⟨id, hscope, hw⟩ | ⟨_, hw⟩
  · rw [hw, hscope]
    exact .refl _ _ _
  · obtain ⟨hsound, -⟩ := h.writable
    rw [hw] at hsound ⊢
    have hrank : d.scope.rank ≤ d.store.size := Nat.le_trans (Scope.rank_le_reach _) h.scope
    have hgrows := Store.Grows.push [] d.store (.delegate d.scope)
    refine (Store.Mirrors.of_grows hgrows h.store.ordered hrank
      fun _ _ => List.not_mem_nil).trans ?_
    refine .delegate hsound.ordered ?_ hanswer
    rw [Store.overlay?_push, if_pos rfl]

theorem Sound.get?_writable_of_list (h : d.Sound)
    (hanswer : ∀ name ∈ p.segments, d.scope.SaysCount name)
    (hget : d.get? p = some (.list items)) : d.writable.2.get? p = some (.list items) := by
  have hfollow := (h.mirrors_writable hanswer).follow_eq h.store h.scope (grows_writable d)
    (fun _ _ => List.not_mem_nil) (segments_ne_of_list hget)
    (fun _ _ => Value.list_ne_sizeMember?) hget
  rw [get?, Store.resolve, scope_writable]
  exact hfollow

theorem listAt_write {st : Store} {id last : Nat} {o : Overlay} {outer : Scope} (hst : st.Sound)
    (hid : id < st.size) (hthrough : st.Through id p.segments last)
    (ho : st.overlay? last = some o) (hbase : o.base = .delegate (.over (.list items) outer))
    (hset : ∀ name, [name] ∈ done → o.overrides.has name = true)
    (hfrom : ∀ name, o.overrides.has name = true → ∃ names ∈ done, name ∈ names)
    (hdistinct : (p.segments ++ names).Nodup) (v : Value) :
    ListAt p items first ⟨st.write last v names, .overlay id⟩ (names :: done) := by
  have hothers : ∀ name ∈ p.segments, name ∉ names := fun name hname hmem =>
    (List.nodup_append.1 hdistinct).2.2 name hname name hmem rfl
  have hgrows := Store.grows_write hst (Store.lt_size ho) v names
  obtain ⟨o', ho', hbase', hset', hfrom'⟩ := hst.overlay?_write ho v names
  refine .overlaid rfl (hthrough.of_grows hst hid hgrows hothers) ho' (hbase'.trans hbase)
    (fun name hname => hset' name ?_) fun name hhas => ?_
  · rcases List.mem_cons.1 hname with heq | hmem
    · exact .inr heq.symm
    · exact .inl (hset name hmem)
  · rcases hfrom' name hhas with hbefore | hnew
    · obtain ⟨written, hwritten, hmem⟩ := hfrom name hbefore
      exact ⟨written, List.mem_cons_of_mem _ hwritten, hmem⟩
    · exact ⟨names, List.mem_cons_self, hnew⟩

/-- The first write into the list lays an overlay over it. -/
theorem Sound.listAt_put (h : d.Sound) (hsizes : d.store.SizesCounted d.scope p.segments)
    (hget : d.get? p = some (.list items)) (hnames : names ≠ [])
    (hdistinct : (p.segments ++ names).Nodup) (v : Value) :
    ListAt p items first (d.put ⟨p.segments ++ names⟩ v) [names] := by
  obtain ⟨hstore, hid⟩ := h.writable
  have hmirrors := h.mirrors_writable hsizes.saysCount
  obtain ⟨st, last, outer, hst, hgrows, hthrough, hover, hwrite⟩ :=
    hmirrors.write_into_list h.store h.scope hstore hid (grows_writable d)
      (fun _ _ => List.not_mem_nil) (segments_ne_of_list hget) (List.nodup_append.1 hdistinct).1
      hsizes hget
  rw [put_eq, hwrite v names hnames]
  exact listAt_write hst (Nat.lt_of_lt_of_le hid hgrows.size_le) hthrough hover rfl
    (fun _ hmem => absurd hmem List.not_mem_nil) (fun _ hhas => by cases hhas) hdistinct v

section Into
variable (hfirst : first.Sound) (hsizes : first.store.SizesCounted first.scope p.segments)
  (hget : first.get? p = some (.list items))
include hfirst hsizes hget

theorem ListAt.put (h : ListAt p items first d done) (hd : d.Sound) (hnames : names ≠ [])
    (hdistinct : (p.segments ++ names).Nodup) (v : Value) :
    ListAt p items first (d.put ⟨p.segments ++ names⟩ v) (names :: done) := by
  cases h with
  | itself hd' =>
    have hput : d.put ⟨p.segments ++ names⟩ v = first.put ⟨p.segments ++ names⟩ v := by
      rcases hd' with rfl | rfl
      · rfl
      · rw [Data.put, Data.put, writable_writable]
    rw [hput]
    exact hfirst.listAt_put hsizes hget hnames hdistinct v
  | overlaid hscope hthrough ho hbase hset hfrom =>
    obtain ⟨hstore, hid⟩ := hd.writable
    rw [put_eq]
    rw [writable_of_overlay hscope] at hstore hid ⊢
    rw [hthrough.write_append hnames]
    exact listAt_write hstore hid hthrough ho hbase hset hfrom hdistinct v

/-- If nothing was laid over the list yet, it is found there. -/
theorem ListAt.get?_itself (hd : d = first ∨ d = first.writable.2) :
    d.get? p = some (.list items) := by
  rcases hd with rfl | rfl
  · exact hget
  · exact hfirst.get?_writable_of_list hsizes.saysCount hget

end Into

theorem ListAt.writable (h : ListAt p items first d done) :
    ListAt p items first d.writable.2 done := by
  cases h with
  | itself hd =>
    refine .itself (.inr ?_)
    rcases hd with rfl | rfl
    · rfl
    · rw [writable_writable]
  | overlaid hscope hthrough ho hbase hset hfrom =>
    rw [writable_of_overlay hscope]
    exact .overlaid hscope hthrough ho hbase hset hfrom

end Data

variable {p : DataPath} {d d' : Data} {items : List Value} {done : List (List String)}

/-- Whatever is written into a list, the data stay sound, and there is the list or an overlay over
it. -/
theorem WrittenInto.listAt (h : WrittenInto p d done d') (hd : d.Sound)
    (hdistinct : d.store.Distinct) (hsizes : d.store.SizesCounted d.scope p.segments)
    (hget : d.get? p = some (.list items)) :
    d'.Sound ∧ d'.store.Distinct ∧ Data.ListAt p items d d' done := by
  induction h with
  | start => exact ⟨hd, hdistinct, .itself (.inl rfl)⟩
  | @put done d' names v _ hnames hnodup hv ih =>
    obtain ⟨hsound, hdist, hlist⟩ := ih
    exact ⟨(hsound.put hv _).1, Data.distinct_put hdist _ v,
      hlist.put hd hsizes hget hsound hnames hnodup v⟩
  | @putIfMissing done d' d'' names v wrote _ hnames hnodup hv hput ih =>
    obtain ⟨hsound, hdist, hlist⟩ := ih
    rcases Data.putIfMissing_cases d' ⟨p.segments ++ names⟩ v with ⟨_, hunchanged⟩ | ⟨_, hwritten⟩
    · cases hunchanged.symm.trans hput
      have hsame := hsound.putIfMissing hv ⟨p.segments ++ names⟩
      rw [hunchanged] at hsame
      exact ⟨hsame.1, Data.distinct_writable hdist, hlist.writable⟩
    · cases hwritten.symm.trans hput
      exact ⟨(hsound.put hv _).1, Data.distinct_put hdist _ v,
        hlist.put hd hsizes hget hsound hnames hnodup v⟩

namespace Session
variable {w w' : Session} {s : Scope} {p : DataPath} {d : Data} {items : List Value}
  {done : List (List String)}

theorem Step.distinct (h : w.store.Distinct) (hstep : w.Step w') : w'.store.Distinct := by
  cases hstep with
  | ofValue | child | turn => exact h
  | @put s v p => exact Data.distinct_put (d := w.data s) h p v
  | @putIfMissing s v p => exact Data.distinct_putIfMissing (d := w.data s) h p v
  | @push base => exact h.push base
  | @set id v name => exact h.set id name v

theorem Reachable.distinct (h : w.Reachable) : w.store.Distinct := by
  induction h with
  | start => exact fun id o ho => by simp [Store.empty, Store.overlay?] at ho
  | step _ hstep ih => exact hstep.distinct ih

/-- In every session, whatever is written into a list, its entries are from then on its positions
and the names that were written in it. Its sequence has items at the positions among these. If
`size` was not written there, its length is the number of them all, so that a loop goes through it
without gaps and to its end exactly if no other names were written, and no position further on than
the next; if it was, the length is what was written. That is for fewer than 2 ^ 63 names, and on the
way to the list a host object must not answer a size that it does not list with anything but a
count, because an overlay over the object loses that answer and all behind it. -/
theorem Reachable.written_list_gapless_iff (h : w.Reachable) (hs : s ∈ w.scopes)
    (hsizes : w.store.SizesCounted s p.segments)
    (hget : (w.data s).get? p = some (.list items)) (hwritten : WrittenInto p (w.data s) done d) :
    ∃ now, d.get? p = some now ∧
      let q := d.store.sequence now
      let names := d.store.names (now.toScope d.scope)
      names.Nodup ∧
      (∀ i < items.length, toString i ∈ names) ∧
      (∀ name, [name] ∈ done → name ∈ names) ∧
      (∀ name ∈ names, (∃ i < items.length, name = toString i) ∨
        ∃ written ∈ done, name ∈ written) ∧
      (names.length < 2 ^ 63 →
        (∀ i, (q.item? d.store i).isSome = true ↔ toString i ∈ names) ∧
        ("size" ∉ names → q.length d.store = names.length ∧
          (q.Gapless d.store ↔ ∀ name ∈ names, ∃ i < names.length, name = toString i)) ∧
        ("size" ∈ names → ∃ v, d.store.local? (now.toScope d.scope) "size" = some v ∧
          q.length d.store = (v.asInt?.map (·.toInt.toNat)).getD 0)) := by
  have hfirst := h.sound.2 s hs
  obtain ⟨hsound, hdistinct, hlist⟩ := hwritten.listAt hfirst h.distinct hsizes hget
  cases hlist with
  | itself hsame =>
    have hnodup := d.store.nodup_names_list items d.scope
    have hitems : ∀ i, ((d.store.sequence (.list items)).item? d.store i).isSome = true ↔
        toString i ∈ d.store.names (.over (.list items) d.scope) := by
      intro i
      rw [Store.toString_mem_names_list]
      simp [Store.sequence, Sequence.item?]
    have hlength : (d.store.sequence (.list items)).length d.store =
        (d.store.names (.over (.list items) d.scope)).length := by
      simp [Store.names_list, Store.sequence, Sequence.length, Value.length_positions]
    have hfound := Data.ListAt.get?_itself hfirst hsizes hget hsame
    refine ⟨_, hfound, hnodup, fun i hi => Store.toString_mem_names_list.2 hi,
      fun _ hmem => absurd hmem List.not_mem_nil, fun name hname => ?_, fun _ => ?_⟩
    · exact .inl (Store.mem_names_list.1 hname)
    · exact ⟨hitems, fun _ => ⟨hlength, Sequence.gapless_iff hnodup hitems hlength⟩,
        fun hsize => absurd hsize Store.size_not_mem_names_list⟩
  | @overlaid _ _ last o outer hscope hthrough ho hbase hset hfrom =>
    have hfound := hthrough.follow (Data.segments_ne_of_list hget)
    rw [← hscope] at hfound
    have hordered := hsound.store.ordered
    have hnodup := Store.nodup_names_overList hordered ho hbase (hdistinct _ _ ho)
    have hmem (name : String) : name ∈ d.store.names (.overlay last) ↔
        name ∈ d.store.names (.over (.list items) outer) ∨ o.overrides.has name = true :=
      Store.mem_names_overList hordered ho hbase
    refine ⟨_, hfound, hnodup, fun i hi => ?_, fun name hdone => ?_, fun name hname => ?_,
      fun hcount => ?_⟩
    · exact (hmem _).2 (.inl (Store.toString_mem_names_list.2 hi))
    · exact (hmem _).2 (.inr (hset name hdone))
    · rcases (hmem _).1 hname with hlist | hover
      · exact .inl (Store.mem_names_list.1 hlist)
      · exact .inr (hfrom name hover)
    · have hfits : items.length ≤ 2 ^ 64 := by
        have hle := Store.length_le_names_overList hordered ho hbase
        exact Nat.le_trans hle (Nat.le_of_lt (Nat.lt_trans hcount (by decide)))
      have hitems := fun i => Store.isSome_item?_overList (i := i) hordered ho hbase hfits
      rw [Store.sequence_overList hordered ho hbase]
      refine ⟨hitems, fun hsize => ?_, fun hsize => ?_⟩
      · have hlength := Store.length_overList hordered ho hbase hsize hcount
        exact ⟨hlength, Sequence.gapless_iff hnodup hitems hlength⟩
      · have hover := ((hmem _).1 hsize).resolve_left Store.size_not_mem_names_list
        obtain ⟨v, hv⟩ := Option.isSome_iff_exists.1 hover
        have hlocal := Store.local?_of_override ho hv
        exact ⟨v, hlocal, Sequence.length_of_size hlocal⟩

/-- The last of two items is written over, and another one after it: there is no gap. -/
theorem Reachable.written_list_gapless_iff_next :
    let items := [Value.text "a", .text "b"]
    let root := Data.ofValue .empty (.map [("xs", .list items)])
    let d := (root.put ⟨["xs", "1"]⟩ (.text "c")).put ⟨["xs", "2"]⟩ .null
    let q := d.store.sequence (d.get ⟨["xs"]⟩)
    Reachable ⟨root.store, [root.scope]⟩ ∧ root.get? ⟨["xs"]⟩ = some (.list items) ∧
      WrittenInto ⟨["xs"]⟩ root [["2"], ["1"]] d ∧ q.length d.store = 3 ∧ q.Gapless d.store := by
  intro items root d q
  have hroot : Reachable ⟨root.store, [root.scope]⟩ :=
    .step .start (.ofValue (v := .map [("xs", .list items)]) (Nat.zero_le _))
  have hget : root.get? ⟨["xs"]⟩ = some (.list items) := by cbv
  have hwritten : WrittenInto ⟨["xs"]⟩ root [["2"], ["1"]] d :=
    .put (.put .start (by decide) (by decide) (Nat.zero_le _)) (by decide) (by decide)
      (Nat.zero_le _)
  have hnow : d.get? ⟨["xs"]⟩ = some (.scope (.overlay 1)) := by cbv
  have hnames : d.store.names (.overlay 1) = ["0", "1", "2"] := by cbv
  have hq : q = d.store.sequence (.scope (.overlay 1)) := by
    change d.store.sequence ((d.get? ⟨["xs"]⟩).getD .null) = _
    rw [hnow]
    rfl
  have hsizes : root.store.SizesCounted root.scope ["xs"] :=
    Store.sizesCounted_of_not_isSizeName (by decide)
  obtain ⟨now, hfound, -, -, -, -, hall⟩ :=
    hroot.written_list_gapless_iff (List.mem_singleton_self root.scope) hsizes hget hwritten
  cases hnow.symm.trans hfound
  dsimp only [Value.toScope] at hall
  rw [hnames, ← hq] at hall
  obtain ⟨-, hcounted, -⟩ := hall (by decide)
  obtain ⟨hlength, hgapless⟩ := hcounted (by decide)
  refine ⟨hroot, hget, hwritten, hlength, hgapless.2 fun name hname => ?_⟩
  fin_cases hname
  · exact ⟨0, by decide, rfl⟩
  · exact ⟨1, by decide, rfl⟩
  · exact ⟨2, by decide, rfl⟩

/-- Of a list of two items the name `foo` is written, or the position 5. Either way it is as long as
three items, with nothing at the last position; and what was written at 5 is never come to. -/
theorem Reachable.written_list_not_gapless :
    let root := Data.ofValue .empty (.map [("xs", .list [.text "a", .text "b"])])
    let named := root.put ⟨["xs", "foo"]⟩ .null
    let beyond := root.put ⟨["xs", "5"]⟩ .null
    let q (d : Data) := d.store.sequence (d.get ⟨["xs"]⟩)
    ((q named).length named.store = 3 ∧ (q named).item? named.store 2 = none) ∧
      (q beyond).length beyond.store = 3 ∧ (q beyond).item? beyond.store 2 = none ∧
      (q beyond).item? beyond.store 5 = some .null := by
  refine ⟨⟨?_, ?_⟩, ?_, ?_, ?_⟩
  all_goals cbv

end Session

end TextTemplate
