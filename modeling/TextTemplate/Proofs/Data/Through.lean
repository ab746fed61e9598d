import TextTemplate.Proofs.Data.Missing

/-! Paths through overlays. A write lays an overlay over all that it comes through, so that a later
write on the same path comes to the same overlay, and touches nothing else on its way. -/

namespace TextTemplate

theorem Value.list_ne_sizeMember? {items : List Value} {name : String} {n : Nat} :
    some (.list items) ≠ Value.sizeMember? name n := by
  unfold sizeMember? ofNat
  split
  · split <;> simp
  · split <;> simp

/-- If no host object answers anything but counts for a name in the scope over one of two values
that are the same but for sizes, none does in the scope over the other. -/
theorem Value.Alike.saysCount_toScope {name other : String} {v v' : Value} {s s' : Scope}
    (h : Alike name (some v) (some v')) (hanswer : (v.toScope s).SaysCount other) :
    (v'.toScope s').SaysCount other := by
  rcases h with heq | ⟨_, _, _, hn⟩
  · cases heq
    cases v with
    | scope t => exact hanswer
    | _ =>
      intro own hown
      cases hown
      exact hanswer _ rfl
  · obtain ⟨_, hplain, hmember⟩ := plain_of_sizeMember? hn.symm
    rw [toScope_of_plain hplain]
    intro own hown
    cases hown
    cases v' with
    | object _ _ _ names props =>
      intro _ _ w hw
      cases (hmember other).symm.trans hw
    | _ => trivial

namespace Store
variable {st st' : Store} {id last : Nat} {name : String} {names others ps : List String}
  {s s' : Scope} {v : Value} {items : List Value} {o : Overlay}

/-- Whatever laying overlays and setting names in them keep, writing keeps. -/
theorem write_induction {R : Store → Store → Prop} (refl : ∀ st, R st st)
    (trans : ∀ {a b c}, R a b → R b c → R a c) (push : ∀ st base, R st (st.push base).2)
    (set : ∀ st id name v, R st (st.set id name v)) (st : Store) (id : Nat) (v : Value)
    (names : List String) : R st (st.write id v names) := by
  have lay : ∀ st id name base, R st (Store.lay st id name base).2 := fun st id name base =>
    trans (push st base) (set _ id name _)
  have enter : ∀ st id name, R st (Store.enter st id name).2 := by
    intro st id name
    rcases enter_cases st id name with ⟨_, _, henter⟩ | ⟨_, henter⟩ | ⟨_, _, _, _, henter⟩
    · rw [henter]
      exact refl st
    all_goals
      rw [henter]
      exact lay _ _ _ _
  induction names generalizing st id with
  | nil => exact refl st
  | cons name rest ih =>
    cases rest with
    | nil => exact set st id name v
    | cons next rest =>
      rw [write_cons]
      exact trans (enter st id name) (ih _ _)

/-- Every name that was set in an overlay is still set there. -/
def Adds (st st' : Store) : Prop :=
  ∀ id o, st.overlay? id = some o → ∃ o', st'.overlay? id = some o' ∧
    ∀ name, o.overrides.has name = true → o'.overrides.has name = true

theorem adds_write (st : Store) (id : Nat) (v : Value) (names : List String) :
    st.Adds (st.write id v names) := by
  refine write_induction (R := Adds) (fun _ id o ho => ⟨o, ho, fun _ h => h⟩) ?_ ?_ ?_ st id v names
  · intro a b c hab hbc id o ho
    obtain ⟨o', ho', hset⟩ := hab id o ho
    obtain ⟨o'', ho'', hset'⟩ := hbc id o' ho'
    exact ⟨o'', ho'', fun name h => hset' name (hset name h)⟩
  · intro st base id o ho
    have hid := lt_size ho
    exact ⟨o, by rw [overlay?_push, if_neg (by omega), ho], fun _ h => h⟩
  · intro st id name v other o ho
    by_cases hid : id = other
    · refine ⟨{ o with overrides := o.overrides.set name v }, ?_, fun k hk => ?_⟩
      · rw [overlay?_set, if_pos hid, ho]
        rfl
      · rw [Fields.has_set, hk, Bool.or_true]
    · exact ⟨o, by rw [overlay?_set, if_neg hid, ho], fun _ h => h⟩

theorem follow_cons_eq_some {look : Scope → String → Option Value} {next : String}
    {rest : List String} :
    follow look s (name :: next :: rest) = some v ↔
      ∃ w, look s name = some w ∧ w ≠ .null ∧
        follow look (w.toScope s) (next :: rest) = some v := by
  rw [follow_cons]
  constructor
  · intro h
    split at h
    · cases h
    · cases h
    · next w hnull hlook => exact ⟨w, hlook, hnull, h⟩
  · rintro ⟨w, hlook, hnull, h⟩
    rw [hlook]
    cases w with
    | null => exact absurd rfl hnull
    | _ => exact h

/-- No host object on the way of the names answers a size among those still ahead without listing
it, unless the answer is a count. -/
def SizesCounted (st : Store) (s : Scope) : List String → Prop
  | [] => True
  | name :: rest =>
    (∀ other ∈ name :: rest, s.SaysCount other) ∧
      ∀ v, st.get? s name = some v → st.SizesCounted (v.toScope s) rest

theorem SizesCounted.saysCount (h : st.SizesCounted s names) :
    ∀ name ∈ names, s.SaysCount name := by
  cases names with
  | nil => exact fun _ hmem => absurd hmem List.not_mem_nil
  | cons => exact h.1

/-- A path without sizes is such a way through any data. -/
theorem sizesCounted_of_not_isSizeName (h : ∀ name ∈ names, Value.isSizeName name = false) :
    st.SizesCounted s names := by
  induction names generalizing s with
  | nil => trivial
  | cons name rest ih =>
    refine ⟨fun other hother own _ => ?_, fun v _ => ih (List.forall_mem_cons.1 h).2⟩
    cases own with
    | object =>
      intro hsize
      rw [h other hother] at hsize
      cases hsize
    | _ => trivial

/-- Two scopes of two stores by which the names mean the same, sizes apart. -/
def Mirrors (st : Store) (s : Scope) (st' : Store) (s' : Scope) (names : List String) : Prop :=
  ∀ name ∈ names, Value.Alike name (st.get? s name) (st'.get? s' name)

namespace Mirrors
variable {st'' : Store} {s'' : Scope} {own own' : Value}

theorem refl (st : Store) (s : Scope) (names : List String) : Mirrors st s st s names :=
  fun _ _ => .refl _

theorem trans (h : Mirrors st s st' s' names) (h' : Mirrors st' s' st'' s'' names) :
    Mirrors st s st'' s'' names := fun name hname => (h name hname).trans (h' name hname)

theorem tail (h : Mirrors st s st' s' (name :: names)) : Mirrors st s st' s' names :=
  fun other hother => h other (List.mem_cons_of_mem name hother)

theorem of_grows (h : Grows others st st') (hordered : st.Ordered) (hs : s.rank ≤ st.size)
    (hnames : ∀ name ∈ names, name ∉ others) : Mirrors st s st' s names :=
  fun name hname => h.get?_alike hordered hs (hnames name hname)

/-- A new overlay mirrors what it stands over. -/
theorem delegate (hordered : st.Ordered) (ho : st.overlay? id = some ⟨[], .delegate s⟩)
    (hanswer : ∀ name ∈ names, s.SaysCount name) : Mirrors st s st (.overlay id) names :=
  fun name hname => get?_wrapped hordered ho rfl rfl (hanswer name hname)

theorem laidOver (h : Mirrors st s st' s' names)
    (hown : ∀ name, own.member? name = own'.member? name) :
    Mirrors st (.over own s) st' (.over own' s') names := by
  intro name hname
  rw [get?_over, get?_over, hown name]
  exact Value.Alike.or (.refl _) (h name hname)

/-- The scopes over what a name means in either. -/
theorem toScope {v' : Value} (h : Mirrors st s st' s' names)
    (hfound : Value.Alike name (some v) (some v'))
    (hscope : ∀ t, v = .scope t → Mirrors st t st' t names) :
    Mirrors st (v.toScope s) st' (v'.toScope s') names := by
  rcases hfound with heq | ⟨m, n, hm, hn⟩
  · cases heq
    by_cases hv : ∃ t, v = .scope t
    · obtain ⟨t, rfl⟩ := hv
      exact hscope t rfl
    · rw [not_exists] at hv
      rw [Value.toScope_of_plain hv, Value.toScope_of_plain hv]
      exact h.laidOver fun _ => rfl
  · obtain ⟨_, hv, hmember⟩ := Value.plain_of_sizeMember? hm.symm
    obtain ⟨_, hv', hmember'⟩ := Value.plain_of_sizeMember? hn.symm
    rw [Value.toScope_of_plain hv, Value.toScope_of_plain hv']
    exact h.laidOver fun name => (hmember name).trans (hmember' name).symm

/-- What one of the scopes finds, the other finds, sizes apart. -/
theorem exists_get? (h : Mirrors st s st' s' (name :: names)) (hget : st.get? s name = some v)
    (hnull : v ≠ .null) :
    ∃ v', st'.get? s' name = some v' ∧ v' ≠ .null ∧ Value.Alike name (some v) (some v') := by
  have halike := h name List.mem_cons_self
  rw [hget] at halike
  obtain ⟨v', hget'⟩ : ∃ v', st'.get? s' name = some v' := by
    rw [← Option.ne_none_iff_exists', Ne, ← halike.eq_none_iff]
    exact Option.some_ne_none v
  rw [hget'] at halike
  refine ⟨v', hget', ?_, halike⟩
  rintro rfl
  exact hnull (Option.some.inj (halike.symm.eq_null rfl))

/-- Where names mean the same, a path leads to the same, if that is no size. -/
theorem follow_eq (h : Mirrors st s st' s' names) (hst : st.Sound) (hs : s.reach ≤ st.size)
    (hgrows : Grows others st st') (hothers : ∀ name ∈ names, name ∉ others) (hne : names ≠ [])
    (hv : ∀ name n, some v ≠ Value.sizeMember? name n)
    (hfollow : follow st.get? s names = some v) : follow st'.get? s' names = some v := by
  induction names generalizing s s' with
  | nil => exact absurd rfl hne
  | cons name rest ih =>
    cases rest with
    | nil =>
      have hget : st.get? s name = some v := hfollow
      have halike := h name List.mem_cons_self
      rw [hget] at halike
      rcases halike with heq | ⟨m, n, hm, _⟩
      · exact heq.symm
      · exact absurd hm (hv name m)
    | cons next rest =>
      obtain ⟨w, hget, hnull, hnext⟩ := follow_cons_eq_some.1 hfollow
      obtain ⟨w', hget', hnull', halike⟩ := h.exists_get? hget hnull
      have hreach := hst.reach_get? hs hget
      have hothers' := (List.forall_mem_cons.1 hothers).2
      have hscope := h.tail.toScope halike fun t ht => by
        subst ht
        exact .of_grows hgrows hst.ordered (Nat.le_trans (Scope.rank_le_reach t) hreach) hothers'
      have hreach' := Value.reach_toScope w s
      exact follow_cons_eq_some.2 ⟨w', hget', hnull', ih hscope (by omega) hothers'
        (List.cons_ne_nil _ _) hnext⟩

/-- One hop of a write: the overlay that it enters mirrors the scope over what was found. -/
theorem enter (h : Mirrors st s st' (.overlay id) (name :: names)) (hst : st.Sound)
    (hs : s.reach ≤ st.size) (hst' : st'.Sound) (hid : id < st'.size) (hgrows : Grows others st st')
    (hname : name ∉ names) (hothers : ∀ other ∈ names, other ∉ others)
    (hget : st.get? s name = some v) (hnull : v ≠ .null)
    (hanswer : ∀ other ∈ names, (v.toScope s).SaysCount other) :
    Mirrors st (v.toScope s) (st'.enter id name).2 (.overlay (st'.enter id name).1) names := by
  obtain ⟨found, hfound, hfoundNull, halike⟩ := h.exists_get? hget hnull
  obtain ⟨hsound, -, hentered⟩ := hst'.enter hid name
  have hunset : ∀ other ∈ names, other ∉ [name] := fun other hother hmem =>
    hname (List.mem_singleton.1 hmem ▸ hother)
  have hlaid := h.tail.trans (of_grows hentered hst'.ordered hid hunset)
  -- A scope that was there before the write means what it meant, in every later store.
  have hthere : ∀ t, v = .scope t → Mirrors st t (st'.enter id name).2 t names := by
    rintro t rfl
    have hreach := hst.reach_get? hs hget
    have hrank : t.rank ≤ st.size := Nat.le_trans (Scope.rank_le_reach t) hreach
    exact (of_grows hgrows hst.ordered hrank hothers).trans
      (of_grows hentered hst'.ordered (Nat.le_trans hrank hgrows.size_le) hunset)
  have hscopes := hlaid.toScope halike hthere
  rcases enter_cases st' id name with ⟨inner, hinner, henter⟩ | ⟨hmissing, _⟩ |
    ⟨_, hfound', _, _, henter⟩
  · rw [hfound] at hinner
    cases hinner
    rw [henter] at hscopes ⊢
    exact hscopes
  · rw [hfound] at hmissing
    rcases hmissing with hnone | hnull'
    · cases hnone
    · exact absurd (Option.some.inj hnull') hfoundNull
  · rw [hfound] at hfound'
    cases hfound'
    rw [henter] at hsound hscopes ⊢
    exact hscopes.trans <| .delegate hsound.ordered (overlay?_lay_new hid) fun other hother =>
      halike.saysCount_toScope (hanswer other hother)

end Mirrors

/-- Every name on the way means an overlay, the last one `last`. -/
def Through (st : Store) (id : Nat) : List String → Nat → Prop
  | [], last => id = last
  | name :: rest, last =>
    ∃ inner, st.get? (.overlay id) name = some (.scope (.overlay inner)) ∧
      st.Through inner rest last

theorem Through.follow (h : st.Through id names last) (hne : names ≠ []) :
    Store.follow st.get? (.overlay id) names = some (.scope (.overlay last)) := by
  induction names generalizing id with
  | nil => exact absurd rfl hne
  | cons name rest ih =>
    obtain ⟨inner, hget, hrest⟩ := h
    cases rest with
    | nil =>
      cases hrest
      exact hget
    | cons next rest =>
      rw [follow_of_scope hget]
      exact ih hrest (List.cons_ne_nil _ _)

/-- Names that are not set lead through the same overlays. -/
theorem Through.of_grows (h : st.Through id names last) (hst : st.Sound) (hid : id < st.size)
    (hgrows : Grows others st st') (hothers : ∀ name ∈ names, name ∉ others) :
    st'.Through id names last := by
  induction names generalizing id with
  | nil => exact h
  | cons name rest ih =>
    obtain ⟨inner, hget, hrest⟩ := h
    have hreach : (Scope.overlay id).reach ≤ st.size := hid
    have halike := hgrows.get?_alike hst.ordered (s := .overlay id) hid
      (hothers name List.mem_cons_self)
    exact ⟨inner, halike.eq_scope hget, ih hrest (hst.reach_get? hreach hget) fun other hother =>
      hothers other (List.mem_cons_of_mem _ hother)⟩

/-- A write through overlays makes no new ones before the last. -/
theorem Through.write_append (h : st.Through id ps last) (hne : names ≠ []) (v : Value) :
    st.write id v (ps ++ names) = st.write last v names := by
  induction ps generalizing id with
  | nil =>
    cases h
    rfl
  | cons name rest ih =>
    obtain ⟨inner, hget, hrest⟩ := h
    obtain ⟨next, later, happend⟩ :=
      List.exists_cons_of_ne_nil (List.append_ne_nil_of_right_ne_nil rest hne)
    have henter : st.enter id name = (inner, st) := by
      rw [enter, hget]
      rfl
    rw [List.cons_append, happend, write_cons, henter, ← happend]
    exact ih hrest

/-- A write into the list that a path leads to, from a scope that an overlay mirrors, goes on from
this through overlays, of which the last is new and stands over the list. -/
theorem Mirrors.write_into_list (h : Mirrors st s st' (.overlay id) ps) (hst : st.Sound)
    (hs : s.reach ≤ st.size) (hst' : st'.Sound) (hid : id < st'.size) (hgrows : Grows others st st')
    (hothers : ∀ name ∈ ps, name ∉ others) (hne : ps ≠ []) (hdistinct : ps.Nodup)
    (hsizes : st.SizesCounted s ps) (hfollow : follow st.get? s ps = some (.list items)) :
    ∃ st'' last outer, st''.Sound ∧ Grows ps st' st'' ∧ st''.Through id ps last ∧
      st''.overlay? last = some ⟨[], .delegate (.over (.list items) outer)⟩ ∧
      ∀ v names, names ≠ [] → st'.write id v (ps ++ names) = st''.write last v names := by
  induction ps generalizing s st' id others with
  | nil => exact absurd rfl hne
  | cons name rest ih =>
    obtain ⟨hname, hrest⟩ := List.nodup_cons.1 hdistinct
    obtain ⟨hsound, hlt, hentered⟩ := hst'.enter hid name
    have hmeans := get?_enter hid name
    cases rest with
    | nil =>
      have hlist : st'.get? (.overlay id) name = some (.list items) :=
        h.follow_eq hst hs hgrows hothers hne (fun _ _ => Value.list_ne_sizeMember?) hfollow
      have henter : st'.enter id name =
          st'.lay id name (.delegate (.over (.list items) (.overlay id))) := by
        rw [Store.enter, hlist]
        rfl
      refine ⟨_, st'.size, .overlay id, hsound, hentered, ⟨_, hmeans, ?_⟩, ?_,
        fun v names hnames => ?_⟩
      · rw [henter]
        rfl
      · rw [henter]
        exact overlay?_lay_new hid
      · obtain ⟨next, later, rfl⟩ := List.exists_cons_of_ne_nil hnames
        rw [List.cons_append, List.nil_append, write_cons, henter]
        rfl
    | cons next rest =>
      obtain ⟨w, hget, hnull, hnext⟩ := follow_cons_eq_some.1 hfollow
      have hsizes' := hsizes.2 w hget
      have hothers' := (List.forall_mem_cons.1 hothers).2
      have hmirrors := h.enter hst hs hst' hid hgrows hname hothers' hget hnull hsizes'.saysCount
      have hscope := Value.reach_toScope w s
      have hw := hst.reach_get? hs hget
      have hlater : Grows (name :: others) st (st'.enter id name).2 :=
        (hgrows.mono (List.subset_cons_self _ _)).trans (hentered.mono (by simp))
      have hunset : ∀ other ∈ next :: rest, other ∉ name :: others := by
        intro other hother hmem
        rcases List.mem_cons.1 hmem with rfl | hmem
        · exact hname hother
        · exact hothers' other hother hmem
      obtain ⟨st'', last, outer, hst'', hgrows'', hthrough, hover, hwrite⟩ :=
        ih hmirrors (by omega) hsound hlt hlater hunset (List.cons_ne_nil _ _) hrest hsizes' hnext
      refine ⟨st'', last, outer, hst'', ?_, ⟨_, ?_, hthrough⟩, hover, fun v names hnames => ?_⟩
      · exact (hentered.mono (by simp)).trans (hgrows''.mono (List.subset_cons_self name _))
      · exact (hgrows''.get?_alike hsound.ordered (s := .overlay id)
          (Nat.lt_of_lt_of_le hid hentered.size_le) hname).eq_scope hmeans
      · rw [List.cons_append, List.cons_append, write_cons, ← List.cons_append]
        exact hwrite v names hnames

/-- A write in an overlay leaves the names there that were set, and sets no others than those on its
path; a path of one name it sets. -/
theorem Sound.overlay?_write (h : st.Sound) (ho : st.overlay? id = some o) (v : Value)
    (names : List String) :
    ∃ o', (st.write id v names).overlay? id = some o' ∧ o'.base = o.base ∧
      (∀ name, o.overrides.has name = true ∨ names = [name] → o'.overrides.has name = true) ∧
      (∀ name, o'.overrides.has name = true → o.overrides.has name = true ∨ name ∈ names) := by
  obtain ⟨o', ho', hbase, hget⟩ := (grows_write h (lt_size ho) v names).kept id o ho
  obtain ⟨o'', ho'', hset⟩ := adds_write st id v names id o ho
  cases ho'.symm.trans ho''
  refine ⟨o', ho', hbase, fun name hname => ?_, fun name hhas => ?_⟩
  · rcases hname with hhas | rfl
    · exact hset name hhas
    · rw [Store.write, overlay?_set, if_pos rfl, ho] at ho'
      cases ho'
      rw [Fields.has_set, beq_self_eq_true, Bool.true_or]
  · by_cases hname : name ∈ names
    · exact .inr hname
    · rw [Fields.has, hget name hname] at hhas
      exact .inl hhas

end Store

end TextTemplate
