import TextTemplate.Proofs.Data.Session

/-! Every lookup ends. The edges of a scope lead to scopes that were there before it, and no way
back in time is endless, whatever the entries of the scopes lead to. What a lookup does is told by
its calls: a derivation of a relation below is a tree of calls, so there is one where the lookup
ends, and it says with what answer. -/

namespace TextTemplate

namespace Scope

/-- `Before t s`: the scope `t` was there before `s` was made. A scope is made inside another one,
and an overlay is made when there are only overlays of lower numbers. -/
inductive Before : Scope → Scope → Prop where
  | inside (own : Value) (outer : Scope) : Before outer (.over own outer)
  | turn (key : Option Value) (value : Value) (index size : Nat) (outer : Scope) :
      Before outer (.turn key value index size outer)
  | overlay {s : Scope} {id : Nat} : s.reach ≤ id → Before s (.overlay id)

theorem Before.rank_depth {s t : Scope} (h : Before t s) :
    Prod.Lex (· < ·) (· < ·) (t.rank, t.depth) (s.rank, s.depth) := by
  cases h with
  | inside own => exact .right t.rank (Nat.lt_succ_self t.depth)
  | turn key value index size => exact .right t.rank (Nat.lt_succ_self t.depth)
  | @overlay _ id hreach =>
    apply Prod.Lex.left
    have hrank := rank_le_reach t
    simp only [rank]
    omega

/-- Whatever goes on to a scope that was there before comes to an end. -/
theorem before_wf : WellFounded Before :=
  Subrelation.wf Before.rank_depth
    (InvImage.wf (fun s : Scope => (s.rank, s.depth)) (Prod.lex Nat.lt_wfRel Nat.lt_wfRel).wf)

end Scope

namespace Store

/-- Where the edges of a scope lead: to the scope outside it, and from an overlay to what it was
made over or inside. The entries of a scope are no edges. -/
inductive Edge (st : Store) : Scope → Scope → Prop where
  | inside (own : Value) (outer : Scope) : Edge st (.over own outer) outer
  | turn (key : Option Value) (value : Value) (index size : Nat) (outer : Scope) :
      Edge st (.turn key value index size outer) outer
  | base {id : Nat} {o : Overlay} : st.overlay? id = some o → Edge st (.overlay id) o.base.scope

/-- Going through the entries of a scope. An overlay goes through what it stands over first. -/
inductive Visited (st : Store) : Scope → List (String × Value) → Prop where
  | nowhere : Visited st .nowhere []
  | inside (own : Value) (outer : Scope) : Visited st (.over own outer) own.members
  | host (identity : Nat) (own : Value) : Visited st (.host identity own) own.members
  | turn (key : Option Value) (value : Value) (index size : Nat) (outer : Scope) :
      Visited st (.turn key value index size outer) (turnMembers key value index size)
  | fresh {id : Nat} {o : Overlay} {outer : Scope} : st.overlay? id = some o →
      o.base = .fresh outer → Visited st (.overlay id) o.overrides
  | delegate {id : Nat} {o : Overlay} {s : Scope} {below : List (String × Value)} :
      st.overlay? id = some o → o.base = .delegate s → Visited st s below →
      Visited st (.overlay id) (below.filter (fun (k, _) => !o.overrides.has k) ++ o.overrides)

/-- Looking a name up in a scope alone. An overlay asks what it stands over where the name was not
set, and counts entries where the name is a size that it does not hold. -/
inductive Answered (st : Store) : Scope → String → Option Value → Prop where
  | nowhere (name : String) : Answered st .nowhere name none
  | inside (own : Value) (outer : Scope) (name : String) :
      Answered st (.over own outer) name (own.member? name)
  | host (identity : Nat) (own : Value) (name : String) :
      Answered st (.host identity own) name (own.member? name)
  | turn (key : Option Value) (value : Value) (index size : Nat) (outer : Scope) (name : String) :
      Answered st (.turn key value index size outer) name
        (Fields.get? name (turnMembers key value index size))
  | override {id : Nat} {o : Overlay} {name : String} {v : Value} : st.overlay? id = some o →
      o.overrides.get? name = some v → Answered st (.overlay id) name (some v)
  | fresh {id : Nat} {o : Overlay} {outer : Scope} {name : String} {own : List (String × Value)} :
      st.overlay? id = some o → o.overrides.get? name = none → o.base = .fresh outer →
      Visited st (.overlay id) own →
      Answered st (.overlay id) name (Value.sizeMember? name own.length)
  | absent {id : Nat} {o : Overlay} {s : Scope} {name : String} : st.overlay? id = some o →
      o.overrides.get? name = none → o.base = .delegate s → Answered st s name none →
      Answered st (.overlay id) name none
  | kept {id : Nat} {o : Overlay} {s : Scope} {name : String} {v : Value}
      {below : List (String × Value)} : st.overlay? id = some o → o.overrides.get? name = none →
      o.base = .delegate s → Answered st s name (some v) → Visited st s below →
      (Value.isSizeName name && !Fields.has name below) = false →
      Answered st (.overlay id) name (some v)
  | counted {id : Nat} {o : Overlay} {s : Scope} {name : String} {v : Value}
      {below own : List (String × Value)} : st.overlay? id = some o →
      o.overrides.get? name = none → o.base = .delegate s → Answered st s name (some v) →
      Visited st s below → (Value.isSizeName name && !Fields.has name below) = true →
      Visited st (.overlay id) own →
      Answered st (.overlay id) name (Value.sizeMember? name own.length)

/-- Asking a scope what lies outside it. An overlay over a scope asks that one. -/
inductive Parent (st : Store) : Scope → Scope → Prop where
  | nowhere : Parent st .nowhere .nowhere
  | inside (own : Value) (outer : Scope) : Parent st (.over own outer) outer
  | host (identity : Nat) (own : Value) : Parent st (.host identity own) .nowhere
  | turn (key : Option Value) (value : Value) (index size : Nat) (outer : Scope) :
      Parent st (.turn key value index size outer) outer
  | fresh {id : Nat} {o : Overlay} {outer : Scope} : st.overlay? id = some o →
      o.base = .fresh outer → Parent st (.overlay id) outer
  | delegate {id : Nat} {o : Overlay} {s outer : Scope} : st.overlay? id = some o →
      o.base = .delegate s → Parent st s outer → Parent st (.overlay id) outer

/-- Climbing from parent to parent as long as there is one. -/
inductive Climbed (st : Store) : Scope → List Scope → Prop where
  | nowhere : Climbed st .nowhere []
  | parent {s outer : Scope} {chain : List Scope} : s ≠ .nowhere → Parent st s outer →
      Climbed st outer chain → Climbed st s (s :: chain)

/-- Looking a name up in a scope and, where that does not define it, in its parent. -/
inductive Found (st : Store) : Scope → String → Option Value → Prop where
  | nowhere (name : String) : Found st .nowhere name none
  | here {s : Scope} {name : String} {v : Value} : Answered st s name (some v) →
      Found st s name (some v)
  | outward {s outer : Scope} {name : String} {answer : Option Value} : s ≠ .nowhere →
      Answered st s name none → Parent st s outer → Found st outer name answer →
      Found st s name answer

/-- Following a path, where `look` is how a name is looked up in a scope. -/
inductive Followed (look : Scope → String → Option Value → Prop) :
    Scope → List String → Option Value → Prop where
  | empty (s : Scope) : Followed look s [] (some (.scope s))
  | last {s : Scope} {name : String} {answer : Option Value} : look s name answer →
      Followed look s [name] answer
  | broken {s : Scope} {name next : String} {rest : List String} {answer : Option Value} :
      look s name answer → answer = none ∨ answer = some .null →
      Followed look s (name :: next :: rest) none
  | hop {s : Scope} {name next : String} {rest : List String} {v : Value}
      {answer : Option Value} : look s name (some v) → v ≠ .null →
      Followed look (v.toScope s) (next :: rest) answer →
      Followed look s (name :: next :: rest) answer

variable {st : Store} {s t : Scope}

theorem Sound.before_of_edge (h : st.Sound) (hedge : st.Edge s t) : Scope.Before t s := by
  cases hedge with
  | inside own => exact .inside own t
  | turn key value index size => exact .turn key value index size t
  | base ho => exact .overlay (h.bases _ _ ho)

/-- What an overlay stands over was there before it, and is of the store. -/
theorem Sound.before_base {id : Nat} {o : Overlay} (h : st.Sound) (ho : st.overlay? id = some o) :
    Scope.Before o.base.scope (.overlay id) ∧ o.base.rank ≤ id ∧ o.base.rank ≤ st.size := by
  have hrank := h.ordered id o ho
  exact ⟨.overlay (h.bases id o ho), hrank, Nat.le_trans hrank (Nat.le_of_lt (lt_size ho))⟩

/-! All of these are by induction on the order of making. -/

theorem Sound.visited (h : st.Sound) (hs : s.rank ≤ st.size) : Visited st s (st.members s) := by
  induction s using Scope.before_wf.induction with
  | _ s ih =>
    cases s with
    | overlay id =>
      obtain ⟨o, ho⟩ := overlay?_of_lt hs
      obtain ⟨hbefore, hrank, hsize⟩ := h.before_base ho
      cases hbase : o.base with
      | fresh outer =>
        rw [members_fresh ho hbase]
        exact .fresh ho hbase
      | delegate inner =>
        rw [hbase] at hbefore hrank hsize
        rw [members_delegate ho hbase hrank]
        exact .delegate ho hbase (ih inner hbefore hsize)
    | nowhere =>
      rw [members]
      exact .nowhere
    | «over» own outer =>
      rw [members]
      exact .inside own outer
    | host identity own =>
      rw [members]
      exact .host identity own
    | turn key value index size outer =>
      rw [members]
      exact .turn key value index size outer

theorem Sound.answered (h : st.Sound) (hs : s.rank ≤ st.size) (name : String) :
    Answered st s name (st.local? s name) := by
  induction s using Scope.before_wf.induction with
  | _ s ih =>
    cases s with
    | overlay id =>
      obtain ⟨o, ho⟩ := overlay?_of_lt hs
      obtain ⟨hbefore, hrank, hsize⟩ := h.before_base ho
      have hown := h.visited hs
      cases hget : o.overrides.get? name with
      | some v =>
        rw [local?_of_override ho hget]
        exact .override ho hget
      | none =>
        cases hbase : o.base with
        | fresh outer =>
          rw [local?_fresh ho hget hbase]
          exact .fresh ho hget hbase hown
        | delegate inner =>
          rw [hbase] at hbefore hrank hsize
          have hinner := ih inner hbefore hsize
          have hbelow := h.visited hsize
          rw [local?_delegate ho hget hbase hrank]
          cases hlocal : st.local? inner name with
          | none =>
            rw [hlocal] at hinner
            exact .absent ho hget hbase hinner
          | some v =>
            rw [hlocal] at hinner
            rw [Option.bind_some]
            split
            · next hcounts => exact .counted ho hget hbase hinner hbelow hcounts hown
            · next hkept => exact .kept ho hget hbase hinner hbelow (Bool.eq_false_iff.2 hkept)
    | nowhere =>
      rw [local?]
      exact .nowhere name
    | «over» own outer =>
      rw [local?]
      exact .inside own outer name
    | host identity own =>
      rw [local?]
      exact .host identity own name
    | turn key value index size outer =>
      rw [local?]
      exact .turn key value index size outer name

/-- A parent was there before. -/
theorem Sound.before_of_parent {outer : Scope} (h : st.Sound) (hparent : Parent st s outer)
    (hne : outer ≠ .nowhere) : Relation.TransGen Scope.Before outer s := by
  induction hparent with
  | nowhere | host => exact absurd rfl hne
  | inside own outer => exact .single (.inside own outer)
  | turn key value index size outer => exact .single (.turn key value index size outer)
  | fresh ho hbase =>
    have hbefore := (h.before_base ho).1
    rw [hbase] at hbefore
    exact .single hbefore
  | delegate ho hbase _ ih =>
    have hbefore := (h.before_base ho).1
    rw [hbase] at hbefore
    exact (ih hne).tail hbefore

/-- Every scope can be asked for its parent, from which the chain of scopes goes on. -/
theorem Sound.exists_parent (h : st.Sound) (hs : s.rank ≤ st.size) :
    ∃ outer, Parent st s outer ∧ (st.chain s).tail = st.chain outer ∧ outer.rank ≤ st.size := by
  induction s using Scope.before_wf.induction with
  | _ s ih =>
    cases s with
    | overlay id =>
      obtain ⟨o, ho⟩ := overlay?_of_lt hs
      obtain ⟨hbefore, hrank, hsize⟩ := h.before_base ho
      have hchain := chain_overlay ho hrank
      cases hbase : o.base with
      | fresh outer =>
        rw [hbase] at hsize hchain
        refine ⟨outer, .fresh ho hbase, ?_, hsize⟩
        rw [hchain]
        rfl
      | delegate inner =>
        rw [hbase] at hbefore hsize hchain
        obtain ⟨outer, hparent, htail, houter⟩ := ih inner hbefore hsize
        refine ⟨outer, .delegate ho hbase hparent, ?_, houter⟩
        rw [hchain]
        exact htail
    | nowhere =>
      refine ⟨.nowhere, .nowhere, ?_, hs⟩
      rw [chain]
      rfl
    | «over» own outer =>
      refine ⟨outer, .inside own outer, ?_, hs⟩
      rw [chain]
      rfl
    | host identity own =>
      refine ⟨.nowhere, .host identity own, ?_, Nat.zero_le _⟩
      rw [chain, chain]
      rfl
    | turn key value index size outer =>
      refine ⟨outer, .turn key value index size outer, ?_, hs⟩
      rw [chain]
      rfl

/-- What holds outside of everything, and of a scope whose parent it holds of, holds of every
scope. -/
theorem Sound.climb {motive : Scope → Prop} (h : st.Sound) (hnowhere : motive .nowhere)
    (houtward : ∀ s outer, s ≠ .nowhere → s.rank ≤ st.size → Parent st s outer →
      st.chain s = s :: st.chain outer → motive outer → motive s)
    (hs : s.rank ≤ st.size) : motive s := by
  induction s using Scope.before_wf.transGen.induction with
  | _ s ih =>
    by_cases hne : s = .nowhere
    · rw [hne]
      exact hnowhere
    · obtain ⟨outer, hparent, htail, houter⟩ := h.exists_parent hs
      obtain ⟨outside, hchain⟩ := chain_eq_cons st hne
      apply houtward s outer hne hs hparent
      · rw [← htail, hchain]
        rfl
      · by_cases hend : outer = .nowhere
        · rw [hend]
          exact hnowhere
        · exact ih outer (h.before_of_parent hparent hend) houter

theorem Sound.climbed (h : st.Sound) (hs : s.rank ≤ st.size) : Climbed st s (st.chain s) := by
  apply h.climb _ _ hs
  · rw [chain]
    exact .nowhere
  · intro s outer hne _ hparent hchain hclimbed
    rw [hchain]
    exact .parent hne hparent hclimbed

theorem Sound.found (h : st.Sound) (hs : s.rank ≤ st.size) (name : String) :
    Found st s name (st.get? s name) := by
  apply h.climb _ _ hs
  · rw [get?, chain]
    exact .nowhere name
  · intro s outer hne hrank hparent hchain hfound
    have hhere := h.answered hrank name
    rw [get?_of_chain hchain]
    cases hlocal : st.local? s name with
    | some v =>
      rw [hlocal] at hhere
      exact .here hhere
    | none =>
      rw [hlocal] at hhere
      exact .outward hne hhere hparent hfound

/-- A path of any length is followed to its end, if every name on it is looked up to the end. -/
theorem followed {look : Scope → String → Option Value}
    {looked : Scope → String → Option Value → Prop} {bound : Nat}
    (hlooked : ∀ s name, s.reach ≤ bound → looked s name (look s name))
    (hreach : ∀ s name v, s.reach ≤ bound → look s name = some v → v.reach ≤ bound)
    (hs : s.reach ≤ bound) (names : List String) :
    Followed looked s names (follow look s names) := by
  induction names generalizing s with
  | nil => exact .empty s
  | cons name rest ih =>
    have hname := hlooked s name hs
    cases rest with
    | nil => exact .last hname
    | cons next rest =>
      rw [follow_cons]
      split
      · next hnone => exact .broken hname (.inl hnone)
      · next hnull => exact .broken hname (.inr hnull)
      · next v hnull hv =>
        have hinner := Value.reach_toScope v s
        have hvalue := hreach s name v hs hv
        rw [hv] at hname
        exact .hop hname hnull (ih (by omega))

end Store

namespace Session
variable {w : Session}

/-- In every session, the edges of scopes lead to scopes that were there before, which never goes on
for ever. So every lookup ends with its answer, whatever is written where, scopes within themselves
too: going through the entries of a scope, looking a name up in a scope or in its parents as well,
climbing from parent to parent, and following a path either way. -/
theorem Reachable.lookups_end (h : w.Reachable) :
    WellFounded Scope.Before ∧ (∀ s t, w.store.Edge s t → Scope.Before t s) ∧
    (∀ s outer, Store.Parent w.store s outer → outer ≠ .nowhere →
      Relation.TransGen Scope.Before outer s) ∧
    ∀ s, w.Holds (.scope s) →
      Store.Visited w.store s (w.store.members s) ∧
      (∀ name, Store.Answered w.store s name (w.store.local? s name)) ∧
      Store.Climbed w.store s (w.store.chain s) ∧
      (∀ name, Store.Found w.store s name (w.store.get? s name)) ∧
      ∀ p, Store.Followed (Store.Answered w.store) s p.segments ((w.data s).getLocal? p) ∧
        Store.Followed (Store.Found w.store) s p.segments ((w.data s).get? p) := by
  have hstore := h.sound.1
  have hrank : ∀ s : Scope, s.reach ≤ w.store.size → s.rank ≤ w.store.size :=
    fun s hs => Nat.le_trans s.rank_le_reach hs
  refine ⟨Scope.before_wf, fun s t => hstore.before_of_edge,
    fun s outer => hstore.before_of_parent, fun s hs => ?_⟩
  refine ⟨hstore.visited (hrank s hs), hstore.answered (hrank s hs), hstore.climbed (hrank s hs),
    hstore.found (hrank s hs), fun p => ⟨?_, ?_⟩⟩
  · apply Store.followed _ _ hs
    · exact fun t name ht => hstore.answered (hrank t ht) name
    · exact fun t name v ht => hstore.reach_local? ht
  · apply Store.followed _ _ hs
    · exact fun t name ht => hstore.found (hrank t ht) name
    · exact fun t name v ht => hstore.reach_get? ht

/-- The outermost scope stands within a scope below it, so its entries lead round in a circle. -/
theorem Reachable.lookups_end_in_a_circle :
    ∃ w : Session, w.Reachable ∧ w.Holds (.scope (.overlay 0)) ∧
      (w.data (.overlay 0)).get? ⟨["a", "up"]⟩ = some (.scope (.overlay 0)) ∧
      (∀ s t, w.store.Edge s t → Scope.Before t s) ∧
      (∀ name, Store.Found w.store (.overlay 0) name (w.store.get? (.overlay 0) name)) ∧
      ∀ p, Store.Followed (Store.Found w.store) (.overlay 0) p.segments
        ((w.data (.overlay 0)).get? p) := by
  let outer : Scope := .over (.map [("a", .map [])]) .nowhere
  have hroot : Reachable ⟨.empty, [outer]⟩ :=
    .step .start (.ofValue (v := .map [("a", .map [])]) (Nat.zero_le _))
  have hfirst := hroot.step (.put (v := .null) ⟨["b"]⟩ List.mem_cons_self (Nat.zero_le _))
  have hscope := hfirst.holds_scope List.mem_cons_self
  have hcircle := hfirst.step (.put ⟨["a", "up"]⟩ List.mem_cons_self hscope)
  have hdata := hfirst.sound.2 _ List.mem_cons_self
  have hheld := hcircle.holds_scope List.mem_cons_self
  obtain ⟨-, hedges, -, hends⟩ := hcircle.lookups_end
  obtain ⟨-, -, -, hfound, hfollowed⟩ := hends _ hheld
  refine ⟨_, hcircle, hheld, ?_, hedges, hfound, fun p => (hfollowed p).2⟩
  exact hdata.get?_of_put (p := ⟨["a", "up"]⟩) (by decide) (by decide) _

end Session

end TextTemplate
