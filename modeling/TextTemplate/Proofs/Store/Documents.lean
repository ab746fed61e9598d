import TextTemplate.Proofs.Data.Write
import TextTemplate.Proofs.Store.Shown
import TextTemplate.Proofs.Value.Document

/-! Stores that only documents were written to. Their overlays form a tree, which is read as one
document: every overlay is an object with the members of what it stands over, except for those that
were written. -/

namespace TextTemplate

/-- The base stands over a document. A new scope stands over nothing, and counts as null. -/
structure Base.Over (b : Base) (below : Json) : Prop where
  isOpen : below.Open
  is : (∃ outer, b = .delegate (.over (.ofJson below) outer)) ∨
    (∃ outer, b = .fresh outer) ∧ below = .null

/-- The overlay `o'` is `o` except for what it holds under one name. -/
structure Overlay.But (name : String) (v : Value) (o o' : Overlay) : Prop where
  base : o'.base = o.base
  get? : ∀ other, o'.overrides.get? other = if name = other then some v else o.overrides.get? other

theorem Overlay.But.set (name : String) (v : Value) (o : Overlay) :
    o.But name v { o with overrides := o.overrides.set name v } where
  base := rfl
  get? other := Fields.get?_set name other v o.overrides

namespace Store
variable {st st' : Store} {id k : Nat} {o o' : Overlay} {name : String} {v : Value} {below : Json}

/-- What was written under a name of an overlay. -/
def written? (st : Store) (id : Nat) (name : String) : Option Value :=
  (st.overlay? id).bind (·.overrides.get? name)

theorem written?_eq (ho : st.overlay? id = some o) :
    st.written? id name = o.overrides.get? name := by
  rw [written?, ho, Option.bind_some]

theorem written?_push (st : Store) (base : Base) (id : Nat) (name : String) :
    (st.push base).2.written? id name = st.written? id name := by
  rw [written?, written?, overlay?_push]
  split
  · next hnew =>
    cases ho : st.overlay? id with
    | none => rfl
    | some o => exact absurd (lt_size ho) (by omega)
  · rfl

theorem written?_set (hid : id < st.size) (name : String) (v : Value) (other : Nat)
    (otherName : String) :
    (st.set id name v).written? other otherName =
      if id = other ∧ name = otherName then some v else st.written? other otherName := by
  rw [written?, written?, overlay?_set]
  by_cases heq : id = other
  · subst heq
    obtain ⟨o, ho⟩ := overlay?_of_lt hid
    simp only [ho, if_true, true_and, Option.map_some, Option.bind_some, Fields.get?_set]
  · simp only [heq, if_false, false_and]

/-- A store that only documents were written to. Every overlay stands over a document, and holds
documents and newer overlays, each of them in one place only. -/
structure Documented (st : Store) : Prop where
  sound : st.Sound
  distinct : ∀ id o, st.overlay? id = some o → o.overrides.Distinct
  stands : ∀ id o, st.overlay? id = some o → ∃ below, o.base.Over below
  held : ∀ id name v, st.written? id name = some v →
    (∃ j : Json, j.Proper ∧ v = .ofJson j) ∨ ∃ k, id < k ∧ v = .scope (.overlay k)
  once : ∀ id name id' name' k, st.written? id name = some (.scope (.overlay k)) →
    st.written? id' name' = some (.scope (.overlay k)) → id = id' ∧ name = name'

theorem documented_empty : Documented empty where
  sound := sound_empty
  distinct id o ho := by simp [overlay?, empty] at ho
  stands id o ho := by simp [overlay?, empty] at ho
  held id name v hv := by simp [written?, overlay?, empty] at hv
  once id name id' name' k hk := by simp [written?, overlay?, empty] at hk

/-- An overlay as a document. -/
def document (st : Store) (id : Nat) : Json := st.toJson (.scope (.overlay id))

theorem toJson_ofJson (st : Store) {j : Json} (h : j.Proper) : st.toJson (.ofJson j) = j := by
  have hends : st.ends true 0 (.ofJson j) = true := by
    rw [ends, Value.scopes_ofJson]
    rfl
  rw [toJson_of_ends hends]
  exact Value.toJson_ofJson j h

/-- A scope is the object of its entries. -/
theorem toJson_scope {n : Nat} {s : Scope} (hends : st.ends true (n + 1) (.scope s) = true) :
    st.toJson (.scope s) = Json.ofMembers ((st.members s).map fun (k, v) => (k, st.toJson v)) := by
  rw [toJson_of_ends hends]
  exact congrArg Json.ofMembers (Fields.map_congr fun name v hentry =>
    congrArg (Prod.mk name) (toJson_of_ends (ends_scope.1 hends name v hentry)).symm)

/-- A scope that was not written to is the object of the members of its document. -/
theorem toJson_over (st : Store) {j : Json} (h : j.Open) (outer : Scope) :
    st.toJson (.scope (.over (.ofJson j) outer)) = .object j.members := by
  have hmembers : st.members (.over (.ofJson j) outer) = Value.ofJsonMembers j.members := by
    rw [members, Value.members_ofJson h.noArray]
  have hends : st.ends true 1 (.scope (.over (.ofJson j) outer)) = true := by
    refine ends_scope.2 fun name v hmem => ?_
    rw [hmembers] at hmem
    obtain ⟨w, -, rfl⟩ := Value.mem_ofJsonMembers hmem
    rw [ends, Value.scopes_ofJson]
    rfl
  rw [toJson_scope hends, hmembers]
  refine Json.ofMembers_eq h.increasing fun name => ?_
  have hdistinct := Value.distinct_ofJsonMembers h.increasing.distinct
  rw [Json.member?_ofMembers_of_distinct (hdistinct.map _), Fields.get?_map,
    Value.get?_ofJsonMembers]
  cases hj : Fields.get? name j.members with
  | none => rfl
  | some w =>
    have hw : w.Proper := h.proper name w (by rw [Json.member?_eq_get?, hj])
    exact congrArg some (st.toJson_ofJson hw)

/-- The entries of an overlay: the members of what it stands over, and what was written. -/
theorem members_over (h : st.Ordered) (ho : st.overlay? id = some o) (hover : o.base.Over below) :
    st.members (.overlay id) =
      (Value.ofJsonMembers below.members).filter (fun (k, _) => !o.overrides.has k) ++
        o.overrides := by
  rcases hover.is with ⟨outer, hbase⟩ | ⟨⟨outer, hbase⟩, rfl⟩
  · rw [members_delegate ho hbase (h.rank_le ho hbase), members,
      Value.members_ofJson hover.isOpen.noArray]
  · exact members_fresh ho hbase

namespace Documented

/-- An entry of an overlay is a document, or an overlay that was written. -/
theorem mem_members (h : st.Documented) (hmem : (name, v) ∈ st.members (.overlay id)) :
    (∃ j : Json, j.Proper ∧ v = .ofJson j) ∨
      ∃ k, id < k ∧ k < st.size ∧ v = .scope (.overlay k) := by
  cases ho : st.overlay? id with
  | none =>
    rw [members, ho] at hmem
    cases hmem
  | some o =>
    obtain ⟨below, hover⟩ := h.stands id o ho
    rw [members_over h.sound.ordered ho hover] at hmem
    rcases List.mem_append.1 hmem with hbelow | hwritten
    · have hmember := (List.mem_filter.1 hbelow).1
      obtain ⟨j, hj, rfl⟩ := Value.mem_ofJsonMembers hmember
      refine .inl ⟨j, hover.isOpen.proper name j ?_, rfl⟩
      rw [Json.member?_eq_get?]
      exact hover.isOpen.increasing.distinct.get?_eq_some_iff.2 hj
    · have hget := (h.distinct id o ho).get?_eq_some_iff.2 hwritten
      rcases h.held id name v (by rw [written?_eq ho, hget]) with hdoc | ⟨k, hlt, rfl⟩
      · exact .inl hdoc
      · refine .inr ⟨k, hlt, ?_, rfl⟩
        have := Nat.le_trans (Value.reach_le_reachFields hwritten) (h.sound.overrides id o ho)
        exact this

/-- Overlays hold newer ones only, so that they end. -/
theorem ends (h : st.Documented) {n : Nat} (hn : st.size ≤ id + n) :
    st.ends true (n + 1) (.scope (.overlay id)) = true := by
  induction n generalizing id with
  | zero =>
    refine ends_scope.2 fun name v hmem => ?_
    rcases h.mem_members hmem with ⟨j, _, rfl⟩ | ⟨k, hlt, hk, rfl⟩
    · rw [Store.ends, Value.scopes_ofJson]
      rfl
    · omega
  | succ n ih =>
    refine ends_scope.2 fun name v hmem => ?_
    rcases h.mem_members hmem with ⟨j, _, rfl⟩ | ⟨k, hlt, hk, rfl⟩
    · rw [ends_iff, Value.scopes_ofJson]
      exact fun s hs => absurd hs List.not_mem_nil
    · exact ih (by omega)

theorem document_eq (h : st.Documented) (id : Nat) :
    st.document id =
      Json.ofMembers ((st.members (.overlay id)).map fun (k, v) => (k, st.toJson v)) :=
  toJson_scope (h.ends (Nat.le_add_left st.size id))

theorem increasing_document (h : st.Documented) (id : Nat) :
    Fields.Increasing (st.document id).members := by
  rw [h.document_eq]
  exact Json.increasing_ofMembers _

/-- A member of an overlay as a document is what was written, or else a member of what it stands
over. -/
theorem member?_document (h : st.Documented) (ho : st.overlay? id = some o)
    (hover : o.base.Over below) (name : String) :
    (st.document id).member? name =
      ((o.overrides.get? name).map st.toJson).or (below.member? name) := by
  have hbelow := Value.distinct_ofJsonMembers hover.isOpen.increasing.distinct
  have hmember : (Fields.get? name (Value.ofJsonMembers below.members)).map st.toJson =
      below.member? name := by
    rw [Value.get?_ofJsonMembers, ← Json.member?_eq_get?, Option.map_map]
    cases hj : below.member? name with
    | none => rfl
    | some j => exact congrArg some (st.toJson_ofJson (hover.isOpen.proper name j hj))
  rw [h.document_eq, members_over h.sound.ordered ho hover,
    Json.member?_ofMembers_of_distinct ((hbelow.merged (h.distinct id o ho)).map _),
    Fields.get?_map, Fields.get?_merged, Option.map_or, hmember]

end Documented

/-- The overlay is `top`, or it was written somewhere below it. -/
inductive Below (st : Store) (top : Nat) : Nat → Prop
  | top : Below st top top
  | held {id k : Nat} {name : String} (h : Below st top id)
    (hk : st.written? id name = some (.scope (.overlay k))) : Below st top k

theorem Below.trans {a b c : Nat} (h : st.Below a b) (h' : st.Below b c) : st.Below a c := by
  induction h' with
  | top => exact h
  | held _ hk ih => exact .held ih hk

namespace Documented

theorem lt_of_written? (h : st.Documented)
    (hk : st.written? id name = some (.scope (.overlay k))) : id < k := by
  rcases h.held id name _ hk with ⟨j, -, hj⟩ | ⟨other, hlt, heq⟩
  · exact absurd hj.symm (Value.ofJson_ne_scope j _)
  · cases heq
    exact hlt

theorem le_of_below (h : st.Documented) (hk : st.Below id k) : id ≤ k := by
  induction hk with
  | top => exact Nat.le_refl id
  | held _ hk ih => exact Nat.le_trans ih (Nat.le_of_lt (h.lt_of_written? hk))

theorem written?_lt_size (h : st.Documented)
    (hk : st.written? id name = some (.scope (.overlay k))) : k < st.size := by
  obtain ⟨o, ho, hget⟩ := Option.bind_eq_some_iff.1 hk
  exact Nat.le_trans (Value.reach_le_of_get? hget) (h.sound.overrides id o ho)

theorem below_lt_size (h : st.Documented) (hid : id < st.size) (hk : st.Below id k) :
    k < st.size := by
  cases hk with
  | top => exact hid
  | held _ hk => exact h.written?_lt_size hk

/-- Of two overlays that one stands below, the one stands below the other. -/
theorem below_linear (h : st.Documented) {a b : Nat} (ha : st.Below a k) (hb : st.Below b k) :
    st.Below a b ∨ st.Below b a := by
  induction ha with
  | top => exact .inr hb
  | held ha hk ih =>
    cases hb with
    | top => exact .inl (.held ha hk)
    | held hb hk' =>
      obtain ⟨rfl, -⟩ := h.once _ _ _ _ _ hk hk'
      exact ih hb

/-- Nothing stands below two overlays that are held in one place. -/
theorem below_disjoint (h : st.Documented) {a b : Nat} {other : String}
    (ha : st.written? id name = some (.scope (.overlay a)))
    (hb : st.written? id other = some (.scope (.overlay b))) (hne : name ≠ other)
    (hk : st.Below a k) : ¬st.Below b k := by
  intro hk'
  have hapart {a b : Nat} {name other : String}
      (ha : st.written? id name = some (.scope (.overlay a)))
      (hb : st.written? id other = some (.scope (.overlay b))) (hne : name ≠ other) :
      ¬st.Below a b := by
    intro hab
    cases hab with
    | top => exact hne (h.once _ _ _ _ _ ha hb).2
    | held hbelow hb' =>
      obtain ⟨rfl, -⟩ := h.once _ _ _ _ _ hb hb'
      have hle := h.le_of_below hbelow
      have hlt := h.lt_of_written? ha
      omega
  rcases h.below_linear hk hk' with hab | hba
  · exact hapart ha hb hne hab
  · exact hapart hb ha hne.symm hba

theorem document_ext (h : st.Documented) (h' : st'.Documented) {id' : Nat}
    (hget : ∀ name, (st'.document id').member? name = (st.document id).member? name) :
    st'.document id' = st.document id := by
  rw [h.document_eq, h'.document_eq] at hget ⊢
  exact Json.ofMembers_ext hget

/-- An overlay is the same document where all that stands below it is as it was. -/
theorem document_of_agree (h : st.Documented) (h' : st'.Documented) (hid : id < st.size)
    (hsame : ∀ x, st.Below id x → st'.overlay? x = st.overlay? x) :
    st'.document id = st.document id := by
  obtain ⟨n, hn⟩ : ∃ n, st.size ≤ id + n := ⟨st.size, Nat.le_add_left _ _⟩
  induction n generalizing id with
  | zero => omega
  | succ n ih =>
    obtain ⟨o, ho⟩ := overlay?_of_lt hid
    have ho' : st'.overlay? id = some o := by rw [hsame id .top, ho]
    obtain ⟨below, hover⟩ := h.stands id o ho
    refine h.document_ext h' fun name => ?_
    rw [h.member?_document ho hover, h'.member?_document ho' hover]
    cases hget : o.overrides.get? name with
    | none => rw [Option.map_none, Option.map_none]
    | some v =>
      have hwritten : st.written? id name = some v := by rw [written?_eq ho, hget]
      have hv : st'.toJson v = st.toJson v := by
        rcases h.held id name v hwritten with ⟨j, hj, rfl⟩ | ⟨k, hlt, rfl⟩
        · rw [st.toJson_ofJson hj, st'.toJson_ofJson hj]
        · have hheld : st.Below id k := .held .top hwritten
          exact ih (h.written?_lt_size hwritten) (fun x hx => hsame x (hheld.trans hx)) (by omega)
      rw [Option.map_some, Option.map_some, hv]

/-- The document of an overlay that holds something else under one name. -/
theorem document_but (h : st.Documented) (h' : st'.Documented) (ho : st.overlay? id = some o)
    (ho' : st'.overlay? id = some o') (hbut : o.But name v o')
    (hsame : ∀ other k, name ≠ other → st.written? id other = some (.scope (.overlay k)) →
      ∀ x, st.Below k x → st'.overlay? x = st.overlay? x) :
    st'.document id = (st.document id).put name (st'.toJson v) := by
  obtain ⟨below, hover⟩ := h.stands id o ho
  have hover' : o'.base.Over below := hbut.base ▸ hover
  rw [h'.document_eq, Json.put]
  refine Json.ofMembers_ext fun other => ?_
  rw [← h'.document_eq, ← Json.put, Json.member?_put (h.increasing_document id).distinct,
    h'.member?_document ho' hover', h.member?_document ho hover, hbut.get?]
  by_cases hname : name = other
  · simp only [hname, if_true, Option.map_some, Option.some_or]
  · simp only [hname, if_false]
    cases hget : o.overrides.get? other with
    | none => rw [Option.map_none, Option.map_none]
    | some w =>
      have hwritten : st.written? id other = some w := by rw [written?_eq ho, hget]
      have hw : st'.toJson w = st.toJson w := by
        rcases h.held id other w hwritten with ⟨j, hj, rfl⟩ | ⟨k, hlt, rfl⟩
        · rw [st.toJson_ofJson hj, st'.toJson_ofJson hj]
        · exact h.document_of_agree h' (h.written?_lt_size hwritten) (hsame other k hname hwritten)
      rw [Option.map_some, Option.map_some, hw]

theorem push (h : st.Documented) {base : Base} (hover : base.Over below)
    (hreach : base.scope.reach ≤ st.size) : (st.push base).2.Documented where
  sound := h.sound.push hreach
  distinct id o ho := by
    rw [overlay?_push] at ho
    split at ho
    · cases ho
      exact List.nodup_nil
    · exact h.distinct id o ho
  stands id o ho := by
    rw [overlay?_push] at ho
    split at ho
    · cases ho
      exact ⟨below, hover⟩
    · exact h.stands id o ho
  held id name v := by
    rw [written?_push]
    exact h.held id name v
  once id name id' name' k := by
    rw [written?_push, written?_push]
    exact h.once id name id' name' k

/-- A document or an overlay that is held nowhere yet may be written. -/
theorem set (h : st.Documented) (hid : id < st.size) (name : String)
    (hv : (∃ j : Json, j.Proper ∧ v = .ofJson j) ∨ ∃ k, id < k ∧ k < st.size ∧
      v = .scope (.overlay k) ∧ ∀ other otherName, st.written? other otherName ≠ some v) :
    (st.set id name v).Documented where
  sound := by
    refine h.sound.set ?_
    rcases hv with ⟨j, -, rfl⟩ | ⟨k, -, hk, rfl, -⟩
    · rw [Value.reach_ofJson]
      exact Nat.zero_le _
    · exact hk
  distinct other o ho := by
    rw [overlay?_set] at ho
    split at ho
    · obtain ⟨o, hold, rfl⟩ := Option.map_eq_some_iff.1 ho
      exact (h.distinct other o hold).set name v
    · exact h.distinct other o ho
  stands other o ho := by
    rw [overlay?_set] at ho
    split at ho
    · obtain ⟨o, hold, rfl⟩ := Option.map_eq_some_iff.1 ho
      exact h.stands other o hold
    · exact h.stands other o ho
  held other otherName w := by
    rw [written?_set hid]
    split
    · next heq =>
      rintro ⟨rfl⟩
      exact hv.imp_right fun ⟨k, hlt, _, heq', _⟩ => ⟨k, heq.1 ▸ hlt, heq'⟩
    · exact h.held other otherName w
  once a na b nb k := by
    have hnew : some v = some (.scope (.overlay k)) → ∀ other otherName,
        st.written? other otherName ≠ some (.scope (.overlay k)) := by
      rintro ⟨rfl⟩
      rcases hv with ⟨j, -, hj⟩ | ⟨_, -, -, -, hnone⟩
      · exact absurd hj.symm (Value.ofJson_ne_scope j _)
      · exact hnone
    rw [written?_set hid, written?_set hid]
    split
    · next ha =>
      split
      · next hb => exact fun _ _ => ⟨ha.1.symm.trans hb.1, ha.2.symm.trans hb.2⟩
      · exact fun hk hk' => absurd hk' (hnew hk b nb)
    · split
      · exact fun hk hk' => absurd hk (hnew hk' a na)
      · exact h.once a na b nb k

theorem lay (h : st.Documented) (hid : id < st.size) {base : Base} (hover : base.Over below)
    (hreach : base.scope.reach ≤ st.size) (name : String) :
    (st.lay id name base).2.Documented := by
  have hsize : st.size < (st.push base).2.size := by
    rw [size_push]
    exact Nat.lt_succ_self _
  refine (h.push hover hreach).set (Nat.lt_trans hid hsize) name
    (.inr ⟨st.size, hid, hsize, rfl, fun other otherName hheld => ?_⟩)
  rw [written?_push] at hheld
  exact Nat.lt_irrefl _ (h.written?_lt_size hheld)

end Documented

end Store

end TextTemplate
