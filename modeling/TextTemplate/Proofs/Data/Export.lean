import Mathlib
import TextTemplate.Proofs.Data.Session
import TextTemplate.Proofs.Store.Documents

/-! Data that documents are written to is exported as the document that has the same members
assigned. Writes may lay overlays over what is there at every hop, and later writes meet them. -/

namespace TextTemplate

namespace Store
variable {st st' : Store} {id k : Nat} {o : Overlay} {name : String} {below j : Json}

/-- Whether a write at the path goes the way that it would go through plain objects: none of its
names but the last is one of the sizes, lands on a list, or is missing here while a scope outside
has it. -/
def clear (st : Store) (id : Nat) : List String → Bool
  | [] | [_] => true
  | name :: rest =>
    let found := st.get? (.overlay id) name
    !Value.isSizeName name && !found.any Value.isIndexed &&
      (found.isNone || (st.local? (.overlay id) name).isSome) &&
      (st.enter id name).2.clear (st.enter id name).1 rest

namespace Documented

/-- A name means what was written under it, or else what it means in the document below. -/
theorem local?_cases (h : st.Documented) (ho : st.overlay? id = some o)
    (hover : o.base.Over below) (hname : Value.isSizeName name = false) :
    (∃ v, o.overrides.get? name = some v ∧ st.local? (.overlay id) name = some v) ∨
      (o.overrides.get? name = none ∧
        (st.local? (.overlay id) name = (below.member? name).map .ofJson ∨
          below.member? name = none ∧
            ∃ n : Nat, st.local? (.overlay id) name = some (.ofJson (.int n)))) := by
  cases hget : o.overrides.get? name with
  | some v => exact .inl ⟨v, rfl, local?_of_override ho hget⟩
  | none =>
    refine .inr ⟨rfl, ?_⟩
    rcases hover.is with ⟨outer, hbase⟩ | ⟨⟨outer, hbase⟩, rfl⟩
    · have hrank := h.sound.ordered.rank_le ho hbase
      have hlocal : st.local? (.overlay id) name = (Value.ofJson below).member? name := by
        rw [local?_delegate ho hget hbase hrank, local?, hname]
        simp
      rw [hlocal]
      exact Value.member?_ofJson hover.isOpen.noArray hname
    · left
      rw [local?_fresh ho hget hbase, Value.sizeMember?_eq_none_iff.2 hname]
      rfl

/-- On its way a clear write meets an overlay that was written there, or a document that can be
written to as the member of that name can. -/
theorem found (h : st.Documented) (hid : id < st.size) {next : String} {rest : List String}
    (hclear : st.clear id (name :: next :: rest) = true) :
    (∃ k, st.written? id name = some (.scope (.overlay k)) ∧
      st.get? (.overlay id) name = some (.scope (.overlay k))) ∨
    ∃ j : Json, j.Open ∧ (((st.document id).member? name).getD .null).members = j.members ∧
      (st.get? (.overlay id) name = some (.ofJson j) ∨
        st.get? (.overlay id) name = none ∧ j = .null) := by
  obtain ⟨o, ho⟩ := overlay?_of_lt hid
  obtain ⟨below, hover⟩ := h.stands id o ho
  simp only [clear, Bool.and_eq_true, Bool.or_eq_true, Bool.not_eq_true'] at hclear
  obtain ⟨⟨⟨hname, harray⟩, hlocal⟩, -⟩ := hclear
  have hmember := h.member?_document ho hover name
  have hopen (j : Json) (hj : j.Proper) (hget : st.get? (.overlay id) name = some (.ofJson j)) :
      j.Open := by
    refine hj.open fun items hitems => ?_
    rw [hget, hitems] at harray
    cases harray
  rcases h.local?_cases ho hover hname with ⟨v, hv, hfound⟩ | ⟨hnone, hfound⟩
  · have hget := get?_of_local? hfound
    have hwritten : st.written? id name = some v := by rw [written?_eq ho, hv]
    rcases h.held id name v hwritten with ⟨j, hj, rfl⟩ | ⟨k, -, rfl⟩
    · refine .inr ⟨j, hopen j hj hget, ?_, .inl hget⟩
      rw [hmember, hv, Option.map_some, st.toJson_ofJson hj]
      rfl
    · exact .inl ⟨k, hwritten, hget⟩
  · right
    rw [hnone, Option.map_none, Option.none_or] at hmember
    rw [hmember]
    rcases hfound with hfound | ⟨hmissing, n, hfound⟩
    · cases hj : below.member? name with
      | none =>
        rw [hj, Option.map_none] at hfound
        rw [hfound] at hlocal
        refine ⟨.null, .of_members rfl nofun, rfl, .inr ⟨?_, rfl⟩⟩
        simpa using hlocal
      | some j =>
        rw [hj, Option.map_some] at hfound
        have hget := get?_of_local? hfound
        exact ⟨j, hopen j (hover.isOpen.proper name j hj) hget, rfl, .inl hget⟩
    · rw [hmissing]
      exact ⟨.int n, .of_members rfl nofun, rfl, .inl (get?_of_local? hfound)⟩

end Documented

/-- What a write finds once it has entered the overlay `k` behind a name of the overlay `id`. -/
structure Entered (st : Store) (id : Nat) (name : String) (st' : Store) (k : Nat) : Prop where
  documented : st'.Documented
  size_le : st.size ≤ st'.size
  lt_size : k < st'.size
  but : ∃ o o', st.overlay? id = some o ∧ st'.overlay? id = some o' ∧
    o.But name (.scope (.overlay k)) o'
  others : ∀ x, x < st.size → x ≠ id → st'.overlay? x = st.overlay? x
  /-- What stands below it and is not new, stood below it before. -/
  below : ∀ x, x < st.size → st'.Below k x →
    st.written? id name = some (.scope (.overlay k)) ∧ st.Below k x
  members : (st'.document k).members = (((st.document id).member? name).getD .null).members

namespace Documented

theorem enter_written (h : st.Documented)
    (hwritten : st.written? id name = some (.scope (.overlay k))) : st.Entered id name st k := by
  obtain ⟨o, ho, hget⟩ := Option.bind_eq_some_iff.1 hwritten
  obtain ⟨below, hover⟩ := h.stands id o ho
  refine ⟨h, Nat.le_refl _, h.written?_lt_size hwritten, ⟨o, o, ho, ho, rfl, fun other => ?_⟩,
    fun _ _ _ => rfl, fun x _ hx => ⟨hwritten, hx⟩, ?_⟩
  · split
    · next hname => rw [← hname, hget]
    · rfl
  · rw [h.member?_document ho hover, hget]
    rfl

theorem enter_laid (h : st.Documented) (hid : id < st.size) {base : Base} (hover : base.Over j)
    (hreach : base.scope.reach ≤ st.size)
    (hmember : (((st.document id).member? name).getD .null).members = j.members) :
    st.Entered id name (st.lay id name base).2 st.size := by
  have hlaid := h.lay hid hover hreach name
  have hnew : (st.lay id name base).2.overlay? st.size = some ⟨[], base⟩ := overlay?_lay_new hid
  have hempty (x : Nat) (hx : (st.lay id name base).2.Below st.size x) : x = st.size := by
    induction hx with
    | top => rfl
    | held _ hk ih =>
      rw [ih, written?_eq hnew] at hk
      cases hk
  obtain ⟨o, ho⟩ := overlay?_of_lt hid
  refine ⟨hlaid, by rw [size_lay]; omega, by rw [size_lay]; omega,
    ⟨o, { o with overrides := o.overrides.set name (.scope (.overlay st.size)) }, ho, ?_,
      .set _ _ o⟩, fun x hx hne => ?_, fun x hx hbelow => ?_, ?_⟩
  · rw [Store.lay, overlay?_set, if_pos rfl, overlay?_push, if_neg (by omega), ho]
    rfl
  · rw [Store.lay, overlay?_set, if_neg hne.symm, overlay?_push, if_neg (by omega)]
  · have := hempty x hbelow
    omega
  · rw [hmember]
    refine (hlaid.increasing_document _).ext hover.isOpen.increasing fun other => ?_
    rw [← Json.member?_eq_get?, ← Json.member?_eq_get?, hlaid.member?_document hnew hover]
    rfl

/-- Entering an overlay is laying one over the document there, if none was written. -/
theorem entered (h : st.Documented) (hid : id < st.size) {next : String} {rest : List String}
    (hclear : st.clear id (name :: next :: rest) = true) :
    st.Entered id name (st.enter id name).2 (st.enter id name).1 := by
  have hreach : (Scope.overlay id).reach ≤ st.size := hid
  rcases h.found hid hclear with ⟨k, hwritten, hget⟩ | ⟨j, hopen, hmember, hfound⟩
  · have henter : st.enter id name = (k, st) := by
      rw [enter, hget]
      rfl
    rw [henter]
    exact h.enter_written hwritten
  · rcases enter_cases st id name with ⟨inner, hget, -⟩ | ⟨hnone, henter⟩ |
      ⟨found, hget, hnull, -, henter⟩
    · rcases hfound with hfound | ⟨hfound, -⟩
      · exact absurd (Option.some.inj (hfound.symm.trans hget)) (Value.ofJson_ne_scope j _)
      · cases hfound.symm.trans hget
    · have hj : j = .null := by
        rcases hfound with hfound | ⟨-, hj⟩
        · rcases hnone with hnone | hnone
          · cases hfound.symm.trans hnone
          · exact Value.ofJson_eq_null (Option.some.inj (hfound.symm.trans hnone))
        · exact hj
      rw [henter]
      exact h.enter_laid hid ⟨hopen, .inr ⟨⟨_, rfl⟩, hj⟩⟩ hreach hmember
    · have hj : found = .ofJson j := by
        rcases hfound with hfound | ⟨hfound, -⟩
        · exact Option.some.inj (hget.symm.trans hfound)
        · cases hfound.symm.trans hget
      rw [henter, hj, Value.toScope_ofJson]
      refine h.enter_laid hid ⟨hopen, .inl ⟨_, rfl⟩⟩ ?_ hmember
      have hdoc := Value.reach_ofJson j
      simp only [Base.scope, Scope.reach, hdoc]
      omega

end Documented

/-- A write at a path below an overlay: it assigns the member there, and leaves alone whatever does
not stand below the overlay. -/
structure Assigns (st : Store) (id : Nat) (names : List String) (j : Json) (st' : Store) :
    Prop where
  documented : st'.Documented
  document : st'.document id = (st.document id).assign j names
  kept : ∀ x, x < st.size → ¬st.Below id x → st'.overlay? x = st.overlay? x

theorem Documented.assigns_set (h : st.Documented) (hid : id < st.size) (name : String)
    (hj : j.Proper) : st.Assigns id [name] j (st.set id name (.ofJson j)) := by
  have hset := h.set hid name (.inl ⟨j, hj, rfl⟩)
  have hother (x : Nat) (hx : id ≠ x) :
      (st.set id name (.ofJson j)).overlay? x = st.overlay? x := by
    rw [overlay?_set, if_neg hx]
  obtain ⟨o, ho⟩ := overlay?_of_lt hid
  have ho' : (st.set id name (.ofJson j)).overlay? id =
      some { o with overrides := o.overrides.set name (.ofJson j) } := by
    rw [overlay?_set, if_pos rfl, ho]
    rfl
  have hdocument := h.document_but hset ho ho' (.set name _ o) fun other k _ hk x hx => by
    have hlt := h.lt_of_written? hk
    have hle := h.le_of_below hx
    exact hother x (by omega)
  rw [toJson_ofJson _ hj] at hdocument
  exact ⟨hset, hdocument, fun x _ hbelow => hother x fun heq => hbelow (heq ▸ .top)⟩

/-- A write that assigns below the overlay that was entered, assigns below the one it was entered
from. -/
theorem Entered.assigns {inner : Store} (hentered : st.Entered id name inner k)
    (h : st.Documented) (hid : id < st.size) {next : String} {rest : List String}
    (hrest : inner.Assigns k (next :: rest) j st') :
    st.Assigns id (name :: next :: rest) j st' := by
  obtain ⟨o, o', ho, ho', hbut⟩ := hentered.but
  have hheld : inner.written? id name = some (.scope (.overlay k)) := by
    rw [written?_eq ho', hbut.get?, if_pos rfl]
  have hself : ¬inner.Below k id := fun hbelow => by
    have hlt := hentered.documented.lt_of_written? hheld
    have hle := hentered.documented.le_of_below hbelow
    omega
  have hover := hrest.kept id (Nat.lt_of_lt_of_le hid hentered.size_le) hself
  -- What was not below `k` before is not below it now, and so stays.
  have hkept (x : Nat) (hx : x < st.size) (hne : x ≠ id)
      (hapart : ¬(st.written? id name = some (.scope (.overlay k)) ∧ st.Below k x)) :
      st'.overlay? x = st.overlay? x := by
    rw [hrest.kept x (Nat.lt_of_lt_of_le hx hentered.size_le) fun hbelow =>
      hapart (hentered.below x hx hbelow), hentered.others x hx hne]
  have hdocument : st'.document id = (st.document id).put name (st'.document k) := by
    refine h.document_but hrest.documented ho (hover.trans ho') hbut fun other k' hne hk' x hx => ?_
    -- The siblings of `k`: each overlay is held in one place only.
    have hlt := h.lt_of_written? hk'
    have hle := h.le_of_below hx
    have hold : x < st.size := h.below_lt_size (h.written?_lt_size hk') hx
    exact hkept x hold (by omega) fun ⟨hwritten, hk⟩ => h.below_disjoint hwritten hk' hne hk hx
  refine ⟨hrest.documented, ?_, fun x hx hbelow => hkept x hx (fun heq => hbelow (heq ▸ .top))
    fun ⟨hwritten, hk⟩ => hbelow ((Below.held .top hwritten).trans hk)⟩
  rw [hdocument, hrest.document, Json.assign_congr hentered.members (List.cons_ne_nil _ _)]
  rfl

/-- A clear write assigns the member at its path. -/
theorem Documented.assigns_write (h : st.Documented) (hid : id < st.size) (hj : j.Proper)
    {names : List String} (hne : names ≠ []) (hclear : st.clear id names = true) :
    st.Assigns id names j (st.write id (.ofJson j) names) := by
  induction names generalizing st id with
  | nil => exact absurd rfl hne
  | cons name rest ih =>
    cases rest with
    | nil => exact h.assigns_set hid name hj
    | cons next rest =>
      have hentered := h.entered hid hclear
      have hrest : (st.enter id name).2.clear (st.enter id name).1 (next :: rest) = true :=
        (Bool.and_eq_true_iff.1 hclear).2
      rw [write_cons]
      exact hentered.assigns h hid
        (ih hentered.documented hentered.lt_size (List.cons_ne_nil _ _) hrest)

end Store

/-- One value after the other is given to the member at the end of its path. -/
def Json.assignAll (j : Json) (writes : List (DataPath × Json)) : Json :=
  writes.foldl (fun j (p, v) => j.assign v p.segments) j

namespace Data
variable {d : Data} {j : Json}

/-- One document after the other is written at its path. -/
def putAll (d : Data) (writes : List (DataPath × Json)) : Data :=
  writes.foldl (fun d (p, v) => d.put p (.ofJson v)) d

/-- Whether every write, when it comes, goes the way that it would go through plain objects. -/
def clear (d : Data) : List (DataPath × Json) → Bool
  | [] => true
  | (p, v) :: rest =>
    d.writable.2.store.clear d.writable.1 p.segments && (d.put p (.ofJson v)).clear rest

/-- Once it can be written to, the data is an overlay that shows the document. -/
structure Shows (d : Data) (j : Json) : Prop where
  documented : d.writable.2.store.Documented
  lt_size : d.writable.1 < d.writable.2.store.size
  document : d.writable.2.store.document d.writable.1 = j
  toJson : d.toJson = j

theorem shows_ofValue {ms : List (String × Json)} (h : (Json.object ms).Proper) :
    (ofValue .empty (.ofJson (.object ms))).Shows (.object ms) := by
  let whole : Scope := .over (.ofJson (.object ms)) .nowhere
  have hover : (Base.delegate whole).Over (.object ms) := ⟨h.open nofun, .inl ⟨.nowhere, rfl⟩⟩
  have hreach : (Base.delegate whole).scope.reach ≤ Store.empty.size := by
    have hdoc := Value.reach_ofJson (.object ms)
    simp only [whole, Base.scope, Scope.reach, hdoc]
    exact Nat.zero_le _
  have hdocumented := Store.documented_empty.push hover hreach
  refine ⟨hdocumented, Nat.zero_lt_one, ?_, ?_⟩
  · have ho : (Store.empty.push (.delegate whole)).2.overlay? 0 = some ⟨[], .delegate whole⟩ := rfl
    change (Store.empty.push (.delegate whole)).2.document 0 = _
    rw [hdocumented.document_eq]
    refine Json.ofMembers_eq h.1 fun name => ?_
    rw [← hdocumented.document_eq, hdocumented.member?_document ho hover]
    rfl
  · exact Store.empty.toJson_over (h.open nofun) .nowhere

theorem Shows.put (h : d.Shows j) (p : DataPath) {v : Json} (hv : v.Proper)
    (hclear : d.writable.2.store.clear d.writable.1 p.segments = true) :
    (d.put p (.ofJson v)).Shows (j.assign v p.segments) := by
  rw [put_eq, ← h.document]
  by_cases hempty : p.segments = []
  · rw [hempty]
    exact ⟨h.documented, h.lt_size, rfl, rfl⟩
  · have hassigns := h.documented.assigns_write h.lt_size hv hempty hclear
    have hgrows := Store.grows_write h.documented.sound h.lt_size (.ofJson v) p.segments
    exact ⟨hassigns.documented, Nat.lt_of_lt_of_le h.lt_size hgrows.size_le, hassigns.document,
      hassigns.document⟩

/-- Documents that are written to an object are exported as the object with the same members
assigned, as long as each write goes the way that it would go through plain objects. An object that
nothing is written to is exported as it is. -/
theorem toJson_putAll {ms : List (String × Json)} (h : (Json.object ms).Proper)
    (writes : List (DataPath × Json)) (hwrites : ∀ write ∈ writes, write.2.Proper)
    (hclear : (ofValue .empty (.ofJson (.object ms))).clear writes = true) :
    ((ofValue .empty (.ofJson (.object ms))).putAll writes).toJson =
      (Json.object ms).assignAll writes := by
  suffices ∀ (d : Data) (j : Json), d.Shows j → d.clear writes = true →
      (d.putAll writes).toJson = j.assignAll writes from this _ _ (shows_ofValue h) hclear
  clear hclear
  induction writes with
  | nil => exact fun d j hshows _ => hshows.toJson
  | cons write rest ih =>
    obtain ⟨p, v⟩ := write
    intro d j hshows hclear
    obtain ⟨hfirst, hrest⟩ := Bool.and_eq_true_iff.1 hclear
    exact ih (fun write hwrite => hwrites write (List.mem_cons_of_mem _ hwrite)) _ _
      (hshows.put p (hwrites (p, v) List.mem_cons_self) hfirst) hrest

/-- Writes over a scalar, over null, over nothing, and into what an earlier write laid. -/
theorem toJson_putAll_nested :
    let user := Json.object [("name", .text "Ann"), ("role", .null)]
    let ms := [("title", .text "T"), ("user", user)]
    let writes : List (DataPath × Json) := [
      (⟨["user", "name", "first"]⟩, .text "A"),
      (⟨["user", "role", "of"]⟩, .text "B"),
      (⟨["new", "x"]⟩, .object [("k", .text "v")]),
      (⟨["new", "x", "y"]⟩, .text "Z")]
    let d := ofValue .empty (.ofJson (.object ms))
    (Json.object ms).Proper ∧ (∀ write ∈ writes, write.2.Proper) ∧ d.clear writes = true ∧
      (d.putAll writes).toJson = .object [
        ("new", .object [("x", .object [("k", .text "v"), ("y", .text "Z")])]),
        ("title", .text "T"),
        ("user", .object [("name", .object [("first", .text "A")]),
          ("role", .object [("of", .text "B")])])] := by
  intro user ms writes d
  have huser : user.Proper := ⟨List.pairwise_pair.2 (by cbv), trivial, trivial, trivial⟩
  have hms : (Json.object ms).Proper :=
    ⟨List.pairwise_pair.2 (by cbv), trivial, huser, trivial⟩
  have hwrites : ∀ write ∈ writes, write.2.Proper := by
    simp [writes, Json.Proper, Json.ProperMembers, Fields.Increasing]
  have hclear : d.clear writes = true := by
    simp only [d, ms, user, writes]
    cbv
  refine ⟨hms, hwrites, hclear, (toJson_putAll hms writes hwrites hclear).trans ?_⟩
  simp only [ms, user, writes]
  cbv

end Data

end TextTemplate
