import TextTemplate.Proofs.Store.Counts

/-! Making data writable. The first write lays an overlay over their scope, even if it writes
nothing then. All that is read afterwards is what was read before, but for the sizes of what does
not count its entries. -/

namespace TextTemplate

namespace Data
variable {d : Data}

/-- Laying an overlay over a scope changes no entry of it. -/
theorem Sound.members_writable (h : d.Sound) : d.writable.2.members = d.members := by
  rcases writable_cases d with ⟨id, _, hw⟩ | ⟨_, hw⟩
  · rw [hw]
  · have hrank := Nat.le_trans (Scope.rank_le_reach d.scope) h.scope
    have hnew := d.store.overlay?_push_new (.delegate d.scope)
    rw [hw, members, members, Store.members_wrapped hnew hrank]
    exact (Store.extends_push d.store _).members_eq hrank

theorem Sound.toJson_writable (h : d.Sound) : d.writable.2.toJson = d.toJson := by
  have hmembers := h.members_writable
  rcases writable_cases d with ⟨id, _, hw⟩ | ⟨_, hw⟩
  · rw [hw]
  · rw [hw] at hmembers ⊢
    have hext := Store.extends_push d.store (.delegate d.scope)
    rw [members, members] at hmembers
    refine Store.toJson_of_levels (fun n => ?_) fun n => ?_
    · cases n with
      | zero => rfl
      | succ n =>
        rw [Bool.eq_iff_iff, Store.ends_scope, Store.ends_scope, hmembers]
        refine forall₃_congr fun name w hmem => ?_
        rw [hext.ends_eq h.store (h.store.reach_members h.scope hmem)]
    · cases n with
      | zero => rfl
      | succ n =>
        change Json.ofMembers _ = Json.ofMembers _
        rw [hmembers]
        exact congrArg Json.ofMembers (Fields.map_congr fun name w hmem => congrArg (Prod.mk name)
          (hext.exportTo_eq h.store (h.store.reach_members h.scope hmem) n))

/-- In an overlay laid over a scope, a name means the same as in the scope, if it is no size or the
scope counts its entries. -/
theorem Sound.writable_eq_iff (h : d.Sound) (name : String) :
    (d.writable.2.store.local? d.writable.2.scope name = d.store.local? d.scope name ↔
      d.store.Counts d.scope name) ∧
    (d.store.Counts d.scope name →
      d.writable.2.store.get? d.writable.2.scope name = d.store.get? d.scope name) := by
  rcases writable_cases d with ⟨id, hscope, hw⟩ | ⟨_, hw⟩
  · rw [hw, hscope]
    exact ⟨⟨fun _ => Store.counts_overlay h.store.ordered, fun _ => rfl⟩, fun _ => rfl⟩
  · have hrank := Nat.le_trans (Scope.rank_le_reach d.scope) h.scope
    have hext := Store.extends_push d.store (.delegate d.scope)
    have hordered := h.writable.1.ordered
    have hnew := d.store.overlay?_push_new (.delegate d.scope)
    rw [hw] at hordered ⊢
    have hlocal : _ ↔ d.store.Counts d.scope name :=
      (Store.local?_wrapped_eq_iff hnew hrank).trans
        (Store.counts_of_extends hext h.store.ordered hrank)
    constructor
    · rw [← hlocal, hext.local?_eq h.store.ordered hrank]
    · intro hcounts
      rw [Store.get?_wrapped_eq hordered hnew (hlocal.2 hcounts),
        hext.get?_eq h.store.ordered hrank]

theorem Sound.sameBy_writable (h : d.Sound) :
    Store.SameBy (d.store.Counts d.scope) d.store d.scope d.writable.2.store d.writable.2.scope :=
  fun name hname => ⟨(h.writable_eq_iff name).1.2 hname, (h.writable_eq_iff name).2 hname⟩

theorem extends_writable (d : Data) : d.store.Extends d.writable.2.store := by
  rcases writable_cases d with ⟨id, _, hw⟩ | ⟨_, hw⟩
  · rw [hw]
    exact fun _ _ => rfl
  · rw [hw]
    exact Store.extends_push _ _

/-- Laying an overlay over the scope of data, as a write does before it writes anything, changes no
entry and no document of them, no later write, and no answer at any path, but for sizes that the
scope does not count. -/
theorem Sound.writable_visible_iff (h : d.Sound) :
    d.writable.2.members = d.members ∧ d.writable.2.toJson = d.toJson ∧
      (∀ p v, d.writable.2.put p v = d.put p v ∧
        d.writable.2.putIfMissing p v = d.putIfMissing p v) ∧
      (∀ p : DataPath, p.segments ≠ [] → (∀ name ∈ p.segments, d.store.Counts d.scope name) →
        d.writable.2.get? p = d.get? p ∧ d.writable.2.getLocal? p = d.getLocal? p) ∧
      ((∀ p : DataPath, p.segments ≠ [] →
          d.writable.2.get? p = d.get? p ∧ d.writable.2.getLocal? p = d.getLocal? p) ↔
        ∀ name, d.store.Counts d.scope name) := by
  have hpaths : ∀ p : DataPath, p.segments ≠ [] →
      (∀ name ∈ p.segments, d.store.Counts d.scope name) →
      d.writable.2.get? p = d.get? p ∧ d.writable.2.getLocal? p = d.getLocal? p :=
    fun p hne hnames => h.sameBy_writable.follow_eq (extends_writable d) h.store h.scope hnames hne
  refine ⟨h.members_writable, h.toJson_writable, fun p v => ?_, hpaths, fun hall name => ?_,
    fun hcounts p hne => hpaths p hne fun name _ => hcounts name⟩
  · constructor
    · rw [Data.put, Data.put, writable_writable]
    · rw [Data.putIfMissing, Data.putIfMissing, writable_writable]
  · exact (h.writable_eq_iff name).1.1 (hall ⟨[name]⟩ (List.cons_ne_nil _ _)).2

end Data

namespace Session
variable {w : Session} {s : Scope} {p : DataPath} {v : Value} {after : Data}

/-- In every session, an operation that makes a scope writable and writes nothing changes no entry
and no document of the data, no later write, and no answer at any path of names but `size` and
`isEmpty`. It changes no answer at all exactly if these two, where the scope answers them without
holding them as entries, count its entries; and that they do exactly unless the scope is over text
with characters, over a host collection that is not as long as it has items, or over a host object
that answers one of them unlisted, and not with that count. The document is that of `Store.toJson`,
which is the one of the program as long as no scope stands inside itself. -/
theorem Reachable.promotion_invisible_iff (h : w.Reachable) (hs : s ∈ w.scopes)
    (hafter : after = (w.data s).put ⟨[]⟩ v ∨ (w.data s).putIfMissing p v = (false, after)) :
    after.members = (w.data s).members ∧ after.toJson = (w.data s).toJson ∧
      (∀ q u, after.put q u = (w.data s).put q u ∧
        after.putIfMissing q u = (w.data s).putIfMissing q u) ∧
      (∀ q : DataPath, q.segments ≠ [] → (∀ name ∈ q.segments, w.store.Counts s name) →
        after.get? q = (w.data s).get? q ∧ after.getLocal? q = (w.data s).getLocal? q) ∧
      ((∀ q : DataPath, q.segments ≠ [] →
          after.get? q = (w.data s).get? q ∧ after.getLocal? q = (w.data s).getLocal? q) ↔
        ∀ name, w.store.Counts s name) ∧
      (∀ name, Value.isSizeName name = false → w.store.Counts s name) ∧
      ((∀ name, w.store.Counts s name) ↔ ∀ own, s.own? = some own → ¬ own.Miscounts) := by
  have hpromoted : after = (w.data s).writable.2 := by
    rcases hafter with rfl | hput
    · rfl
    · rcases Data.putIfMissing_cases (w.data s) p v with ⟨_, hunchanged⟩ | ⟨_, hwritten⟩
      · rw [hunchanged] at hput
        exact (Prod.mk.inj hput).2.symm
      · rw [hwritten] at hput
        cases hput
  obtain ⟨hmembers, hjson, hwrites, hpaths, hall⟩ := (h.sound.2 s hs).writable_visible_iff
  rw [hpromoted]
  exact ⟨hmembers, hjson, hwrites, hpaths, hall, fun _ => Store.counts_of_not_isSizeName,
    Store.counts_iff_own h.sound.1.ordered⟩

/-- A list inside a map: that its first item is not missing is found out in an overlay, in which all
names mean what they meant. -/
theorem Reachable.promotion_invisible_within_map :
    let items : Scope := .over (.list [.text "a"]) (.over (.map [("x", .null)]) .nowhere)
    let d : Data := ⟨.empty, items⟩
    let after := (d.putIfMissing ⟨["0"]⟩ .null).2
    Reachable ⟨.empty, [items]⟩ ∧ d.putIfMissing ⟨["0"]⟩ .null = (false, after) ∧
      after.scope = .overlay 0 ∧ ∀ q : DataPath, q.segments ≠ [] →
        after.get? q = d.get? q ∧ after.getLocal? q = d.getLocal? q := by
  intro items d after
  have hreach : Reachable ⟨.empty, [items]⟩ :=
    .step .start (.ofValue (v := .scope items) (Nat.zero_le _))
  have hput : d.putIfMissing ⟨["0"]⟩ .null = (false, after) := by
    have hfirst : (d.putIfMissing ⟨["0"]⟩ .null).1 = false := by cbv
    rw [← hfirst]
  have hscope : (d.putIfMissing ⟨["0"]⟩ .null).2.scope = .overlay 0 := by cbv
  obtain ⟨-, -, -, -, hall, -, hown⟩ :=
    hreach.promotion_invisible_iff (List.mem_singleton_self items) (.inr hput)
  refine ⟨hreach, hput, hscope, hall.2 (hown.2 fun own heq => ?_)⟩
  cases heq
  exact id

/-- Text with characters is not empty, until its scope is made writable. A host collection of two
places, one of them without an item, gets the size 1 then, and a host object that says that it has a
size of 5, but lists only its one property, likewise. -/
theorem Reachable.promotion_visible :
    let text := Data.ofValue .empty (.text "a")
    let collection := Data.ofValue .empty (.collection 0 [("1", .null)] 2)
    let object := Data.ofValue .empty
      (.object 0 "Shelf" false ["color"] [("color", .text "red"), ("size", .int 5)])
    let promoted (d : Data) := d.put ⟨[]⟩ .null
    (Reachable ⟨text.store, [text.scope]⟩ ∧ text.get? ⟨["isEmpty"]⟩ = some (.bool false) ∧
      (promoted text).get? ⟨["isEmpty"]⟩ = some (.bool true)) ∧
    (Reachable ⟨collection.store, [collection.scope]⟩ ∧
      collection.get? ⟨["size"]⟩ = some (.int 2) ∧
      (promoted collection).get? ⟨["size"]⟩ = some (.int 1)) ∧
    Reachable ⟨object.store, [object.scope]⟩ ∧ object.get? ⟨["size"]⟩ = some (.int 5) ∧
      (promoted object).get? ⟨["size"]⟩ = some (.int 1) := by
  have hroot : ∀ v : Value, v.reach = 0 →
      Reachable ⟨(Data.ofValue .empty v).store, [(Data.ofValue .empty v).scope]⟩ :=
    fun v hv => .step .start (.ofValue (v := v) (Nat.le_of_eq hv))
  refine ⟨⟨hroot _ rfl, ?_, ?_⟩, ⟨hroot _ rfl, ?_, ?_⟩, hroot _ rfl, ?_, ?_⟩
  all_goals cbv

end Session
end TextTemplate
