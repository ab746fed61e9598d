import TextTemplate.Scan.Scanner

/-! A scanner that keeps no marks and searches for every kind at every token reads the same tokens
and errors as one that keeps the next mark of each kind. -/

namespace TextTemplate

/-- The mark that counts from a place on: no mark of any kind stands before it, and it is of the
first kind listed that has a mark where it stands. -/
structure IsNext (kinds : List MarkKind) (c : Cursor) (o : Occurrence) : Prop where
  ahead : c.Leads o.start
  least : ∀ d, c.Leads d → d.offset < o.start.offset → ∀ k ∈ kinds, k.at? d = none
  prior : kinds.findSome? (·.at? o.start) = some o

/-- Where a mark is found that is not before `o`, its kind has none before `o`. -/
theorem MarkKind.at?_eq_none_before {k : MarkKind} {c d : Cursor} {o : Occurrence}
    (hcd : c.Leads d) (hfound : ∀ a, k.find? c = some a → o.start.offset ≤ a.start.offset)
    (hlt : d.offset < o.start.offset) : k.at? d = none := by
  cases h : k.find? c with
  | none => exact at?_eq_none_of_find?_none h hcd
  | some a =>
    have := hfound a h
    exact at?_eq_none_of_find? h hcd (by omega)

theorem IsNext.of_earliest? {kinds : List MarkKind} {c : Cursor} {o : Occurrence}
    (h : MarkKind.earliest? kinds c = some o) : IsNext kinds c o := by
  obtain ⟨before, after, hos, hbefore, hafter⟩ := Occurrence.first_eq_some h
  obtain ⟨kb, ks, rfl, rfl, hks⟩ := List.map_eq_append_iff.1 hos
  obtain ⟨k, ka, rfl, hk, rfl⟩ := List.map_eq_cons_iff.1 hks
  obtain ⟨hahead, hat⟩ := MarkKind.find?_eq_some hk
  refine ⟨hahead, fun d hd hlt k' hk' => ?_, ?_⟩
  · refine MarkKind.at?_eq_none_before hd (fun a ha => ?_) hlt
    rcases List.mem_append.1 hk' with hmem | hmem
    · exact Nat.le_of_lt (hbefore a (List.mem_map.2 ⟨k', hmem, ha⟩))
    · rcases List.mem_cons.1 hmem with rfl | hmem
      · rw [hk] at ha
        cases ha
        exact Nat.le_refl _
      · exact hafter a (List.mem_map.2 ⟨k', hmem, ha⟩)
  · refine List.findSome?_eq_some_iff.2 ⟨kb, k, ka, rfl, hat, fun k' hk' => ?_⟩
    cases hfind : k'.find? c with
    | none => exact MarkKind.at?_eq_none_of_find?_none hfind hahead
    | some a =>
      exact MarkKind.at?_eq_none_of_find? hfind hahead (hbefore a (List.mem_map.2 ⟨k', hk', hfind⟩))

theorem IsNext.unique {kinds : List MarkKind} {c : Cursor} {o o' : Occurrence}
    (h : IsNext kinds c o) (h' : IsNext kinds c o') : o = o' := by
  have stands {a : Occurrence} (ha : IsNext kinds c a) : ∃ k ∈ kinds, k.at? a.start = some a :=
    List.exists_of_findSome?_eq_some ha.prior
  have notBefore {a b : Occurrence} (ha : IsNext kinds c a) (hb : IsNext kinds c b) :
      b.start.offset ≤ a.start.offset := by
    apply Nat.le_of_not_lt
    intro hlt
    obtain ⟨k, hk, hat⟩ := stands ha
    rw [hb.least _ ha.ahead hlt k hk] at hat
    cases hat
  have hleads := h.ahead.of_offset_le h'.ahead (notBefore h' h)
  have hstart := hleads.eq_of_offset_le (notBefore h h')
  have hprior := h'.prior
  rw [hstart, h.prior] at hprior
  exact Option.some.inj hprior

/-- Searching for every kind and keeping the earliest mark finds the one that counts. -/
theorem earliest?_eq_some_iff {kinds : List MarkKind} {c : Cursor} {o : Occurrence} :
    MarkKind.earliest? kinds c = some o ↔ IsNext kinds c o := by
  constructor
  · exact IsNext.of_earliest?
  · intro h
    cases hfound : MarkKind.earliest? kinds c with
    | some o' => rw [(IsNext.of_earliest? hfound).unique h]
    | none =>
      obtain ⟨k, hk, hat⟩ := List.exists_of_findSome?_eq_some h.prior
      have hnone := Occurrence.first_eq_none.1 hfound _ (List.mem_map.2 ⟨k, hk, rfl⟩)
      rw [MarkKind.at?_eq_none_of_find?_none hnone h.ahead] at hat
      cases hat

/-- A scanner that knows nothing but its place. -/
structure FreshScanner where
  kinds : List MarkKind
  here : Cursor
  pushed : Option Spanned
  deriving DecidableEq, Repr

namespace FreshScanner

def ofKinds (kinds : List MarkKind) (c : Cursor) : FreshScanner := ⟨kinds, c, none⟩

/-- Reads the next token at the mark that counts from here on. -/
def step (s : FreshScanner) : Except ScanError (Option Spanned) × FreshScanner :=
  match s.pushed with
  | some t => (.ok (some t), { s with pushed := none })
  | none =>
    if s.here.rest = [] then (.ok none, s)
    else
      match Token.ofPlace s.here (MarkKind.earliest? s.kinds s.here) with
      | .error e => (.error e, s)
      | .ok (t, d) => (.ok (some t), { s with here := d })

def push (s : FreshScanner) (t : Spanned) : FreshScanner := { s with pushed := some t }

end FreshScanner

/-- What a scanner is asked for. -/
inductive ScanCall where
  | step
  | push (t : Spanned)

/-- What one call gives, and the scanner after it. -/
def Scanner.call (s : Scanner) : ScanCall → Option (Except ScanError (Option Spanned)) × Scanner
  | .step => (some s.step.1, s.step.2)
  | .push t => (none, s.push t)

def FreshScanner.call (s : FreshScanner) :
    ScanCall → Option (Except ScanError (Option Spanned)) × FreshScanner
  | .step => (some s.step.1, s.step.2)
  | .push t => (none, s.push t)

/-- What a run of calls gives, call by call, and the scanner after it. -/
def Scanner.run (s : Scanner) :
    List ScanCall → List (Option (Except ScanError (Option Spanned))) × Scanner
  | [] => ([], s)
  | call :: calls =>
    let (answer, s) := s.call call
    let (answers, s) := s.run calls
    (answer :: answers, s)

def FreshScanner.run (s : FreshScanner) :
    List ScanCall → List (Option (Except ScanError (Option Spanned))) × FreshScanner
  | [] => ([], s)
  | call :: calls =>
    let (answer, s) := s.call call
    let (answers, s) := s.run calls
    (answer :: answers, s)

theorem FreshScanner.kinds_call (s : FreshScanner) (call : ScanCall) :
    (s.call call).2.kinds = s.kinds := by
  cases call with
  | push t => rfl
  | step =>
    simp only [FreshScanner.call, step]
    split
    · rfl
    · split
      · rfl
      · split <;> rfl

theorem FreshScanner.kinds_run (s : FreshScanner) (calls : List ScanCall) :
    (s.run calls).2.kinds = s.kinds := by
  induction calls generalizing s with
  | nil => rfl
  | cons call calls ih => simp only [run, ih, kinds_call]

namespace Scanner

/-- The scanner without the marks that it keeps. -/
def fresh (s : Scanner) : FreshScanner := ⟨s.kinds, s.here, s.pushed⟩

@[simp] theorem fresh_refreshed (s : Scanner) : s.refreshed.fresh = s.fresh := by
  simp [fresh]

theorem fresh_ofKinds (kinds : List MarkKind) (c : Cursor) :
    (ofKinds kinds c).fresh = FreshScanner.ofKinds kinds c := by
  simp [fresh, ofKinds, FreshScanner.ofKinds, Scanner.kinds, Function.comp_def]

theorem step_fresh (s : Scanner) : s.fresh.step = (s.step.1, s.step.2.fresh) := by
  cases hp : s.pushed with
  | some t => simp [step_of_pushed hp, FreshScanner.step, fresh, kinds, hp]
  | none =>
    by_cases hs : s.here.rest = []
    · simp [step_of_end hp hs, FreshScanner.step, fresh, hp, hs]
    · cases hplace : Token.ofPlace s.here (MarkKind.earliest? s.kinds s.here) with
      | error e =>
        simp [step_of_error hp hs hplace, FreshScanner.step, fresh, hp, hs, hplace]
      | ok r =>
        obtain ⟨t, d⟩ := r
        obtain ⟨hd, hstep⟩ := step_of_ok hp hs hplace
        simp [hstep, FreshScanner.step, fresh, hp, hs, hplace]

theorem call_fresh (s : Scanner) (call : ScanCall) :
    s.fresh.call call = ((s.call call).1, (s.call call).2.fresh) := by
  cases call with
  | step => simp [FreshScanner.call, Scanner.call, step_fresh]
  | push t => rfl

theorem run_fresh (s : Scanner) (calls : List ScanCall) :
    s.fresh.run calls = ((s.run calls).1, (s.run calls).2.fresh) := by
  induction calls generalizing s with
  | nil => rfl
  | cons call calls ih => simp only [FreshScanner.run, Scanner.run, call_fresh, ih]

/-- In every run, of a scanner of all kinds or of here-documents only, the marks that are kept give
the mark that counts from the place reached on, and so the same answers as fresh searches: tokens,
their spans, and errors. -/
theorem run_eq_fresh_run (kinds : List MarkKind) (c : Cursor) (calls : List ScanCall) :
    let reached := ((ofKinds kinds c).run calls).2
    let freshly := (FreshScanner.ofKinds kinds c).run calls
    ((ofKinds kinds c).run calls).1 = freshly.1 ∧ reached.here = freshly.2.here ∧
    reached.pushed = freshly.2.pushed ∧
    reached.refreshed.earliest? = MarkKind.earliest? kinds reached.here ∧
    ∀ o, reached.refreshed.earliest? = some o ↔ IsNext kinds reached.here o := by
  intro reached freshly
  have hrun : freshly = (((ofKinds kinds c).run calls).1, reached.fresh) := by
    rw [← run_fresh, fresh_ofKinds]
  have hkinds : reached.kinds = kinds := by
    have hfreshly : freshly.2.kinds = kinds := FreshScanner.kinds_run _ calls
    rw [hrun] at hfreshly
    exact hfreshly
  have hearliest : reached.refreshed.earliest? = MarkKind.earliest? kinds reached.here := by
    rw [earliest?_refreshed, hkinds]
  refine ⟨by rw [hrun], by rw [hrun]; rfl, by rw [hrun]; rfl, hearliest, fun o => ?_⟩
  rw [hearliest, earliest?_eq_some_iff]

end Scanner

end TextTemplate
