import TextTemplate.Scan.Token

/-! Scanning goes from mark to mark. Of every kind the next mark is kept until the scanner has
passed it, so that no stretch of text is searched twice for one kind. -/

namespace TextTemplate

/-- What is known about the next mark of one kind. -/
inductive Pending where
  | unknown
  | found (o : Occurrence)
  | exhausted
  deriving DecidableEq, Repr

namespace Pending

def occurrence? : Pending → Option Occurrence
  | found o => some o
  | _ => none

/-- What a search from the place on finds. -/
def search (k : MarkKind) (c : Cursor) : Pending :=
  match k.find? c with
  | some o => found o
  | none => exhausted

/-- Searches again if nothing is known or the mark found lies behind the place. -/
def refresh (p : Pending) (k : MarkKind) (c : Cursor) : Pending :=
  match p with
  | unknown => search k c
  | found o => if o.start.offset < c.offset then search k c else found o
  | exhausted => exhausted

/-- What is known holds for the text from the place on: a mark found lies behind or is the next one,
and a kind that is exhausted has none. -/
def Agrees (k : MarkKind) (c : Cursor) : Pending → Prop
  | unknown => True
  | found o => o.start.offset < c.offset ∨ k.find? c = some o
  | exhausted => k.find? c = none

section
variable {k : MarkKind} {c d : Cursor} {p : Pending}

theorem agrees_search : (search k c).Agrees k c := by
  unfold search
  split
  · rename_i h
    exact .inr h
  · rename_i h
    exact h

theorem occurrence?_search : (search k c).occurrence? = k.find? c := by
  unfold search
  split <;> simp_all [occurrence?]

/-- Going on through the text makes nothing untrue that is known. -/
theorem Agrees.of_leads (hcd : c.Leads d) (h : p.Agrees k c) : p.Agrees k d := by
  cases p with
  | unknown => trivial
  | exhausted => exact MarkKind.find?_none_of_leads hcd h
  | found o =>
    by_cases hbehind : o.start.offset < d.offset
    · exact .inl hbehind
    · rcases h with h | h
      · have := hcd.offset_le
        exact .inl (by omega)
      · exact .inr (MarkKind.find?_of_leads hcd h (by omega))

theorem Agrees.refresh (h : p.Agrees k c) : (p.refresh k c).Agrees k c := by
  cases p with
  | unknown => exact agrees_search
  | exhausted => exact h
  | found o =>
    simp only [Pending.refresh]
    split
    · exact agrees_search
    · exact h

/-- A refreshed mark is the one that a search from the place on finds. -/
theorem Agrees.occurrence?_refresh (h : p.Agrees k c) :
    (p.refresh k c).occurrence? = k.find? c := by
  cases p with
  | unknown => exact occurrence?_search
  | exhausted => exact h.symm
  | found o =>
    simp only [Pending.refresh]
    split
    · exact occurrence?_search
    · rcases h with h | h
      · contradiction
      · exact h.symm

end

end Pending

/-- Reads a text token by token. It keeps the next mark of each kind that it looks for, and a token
that was put back. -/
structure Scanner where
  here : Cursor
  pending : List (MarkKind × Pending)
  pushed : Option Spanned
  agrees : ∀ kp ∈ pending, kp.2.Agrees kp.1 here

namespace Scanner

def ofKinds (kinds : List MarkKind) (c : Cursor) : Scanner where
  here := c
  pending := kinds.map (·, .unknown)
  pushed := none
  agrees kp h := by
    obtain ⟨k, _, rfl⟩ := List.mem_map.1 h
    trivial

/-- A scanner of the text from a place on. -/
def ofCursor (c : Cursor) : Scanner := ofKinds MarkKind.all c

def ofText (text : String) : Scanner := ofCursor (Cursor.start text)

/-- A scanner to which all but here-documents is text. -/
def inverted (text : String) : Scanner := ofKinds [.hereDocument] (Cursor.start text)

/-- A scanner of the bytes from `start` up to `stop`. -/
def within (text : String) (start stop : Nat) : Scanner :=
  let (before, rest) := Text.splitBytes start text.toList
  ofCursor ⟨Text.utf8Length before, (Text.splitBytes (stop - start) rest).1⟩

/-- The kinds of marks that the scanner looks for. -/
def kinds (s : Scanner) : List MarkKind := s.pending.map (·.1)

/-- The scanner with the next mark of every kind up to date. -/
def refreshed (s : Scanner) : Scanner :=
  { s with
    pending := s.pending.map fun (k, p) => (k, p.refresh k s.here)
    agrees := fun kp h => by
      obtain ⟨⟨k, p⟩, hp, rfl⟩ := List.mem_map.1 h
      exact (s.agrees _ hp).refresh }

/-- The earliest of the marks that are kept. -/
def earliest? (s : Scanner) : Option Occurrence :=
  Occurrence.first (s.pending.map (·.2.occurrence?))

/-- The scanner further on. -/
def goTo (s : Scanner) (d : Cursor) (h : s.here.Leads d) : Scanner :=
  { s with here := d, agrees := fun kp hkp => (s.agrees kp hkp).of_leads h }

@[simp] theorem refreshed_here (s : Scanner) : s.refreshed.here = s.here := rfl

@[simp] theorem refreshed_pushed (s : Scanner) : s.refreshed.pushed = s.pushed := rfl

@[simp] theorem refreshed_kinds (s : Scanner) : s.refreshed.kinds = s.kinds := by
  simp [refreshed, kinds, Function.comp_def]

section
variable (s : Scanner) (d : Cursor) (h : s.here.Leads d)

@[simp] theorem goTo_here : (s.goTo d h).here = d := rfl

@[simp] theorem goTo_kinds : (s.goTo d h).kinds = s.kinds := rfl

@[simp] theorem goTo_pushed : (s.goTo d h).pushed = s.pushed := rfl

end

/-- The mark that wins is the earliest of those that a search from here on finds, kind by kind. -/
theorem earliest?_refreshed (s : Scanner) :
    s.refreshed.earliest? = MarkKind.earliest? s.kinds s.here := by
  simp only [earliest?, MarkKind.earliest?, kinds, refreshed, List.map_map]
  congr 1
  apply List.map_congr_left
  intro kp h
  exact (s.agrees kp h).occurrence?_refresh

theorem ofPlace_refreshed_leads {s : Scanner} {t : Spanned} {d : Cursor} (hs : s.here.rest ≠ [])
    (h : Token.ofPlace s.here s.refreshed.earliest? = .ok (t, d)) :
    s.here.Leads d ∧ d.rest.length < s.here.rest.length := by
  refine Token.ofPlace_leads (fun o ho => ?_) hs h
  rw [earliest?_refreshed] at ho
  obtain ⟨k, _, hk⟩ := MarkKind.earliest?_eq_some ho
  exact ⟨k, hk⟩

/-- Reads the next token, of which there is none at the end. An error leaves the scanner where it
is. -/
def step (s : Scanner) : Except ScanError (Option Spanned) × Scanner :=
  match s.pushed with
  | some t => (.ok (some t), { s with pushed := none })
  | none =>
    if hs : s.here.rest = [] then (.ok none, s)
    else
      match h : Token.ofPlace s.here s.refreshed.earliest? with
      | .error e => (.error e, s.refreshed)
      | .ok (t, d) => (.ok (some t), s.refreshed.goTo d (ofPlace_refreshed_leads hs h).1)

theorem step_of_pushed {s : Scanner} {t : Spanned} (h : s.pushed = some t) :
    s.step = (.ok (some t), { s with pushed := none }) := by
  unfold step
  split <;> simp_all

section
variable {s : Scanner} {t : Spanned} {d : Cursor}

theorem step_of_end (hp : s.pushed = none) (hs : s.here.rest = []) : s.step = (.ok none, s) := by
  unfold step
  split <;> simp_all

theorem step_of_error {e : ScanError} (hp : s.pushed = none) (hs : s.here.rest ≠ [])
    (h : Token.ofPlace s.here (MarkKind.earliest? s.kinds s.here) = .error e) :
    s.step = (.error e, s.refreshed) := by
  rw [← earliest?_refreshed] at h
  unfold step
  split
  · simp_all
  · rw [dif_neg hs]
    split <;> simp_all

theorem step_of_ok (hp : s.pushed = none) (hs : s.here.rest ≠ [])
    (h : Token.ofPlace s.here (MarkKind.earliest? s.kinds s.here) = .ok (t, d)) :
    ∃ hd, s.step = (.ok (some t), s.refreshed.goTo d hd) := by
  rw [← earliest?_refreshed] at h
  refine ⟨(ofPlace_refreshed_leads hs h).1, ?_⟩
  unfold step
  split
  · simp_all
  · rw [dif_neg hs]
    split
    · simp_all
    · rename_i hplace
      rw [h] at hplace
      cases hplace
      rfl

end

/-- The next token, and the scanner behind it. -/
def next? (s : Scanner) : Except ScanError (Option (Spanned × Scanner)) :=
  s.step.1.map fun t => t.map (·, s.step.2)

/-- Puts a token back, to be the next one again. -/
def push (s : Scanner) (t : Spanned) : Scanner := { s with pushed := some t }

/-- A token that was put back is given, and all is as before. -/
theorem step_push {s : Scanner} (hp : s.pushed = none) (t : Spanned) :
    (s.push t).step = (.ok (some t), s) := by
  have hstep := step_of_pushed (s := s.push t) (t := t) rfl
  simp only [push, ← hp] at hstep ⊢
  exact hstep

/-- The number of tokens that may be left at most. -/
def left (s : Scanner) : Nat := s.here.rest.length + (if s.pushed.isSome then 1 else 0)

theorem left_push (s : Scanner) (t : Spanned) : (s.push t).left ≤ s.left + 1 := by
  simp only [left, push, Option.isSome_some, ↓reduceIte]
  omega

/-- All that a step can do: give back what was put back, end, fail where it is, or go on. -/
theorem step_cases (s : Scanner) :
    (∃ t, s.pushed = some t ∧ s.step = (.ok (some t), { s with pushed := none })) ∨
    (s.pushed = none ∧ s.here.rest = [] ∧ s.step = (.ok none, s)) ∨
    (∃ e, s.pushed = none ∧ Token.ofPlace s.here (MarkKind.earliest? s.kinds s.here) = .error e ∧
      s.step = (.error e, s.refreshed)) ∨
    (∃ t d hd, s.pushed = none ∧ s.here.rest ≠ [] ∧
      Token.ofPlace s.here (MarkKind.earliest? s.kinds s.here) = .ok (t, d) ∧
      s.step = (.ok (some t), s.refreshed.goTo d hd)) := by
  cases hp : s.pushed with
  | some t => exact .inl ⟨t, rfl, step_of_pushed hp⟩
  | none =>
    by_cases hs : s.here.rest = []
    · exact .inr (.inl ⟨rfl, hs, step_of_end hp hs⟩)
    · cases hplace : Token.ofPlace s.here (MarkKind.earliest? s.kinds s.here) with
      | error e => exact .inr (.inr (.inl ⟨e, rfl, rfl, step_of_error hp hs hplace⟩))
      | ok r =>
        obtain ⟨t, d⟩ := r
        obtain ⟨hd, hstep⟩ := step_of_ok hp hs hplace
        exact .inr (.inr (.inr ⟨t, d, hd, rfl, hs, rfl, hstep⟩))

theorem step_eq_some {s s' : Scanner} {t : Spanned} (h : s.step = (.ok (some t), s')) :
    (s.pushed = some t ∧ s' = { s with pushed := none }) ∨
    (s.pushed = none ∧ s.here.rest ≠ [] ∧ ∃ d hd,
      Token.ofPlace s.here (MarkKind.earliest? s.kinds s.here) = .ok (t, d) ∧
      s' = s.refreshed.goTo d hd) := by
  obtain ⟨u, hp, hstep⟩ | ⟨_, _, hstep⟩ | ⟨e, _, _, hstep⟩ | ⟨u, d, hd, hp, hs, hplace, hstep⟩ :=
    s.step_cases
  all_goals
    rw [hstep] at h
    cases h
  · exact .inl ⟨hp, rfl⟩
  · exact .inr ⟨hp, hs, d, hd, hplace, rfl⟩

/-- With nothing put back, a token is read where the scanner is. -/
theorem step_eq_some_of_unpushed {s s' : Scanner} {t : Spanned} (hp : s.pushed = none)
    (h : s.step = (.ok (some t), s')) :
    s.here.rest ≠ [] ∧ ∃ d hd,
      Token.ofPlace s.here (MarkKind.earliest? s.kinds s.here) = .ok (t, d) ∧
      s' = s.refreshed.goTo d hd := by
  obtain ⟨hput, _⟩ | ⟨_, hread⟩ := step_eq_some h
  · rw [hp] at hput
    cases hput
  · exact hread

theorem step_eq_none {s s' : Scanner} (h : s.step = (.ok none, s')) :
    s.pushed = none ∧ s.here.rest = [] := by
  obtain ⟨u, _, hstep⟩ | ⟨hp, hs, hstep⟩ | ⟨e, _, _, hstep⟩ | ⟨u, d, hd, _, _, _, hstep⟩ :=
    s.step_cases
  all_goals
    rw [hstep] at h
    cases h
  exact ⟨hp, hs⟩

theorem step_eq_error {s s' : Scanner} {e : ScanError} (h : s.step = (.error e, s')) :
    s.pushed = none ∧ Token.ofPlace s.here (MarkKind.earliest? s.kinds s.here) = .error e := by
  obtain ⟨u, _, hstep⟩ | ⟨_, _, hstep⟩ | ⟨e, hp, hplace, hstep⟩ | ⟨u, d, hd, _, _, _, hstep⟩ :=
    s.step_cases
  all_goals
    rw [hstep] at h
    cases h
  exact ⟨hp, hplace⟩

/-- At its end a text has no error. -/
theorem rest_ne_nil_of_step_error {s s' : Scanner} {e : ScanError} (h : s.step = (.error e, s')) :
    s.here.rest ≠ [] := by
  intro hend
  rw [step_of_end (step_eq_error h).1 hend] at h
  cases h

/-- A token that was read is no longer left. -/
theorem left_of_step {s s' : Scanner} {t : Spanned} (h : s.step = (.ok (some t), s')) :
    s'.left < s.left := by
  obtain ⟨hp, rfl⟩ | ⟨hp, hs, d, hd, hplace, rfl⟩ := step_eq_some h
  · simp [left, hp]
  · rw [← earliest?_refreshed] at hplace
    have := (ofPlace_refreshed_leads hs hplace).2
    simp only [left, goTo, refreshed, hp]
    omega

/-- The tokens that are left, up to the error that ends them or the end of the text. -/
def tokens (s : Scanner) : List Spanned × Option ScanError :=
  match _h : s.step with
  | (.error e, _) => ([], some e)
  | (.ok none, _) => ([], none)
  | (.ok (some t), s') =>
    let (ts, e) := tokens s'
    (t :: ts, e)
termination_by s.left
decreasing_by exact left_of_step _h

end Scanner

end TextTemplate
