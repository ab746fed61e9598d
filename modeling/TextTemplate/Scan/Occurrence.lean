import TextTemplate.Scan.Extent
import TextTemplate.Text.Cursor

namespace TextTemplate

/-- A mark where it stands. -/
structure Occurrence where
  start : Cursor
  stop : Cursor
  mark : Mark
  deriving DecidableEq, Repr

namespace MarkKind

/-- The mark of this kind that stands at a place. -/
def at? (k : MarkKind) (c : Cursor) : Option Occurrence :=
  (k.read? c.rest).map fun (mark, rest) => ⟨c, c.moveTo rest, mark⟩

/-- The first mark of this kind in a text that begins at the byte `offset`. -/
def findFrom? (k : MarkKind) (offset : Nat) : List Char → Option Occurrence
  | [] => none
  | c :: cs => (k.at? ⟨offset, c :: cs⟩).or (k.findFrom? (offset + c.utf8Size) cs)

def find? (k : MarkKind) (c : Cursor) : Option Occurrence := k.findFrom? c.offset c.rest

/-- A mark stands where it was looked for, and takes some of the text. -/
theorem at?_eq_some {k : MarkKind} {c : Cursor} {o : Occurrence} (h : k.at? c = some o) :
    o.start = c ∧ c.Leads o.stop ∧ o.stop.rest.length < c.rest.length := by
  obtain ⟨⟨m, rest⟩, hread, rfl⟩ := Option.map_eq_some_iff.1 h
  obtain ⟨taken, htaken⟩ := read?_eq_append hread
  refine ⟨rfl, Cursor.leads_moveTo (k.opening :: taken) htaken, ?_⟩
  rw [htaken]
  simp only [Cursor.moveTo, List.length_cons, List.length_append]
  omega

theorem find?_nil (k : MarkKind) (n : Nat) : k.find? ⟨n, []⟩ = none := rfl

theorem find?_cons (k : MarkKind) (n : Nat) (x : Char) (cs : List Char) :
    k.find? ⟨n, x :: cs⟩ = (k.at? ⟨n, x :: cs⟩).or (k.find? ⟨n + x.utf8Size, cs⟩) := rfl

/-- What a search finds lies ahead, and is what stands there. -/
theorem find?_eq_some {k : MarkKind} {c : Cursor} {o : Occurrence} (h : k.find? c = some o) :
    c.Leads o.start ∧ k.at? o.start = some o := by
  obtain ⟨n, cs⟩ := c
  induction cs generalizing n with
  | nil => cases h
  | cons x cs ih =>
    rw [find?_cons] at h
    cases hat : k.at? ⟨n, x :: cs⟩ with
    | some o' =>
      rw [hat] at h
      cases h
      obtain ⟨hstart, _⟩ := at?_eq_some hat
      rw [hstart]
      exact ⟨.refl _, hat⟩
    | none =>
      rw [hat] at h
      obtain ⟨hleads, ho⟩ := ih _ h
      exact ⟨(Cursor.Leads.tail n x cs).trans hleads, ho⟩

/-- A search finds no less than what stands at a place on its way. -/
theorem find?_of_at? {k : MarkKind} {c : Cursor} {o : Occurrence} (h : k.at? c = some o) :
    k.find? c = some o := by
  obtain ⟨n, cs⟩ := c
  cases cs with
  | nil =>
    obtain ⟨_, _, hlt⟩ := at?_eq_some h
    cases hlt
  | cons x cs => rw [find?_cons, h, Option.some_or]

/-- Going on to a place that is not behind the mark found, one finds it again. -/
theorem find?_of_leads {k : MarkKind} {c d : Cursor} {o : Occurrence} (hcd : c.Leads d)
    (h : k.find? c = some o) (hle : d.offset ≤ o.start.offset) : k.find? d = some o := by
  obtain ⟨n, cs⟩ := c
  induction cs generalizing n with
  | nil => cases h
  | cons x cs ih =>
    obtain rfl | hcd := hcd.eq_or_tail
    · exact h
    · rw [find?_cons] at h
      cases hat : k.at? ⟨n, x :: cs⟩ with
      | some o' =>
        rw [hat] at h
        cases h
        obtain ⟨hstart, _⟩ := at?_eq_some hat
        have := hcd.offset_le
        have := x.utf8Size_pos
        simp only [hstart] at *
        omega
      | none =>
        rw [hat] at h
        exact ih _ hcd h

/-- Where nothing was found, nothing is found further on. -/
theorem find?_none_of_leads {k : MarkKind} {c d : Cursor} (hcd : c.Leads d)
    (h : k.find? c = none) : k.find? d = none := by
  obtain ⟨n, cs⟩ := c
  induction cs generalizing n with
  | nil =>
    obtain ⟨passed, hrest, _⟩ := hcd
    obtain ⟨m, ds⟩ := d
    obtain rfl := (List.append_eq_nil_iff.1 hrest.symm).2
    rfl
  | cons x cs ih =>
    obtain rfl | hcd := hcd.eq_or_tail
    · exact h
    · rw [find?_cons, Option.or_eq_none_iff] at h
      exact ih _ hcd h.2

/-- No mark of the kind stands before the one that a search finds. -/
theorem at?_eq_none_of_find? {k : MarkKind} {c d : Cursor} {o : Occurrence}
    (h : k.find? c = some o) (hcd : c.Leads d) (hlt : d.offset < o.start.offset) :
    k.at? d = none := by
  cases hat : k.at? d with
  | none => rfl
  | some o' =>
    have hd := find?_of_leads hcd h (Nat.le_of_lt hlt)
    rw [find?_of_at? hat] at hd
    cases hd
    obtain ⟨hstart, _⟩ := at?_eq_some hat
    rw [hstart] at hlt
    exact absurd hlt (Nat.lt_irrefl _)

theorem at?_eq_none_of_find?_none {k : MarkKind} {c d : Cursor} (h : k.find? c = none)
    (hcd : c.Leads d) : k.at? d = none := by
  cases hat : k.at? d with
  | none => rfl
  | some o =>
    have hd := find?_none_of_leads hcd h
    rw [find?_of_at? hat] at hd
    cases hd

end MarkKind

/-- The occurrence that starts earlier; of two that start at one place, the first. -/
def Occurrence.earlier : Option Occurrence → Option Occurrence → Option Occurrence
  | some a, some b => if b.start.offset < a.start.offset then some b else some a
  | none, b => b
  | a, none => a

namespace Occurrence

/-- The earliest of occurrences, any of which may be missing. -/
def first : List (Option Occurrence) → Option Occurrence
  | [] => none
  | o :: os => earlier o (first os)

theorem first_eq_none {os : List (Option Occurrence)} :
    first os = none ↔ ∀ o ∈ os, o = none := by
  induction os with
  | nil => simp [first]
  | cons x os ih =>
    cases x with
    | none => simp [first, earlier, ih]
    | some a =>
      cases h : first os with
      | none => simp [first, earlier, h]
      | some b =>
        simp only [first, h, earlier]
        split <;> simp

/-- No occurrence starts before the first one, and none that is listed before it starts where it
does. -/
theorem first_eq_some {os : List (Option Occurrence)} {o : Occurrence} (h : first os = some o) :
    ∃ before after, os = before ++ some o :: after ∧
      (∀ a, some a ∈ before → o.start.offset < a.start.offset) ∧
      (∀ a, some a ∈ after → o.start.offset ≤ a.start.offset) := by
  induction os generalizing o with
  | nil => cases h
  | cons x os ih =>
    cases x with
    | none =>
      simp only [first, earlier] at h
      obtain ⟨before, after, rfl, hb, ha⟩ := ih h
      exact ⟨none :: before, after, rfl, by simpa using hb, ha⟩
    | some a =>
      cases hfirst : first os with
      | none =>
        simp only [first, hfirst, earlier, Option.some.injEq] at h
        subst h
        refine ⟨[], os, rfl, by simp, fun b hb => ?_⟩
        cases first_eq_none.1 hfirst _ hb
      | some b =>
        obtain ⟨before, after, rfl, hb, ha⟩ := ih hfirst
        simp only [first, hfirst, earlier] at h
        split at h
        · rename_i hlt
          cases h
          refine ⟨some a :: before, after, rfl, fun a' ha' => ?_, ha⟩
          rcases List.mem_cons.1 ha' with h | h
          · cases h
            exact hlt
          · exact hb a' h
        · rename_i hle
          cases h
          refine ⟨[], before ++ some b :: after, rfl, by simp, fun a' ha' => ?_⟩
          simp only [List.mem_append, List.mem_cons, Option.some.injEq] at ha'
          rcases ha' with h | rfl | h
          · have := hb a' h
            omega
          · omega
          · have := ha a' h
            omega

end Occurrence

namespace MarkKind

/-- The earliest mark of any of the kinds. -/
def earliest? (kinds : List MarkKind) (c : Cursor) : Option Occurrence :=
  Occurrence.first (kinds.map (·.find? c))

theorem earliest?_eq_some {kinds : List MarkKind} {c : Cursor} {o : Occurrence}
    (h : earliest? kinds c = some o) : ∃ k ∈ kinds, k.find? c = some o := by
  obtain ⟨before, after, hos, _⟩ := Occurrence.first_eq_some h
  have hmem : some o ∈ kinds.map (·.find? c) := by simp [hos]
  exact List.mem_map.1 hmem

end MarkKind

end TextTemplate
