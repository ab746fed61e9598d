import TextTemplate.Text.Utf8

namespace TextTemplate

/-- A place in a text: the number of bytes before it, and the characters from it on. -/
structure Cursor where
  offset : Nat
  rest : List Char
  deriving DecidableEq, Repr

namespace Cursor

def start (text : String) : Cursor := ⟨0, text.toList⟩

/-- The place where only `rest` is left. -/
def moveTo (c : Cursor) (rest : List Char) : Cursor :=
  ⟨c.offset + (Text.utf8Length c.rest - Text.utf8Length rest), rest⟩

/-- The characters from `c` up to the byte `stop`. -/
def upTo (c : Cursor) (stop : Nat) : List Char := (Text.splitBytes (stop - c.offset) c.rest).1

/-- The second place is one of the same text, where the first is or after it. -/
def Leads (c d : Cursor) : Prop :=
  ∃ passed, c.rest = passed ++ d.rest ∧ d.offset = c.offset + Text.utf8Length passed

namespace Leads
variable {c d e : Cursor}

theorem refl (c : Cursor) : c.Leads c := ⟨[], rfl, rfl⟩

theorem trans (hcd : c.Leads d) (hde : d.Leads e) : c.Leads e := by
  obtain ⟨a, hc, hd⟩ := hcd
  obtain ⟨b, hd', he⟩ := hde
  refine ⟨a ++ b, ?_, ?_⟩
  · rw [hc, hd', List.append_assoc]
  · rw [he, hd, Text.utf8Length_append, Nat.add_assoc]

theorem offset_le (h : c.Leads d) : c.offset ≤ d.offset := by
  obtain ⟨_, _, hd⟩ := h
  omega

theorem length_le (h : c.Leads d) : d.rest.length ≤ c.rest.length := by
  obtain ⟨passed, hc, _⟩ := h
  rw [hc, List.length_append]
  omega

/-- Places of one text are told apart by their offsets. -/
theorem eq_of_offset_le (h : c.Leads d) (hle : d.offset ≤ c.offset) : d = c := by
  obtain ⟨passed, hc, hd⟩ := h
  cases passed with
  | nil =>
    cases c
    cases d
    simp_all [Text.utf8Length]
  | cons x passed =>
    have := Text.utf8Length_pos (List.cons_ne_nil x passed)
    omega

theorem offset_lt (h : c.Leads d) (hlt : d.rest.length < c.rest.length) : c.offset < d.offset := by
  apply Nat.lt_of_not_le
  intro hle
  rw [h.eq_of_offset_le hle] at hlt
  omega

theorem length_lt (h : c.Leads d) (hlt : c.offset < d.offset) : d.rest.length < c.rest.length := by
  obtain ⟨passed, hc, hd⟩ := h
  cases passed with
  | nil => simp [hd, Text.utf8Length] at hlt
  | cons x passed =>
    rw [hc, List.length_append, List.length_cons]
    omega

theorem tail (n : Nat) (x : Char) (cs : List Char) :
    Leads ⟨n, x :: cs⟩ ⟨n + x.utf8Size, cs⟩ := ⟨[x], rfl, rfl⟩

/-- A place further on is the same place or lies behind the next character. -/
theorem eq_or_tail {n : Nat} {x : Char} {cs : List Char} (h : Leads ⟨n, x :: cs⟩ d) :
    d = ⟨n, x :: cs⟩ ∨ Leads ⟨n + x.utf8Size, cs⟩ d := by
  obtain ⟨passed, hrest, hoffset⟩ := h
  cases passed with
  | nil =>
    left
    exact eq_of_offset_le ⟨[], hrest, hoffset⟩ (by simp [hoffset, Text.utf8Length])
  | cons y passed =>
    right
    simp only [List.cons_append, List.cons.injEq] at hrest
    obtain ⟨rfl, hrest⟩ := hrest
    refine ⟨passed, hrest, ?_⟩
    simp only [hoffset, Text.utf8Length]
    omega

/-- Of two places ahead the one with the smaller offset leads to the other. -/
theorem of_offset_le (hcd : c.Leads d) (hce : c.Leads e) (hle : d.offset ≤ e.offset) :
    d.Leads e := by
  obtain ⟨n, cs⟩ := c
  induction cs generalizing n with
  | nil =>
    obtain ⟨passed, hrest, hoffset⟩ := hcd
    obtain ⟨rfl, hd⟩ := List.append_eq_nil_iff.1 hrest.symm
    obtain rfl : d = ⟨n, []⟩ :=
      eq_of_offset_le ⟨[], by rw [hd]; rfl, hoffset⟩ (by simp [hoffset, Text.utf8Length])
    exact hce
  | cons x cs ih =>
    obtain rfl | hcd := hcd.eq_or_tail
    · exact hce
    · obtain rfl | hce := hce.eq_or_tail
      · have hd := hcd.offset_le
        have := x.utf8Size_pos
        simp only at hd hle
        omega
      · exact ih _ hcd hce

end Leads

theorem moveTo_append (n : Nat) (passed rest : List Char) :
    moveTo ⟨n, passed ++ rest⟩ rest = ⟨n + Text.utf8Length passed, rest⟩ := by
  simp only [moveTo, Text.utf8Length_append, mk.injEq, and_true]
  omega

theorem leads_moveTo {c : Cursor} {rest : List Char} (passed : List Char)
    (h : c.rest = passed ++ rest) :
    c.Leads (c.moveTo rest) := by
  obtain ⟨n, cs⟩ := c
  simp only at h
  subst h
  exact ⟨passed, rfl, by rw [moveTo_append]⟩

theorem upTo_of_leads {c d : Cursor} (h : c.Leads d) : c.rest = c.upTo d.offset ++ d.rest := by
  obtain ⟨passed, hc, hd⟩ := h
  have hcount : d.offset - c.offset = Text.utf8Length passed := by omega
  rw [upTo, hcount, hc, Text.splitBytes_append]

end Cursor

end TextTemplate
