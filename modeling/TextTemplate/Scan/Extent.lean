import TextTemplate.Scan.Mark

/-! What a mark takes of a text: its opening character, what the reader went over, and nothing of
the text that is left. -/

namespace TextTemplate

namespace Mark

theorem readStyle_eq_append (cs : List Char) : ∃ lead, cs = lead ++ (readStyle cs).2 := by
  simp only [readStyle]
  split
  · rename_i rest hrest
    split
    · refine ⟨cs.takeWhile isStyleChar ++ [':'], ?_⟩
      rw [List.append_assoc, List.singleton_append, ← hrest, List.takeWhile_append_dropWhile]
    · exact ⟨[], rfl⟩
  · exact ⟨[], rfl⟩

theorem readBraced_eq_append {cs inner rest : List Char} (h : readBraced cs = some (inner, rest)) :
    cs = inner ++ '}' :: rest := by
  obtain ⟨hsplit, _⟩ := Option.filter_eq_some_iff.1 h
  obtain ⟨c, hc, _, rfl⟩ := Text.splitFirst?_eq_some.1 hsplit
  rw [of_decide_eq_true hc]

theorem splitBracket?_eq_append {quoted : Bool} {cs a b : List Char}
    (h : splitBracket? quoted cs = some (a, b)) : cs = a ++ ']' :: b := by
  induction cs generalizing quoted a with
  | nil => cases h
  | cons c cs ih =>
    simp only [splitBracket?] at h
    split at h
    · rename_i hc
      cases h
      rw [hc.1, List.nil_append]
    · obtain ⟨⟨a', b'⟩, h', heq⟩ := Option.map_eq_some_iff.1 h
      cases heq
      rw [ih h', List.cons_append]

theorem readNamed?_eq_append {name : String} {cs param rest : List Char}
    (h : readNamed? name cs = some (param, rest)) : ∃ taken, cs = taken ++ rest := by
  obtain ⟨cs', hlead, h⟩ := Option.bind_eq_some_iff.1 h
  split at h
  · cases h
  · obtain ⟨⟨a, b⟩, hsplit, heq⟩ := Option.map_eq_some_iff.1 h
    cases heq
    refine ⟨name.toList ++ (a ++ [']']), ?_⟩
    rw [Text.dropLead?_eq_some.1 hlead, splitBracket?_eq_append hsplit]
    simp

end Mark

namespace MarkKind

/-- The character that a mark of this kind begins with. -/
def opening : MarkKind → Char
  | directiveComment | resource | directive => '['
  | valueComment | hereDocument | value => '{'

section
variable {cs rest : List Char} {m : Mark}

theorem readComment_eq_append {opening closing : List Char} {ofValue : Bool}
    (h : Mark.readComment opening ofValue closing cs = some (m, rest)) :
    ∃ taken, cs = opening ++ (taken ++ rest) := by
  obtain ⟨cs', hlead, h⟩ := Option.bind_eq_some_iff.1 h
  obtain ⟨⟨a, b⟩, hsplit, heq⟩ := Option.map_eq_some_iff.1 h
  cases heq
  refine ⟨a ++ closing, ?_⟩
  rw [Text.dropLead?_eq_some.1 hlead, Text.splitAtText?_eq_append hsplit, List.append_assoc]

theorem readBraced_after_style {inner : List Char}
    (h : Mark.readBraced (Mark.readStyle cs).2 = some (inner, rest)) :
    ∃ taken, cs = taken ++ rest := by
  obtain ⟨lead, hlead⟩ := Mark.readStyle_eq_append cs
  refine ⟨lead ++ (inner ++ ['}']), ?_⟩
  rw [Mark.readBraced_eq_append h] at hlead
  simpa using hlead

theorem readValue_eq_append (h : Mark.readValue cs = some (m, rest)) :
    ∃ taken, cs = '{' :: (taken ++ rest) := by
  unfold Mark.readValue at h
  split at h
  · obtain ⟨⟨inner, r⟩, hinner, h⟩ := Option.bind_eq_some_iff.1 h
    obtain rfl : r = rest := by
      simp only at h
      split at h
      all_goals
        simp only [Option.ite_none_right_eq_some, Option.some.injEq, Prod.mk.injEq] at h
        exact h.2.2
    obtain ⟨taken, rfl⟩ := readBraced_after_style hinner
    exact ⟨taken, rfl⟩
  · cases h

theorem readHereDocument_eq_append (h : Mark.readHereDocument cs = some (m, rest)) :
    ∃ taken, cs = '{' :: (taken ++ rest) := by
  unfold Mark.readHereDocument at h
  split at h
  · obtain ⟨⟨inner, r⟩, hinner, h⟩ := Option.bind_eq_some_iff.1 h
    obtain ⟨_, _, h⟩ := Option.bind_eq_some_iff.1 h
    obtain ⟨_, _, h⟩ := Option.bind_eq_some_iff.1 h
    obtain rfl : r = rest := by
      simp only [Option.ite_none_right_eq_some, Option.some.injEq, Prod.mk.injEq] at h
      exact h.2.2
    obtain ⟨taken, rfl⟩ := readBraced_after_style hinner
    exact ⟨taken, rfl⟩
  · cases h

theorem readResource_eq_append (h : Mark.readResource cs = some (m, rest)) :
    ∃ taken, cs = '[' :: (taken ++ rest) := by
  obtain ⟨cs', hlead, h⟩ := Option.bind_eq_some_iff.1 h
  obtain ⟨⟨inner, r⟩, hinner, h⟩ := Option.bind_eq_some_iff.1 h
  obtain rfl : r = rest := by
    simp only at h
    split at h
    all_goals
      simp only [Option.ite_none_right_eq_some, Option.some.injEq, Prod.mk.injEq] at h
      exact h.2.2
  refine ⟨'{' :: (inner ++ ['}', ']']), ?_⟩
  rw [Text.dropLead?_eq_some.1 hlead, Text.splitAtText?_eq_append hinner]
  simp

theorem readDirective_eq_append (h : Mark.readDirective cs = some (m, rest)) :
    ∃ taken, cs = '[' :: (taken ++ rest) := by
  unfold Mark.readDirective at h
  split at h
  · obtain ⟨name, _, h⟩ := List.exists_of_findSome?_eq_some h
    obtain ⟨⟨param, r⟩, hread, heq⟩ := Option.map_eq_some_iff.1 h
    cases heq
    obtain ⟨taken, rfl⟩ := Mark.readNamed?_eq_append hread
    exact ⟨taken, rfl⟩
  · cases h

/-- A mark takes at least its opening character, and what it leaves is the end of the text. -/
theorem read?_eq_append {k : MarkKind} (h : k.read? cs = some (m, rest)) :
    ∃ taken, cs = k.opening :: (taken ++ rest) := by
  cases k with
  | directiveComment | valueComment =>
    obtain ⟨taken, rfl⟩ := readComment_eq_append h
    exact ⟨'*' :: taken, rfl⟩
  | hereDocument => exact readHereDocument_eq_append h
  | value => exact readValue_eq_append h
  | resource => exact readResource_eq_append h
  | directive => exact readDirective_eq_append h

end

end MarkKind

end TextTemplate
