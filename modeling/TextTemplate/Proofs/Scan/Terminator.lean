import TextTemplate.Scan.Token

/-! The body of a here-document is all that precedes the first terminator of its marker. -/

namespace TextTemplate.Token

/-- The marker in braces, with blanks around it or not. -/
def IsTerminator (marker t : List Char) : Prop :=
  ∃ a b, (∀ c ∈ a, Text.isBlank c = true) ∧ (∀ c ∈ b, Text.isBlank c = true) ∧
    t = '{' :: (a ++ (marker ++ (b ++ ['}'])))

/-- A terminator of the marker stands somewhere in the text. -/
def HasTerminator (marker cs : List Char) : Prop := ∃ t, IsTerminator marker t ∧ t <:+: cs

variable {marker : List Char}

theorem IsTerminator.eq_cons {t : List Char} (hmarker : Text.isName marker = true)
    (h : IsTerminator marker t) : ∃ rest, t = '{' :: rest ∧ '{' ∉ rest := by
  obtain ⟨a, b, ha, hb, rfl⟩ := h
  refine ⟨_, rfl, fun hmem => ?_⟩
  simp only [List.mem_append, List.mem_singleton] at hmem
  rcases hmem with hmem | hmem | hmem | hmem
  · exact absurd (ha _ hmem) (by decide)
  · exact absurd (Text.isNameChar_of_mem hmarker hmem) (by decide)
  · exact absurd (hb _ hmem) (by decide)
  · exact absurd hmem (by decide)

theorem readTerminator?_eq_some_iff {cs rest : List Char} (hmarker : Text.isName marker = true) :
    readTerminator? marker cs = some rest ↔ ∃ t, IsTerminator marker t ∧ cs = t ++ rest := by
  constructor
  · intro h
    unfold readTerminator? at h
    split at h
    · rename_i cs
      obtain ⟨ds, hread, hclosing⟩ := Option.bind_eq_some_iff.1 h
      obtain ⟨a, ha, hcs⟩ := Text.trimStart_eq_append cs
      obtain ⟨b, hb, hds⟩ := Text.trimStart_eq_append ds
      rw [Text.dropLead?_eq_some.1 hread] at hcs
      rw [Text.dropLead?_eq_some.1 hclosing] at hds
      refine ⟨_, ⟨a, b, ha, hb, rfl⟩, ?_⟩
      rw [hcs, hds]
      simp
    · cases h
  · rintro ⟨t, ⟨a, b, ha, hb, rfl⟩, rfl⟩
    have hhead : (marker ++ (b ++ '}' :: rest)).head?.any Text.isBlank = false := by
      cases marker with
      | nil => simp [Text.isName] at hmarker
      | cons c marker =>
        have hc := Text.isBlank_of_isNameChar (Text.isNameChar_of_mem hmarker List.mem_cons_self)
        simpa using hc
    have hread : Text.dropLead? marker (marker ++ (b ++ '}' :: rest)) = some (b ++ '}' :: rest) :=
      Text.dropLead?_eq_some.2 rfl
    have hend : Text.trimStart (b ++ '}' :: rest) = '}' :: rest :=
      Text.trimStart_append hb (by rfl)
    have hclosing : Text.dropLead? ['}'] ('}' :: rest) = some rest := Text.dropLead?_eq_some.2 rfl
    simp only [List.cons_append, List.append_assoc, List.nil_append, readTerminator?,
      Text.trimStart_append ha hhead, hread, Option.bind_some, hend, hclosing]

theorem readTerminator?_isSome_iff {cs : List Char} (hmarker : Text.isName marker = true) :
    (readTerminator? marker cs).isSome ↔ ∃ t, IsTerminator marker t ∧ t <+: cs := by
  simp only [Option.isSome_iff_exists, readTerminator?_eq_some_iff hmarker, List.IsPrefix,
    eq_comm (a := cs)]
  constructor
  · rintro ⟨rest, t, ht, heq⟩
    exact ⟨t, ht, rest, heq⟩
  · rintro ⟨t, ht, rest, heq⟩
    exact ⟨rest, t, ht, heq⟩

theorem hasTerminator_cons {c : Char} {cs : List Char} :
    HasTerminator marker (c :: cs) ↔
      (∃ t, IsTerminator marker t ∧ t <+: c :: cs) ∨ HasTerminator marker cs := by
  simp only [HasTerminator, List.infix_cons_iff, and_or_left, exists_or]

/-- The search for a terminator finds one just where there is one. -/
theorem splitTerminator?_isSome_iff {cs : List Char} (hmarker : Text.isName marker = true) :
    (splitTerminator? marker cs).isSome ↔ HasTerminator marker cs := by
  induction cs with
  | nil =>
    refine ⟨nofun, ?_⟩
    rintro ⟨t, ⟨a, b, _, _, rfl⟩, hinfix⟩
    simp at hinfix
  | cons c cs ih =>
    rw [hasTerminator_cons, ← ih, ← readTerminator?_isSome_iff hmarker, splitTerminator?]
    cases readTerminator? marker (c :: cs) <;> simp

/-- No terminator begins in text that has none: it would run into the one that follows, and so hold
a second brace. -/
theorem readTerminator?_eq_none {c : Char} {body t : List Char} (rest : List Char)
    (hmarker : Text.isName marker = true) (hbody : ¬ HasTerminator marker (c :: body))
    (ht : IsTerminator marker t) : readTerminator? marker (c :: (body ++ (t ++ rest))) = none := by
  cases hread : readTerminator? marker (c :: (body ++ (t ++ rest))) with
  | none => rfl
  | some r =>
    exfalso
    obtain ⟨u, hu, heq⟩ := (readTerminator?_eq_some_iff hmarker).1 hread
    rw [← List.cons_append] at heq
    rcases List.append_eq_append_iff.1 heq with ⟨m, hum, hm⟩ | ⟨m, hm, _⟩
    · obtain ⟨us, rfl, hbrace⟩ := hu.eq_cons hmarker
      obtain ⟨ts, rfl, _⟩ := ht.eq_cons hmarker
      cases m with
      | nil =>
        rw [List.append_nil] at hum
        exact hbody ⟨_, hu, hum ▸ List.infix_rfl⟩
      | cons x m =>
        obtain ⟨rfl, _⟩ := List.cons_eq_cons.1 hm
        obtain ⟨_, rfl⟩ := List.cons_eq_cons.1 hum
        simp at hbrace
    · exact hbody ⟨u, hu, hm ▸ (List.prefix_append u m).isInfix⟩

/-- The body goes up to the first terminator. -/
theorem splitTerminator?_append {body t : List Char} (rest : List Char)
    (hmarker : Text.isName marker = true) (hbody : ¬ HasTerminator marker body)
    (ht : IsTerminator marker t) :
    splitTerminator? marker (body ++ (t ++ rest)) = some (body, rest) := by
  induction body with
  | nil =>
    have hread : readTerminator? marker (t ++ rest) = some rest :=
      (readTerminator?_eq_some_iff hmarker).2 ⟨t, ht, rfl⟩
    obtain ⟨ts, rfl, _⟩ := ht.eq_cons hmarker
    simp only [List.nil_append, List.cons_append] at hread ⊢
    rw [splitTerminator?, hread]
  | cons c body ih =>
    rw [List.cons_append, splitTerminator?, readTerminator?_eq_none rest hmarker hbody ht,
      ih fun h => hbody (hasTerminator_cons.2 (.inr h))]
    rfl

end TextTemplate.Token
