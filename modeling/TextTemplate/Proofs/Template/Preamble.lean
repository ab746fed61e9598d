import TextTemplate.Proofs.Parameter.Written
import TextTemplate.Template.Preamble

/-! Where a preamble stands in a text, and what may be written around a text, or doubled in it,
without taking one away or making one. -/

namespace TextTemplate

/-- A parameter is read up to the first bracket that closes it. -/
theorem Mark.splitBracket?_cases {quoted : Bool} {cs a b : List Char}
    (h : splitBracket? quoted cs = some (a, b)) :
    if quoted then ∃ text more, '\'' ∉ text ∧ a = text ++ '\'' :: more ∧ Enclosed more
    else Enclosed a := by
  induction cs generalizing quoted a with
  | nil => cases h
  | cons c cs ih =>
    rw [splitBracket?] at h
    split at h
    · rename_i hbracket
      cases h
      rw [if_neg (by simpa using hbracket.2)]
      exact .nil
    · rename_i hbracket
      obtain ⟨⟨a', b'⟩, hread, heq⟩ := Option.map_eq_some_iff.1 h
      cases heq
      have hrest := ih hread
      by_cases hquote : c = '\''
      · subst hquote
        cases quoted with
        | false =>
          obtain ⟨text, more, hinside, rfl, hmore⟩ := hrest
          exact .quoted hinside hmore
        | true => exact ⟨[], a', by simp, rfl, hrest⟩
      · rw [if_neg hquote] at hrest
        cases quoted with
        | false => exact .plain (by simpa using hbracket) hquote hrest
        | true =>
          obtain ⟨text, more, hinside, rfl, hmore⟩ := hrest
          exact ⟨c :: text, more, by simp [hinside, Ne.symm hquote], rfl, hmore⟩

theorem Mark.readNamed?_eq_some {name : String} {cs trimmed rest : List Char}
    (h : readNamed? name cs = some (trimmed, rest)) :
    ∃ param, Enclosed param ∧ (param ++ [']']).head?.any Text.isWordChar = false ∧
      cs = name.toList ++ (param ++ ']' :: rest) := by
  obtain ⟨ds, hlead, h⟩ := Option.bind_eq_some_iff.1 h
  split at h
  · cases h
  · rename_i hword
    obtain ⟨⟨param, rest'⟩, hsplit, heq⟩ := Option.map_eq_some_iff.1 h
    cases heq
    have hds := splitBracket?_eq_append hsplit
    refine ⟨param, splitBracket?_cases hsplit, ?_, ?_⟩
    · rw [hds] at hword
      cases param <;> simpa using hword
    · rw [Text.dropLead?_eq_some.1 hlead, hds]

theorem Mark.isSome_readNamed?_iff {name : String} {cs : List Char} :
    (readNamed? name cs).isSome ↔ ∃ param rest, Enclosed param ∧
      (param ++ [']']).head?.any Text.isWordChar = false ∧
      cs = name.toList ++ (param ++ ']' :: rest) := by
  constructor
  · intro h
    obtain ⟨⟨trimmed, rest⟩, h⟩ := Option.isSome_iff_exists.1 h
    obtain ⟨param, hparam, hword, hcs⟩ := readNamed?_eq_some h
    exact ⟨param, rest, hparam, hword, hcs⟩
  · rintro ⟨param, rest, hparam, hword, rfl⟩
    rw [readNamed?_append name rest hword hparam]
    rfl

namespace Preamble

/-- A preamble as it stands in a text, with the mark that it is to be ignored or without. -/
def IsDirective (d : List Char) : Prop :=
  ∃ (ignored : Bool) (param : List Char), Mark.Enclosed param ∧
    (param ++ [']']).head?.any Text.isWordChar = false ∧
    d = '[' :: ((if ignored then ['!'] else []) ++ (name.toList ++ (param ++ [']'])))

theorem isSome_read?_iff {cs : List Char} :
    (read? cs).isSome ↔ ∃ d, IsDirective d ∧ d <+: cs := by
  constructor
  · intro h
    unfold read? at h
    split at h
    · rw [Option.isSome_map, Mark.isSome_readNamed?_iff] at h
      obtain ⟨param, rest, hparam, hword, rfl⟩ := h
      exact ⟨_, ⟨true, param, hparam, hword, rfl⟩, rest, by simp⟩
    · rw [Option.isSome_map, Mark.isSome_readNamed?_iff] at h
      obtain ⟨param, rest, hparam, hword, rfl⟩ := h
      exact ⟨_, ⟨false, param, hparam, hword, rfl⟩, rest, by simp⟩
    · cases h
  · rintro ⟨d, ⟨ignored, param, hparam, hword, rfl⟩, rest, rfl⟩
    have hnamed : (Mark.readNamed? name (name.toList ++ (param ++ ']' :: rest))).isSome :=
      Mark.isSome_readNamed?_iff.2 ⟨param, rest, hparam, hword, rfl⟩
    cases ignored with
    | false =>
      have hread : read? ('[' :: (name.toList ++ (param ++ ']' :: rest))) =
        (Mark.readNamed? name (name.toList ++ (param ++ ']' :: rest))).map _ := rfl
      have hsome := (congrArg Option.isSome hread).trans (Option.isSome_map.trans hnamed)
      simpa using hsome
    | true =>
      have hread : read? ('[' :: '!' :: (name.toList ++ (param ++ ']' :: rest))) =
        (Mark.readNamed? name (name.toList ++ (param ++ ']' :: rest))).map _ := rfl
      have hsome := (congrArg Option.isSome hread).trans (Option.isSome_map.trans hnamed)
      simpa using hsome

/-- A preamble is found just where one stands in the text. -/
theorem find?_eq_none_iff {cs : List Char} :
    find? cs = .none ↔ ∀ d, IsDirective d → ¬ d <:+: cs := by
  induction cs with
  | nil =>
    constructor
    · rintro _ d ⟨ignored, param, _, _, rfl⟩ hinside
      simp at hinside
    · intro _
      rfl
  | cons c cs ih =>
    have hread : read? (c :: cs) = .none ↔ ∀ d, IsDirective d → ¬ d <+: c :: cs := by
      rw [← Option.not_isSome_iff_eq_none, isSome_read?_iff]
      simp
    have hcons : find? (c :: cs) = .none ↔ read? (c :: cs) = .none ∧ find? cs = .none := by
      rw [find?]
      cases read? (c :: cs) <;> simp
    rw [hcons, hread, ih]
    simp only [List.infix_cons_iff, not_or]
    constructor
    · intro h d hd
      exact ⟨h.1 d hd, h.2 d hd⟩
    · intro h
      exact ⟨fun d hd => (h d hd).1, fun d hd => (h d hd).2⟩

/-- Text without a closing bracket completes no preamble. -/
theorem find?_append_of_not_mem {cs tail : List Char} (h : find? cs = .none) (htail : ']' ∉ tail) :
    find? (cs ++ tail) = .none := by
  rw [find?_eq_none_iff] at h ⊢
  rintro d hd ⟨before, after, heq⟩
  refine h d hd ?_
  obtain ⟨opened, hopened⟩ : ∃ opened, d = opened ++ [']'] := by
    obtain ⟨ignored, param, _, _, rfl⟩ := hd
    exact ⟨'[' :: ((if ignored then ['!'] else []) ++ (name.toList ++ param)), by simp⟩
  rcases List.append_eq_append_iff.1 heq with ⟨m, hcs, _⟩ | ⟨m, hbefore, hm⟩
  · exact ⟨before, m, hcs.symm⟩
  · -- The preamble would reach into the tail, and so end there.
    rcases List.eq_nil_or_concat m with rfl | ⟨m', c, rfl⟩
    · exact ⟨before, [], by simpa using hbefore⟩
    · rw [hopened, ← List.append_assoc, List.concat_eq_append, ← List.append_assoc] at hbefore
      obtain ⟨_, hlast⟩ := List.append_inj' hbefore rfl
      refine absurd ?_ htail
      rw [hm, ← (List.cons.inj hlast).1]
      simp

/-- No preamble comes about around a text without one, if no bracket opens before it and none closes
after it. -/
theorem find?_around {lead body tail : List Char} (hlead : '[' ∉ lead) (hbody : find? body = .none)
    (htail : ']' ∉ tail) : find? (lead ++ (body ++ tail)) = .none :=
  find?_append hlead (find?_append_of_not_mem hbody htail)

/-- A text in which quotes are doubled holds a preamble wherever the text itself does. -/
theorem find?_of_doubled {cs tail : List Char}
    (h : find? (ParameterToken.doubled cs ++ tail) = .none) : find? cs = .none := by
  rw [find?_eq_none_iff] at h ⊢
  rintro d ⟨ignored, param, _, hword, rfl⟩ ⟨before, after, rfl⟩
  -- In the doubled text every bracket stands outside of quotes, so the first one counts.
  obtain ⟨param', rest, hparam, hfirst⟩ :=
    List.eq_append_cons_of_mem (List.mem_concat_self : ']' ∈ param ++ [']'])
  have hlead : '\'' ∉ '[' :: ((if ignored then ['!'] else []) ++ name.toList) := by
    cases ignored <;> decide
  refine h ('[' :: ((if ignored then ['!'] else []) ++
    (name.toList ++ (ParameterToken.doubled param' ++ [']'])))) ?_ ?_
  · refine ⟨ignored, _, ParameterToken.enclosed_doubled hfirst, ?_, rfl⟩
    rw [ParameterToken.head?_doubled_append]
    rw [hparam] at hword
    cases param' <;> simpa using hword
  · have hdoubled := ParameterToken.doubled_eq_self hlead
    have hbracket : ParameterToken.doubled (']' :: rest) = ']' :: ParameterToken.doubled rest := rfl
    refine ⟨ParameterToken.doubled before,
      ParameterToken.doubled rest ++ (ParameterToken.doubled after ++ tail), ?_⟩
    have hsplit (more : List Char) :
        '[' :: ((if ignored then ['!'] else []) ++ (name.toList ++ more)) =
          ('[' :: ((if ignored then ['!'] else []) ++ name.toList)) ++ more := by simp
    simp only [hparam, hsplit, ParameterToken.doubled_append, hdoubled, hbracket]
    simp

end Preamble

/-- A preamble that cannot be read makes the whole text faulty, from where it stands. -/
theorem Prepared.ofText_of_fault {text : String} {found : Preamble.Found} {fault : PreambleFault}
    (hfound : Preamble.find? text.toList = some found) (hignored : found.ignored = false)
    (hparameter : Preamble.ofParameter found.param = .error fault) :
    ofText text = .error (fault, Text.utf8Length found.before) := by
  simp only [ofText, hfound, hignored, Bool.false_eq_true, ↓reduceIte, hparameter]

end TextTemplate
