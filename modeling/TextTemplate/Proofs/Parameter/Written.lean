import TextTemplate.Parameter.Token
import TextTemplate.Proofs.Scan.Marks

/-! Tokens that are written out, with gaps between them, are read back. -/

namespace TextTemplate.ParameterToken

/-- The text with every quote in it written twice. -/
def doubled (cs : List Char) : List Char := cs.flatMap fun c => if c = '\'' then [c, c] else [c]

/-- The text between quotes. -/
def inQuotes (cs : List Char) : List Char := '\'' :: (doubled cs ++ ['\''])

/-- The token as it stands in a text. -/
def written : ParameterToken → List Char
  | opening => ['(']
  | closing => [')']
  | comma => [',']
  | equals => ['=']
  | quoted text => inQuotes text.toList
  | word text => text.toList

/-- A word has the characters that words have; any other token can be written. -/
def Legible : ParameterToken → Prop
  | word text => text.toList.head?.any isWordStart = true ∧ text.toList.all isWordPart = true
  | _ => True

/-- The token ends where it is written, if this follows: a word goes on with characters of words, a
quoted text with another quote. -/
def EndsBefore (rest : List Char) : ParameterToken → Prop
  | word _ => rest.head?.any isWordPart = false
  | quoted _ => rest.head? ≠ some '\''
  | _ => True

/-- The text is the tokens one after the other, with gaps between them or not. -/
inductive Spells : List Char → List ParameterToken → Prop
  | nil : Spells [] []
  | gap {c : Char} {cs : List Char} {ts : List ParameterToken} (blank : isGap c = true)
      (rest : Spells cs ts) : Spells (c :: cs) ts
  | token {t : ParameterToken} {cs : List Char} {ts : List ParameterToken} (legible : t.Legible)
      (ends : t.EndsBefore cs) (rest : Spells cs ts) : Spells (t.written ++ cs) (t :: ts)

/-- A sign that neither words nor quoted texts go on with ends every token. -/
theorem endsBefore_cons (t : ParameterToken) {c : Char} (cs : List Char)
    (hword : isWordPart c = false) (hquote : c ≠ '\'') : t.EndsBefore (c :: cs) := by
  cases t with
  | word text => exact hword
  | quoted text => exact fun heq => hquote (Option.some.inj heq)
  | opening | closing | comma | equals => trivial

theorem doubled_cons (c : Char) (cs : List Char) :
    doubled (c :: cs) = (if c = '\'' then [c, c] else [c]) ++ doubled cs := List.flatMap_cons

theorem readQuoted_cons_of_ne {c : Char} (cs : List Char) (h : c ≠ '\'') :
    readQuoted (c :: cs) = (readQuoted cs).map fun (text, rest) => (c :: text, rest) := by
  rw [readQuoted, if_neg h]
  rintro rest rfl
  exact absurd rfl h

/-- A text in quotes ends at the first quote that is not written twice. -/
theorem readQuoted_doubled (cs : List Char) {rest : List Char} (h : rest.head? ≠ some '\'') :
    readQuoted (doubled cs ++ '\'' :: rest) = some (cs, rest) := by
  induction cs with
  | nil =>
    rw [doubled, List.flatMap_nil, List.nil_append, readQuoted, if_pos rfl]
    rintro tail - rfl
    exact h rfl
  | cons c cs ih =>
    rw [doubled_cons]
    split
    · rename_i hquote
      subst hquote
      simp only [List.cons_append, List.nil_append, readQuoted, ih, Option.map_some]
    · rename_i hquote
      rw [List.append_assoc, List.singleton_append, readQuoted_cons_of_ne _ hquote, ih]
      rfl

theorem isGap_of_isWordStart {c : Char} (h : isWordStart c = true) : isGap c = false := by
  rw [Bool.eq_false_iff]
  intro hgap
  simp only [isGap, Bool.or_eq_true, beq_iff_eq] at hgap
  rcases hgap with ((rfl | rfl) | rfl) | rfl <;> revert h <;> decide

/-- At a character that words begin with, a word is read. -/
theorem read_of_isWordStart {c : Char} (cs : List Char) (h : isWordStart c = true) :
    read c cs =
      some (word (String.ofList (c :: cs.takeWhile isWordPart)), cs.dropWhile isWordPart) := by
  have hsign (sign : Char) (hsign : isWordStart sign = false) : c ≠ sign := by
    rintro rfl
    rw [h] at hsign
    cases hsign
  rw [read, if_neg (hsign '(' (by decide)), if_neg (hsign ')' (by decide)),
    if_neg (hsign ',' (by decide)), if_neg (hsign '=' (by decide)), if_neg (hsign '\'' (by decide)),
    if_pos h]

/-- A token that is written is read as it is, and nothing of what follows. -/
theorem read_written {t : ParameterToken} {cs : List Char} (hlegible : t.Legible)
    (hends : t.EndsBefore cs) :
    ∃ first more, t.written = first :: more ∧ isGap first = false ∧
      read first (more ++ cs) = some (t, cs) := by
  cases t with
  | opening | closing | comma | equals => exact ⟨_, [], rfl, by decide, rfl⟩
  | quoted text =>
    refine ⟨'\'', _, rfl, by decide, ?_⟩
    have hread := readQuoted_doubled text.toList hends
    simp only [read, List.append_assoc, List.singleton_append, hread, Option.map_some,
      String.ofList_toList]
    rfl
  | word text =>
    obtain ⟨hhead, hparts⟩ := hlegible
    obtain ⟨first, more, hchars⟩ : ∃ first more, text.toList = first :: more := by
      cases hchars : text.toList with
      | nil => simp [hchars] at hhead
      | cons first more => exact ⟨first, more, rfl⟩
    rw [hchars] at hhead hparts
    have hmore : ∀ c ∈ more, isWordPart c = true := fun c hc =>
      List.all_eq_true.1 hparts c (List.mem_cons_of_mem _ hc)
    refine ⟨first, more, hchars, isGap_of_isWordStart hhead, ?_⟩
    rw [read_of_isWordStart _ hhead, Text.takeWhile_append hmore hends,
      Text.dropWhile_append hmore hends, ← hchars, String.ofList_toList]

/-- The tokens that a text spells are those that are read. -/
theorem Spells.readAll {cs : List Char} {ts : List ParameterToken} (h : Spells cs ts) (n : Nat) :
    ∃ placed, readAll ⟨n, cs⟩ = .ok placed ∧ placed.map (·.token) = ts := by
  induction h generalizing n with
  | nil => exact ⟨[], by rw [ParameterToken.readAll], rfl⟩
  | @gap c cs ts blank rest ih =>
    obtain ⟨placed, hread, htokens⟩ := ih (n + c.utf8Size)
    refine ⟨placed, ?_, htokens⟩
    rw [ParameterToken.readAll]
    simp only [blank, ↓reduceIte, hread]
  | @token t cs ts legible ends rest ih =>
    obtain ⟨first, more, hwritten, hgap, hread⟩ := read_written legible ends
    obtain ⟨placed, hrest, htokens⟩ := ih (n + Text.utf8Length t.written)
    have hstop : Cursor.moveTo ⟨n, first :: (more ++ cs)⟩ cs =
        ⟨n + Text.utf8Length t.written, cs⟩ := by
      rw [hwritten]
      exact Cursor.moveTo_append n (first :: more) cs
    refine ⟨⟨t, n, n + Text.utf8Length t.written⟩ :: placed, ?_, congrArg (t :: ·) htokens⟩
    rw [hwritten, List.cons_append, ParameterToken.readAll]
    simp only [hgap, Bool.false_eq_true, ↓reduceIte]
    split
    · rename_i hnone
      rw [hread] at hnone
      cases hnone
    · rename_i u rest' hsome
      rw [hread] at hsome
      cases hsome
      rw [hstop, hrest, ← hwritten]
      rfl

/-! ### Quotes and brackets -/

theorem enclosed_inQuotes (text : List Char) : Mark.Enclosed (inQuotes text) := by
  -- What precedes the next quote is a quoted text of its own.
  have hgrown (passed : List Char) (hpassed : '\'' ∉ passed) :
      Mark.Enclosed ('\'' :: (passed ++ (doubled text ++ ['\'']))) := by
    induction text generalizing passed with
    | nil => exact .quoted hpassed .nil
    | cons c text ih =>
      rw [doubled_cons]
      split
      · rename_i hquote
        subst hquote
        exact .quoted hpassed (ih [] (by simp))
      · rename_i hquote
        have hmore := ih (passed ++ [c]) (by simp [hpassed, Ne.symm hquote])
        simpa using hmore
  exact hgrown [] (by simp)

/-- Where all quotes are in pairs, no bracket stands between quotes. -/
theorem enclosed_doubled {cs : List Char} (h : ']' ∉ cs) : Mark.Enclosed (doubled cs) := by
  induction cs with
  | nil => exact .nil
  | cons c cs ih =>
    simp only [List.mem_cons, not_or] at h
    rw [doubled_cons]
    split
    · rename_i hquote
      subst hquote
      have hpair : '\'' ∉ ([] : List Char) := List.not_mem_nil
      exact .quoted hpair (ih h.2)
    · rename_i hquote
      exact .plain (Ne.symm h.1) hquote (ih h.2)

theorem doubled_append (a b : List Char) : doubled (a ++ b) = doubled a ++ doubled b :=
  List.flatMap_append

theorem doubled_eq_self {cs : List Char} (h : '\'' ∉ cs) : doubled cs = cs := by
  induction cs with
  | nil => rfl
  | cons c cs ih =>
    simp only [List.mem_cons, not_or] at h
    rw [doubled_cons, if_neg (Ne.symm h.1), ih h.2]
    rfl

theorem head?_doubled_append (cs rest : List Char) :
    (doubled cs ++ rest).head? = (cs ++ rest).head? := by
  cases cs with
  | nil => rfl
  | cons c cs =>
    rw [doubled_cons]
    split <;> rfl

theorem unbraced_inQuotes {cs : List Char} (h : Mark.Unbraced cs) :
    Mark.Unbraced (inQuotes cs) := by
  have hdoubled : Mark.Unbraced (doubled cs) := by
    induction cs with
    | nil => exact h
    | cons c cs ih =>
      rw [Mark.unbraced_cons] at h
      rw [doubled_cons]
      split <;> simp [h.1, ih h.2]
  simp [inQuotes, hdoubled]

end TextTemplate.ParameterToken
