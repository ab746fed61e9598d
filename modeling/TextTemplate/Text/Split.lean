namespace TextTemplate.Text

/-- The pieces between the characters that satisfy `p`; there is one more of them than of those. -/
def pieces (p : Char → Bool) : List Char → List (List Char)
  | [] => [[]]
  | c :: cs =>
    if p c then [] :: pieces p cs
    else match pieces p cs with
      | [] => [[c]]
      | w :: ws => (c :: w) :: ws

theorem pieces_ne_nil (p : Char → Bool) (cs : List Char) : pieces p cs ≠ [] := by
  cases cs with
  | nil => simp [pieces]
  | cons c cs =>
    simp only [pieces]
    split
    · simp
    · split <;> simp

/-- Puts `sep` between the pieces. -/
def joined (sep : List Char) (ws : List (List Char)) : List Char := List.intercalate sep ws

/-- What precedes the first character that satisfies `p`, and what follows it. -/
def splitFirst? (p : Char → Bool) : List Char → Option (List Char × List Char)
  | [] => none
  | c :: cs => if p c then some ([], cs) else (splitFirst? p cs).map fun (a, b) => (c :: a, b)

/-- The rest after `lead`, if the text starts with it. -/
def dropLead? : List Char → List Char → Option (List Char)
  | [], cs => some cs
  | _ :: _, [] => none
  | l :: lead, c :: cs => if l = c then dropLead? lead cs else none

/-- What precedes the first place where `mark` stands, and what follows it. -/
def splitAtText? (mark : List Char) : List Char → Option (List Char × List Char)
  | [] => if mark = [] then some ([], []) else none
  | c :: cs => match dropLead? mark (c :: cs) with
    | some rest => some ([], rest)
    | none => (splitAtText? mark cs).map fun (a, b) => (c :: a, b)

theorem splitFirst?_eq_some {p : Char → Bool} {cs a b : List Char} :
    splitFirst? p cs = some (a, b) ↔
      ∃ c, p c = true ∧ (∀ x ∈ a, p x = false) ∧ cs = a ++ c :: b := by
  induction cs generalizing a with
  | nil => simp [splitFirst?]
  | cons x cs ih =>
    simp only [splitFirst?]
    split
    · rename_i hx
      constructor
      · rintro h
        cases h
        exact ⟨x, hx, by simp, rfl⟩
      · rintro ⟨c, _, before, h⟩
        cases a with
        | nil =>
          cases h
          rfl
        | cons y a =>
          cases h
          simp [hx] at before
    · rename_i hx
      constructor
      · intro h
        obtain ⟨⟨a', b'⟩, h', heq⟩ := Option.map_eq_some_iff.1 h
        cases heq
        obtain ⟨c, hc, before, rfl⟩ := ih.1 h'
        exact ⟨c, hc, by simpa [hx] using before, rfl⟩
      · rintro ⟨c, hc, before, h⟩
        cases a with
        | nil =>
          cases h
          exact absurd hc hx
        | cons y a =>
          simp only [List.cons_append, List.cons.injEq] at h
          obtain ⟨rfl, rfl⟩ := h
          simp [ih.2 ⟨c, hc, fun z hz => before z (by simp [hz]), rfl⟩]

theorem dropLead?_eq_some {lead cs rest : List Char} :
    dropLead? lead cs = some rest ↔ cs = lead ++ rest := by
  induction lead generalizing cs with
  | nil => simp [dropLead?, eq_comm]
  | cons l lead ih =>
    cases cs with
    | nil => simp [dropLead?]
    | cons c cs =>
      by_cases h : l = c
      · simp [dropLead?, h, ih]
      · simp [dropLead?, h, eq_comm]

theorem dropLead?_append_eq_none {a b : List Char} (rest : List Char) (h : ¬ a <+: b)
    (h' : ¬ b <+: a) : dropLead? a (b ++ rest) = none := by
  cases hd : dropLead? a (b ++ rest) with
  | none => rfl
  | some r =>
    have hab : a <+: b ++ rest := ⟨r, (dropLead?_eq_some.1 hd).symm⟩
    rcases List.prefix_or_prefix_of_prefix hab (List.prefix_append b rest) with hp | hp
    · exact absurd hp h
    · exact absurd hp h'

theorem splitAtText?_eq_append {mark cs a b : List Char} (h : splitAtText? mark cs = some (a, b)) :
    cs = a ++ (mark ++ b) := by
  fun_induction splitAtText? mark cs generalizing a with
  | case1 hm =>
    cases h
    simp [hm]
  | case2 => cases h
  | case3 c cs rest hr =>
    cases h
    simpa using dropLead?_eq_some.1 hr
  | case4 c cs _ ih =>
    obtain ⟨⟨a', b'⟩, h', heq⟩ := Option.map_eq_some_iff.1 h
    cases heq
    simp only [List.cons_append, ← ih h']

theorem pieces_eq_singleton {p : Char → Bool} {a : List Char} (ha : ∀ x ∈ a, p x = false) :
    pieces p a = [a] := by
  induction a with
  | nil => rfl
  | cons x a ih =>
    simp only [List.forall_mem_cons] at ha
    simp [pieces, ha.1, ih ha.2]

theorem pieces_append {p : Char → Bool} {a : List Char} {c : Char} (b : List Char)
    (ha : ∀ x ∈ a, p x = false) (hc : p c = true) : pieces p (a ++ c :: b) = a :: pieces p b := by
  induction a with
  | nil => simp [pieces, hc]
  | cons x a ih =>
    simp only [List.forall_mem_cons] at ha
    simp [pieces, ha.1, ih ha.2]

/-- A character that separates ends the pieces of what precedes it. -/
theorem pieces_append_cons {p : Char → Bool} {c : Char} (a b : List Char) (hc : p c = true) :
    pieces p (a ++ c :: b) = pieces p a ++ pieces p b := by
  induction a with
  | nil => simp [pieces, hc]
  | cons x a ih =>
    obtain ⟨w, ws, ha⟩ := List.exists_cons_of_ne_nil (pieces_ne_nil p a)
    by_cases hx : p x <;> simp [pieces, hx, ih, ha]

/-- Text that nothing separates goes to the first piece. -/
theorem exists_pieces_append {p : Char → Bool} {a : List Char} (b : List Char)
    (ha : ∀ x ∈ a, p x = false) :
    ∃ w ws, pieces p b = w :: ws ∧ pieces p (a ++ b) = (a ++ w) :: ws := by
  obtain ⟨w, ws, hb⟩ := List.exists_cons_of_ne_nil (pieces_ne_nil p b)
  refine ⟨w, ws, hb, ?_⟩
  induction a with
  | nil => exact hb
  | cons x a ih =>
    simp only [List.forall_mem_cons] at ha
    simp [pieces, ha.1, ih ha.2]

/-- What is joined with a character that separates falls into its parts again. -/
theorem pieces_joined {p : Char → Bool} {c : Char} {ws : List (List Char)} (hc : p c = true)
    (h : ∀ w ∈ ws, ∀ x ∈ w, p x = false) (hws : ws ≠ []) : pieces p (joined [c] ws) = ws := by
  induction ws with
  | nil => exact absurd rfl hws
  | cons w ws ih =>
    simp only [List.forall_mem_cons] at h
    cases ws with
    | nil => simpa [joined] using pieces_eq_singleton h.1
    | cons v ws =>
      simp only [joined, List.intercalate_cons_cons, List.append_assoc, List.singleton_append]
      rw [pieces_append _ h.1 hc]
      exact congrArg (w :: ·) (ih h.2 (by simp))

/-- No piece holds a character that separates. -/
theorem eq_false_of_mem_pieces {p : Char → Bool} {cs w : List Char} (hw : w ∈ pieces p cs)
    {x : Char} (hx : x ∈ w) : p x = false := by
  induction cs generalizing w with
  | nil =>
    rw [pieces, List.mem_singleton] at hw
    simp [hw] at hx
  | cons c cs ih =>
    rw [pieces] at hw
    split at hw
    · rcases List.mem_cons.1 hw with rfl | hw
      · cases hx
      · exact ih hw hx
    · next hc =>
      cases hpieces : pieces p cs with
      | nil => exact absurd hpieces (pieces_ne_nil p cs)
      | cons v vs =>
        rw [hpieces] at hw ih
        rcases List.mem_cons.1 hw with rfl | hw
        · rcases List.mem_cons.1 hx with rfl | hx
          · exact Bool.eq_false_iff.2 hc
          · exact ih List.mem_cons_self hx
        · exact ih (List.mem_cons_of_mem v hw) hx

theorem mem_joined {sep : List Char} {ws : List (List Char)} {c : Char} (h : c ∈ joined sep ws) :
    c ∈ sep ∨ ∃ w ∈ ws, c ∈ w := by
  induction ws with
  | nil => simp [joined] at h
  | cons w ws ih =>
    cases ws with
    | nil => exact .inr ⟨w, by simp, by simpa [joined] using h⟩
    | cons v ws =>
      simp only [joined, List.intercalate_cons_cons, List.mem_append] at h ih
      rcases h with (h | h) | h
      · exact .inr ⟨w, by simp, h⟩
      · exact .inl h
      · rcases ih h with h | ⟨u, hu, h⟩
        · exact .inl h
        · exact .inr ⟨u, List.mem_cons_of_mem _ hu, h⟩

theorem splitFirst?_append {p : Char → Bool} {a : List Char} {c : Char} (b : List Char)
    (ha : ∀ x ∈ a, p x = false) (hc : p c = true) : splitFirst? p (a ++ c :: b) = some (a, b) :=
  splitFirst?_eq_some.2 ⟨c, hc, ha, rfl⟩

theorem splitFirst?_eq_none {p : Char → Bool} {cs : List Char} (h : ∀ x ∈ cs, p x = false) :
    splitFirst? p cs = none := by
  cases hs : splitFirst? p cs with
  | none => rfl
  | some r =>
    obtain ⟨c, hc, _, rfl⟩ := splitFirst?_eq_some.1 hs
    simp [h c (by simp)] at hc

theorem dropLead?_cons_eq_none {x y : Char} (lead cs : List Char) (h : x ≠ y) :
    dropLead? (x :: lead) (y :: cs) = none := by
  rw [dropLead?, if_neg h]

theorem dropLead?_pair_eq_none {opening next : Char} {cs : List Char} (h : cs.head? ≠ some next) :
    dropLead? [opening, next] (opening :: cs) = none := by
  rw [dropLead?, if_pos rfl]
  cases cs with
  | nil => rfl
  | cons c cs => exact dropLead?_cons_eq_none [] cs fun heq => h (by rw [heq]; rfl)

theorem head?_append_ne {p : Char → Bool} {cs : List Char} {c : Char} (rest : List Char)
    (h : cs.head?.any p = true) (hc : p c = false) : (cs ++ rest).head? ≠ some c := by
  cases cs with
  | nil => simp at h
  | cons x cs =>
    intro hx
    cases hx
    simp [hc] at h

section
variable {p : Char → Bool} {a b : List Char} (ha : ∀ c ∈ a, p c = true)
  (hb : b.head?.any p = false)
include ha hb

/-- A run of characters of one class ends where another character follows. -/
theorem takeWhile_append : (a ++ b).takeWhile p = a := by
  rw [List.takeWhile_append_of_pos ha]
  cases b with
  | nil => exact List.append_nil a
  | cons c b => rw [List.takeWhile_cons_of_neg (by simpa using hb), List.append_nil]

theorem dropWhile_append : (a ++ b).dropWhile p = b := by
  rw [List.dropWhile_append_of_pos ha]
  cases b with
  | nil => rfl
  | cons c b => exact List.dropWhile_cons_of_neg (by simpa using hb)

end

theorem splitAtText?_append {m : Char} {a : List Char} (mark b : List Char) (h : m ∉ a) :
    splitAtText? (m :: mark) (a ++ (m :: mark ++ b)) = some (a, b) := by
  induction a with
  | nil =>
    have : dropLead? (m :: mark) (m :: mark ++ b) = some b := dropLead?_eq_some.2 rfl
    simp only [List.nil_append, List.cons_append] at this ⊢
    rw [splitAtText?, this]
  | cons x a ih =>
    simp only [List.mem_cons, not_or] at h
    rw [List.cons_append, splitAtText?, dropLead?_cons_eq_none _ _ h.1, ih h.2]
    rfl

end TextTemplate.Text
