namespace TextTemplate.Text

/-- The number of bytes that the characters take in UTF-8. -/
def utf8Length : List Char → Nat
  | [] => 0
  | c :: cs => c.utf8Size + utf8Length cs

theorem utf8Length_append (a b : List Char) :
    utf8Length (a ++ b) = utf8Length a + utf8Length b := by
  induction a with
  | nil => simp [utf8Length]
  | cons c cs ih =>
    simp only [List.cons_append, utf8Length, ih]
    omega

theorem utf8Length_pos {cs : List Char} (h : cs ≠ []) : 0 < utf8Length cs := by
  cases cs with
  | nil => exact absurd rfl h
  | cons c cs =>
    have := c.utf8Size_pos
    simp only [utf8Length]
    omega

/-- Of two beginnings of one text, the one with fewer bytes is a beginning of the other. -/
theorem append_of_utf8Length_le {a b c d : List Char} (h : a ++ b = c ++ d)
    (hle : utf8Length a ≤ utf8Length c) : ∃ m, c = a ++ m ∧ b = m ++ d := by
  rcases List.append_eq_append_iff.1 h with ⟨m, hc, hb⟩ | ⟨m, ha, hd⟩
  · exact ⟨m, hc, hb⟩
  · rw [ha, utf8Length_append] at hle
    have hm : m = [] := by
      cases m with
      | nil => rfl
      | cons x m =>
        have := utf8Length_pos (List.cons_ne_nil x m)
        omega
    subst hm
    exact ⟨[], by simpa using ha.symm, by simpa using hd.symm⟩

/-- Splits the text where `n` bytes end. A character that the cut would divide stays with the
second part. -/
def splitBytes : Nat → List Char → List Char × List Char
  | _, [] => ([], [])
  | n, c :: cs =>
    if c.utf8Size ≤ n then
      let (a, b) := splitBytes (n - c.utf8Size) cs
      (c :: a, b)
    else ([], c :: cs)

theorem splitBytes_append (a b : List Char) : splitBytes (utf8Length a) (a ++ b) = (a, b) := by
  induction a with
  | nil =>
    cases b with
    | nil => rfl
    | cons c cs =>
      have := c.utf8Size_pos
      simp only [splitBytes, utf8Length, List.nil_append]
      rw [if_neg (by omega)]
  | cons c cs ih =>
    have : c.utf8Size + utf8Length cs - c.utf8Size = utf8Length cs := by omega
    simp [splitBytes, utf8Length, this, ih]

end TextTemplate.Text
