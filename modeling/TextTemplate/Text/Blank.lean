namespace TextTemplate.Text

/-- Blanks are the white space of every script, line ends included. -/
def isBlank (c : Char) : Bool :=
  c.val ∈ [0x20, 0x85, 0xa0, 0x1680, 0x2028, 0x2029, 0x202f, 0x205f, 0x3000] ||
    (0x09 ≤ c.val && c.val ≤ 0x0d) || (0x2000 ≤ c.val && c.val ≤ 0x200a)

def trimStart (cs : List Char) : List Char := cs.dropWhile isBlank

def trimEnd (cs : List Char) : List Char := (cs.reverse.dropWhile isBlank).reverse

def trim (cs : List Char) : List Char := trimEnd (trimStart cs)

theorem trimStart_eq_append (cs : List Char) :
    ∃ lead, (∀ c ∈ lead, isBlank c = true) ∧ cs = lead ++ trimStart cs :=
  ⟨cs.takeWhile isBlank, List.all_eq_true.1 List.all_takeWhile,
    List.takeWhile_append_dropWhile.symm⟩

theorem trimEnd_eq_append (cs : List Char) :
    ∃ trail, (∀ c ∈ trail, isBlank c = true) ∧ cs = trimEnd cs ++ trail := by
  obtain ⟨lead, hlead, hcs⟩ := trimStart_eq_append cs.reverse
  refine ⟨lead.reverse, fun c hc => hlead c (List.mem_reverse.1 hc), ?_⟩
  rw [← List.reverse_inj, List.reverse_append, List.reverse_reverse, trimEnd, List.reverse_reverse]
  exact hcs

theorem trimStart_eq_self {cs : List Char} (h : cs.head?.any isBlank = false) :
    trimStart cs = cs := by
  cases cs with
  | nil => rfl
  | cons c cs => exact List.dropWhile_cons_of_neg (by simpa using h)

theorem trimStart_append {lead cs : List Char} (hlead : ∀ c ∈ lead, isBlank c = true)
    (hcs : cs.head?.any isBlank = false) : trimStart (lead ++ cs) = cs := by
  rw [trimStart, List.dropWhile_append_of_pos hlead]
  exact trimStart_eq_self hcs

theorem trimEnd_eq_self {cs : List Char} (h : cs.getLast?.any isBlank = false) :
    trimEnd cs = cs := by
  rw [← List.head?_reverse] at h
  exact (congrArg List.reverse (trimStart_eq_self h)).trans cs.reverse_reverse

theorem head?_trimStart (cs : List Char) : (trimStart cs).head?.any isBlank = false := by
  have h := List.head?_dropWhile_not isBlank cs
  rw [← trimStart] at h
  cases hhead : (trimStart cs).head? with
  | none => rfl
  | some c => rwa [hhead] at h

theorem getLast?_trimEnd (cs : List Char) : (trimEnd cs).getLast?.any isBlank = false := by
  rw [trimEnd, List.getLast?_reverse]
  exact head?_trimStart cs.reverse

theorem trimEnd_isPrefixOf (cs : List Char) : trimEnd cs <+: cs := by
  rw [trimEnd, ← List.reverse_suffix, List.reverse_reverse]
  exact List.dropWhile_suffix isBlank

theorem head?_any_of_isPrefixOf {p : Char → Bool} {as bs : List Char} (h : as <+: bs)
    (hbs : bs.head?.any p = false) : as.head?.any p = false := by
  cases as with
  | nil => rfl
  | cons c as =>
    obtain ⟨rest, rfl⟩ := h
    exact hbs

/-- Trimming leaves as it is exactly what has no blank at its ends. -/
theorem trim_eq_self_iff {cs : List Char} :
    trim cs = cs ↔ cs.head?.any isBlank = false ∧ cs.getLast?.any isBlank = false := by
  constructor
  · intro h
    rw [← h]
    exact ⟨head?_any_of_isPrefixOf (trimEnd_isPrefixOf _) (head?_trimStart cs), getLast?_trimEnd _⟩
  · rintro ⟨hhead, hlast⟩
    rw [trim, trimStart_eq_self hhead, trimEnd_eq_self hlast]

theorem trim_trim (cs : List Char) : trim (trim cs) = trim cs :=
  trim_eq_self_iff.2 ⟨head?_any_of_isPrefixOf (trimEnd_isPrefixOf _) (head?_trimStart cs),
    getLast?_trimEnd _⟩

/-- Blanks around a text do not count. -/
theorem trim_surrounded {lead core trail : List Char} (hlead : ∀ c ∈ lead, isBlank c = true)
    (htrail : ∀ c ∈ trail, isBlank c = true) (hcore : trim core = core) :
    trim (lead ++ (core ++ trail)) = core := by
  obtain ⟨hhead, hlast⟩ := trim_eq_self_iff.1 hcore
  cases core with
  | nil =>
    have hall : ∀ c ∈ lead ++ trail, isBlank c = true := by
      simpa [or_imp, forall_and] using ⟨hlead, htrail⟩
    have hnone : ([] : List Char).head?.any isBlank = false := rfl
    have hstart := trimStart_append hall hnone
    rw [List.append_nil] at hstart
    rw [List.nil_append, trim, hstart]
    rfl
  | cons c core =>
    have hend : trimStart (trail.reverse ++ (c :: core).reverse) = (c :: core).reverse :=
      trimStart_append (by simpa using htrail) (by rwa [List.head?_reverse])
    have hstart : trimStart (lead ++ (c :: core ++ trail)) = c :: core ++ trail :=
      trimStart_append hlead hhead
    rw [trim, hstart, trimEnd, List.reverse_append, ← trimStart, hend, List.reverse_reverse]

theorem mem_of_mem_trim {cs : List Char} {c : Char} (h : c ∈ trim cs) : c ∈ cs :=
  (List.dropWhile_suffix isBlank).subset ((trimEnd_isPrefixOf _).subset h)

theorem mem_trimStart {cs : List Char} {c : Char} (h : c ∈ cs) (hc : isBlank c = false) :
    c ∈ trimStart cs := by
  obtain ⟨lead, hlead, hcs⟩ := trimStart_eq_append cs
  rw [hcs] at h
  rcases List.mem_append.1 h with h | h
  · rw [hlead c h] at hc
    cases hc
  · exact h

/-- Trimming takes away blanks only. -/
theorem mem_trim {cs : List Char} {c : Char} (h : c ∈ cs) (hc : isBlank c = false) :
    c ∈ trim cs := by
  have hstart := List.mem_reverse.2 (mem_trimStart h hc)
  exact List.mem_reverse.2 (mem_trimStart hstart hc)

/-- The text without the blanks around it. -/
def trimmed (s : String) : String := String.ofList (trim s.toList)

@[simp] theorem trim_nil : trim [] = [] := rfl

theorem trim_eq_self {cs : List Char} (h : ∀ c ∈ cs, isBlank c = false) : trim cs = cs := by
  have hall (o : Option Char) (ho : ∀ c ∈ o, c ∈ cs) : o.any isBlank = false := by
    cases o with
    | none => rfl
    | some c => exact h c (ho c rfl)
  exact trim_eq_self_iff.2 ⟨hall _ fun _ hc => List.mem_of_mem_head? hc,
    hall _ fun _ hc => List.mem_of_mem_getLast? hc⟩

theorem trim_cons_blank {c : Char} (cs : List Char) (h : isBlank c = true) :
    trim (c :: cs) = trim cs := by
  simp only [trim, trimStart, List.dropWhile_cons, h, ↓reduceIte]

/-- The code points of the blanks. -/
def blankCodes : List Nat :=
  [0x20, 0x85, 0xa0, 0x1680, 0x2028, 0x2029, 0x202f, 0x205f, 0x3000] ++ List.range' 0x09 5 ++
    List.range' 0x2000 11

theorem mem_blankCodes_of_isBlank {c : Char} (h : isBlank c = true) : c.toNat ∈ blankCodes := by
  simp only [isBlank, Bool.or_eq_true, Bool.and_eq_true, decide_eq_true_eq, List.mem_cons,
    List.not_mem_nil, or_false, ← UInt32.toNat_inj, UInt32.le_iff_toNat_le,
    UInt32.reduceToNat] at h
  simp only [blankCodes, List.mem_append, List.mem_range'_1, List.mem_cons, List.not_mem_nil,
    or_false, Char.toNat]
  omega

end TextTemplate.Text
