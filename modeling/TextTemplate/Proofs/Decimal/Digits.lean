import Mathlib.Algebra.Ring.Nat
import TextTemplate.Decimal.Basic

/-! The digits of a number in fixed point, and the groups that they form. -/

namespace TextTemplate.Decimal

theorem readDigits_eq_some {cs : List Char} (h : ∀ c ∈ cs, c.isDigit = true) (n : Nat) :
    readDigits n cs = some (Nat.ofDigitChars 10 cs n) := by
  induction cs generalizing n with
  | nil => rfl
  | cons c cs ih =>
    obtain ⟨hc, hcs⟩ := List.forall_mem_cons.1 h
    have hunder : c ≠ '_' := by
      rintro rfl
      revert hc
      decide
    rw [readDigits, if_neg hunder, digitValue?, if_pos hc, Option.bind_some, ih hcs,
      Nat.ofDigitChars_cons]

/-- In the padded digits of a number, those of its whole part come first. -/
theorem padded_eq_append (n places : Nat) :
    ∃ fraction : List Char, fraction.length = places ∧ (∀ c ∈ fraction, c.isDigit = true) ∧
      List.replicate (places + 1 - (Nat.toDigits 10 n).length) '0' ++ Nat.toDigits 10 n =
        Nat.toDigits 10 (n / 10 ^ places) ++ fraction := by
  induction places generalizing n with
  | zero =>
    have hlength : 0 + 1 - (Nat.toDigits 10 n).length = 0 := by
      have := Nat.length_toDigits_pos (b := 10) (n := n)
      omega
    exact ⟨[], rfl, nofun, by simp [hlength]⟩
  | succ places ih =>
    have hdigit (m : Nat) (hm : m < 10) : (Nat.digitChar m).isDigit = true := by
      apply Nat.isDigit_of_mem_toDigits (b := 10) (n := m) (by decide) (by decide)
      rw [Nat.toDigits_of_lt_base hm]
      exact List.mem_singleton_self _
    have hquotient : n / 10 ^ (places + 1) = n / 10 / 10 ^ places := by
      rw [Nat.div_div_eq_div_mul, Nat.pow_succ']
    obtain ⟨fraction, hlength, hdigits, hpadded⟩ := ih (n / 10)
    refine ⟨fraction ++ [Nat.digitChar (n % 10)], by simp [hlength], ?_, ?_⟩
    · intro c hc
      rcases List.mem_append.1 hc with hc | hc
      · exact hdigits c hc
      · rw [List.mem_singleton.1 hc]
        exact hdigit _ (Nat.mod_lt n (by decide))
    · rw [hquotient, ← List.append_assoc, ← hpadded]
      by_cases hn : n < 10
      · have hzero : n / 10 = 0 := Nat.div_eq_of_lt hn
        rw [hzero, Nat.toDigits_zero, Nat.toDigits_of_lt_base hn, Nat.mod_eq_of_lt hn]
        simp [← List.replicate_succ']
      · rw [Nat.toDigits_of_base_le (n := n) (by decide) (Nat.not_lt.1 hn), List.length_append,
          List.length_singleton, Nat.add_sub_add_right, List.append_assoc]

/-- The digits of a number in fixed point are those of its units, with the whole part as it is
written by itself. -/
theorem toFixed_digits (d : Decimal) (places : Nat) :
    (d.toFixed places).whole = Nat.toDigits 10 (d.unitsAt places / 10 ^ places) ∧
    (d.toFixed places).fraction.length = places ∧
    (∀ c ∈ (d.toFixed places).fraction, c.isDigit = true) ∧
    Nat.ofDigitChars 10 ((d.toFixed places).whole ++ (d.toFixed places).fraction) 0 =
      d.unitsAt places := by
  obtain ⟨fraction, hlength, hdigits, hpadded⟩ := padded_eq_append (d.unitsAt places) places
  have hwhole : (d.toFixed places).whole = Nat.toDigits 10 (d.unitsAt places / 10 ^ places) := by
    simp only [toFixed, hpadded, List.length_append, hlength, Nat.add_sub_cancel, List.take_left]
  have hfraction : (d.toFixed places).fraction = fraction := by
    simp only [toFixed, hpadded, List.length_append, hlength, Nat.add_sub_cancel, List.drop_left]
  refine ⟨hwhole, by rw [hfraction, hlength], by rwa [hfraction], ?_⟩
  rw [hwhole, hfraction, ← hpadded, Nat.ofDigitChars_append, Nat.ofDigitChars_replicate_zero,
    Nat.mul_zero, Nat.ofDigitChars_ten_toDigits]

/-- No zeros lead the digits of a number, but for zero itself. -/
theorem head?_toDigits {n : Nat} (hn : 0 < n) : (Nat.toDigits 10 n).head? ≠ some '0' := by
  induction n using Nat.strongRecOn with
  | ind n ih =>
    by_cases hsmall : n < 10
    · have hdigits : ∀ m < 10, 0 < m → some (Nat.digitChar m) ≠ some '0' := by decide
      rw [Nat.toDigits_of_lt_base hsmall]
      exact hdigits n hsmall hn
    · have hlead := ih (n / 10) (by omega) (by omega)
      obtain ⟨c, cs, hdigits⟩ :=
        List.exists_cons_of_ne_nil (Nat.toDigits_ne_nil (b := 10) (n := n / 10))
      rw [Nat.toDigits_of_base_le (by decide) (Nat.not_lt.1 hsmall), hdigits]
      rwa [hdigits] at hlead

theorem dropWhile_toDigits {n : Nat} (hn : 0 < n) :
    (Nat.toDigits 10 n).dropWhile (· = '0') = Nat.toDigits 10 n := by
  have hhead := head?_toDigits hn
  cases hcs : Nat.toDigits 10 n with
  | nil => rfl
  | cons c cs =>
    rw [hcs] at hhead
    exact List.dropWhile_cons_of_neg (by simpa using hhead)

theorem isDigit_of_mem_replicate (k : Nat) : ∀ c ∈ List.replicate k '0', c.isDigit = true := by
  intro c hc
  rw [List.eq_of_mem_replicate hc]
  decide

/-- A text without the zeros at its end. -/
theorem trailing_zeros (cs : List Char) :
    ∃ kept zeros, cs = kept ++ List.replicate zeros '0' ∧ kept.getLast? ≠ some '0' ∧
      (cs.reverse.takeWhile (· = '0')).length = zeros := by
  have hzeros : ∀ c ∈ cs.reverse.takeWhile (· = '0'), c = '0' := by
    intro c hc
    simpa using List.all_eq_true.1 List.all_takeWhile c hc
  refine ⟨(cs.reverse.dropWhile (· = '0')).reverse, _, ?_, ?_, rfl⟩
  · rw [← List.reverse_replicate, ← List.eq_replicate_of_mem hzeros, ← List.reverse_append,
      List.takeWhile_append_dropWhile, List.reverse_reverse]
  · rw [List.getLast?_reverse]
    intro hhead
    have hnot := List.head?_dropWhile_not (· = '0') cs.reverse
    rw [hhead] at hnot
    simp at hnot

/-! ### Groups -/

/-- There is no comma among digits. -/
theorem not_mem_of_isDigit {cs : List Char} (h : ∀ c ∈ cs, c.isDigit = true) : ',' ∉ cs := by
  intro hmem
  exact absurd (h ',' hmem) (by decide)

/-- What follows the first of the digits. -/
def groupedRest (size : Nat) : List Char → List Char
  | [] => []
  | c :: cs => (if (cs.length + 1) % size = 0 then [',', c] else [c]) ++ groupedRest size cs

theorem zipIdx_grouped (size : Nat) (cs : List Char) (i : Nat) (hi : 0 < i) :
    ((cs.zipIdx i).map fun (c, j) =>
      if 0 < j && (i + cs.length - j) % size == 0 then [',', c] else [c]).flatten =
      groupedRest size cs := by
  induction cs generalizing i with
  | nil => rfl
  | cons c cs ih =>
    have hrest := ih (i + 1) (Nat.succ_pos i)
    have hlength : i + 1 + cs.length = i + (c :: cs).length := by
      rw [List.length_cons]
      omega
    rw [hlength] at hrest
    have hplace : i + (c :: cs).length - i = cs.length + 1 := Nat.add_sub_cancel_left ..
    rw [List.zipIdx_cons, List.map_cons, List.flatten_cons, hrest, groupedRest]
    simp only [hplace, hi, decide_true, Bool.true_and, beq_iff_eq]

theorem grouped_cons {size : Nat} (hsize : 0 < size) (c : Char) (cs : List Char) :
    grouped size (c :: cs) = c :: groupedRest size cs := by
  have hrest := zipIdx_grouped size cs 1 Nat.one_pos
  rw [Nat.add_comm 1] at hrest
  rw [grouped, if_neg (Nat.ne_of_gt hsize)]
  simp only [List.length_cons, List.zipIdx_cons, List.map_cons, List.flatten_cons, Nat.zero_add,
    hrest, Nat.lt_irrefl, decide_false, Bool.false_and, Bool.false_eq_true, ↓reduceIte,
    List.singleton_append]

theorem head?_grouped (size : Nat) (cs : List Char) : (grouped size cs).head? = cs.head? := by
  rcases Nat.eq_zero_or_pos size with rfl | hsize
  · rfl
  · cases cs with
    | nil => simp [grouped]
    | cons c cs => rw [grouped_cons hsize, List.head?_cons, List.head?_cons]

theorem succ_mod (n : Nat) {size : Nat} (hsize : 0 < size) :
    (n + 1) % size = if n % size + 1 = size then 0 else n % size + 1 := by
  have hlt := Nat.mod_lt n hsize
  have hsplit : n + 1 = n % size + 1 + size * (n / size) := by
    have := Nat.mod_add_div n size
    omega
  rw [hsplit, Nat.add_mul_mod_self_left]
  split
  · next hfull => rw [hfull, Nat.mod_self]
  · exact Nat.mod_eq_of_lt (by omega)

/-- Groups with a comma before each. -/
theorem groupedRest_eq {size : Nat} (hsize : 0 < size) (cs : List Char) :
    ∃ (first : List Char) (others : List (List Char)),
      groupedRest size cs = first ++ (others.map (',' :: ·)).flatten ∧
      cs = first ++ others.flatten ∧ first.length = cs.length % size ∧
      ∀ g ∈ others, g.length = size := by
  induction cs with
  | nil => exact ⟨[], [], rfl, rfl, by simp, nofun⟩
  | cons c cs ih =>
    obtain ⟨first, others, hgrouped, hdigits, hfirst, hothers⟩ := ih
    have hsucc := succ_mod cs.length hsize
    rw [groupedRest, hgrouped]
    by_cases hfull : cs.length % size + 1 = size
    · rw [if_pos hfull] at hsucc
      refine ⟨[], (c :: first) :: others, ?_, ?_, ?_, ?_⟩
      · simp [hsucc]
      · rw [List.flatten_cons, List.nil_append, List.cons_append, ← hdigits]
      · rw [List.length_cons, hsucc, List.length_nil]
      · intro g hg
        rcases List.mem_cons.1 hg with rfl | hg
        · rw [List.length_cons, hfirst, hfull]
        · exact hothers g hg
    · rw [if_neg hfull] at hsucc
      refine ⟨c :: first, others, ?_, ?_, ?_, hothers⟩
      · simp [hsucc]
      · rw [List.cons_append, ← hdigits]
      · rw [List.length_cons, List.length_cons, hfirst, hsucc]

theorem joined_cons (first : List Char) (others : List (List Char)) :
    Text.joined [','] (first :: others) = first ++ (others.map (',' :: ·)).flatten := by
  induction others generalizing first with
  | nil => simp [Text.joined]
  | cons g others ih =>
    have hrest := ih g
    simp only [Text.joined, List.intercalate_cons_cons] at hrest ⊢
    rw [hrest]
    simp

/-- Between the commas stand groups of the size, but for the first, which may be shorter. -/
theorem pieces_grouped {size : Nat} (hsize : 0 < size) {digits : List Char}
    (hdigits : ',' ∉ digits) :
    ∃ (first : List Char) (others : List (List Char)),
      Text.pieces (· = ',') (grouped size digits) = first :: others ∧
      digits = first ++ others.flatten ∧ first.length ≤ size ∧ (first = [] → others = []) ∧
      ∀ g ∈ others, g.length = size := by
  cases digits with
  | nil => exact ⟨[], [], by simp [grouped, Text.pieces], rfl, Nat.zero_le _, fun _ => rfl, nofun⟩
  | cons c cs =>
    obtain ⟨first, others, hgrouped, hsplit, hfirst, hothers⟩ := groupedRest_eq hsize cs
    have hjoined : grouped size (c :: cs) = Text.joined [','] ((c :: first) :: others) := by
      rw [grouped_cons hsize, hgrouped, joined_cons, List.cons_append]
    have hsome : c :: first = [] → others = [] := fun hnil => absurd hnil (List.cons_ne_nil _ _)
    refine ⟨c :: first, others, ?_, by rw [List.cons_append, ← hsplit], ?_, hsome, hothers⟩
    · rw [hjoined]
      apply Text.pieces_joined (by decide) _ (List.cons_ne_nil _ _)
      intro g hg x hx
      have hmem : x ∈ ((c :: first) :: others).flatten := List.mem_flatten_of_mem hg hx
      rw [List.flatten_cons, List.cons_append, ← hsplit] at hmem
      rw [decide_eq_false_iff_not]
      rintro rfl
      exact hdigits hmem
    · have := Nat.mod_lt cs.length hsize
      rw [List.length_cons, hfirst]
      omega

/-- The commas apart, these are the digits. -/
theorem filter_grouped (size : Nat) {digits : List Char} (hdigits : ',' ∉ digits) :
    (grouped size digits).filter (· ≠ ',') = digits := by
  have hkept {cs : List Char} (hcs : ',' ∉ cs) : cs.filter (· ≠ ',') = cs := by
    rw [List.filter_eq_self]
    intro c hc
    rw [decide_eq_true_iff]
    rintro rfl
    exact hcs hc
  have hrest (cs : List Char) (hcs : ',' ∉ cs) : (groupedRest size cs).filter (· ≠ ',') = cs := by
    induction cs with
    | nil => rfl
    | cons c cs ih =>
      simp only [List.mem_cons, not_or] at hcs
      rw [groupedRest, List.filter_append, ih hcs.2]
      split <;> simp [Ne.symm hcs.1]
  by_cases hsize : size = 0
  · rw [grouped, if_pos hsize, hkept hdigits]
  · cases digits with
    | nil => simp [grouped]
    | cons c cs =>
      simp only [List.mem_cons, not_or] at hdigits
      rw [grouped_cons (Nat.pos_of_ne_zero hsize),
        List.filter_cons_of_pos (by simp [Ne.symm hdigits.1]), hrest cs hdigits.2]

end TextTemplate.Decimal
