import Mathlib.Algebra.Order.Floor.Semifield
import Mathlib.Data.Nat.Digits.Lemmas
import TextTemplate.Format.Number
import TextTemplate.Proofs.Decimal.Digits
import TextTemplate.Proofs.Decimal.Rounding

/-! Patterns for decimal numbers say what stands around a number, how many digits it has and how
they are grouped. What is written is the rounded number, just so. -/

namespace TextTemplate.DecimalPattern

/-- What a pattern says that is made up of these signs for the digits before and after the point. -/
structure Says (p : DecimalPattern) (whole fraction : List Char) : Prop where
  before : ∀ c ∈ p.before, isNumberSign c = false
  after : ∀ c ∈ p.after, isNumberSign c = false
  /-- Optional digits come before the required ones. -/
  wholeSigns : ∃ optional, whole.filter (· ≠ ',') =
    List.replicate optional '#' ++ List.replicate p.leastWhole '0'
  /-- Required digits come before the optional ones. -/
  fractionSigns : ∃ optional, p.mostFraction = p.leastFraction + optional ∧
    fraction = List.replicate p.leastFraction '0' ++ List.replicate optional '#'
  ungrouped : ',' ∉ whole → p.grouping = 0
  /-- The last comma counts. -/
  grouped : ',' ∈ whole → ∃ lead last, whole = lead ++ ',' :: last ∧ ',' ∉ last ∧ last ≠ [] ∧
    p.grouping = last.length
  percent : p.percent = true ↔ '%' ∈ p.before ∨ '%' ∈ p.after

/-- The number that is written: it is rounded where the pattern ends. -/
def shown (p : DecimalPattern) (d : Decimal) : ℚ :=
  roundHalfEven (d.value * (if p.percent then 100 else 1) * 10 ^ p.mostFraction) /
    10 ^ p.mostFraction

/-- These digits before and after the point write the number `r` as the pattern asks for it. -/
structure Shows (p : DecimalPattern) (r : ℚ) (whole fraction : List Char) : Prop where
  digits : ∀ c ∈ whole.filter (· ≠ ',') ++ fraction, c.isDigit = true
  reads : (Nat.ofDigitChars 10 (whole.filter (· ≠ ',') ++ fraction) 0 : ℚ) /
    10 ^ fraction.length = r
  least : p.leastFraction ≤ fraction.length
  most : fraction.length ≤ p.mostFraction
  trimmed : p.leastFraction < fraction.length → fraction.getLast? ≠ some '0'
  /-- There are the digits that are required and those that the number has; zero by itself has none,
  and is written where nothing else would be. -/
  length : let n := max p.leastWhole (Nat.digits 10 ⌊r⌋₊).length
    if n = 0 ∧ fraction = [] then whole = ['0'] else (whole.filter (· ≠ ',')).length = n
  ungrouped : p.grouping = 0 → ',' ∉ whole
  /-- All groups are full but the first, which has a digit if others follow it. -/
  grouped : 0 < p.grouping → ∃ first others, Text.pieces (· = ',') whole = first :: others ∧
    first.length ≤ p.grouping ∧ (first = [] → others = []) ∧ ∀ g ∈ others, g.length = p.grouping

/-! ### Reading patterns -/

/-- Two signs, all of the one before all of the other. -/
theorem eq_replicate_append {a b : Char} (hne : a ≠ b) {cs : List Char}
    (hcs : ∀ c ∈ cs, c = a ∨ c = b) (horder : a ∉ cs.dropWhile (· = a)) :
    cs = List.replicate (cs.count a) a ++ List.replicate (cs.count b) b := by
  induction cs with
  | nil => rfl
  | cons c cs ih =>
    obtain ⟨hc, hrest⟩ := List.forall_mem_cons.1 hcs
    by_cases hfirst : c = a
    · subst hfirst
      rw [List.dropWhile_cons_of_pos (by simp)] at horder
      rw [List.count_cons_self, List.count_cons_of_ne hne, List.replicate_succ, List.cons_append,
        ← ih hrest horder]
    · rw [List.dropWhile_cons_of_neg (by simpa using hfirst)] at horder
      have hsecond : ∀ x ∈ c :: cs, x = b := by
        intro x hx
        rcases hcs x hx with rfl | rfl
        · exact absurd hx horder
        · rfl
      have hall := List.eq_replicate_of_mem hsecond
      have hcount : (c :: cs).count b = (c :: cs).length := by
        rw [hall, List.count_replicate_self, List.length_replicate]
      rw [List.count_eq_zero.2 horder, hcount, List.replicate_zero, List.nil_append]
      exact hall

theorem mem_signs {c : Char} (h : isNumberSign c = true) (hcomma : c ≠ ',') (hpoint : c ≠ '.') :
    c = '#' ∨ c = '0' := by
  simp only [isNumberSign, Bool.or_eq_true, beq_iff_eq] at h
  tauto

/-- The last group is what follows the last comma. -/
theorem exists_last_group {whole : List Char} (hcomma : ',' ∈ whole) :
    ∃ lead last, whole = lead ++ ',' :: last ∧ ',' ∉ last ∧
      (whole.reverse.takeWhile (· ≠ ',')).length = last.length := by
  obtain ⟨last, lead, hreverse, hlast⟩ := List.eq_append_cons_of_mem (List.mem_reverse.2 hcomma)
  have hplain : ∀ c ∈ last, decide (c ≠ ',') = true := by
    intro c hc
    rw [decide_eq_true_iff]
    rintro rfl
    exact hlast hc
  have htake := Text.takeWhile_append (b := ',' :: lead) hplain (by simp)
  refine ⟨lead.reverse, last.reverse, ?_, by simpa using hlast, ?_⟩
  · have hwhole := congrArg List.reverse hreverse
    simpa using hwhole
  · rw [hreverse, htake, List.length_reverse]

theorem ite_error_eq_ok {α β : Type} {c : Prop} [Decidable c] {e : α} {x : Except α β} {b : β} :
    (if c then .error e else x) = .ok b ↔ ¬ c ∧ x = .ok b := by
  split <;> simp [*]

/-- The first point divides the signs for the number. -/
theorem split_point (number : List Char) :
    let parts := (Text.splitFirst? (· = '.') number).getD (number, [])
    (number = parts.1 ∧ parts.2 = [] ∨ number = parts.1 ++ '.' :: parts.2) ∧ '.' ∉ parts.1 := by
  cases hsplit : Text.splitFirst? (· = '.') number with
  | some parts =>
    obtain ⟨c, hc, hwhole, hnumber⟩ := Text.splitFirst?_eq_some.1 hsplit
    rw [decide_eq_true_iff] at hc
    subst hc
    exact ⟨.inr hnumber, fun hmem => by simpa using hwhole _ hmem⟩
  | none =>
    refine ⟨.inl ⟨rfl, rfl⟩, fun hmem => ?_⟩
    obtain ⟨a, b, hnumber, ha⟩ := List.eq_append_cons_of_mem hmem
    have hplain : ∀ c ∈ a, decide (c = '.') = false := by
      intro c hc
      rw [decide_eq_false_iff_not]
      rintro rfl
      exact ha hc
    rw [show number = a ++ '.' :: b from hnumber,
      Text.splitFirst?_append b hplain (by decide)] at hsplit
    cases hsplit

theorem says_of_ofParts {before number after : List Char} {p : DecimalPattern}
    (hnumber : ∀ c ∈ number, isNumberSign c = true)
    (hbefore : ∀ c ∈ before, isNumberSign c = false) (h : ofParts before number after = .ok p) :
    p.before = before ∧ p.after = after ∧ ∃ whole fraction, p.Says whole fraction ∧
      (number = whole ∧ fraction = [] ∨ number = whole ++ '.' :: fraction) := by
  have hpoint := split_point number
  simp only [ofParts] at h
  generalize (Text.splitFirst? (· = '.') number).getD (number, []) = parts at h hpoint
  obtain ⟨whole, fraction⟩ := parts
  obtain ⟨hparts, hwholePoint⟩ := hpoint
  have hsigns : (∀ c ∈ whole, isNumberSign c = true) ∧ ∀ c ∈ fraction, isNumberSign c = true := by
    rcases hparts with ⟨rfl, rfl⟩ | rfl
    · exact ⟨hnumber, nofun⟩
    · constructor
      · intro c hc
        exact hnumber c (List.mem_append_left _ hc)
      · intro c hc
        exact hnumber c (List.mem_append_right _ (List.mem_cons_of_mem _ hc))
  simp only [ite_error_eq_ok, Except.ok.injEq] at h
  obtain ⟨hafter, hpoints, hcomma, hfraction, hwhole, hgroup, rfl⟩ := h
  refine ⟨rfl, rfl, whole, fraction, ?_, hparts⟩
  constructor
  case before => exact hbefore
  case after => simpa using hafter
  case wholeSigns =>
    have htwo : ∀ c ∈ whole.filter (· ≠ ','), c = '#' ∨ c = '0' := by
      intro c hc
      obtain ⟨hmem, hne⟩ := List.mem_filter.1 hc
      apply mem_signs (hsigns.1 c hmem) (by simpa using hne)
      rintro rfl
      exact hwholePoint hmem
    exact ⟨_, eq_replicate_append (by decide) htwo (by simpa using hwhole)⟩
  case fractionSigns =>
    have htwo : ∀ c ∈ fraction, c = '0' ∨ c = '#' := by
      intro c hc
      apply Or.symm
      apply mem_signs (hsigns.2 c hc)
      · rintro rfl
        exact hcomma (by simpa using hc)
      · rintro rfl
        exact hpoints (by simpa using hc)
    have heq := eq_replicate_append (by decide) htwo (by simpa using hfraction)
    have hlength := congrArg List.length heq
    rw [List.length_append, List.length_replicate, List.length_replicate] at hlength
    exact ⟨_, hlength, heq⟩
  case ungrouped =>
    intro hnone
    simp [hnone]
  case grouped =>
    intro hmem
    obtain ⟨lead, last, hlast, hplain, hlength⟩ := exists_last_group hmem
    have hcontains : whole.contains ',' = true := List.contains_iff_mem.2 hmem
    simp only [hcontains, ↓reduceIte, Bool.true_and, beq_iff_eq] at hgroup ⊢
    refine ⟨lead, last, hlast, hplain, ?_, hlength⟩
    rintro rfl
    exact hgroup hlength
  case percent => simp

/-- A pattern that is accepted is made up of what stands around a number and of signs for its
digits. -/
theorem says_of_ofText {text : String} {p : DecimalPattern} (h : ofText text = .ok p) :
    ∃ whole fraction, p.Says whole fraction ∧
      (text.toList = p.before ++ whole ++ p.after ∧ whole ≠ [] ∧ fraction = [] ∨
        text.toList = p.before ++ (whole ++ '.' :: fraction) ++ p.after) := by
  simp only [ofText, List.span_eq_takeWhile_dropWhile] at h
  generalize hbefore : text.toList.takeWhile (!isNumberSign ·) = before at h
  generalize hrest : text.toList.dropWhile (!isNumberSign ·) = rest at h
  generalize hnumber : rest.takeWhile isNumberSign = number at h
  generalize hafter : rest.dropWhile isNumberSign = after at h
  have htext : text.toList = before ++ (number ++ after) := by
    rw [← hnumber, ← hafter, List.takeWhile_append_dropWhile, ← hbefore, ← hrest,
      List.takeWhile_append_dropWhile]
  have hsigns : ∀ c ∈ number, isNumberSign c = true := by
    rw [← hnumber]
    exact List.all_eq_true.1 List.all_takeWhile
  have hplain : ∀ c ∈ before, isNumberSign c = false := by
    rw [← hbefore]
    intro c hc
    simpa using List.all_eq_true.1 List.all_takeWhile c hc
  have hparts : number ≠ [] ∧ ofParts before number after = .ok p := by
    split at h
    · cases h
    · next hsome =>
      cases hparts : ofParts before number after with
      | error fault => simp [hparts, Except.mapError] at h
      | ok q =>
        rw [hparts] at h
        cases h
        exact ⟨hsome, rfl⟩
  obtain ⟨rfl, rfl, whole, fraction, hanswer, hmade⟩ := says_of_ofParts hsigns hplain hparts.2
  refine ⟨whole, fraction, hanswer, ?_⟩
  rcases hmade with ⟨rfl, hempty⟩ | rfl
  · exact .inl ⟨by rw [htext, List.append_assoc], hparts.1, hempty⟩
  · exact .inr (by rw [htext, ← List.append_assoc])

/-! ### Writing numbers -/

/-- The digits of a fraction that are written, of which there are at least so many. -/
def fractionDigits (least : ℕ) (fraction : List Char) : List Char :=
  let kept := fraction.length - (fraction.reverse.takeWhile (· = '0')).length
  fraction.take (max kept least)

/-- The digits of a whole number that are written, of which there are at least so many. -/
def wholeDigits (least n : ℕ) : List Char :=
  let digits := (Nat.toDigits 10 n).dropWhile (· = '0')
  List.replicate (least - digits.length) '0' ++ digits

/-- What is not written of a fraction are zeros. -/
theorem fractionDigits_eq {least : ℕ} {fraction : List Char} (hleast : least ≤ fraction.length) :
    let written := fractionDigits least fraction
    (∃ zeros, fraction = written ++ List.replicate zeros '0') ∧ least ≤ written.length ∧
      (least < written.length → written.getLast? ≠ some '0') := by
  obtain ⟨core, zeros, hfraction, hlast, hzeros⟩ := Decimal.trailing_zeros fraction
  have hlength : fraction.length = core.length + zeros := by
    rw [hfraction, List.length_append, List.length_replicate]
  have hkept : fraction.length - zeros = core.length := by omega
  simp only [fractionDigits, hzeros, hkept]
  have hwritten : (fraction.take (max core.length least)).length = max core.length least := by
    rw [List.length_take]
    omega
  refine ⟨⟨zeros - (least - core.length), ?_⟩, by rw [hwritten]; omega, ?_⟩
  · have hdrop : fraction.drop (max core.length least) =
        List.replicate (zeros - (least - core.length)) '0' := by
      rw [hfraction, List.drop_append, List.drop_eq_nil_of_le (Nat.le_max_left _ _),
        List.nil_append, List.drop_replicate]
      congr 1
      omega
    rw [← hdrop, List.take_append_drop]
  · intro hmore
    rw [hwritten] at hmore
    have hmax : max core.length least = core.length := by omega
    rw [hmax, hfraction, List.take_left]
    exact hlast

theorem length_toDigits {n : ℕ} (hn : 0 < n) :
    (Nat.toDigits 10 n).length = (Nat.digits 10 n).length := by
  have hpos : 0 < (Nat.digits 10 n).length := by
    rw [List.length_pos_iff, Nat.digits_ne_nil_iff_ne_zero]
    exact hn.ne'
  apply Nat.le_antisymm
  · apply (Nat.length_toDigits_le_iff (by decide) hpos).2
    exact Nat.lt_base_pow_length_digits (by decide)
  · apply (Nat.digits_length_le_iff (by decide) n).2
    exact (Nat.length_toDigits_le_iff (by decide) Nat.length_toDigits_pos).1 le_rfl

theorem wholeDigits_eq (least n : ℕ) :
    (∀ c ∈ wholeDigits least n, c.isDigit = true) ∧
      Nat.ofDigitChars 10 (wholeDigits least n) 0 = n ∧
      (wholeDigits least n).length = max least (Nat.digits 10 n).length := by
  unfold wholeDigits
  rcases Nat.eq_zero_or_pos n with rfl | hn
  · have hdigits : (Nat.toDigits 10 0).dropWhile (· = '0') = [] := by decide
    simp only [hdigits, List.append_nil, Nat.ofDigitChars_replicate_zero]
    refine ⟨Decimal.isDigit_of_mem_replicate _, by simp, by simp⟩
  · simp only [Decimal.dropWhile_toDigits hn]
    refine ⟨?_, ?_, ?_⟩
    · intro c hc
      rcases List.mem_append.1 hc with hc | hc
      · exact Decimal.isDigit_of_mem_replicate _ c hc
      · exact Nat.isDigit_of_mem_toDigits (by decide) (by decide) hc
    · rw [Nat.ofDigitChars_append, Nat.ofDigitChars_replicate_zero, Nat.mul_zero,
        Nat.ofDigitChars_ten_toDigits]
    · rw [List.length_append, List.length_replicate, ← length_toDigits hn]
      omega

variable {p : DecimalPattern}

theorem shown_eq (d : Decimal) :
    p.shown d = (if p.percent then d.shifted 2 else d).rounded p.mostFraction := by
  rw [shown, Decimal.rounded]
  split
  · rw [Decimal.value_shifted]
    norm_num
  · rw [mul_one]

/-- Digits that read as the units, but for zeros at the end, show the number once they are in
groups. -/
theorem shows_grouped {whole fraction : List Char} {units zeros : ℕ}
    (hwhole : ∀ c ∈ whole, c.isDigit = true) (hfraction : ∀ c ∈ fraction, c.isDigit = true)
    (hunits : units = 10 ^ zeros * Nat.ofDigitChars 10 (whole ++ fraction) 0)
    (hmost : p.mostFraction = fraction.length + zeros)
    (hleast : p.leastFraction ≤ fraction.length)
    (htrimmed : p.leastFraction < fraction.length → fraction.getLast? ≠ some '0')
    (hlength : whole.length =
      max p.leastWhole (Nat.digits 10 (units / 10 ^ p.mostFraction)).length) :
    p.Shows (units / 10 ^ p.mostFraction) (Decimal.grouped p.grouping
      (if whole = [] ∧ fraction = [] then ['0'] else whole)) fraction := by
  generalize hlone : (if whole = [] ∧ fraction = [] then ['0'] else whole) = digits
  have hdigits : ∀ c ∈ digits, c.isDigit = true := by
    rw [← hlone]
    split
    · simp
    · exact hwhole
  have hplain := Decimal.not_mem_of_isDigit hdigits
  have hread : Nat.ofDigitChars 10 (digits ++ fraction) 0 =
      Nat.ofDigitChars 10 (whole ++ fraction) 0 := by
    rw [← hlone]
    split
    · next hnone =>
      rw [hnone.1, hnone.2]
      rfl
    · rfl
  have hfloor : ⌊(units : ℚ) / 10 ^ p.mostFraction⌋₊ = units / 10 ^ p.mostFraction := by
    have hcast := Nat.floor_div_eq_div (K := ℚ) units (10 ^ p.mostFraction)
    rwa [Nat.cast_pow, Nat.cast_ofNat] at hcast
  constructor
  case digits =>
    rw [Decimal.filter_grouped _ hplain]
    intro c hc
    rcases List.mem_append.1 hc with hc | hc
    · exact hdigits c hc
    · exact hfraction c hc
  case reads =>
    rw [Decimal.filter_grouped _ hplain, hread, hunits, hmost, pow_add]
    push_cast
    field_simp
  case least => exact hleast
  case most => omega
  case trimmed => exact htrimmed
  case length =>
    simp only [hfloor, ← hlength]
    by_cases hnone : whole = [] ∧ fraction = []
    · rw [if_pos hnone] at hlone
      rw [if_pos ⟨by rw [hnone.1]; rfl, hnone.2⟩, ← hlone]
      unfold Decimal.grouped
      split <;> rfl
    · rw [if_neg hnone] at hlone
      have hsome : ¬ (whole.length = 0 ∧ fraction = []) := by
        rwa [List.length_eq_zero_iff]
      rw [if_neg hsome, Decimal.filter_grouped _ hplain, hlone]
  case ungrouped =>
    intro hnone
    rwa [Decimal.grouped, if_pos hnone]
  case grouped =>
    intro hsize
    obtain ⟨first, others, hpieces, _, hfirst, hempty, hothers⟩ :=
      Decimal.pieces_grouped hsize hplain
    exact ⟨first, others, hpieces, hfirst, hempty, hothers⟩

/-- The number is written as the pattern asks for it, with its sign in front. -/
theorem write_shows {whole fraction : List Char} (hp : p.Says whole fraction) (d : Decimal) :
    ∃ whole fraction, p.write d = (if p.shown d < 0 then ['-'] else []) ++ p.before ++ whole ++
      (if fraction = [] then [] else '.' :: fraction) ++ p.after ∧
      p.Shows |p.shown d| whole fraction := by
  generalize hscaled : (if p.percent then d.shifted 2 else d) = e
  generalize hunits : e.unitsAt p.mostFraction = units
  obtain ⟨hwhole, hlength, hdigits, hread⟩ := e.toFixed_digits p.mostFraction
  have hshown : |p.shown d| = (units : ℚ) / 10 ^ p.mostFraction := by
    rw [shown_eq, hscaled, Decimal.abs_rounded, hunits]
  have hnegative : (e.toFixed p.mostFraction).negative = true ↔ p.shown d < 0 := by
    rw [shown_eq, hscaled, Decimal.rounded_neg_iff]
    simp [Decimal.toFixed]
  rw [hunits] at hwhole hread
  generalize hfixed : e.toFixed p.mostFraction = fixed at hwhole hlength hdigits hread hnegative
  have hleast : p.leastFraction ≤ fixed.fraction.length := by
    obtain ⟨optional, hmost, _⟩ := hp.fractionSigns
    omega
  obtain ⟨⟨zeros, hfraction⟩, hle, htrimmed⟩ := fractionDigits_eq hleast
  obtain ⟨hwritten, hnumber, hcount⟩ := wholeDigits_eq p.leastWhole (units / 10 ^ p.mostFraction)
  have hwrite : p.write d = (if fixed.negative then ['-'] else []) ++ p.before ++
      Decimal.grouped p.grouping (if wholeDigits p.leastWhole (units / 10 ^ p.mostFraction) = [] ∧
        fractionDigits p.leastFraction fixed.fraction = [] then ['0']
        else wholeDigits p.leastWhole (units / 10 ^ p.mostFraction)) ++
      (if fractionDigits p.leastFraction fixed.fraction = [] then []
        else '.' :: fractionDigits p.leastFraction fixed.fraction) ++ p.after := by
    simp only [write, hscaled, hfixed, hwhole]
    rfl
  generalize fractionDigits p.leastFraction fixed.fraction = written at *
  have hmost : p.mostFraction = written.length + zeros := by
    rw [← hlength, hfraction, List.length_append, List.length_replicate]
  have hreads : units = 10 ^ zeros * Nat.ofDigitChars 10
      (wholeDigits p.leastWhole (units / 10 ^ p.mostFraction) ++ written) 0 := by
    rw [hwhole, hfraction, Nat.ofDigitChars_append, Nat.ofDigitChars_append,
      Nat.ofDigitChars_ten_toDigits, Nat.ofDigitChars_replicate_zero] at hread
    rw [Nat.ofDigitChars_append, hnumber, hread]
  rw [hshown]
  refine ⟨_, written, ?_, shows_grouped hwritten ?_ hreads hmost hle htrimmed hcount⟩
  · simpa only [hnegative] using hwrite
  · intro c hc
    exact hdigits c (hfraction ▸ List.mem_append_left _ hc)

/-- A pattern that is accepted says what its text is made up of; and with it every number is written
as the digits of the rounded number, between what the pattern puts around it, and after a sign only
where the rounded number is negative. -/
theorem ofText_write {text : String} {p : DecimalPattern} (h : ofText text = .ok p) :
    (∃ whole fraction, p.Says whole fraction ∧
      (text.toList = p.before ++ whole ++ p.after ∧ whole ≠ [] ∧ fraction = [] ∨
        text.toList = p.before ++ (whole ++ '.' :: fraction) ++ p.after)) ∧
    ∀ d : Decimal, ∃ whole fraction,
      p.write d = (if p.shown d < 0 then ['-'] else []) ++ p.before ++ whole ++
        (if fraction = [] then [] else '.' :: fraction) ++ p.after ∧
      p.Shows |p.shown d| whole fraction := by
  obtain ⟨whole, fraction, hanswer, hmade⟩ := says_of_ofText h
  exact ⟨⟨whole, fraction, hanswer, hmade⟩, write_shows hanswer⟩

/-- A half is rounded to the even neighbour, after the number is taken a hundred times. -/
theorem ofText_write_percent :
    let text := "#,##0.0#%"
    let p : DecimalPattern := ⟨[], ['%'], 1, 3, 1, 2, true⟩
    let d : Decimal := ⟨-123456785, 5⟩
    ofText text = .ok p ∧ p.write d = "-123,456.78%".toList ∧ p.shown d = -123456.78 ∧
    ∃ whole fraction, p.write d = (if p.shown d < 0 then ['-'] else []) ++ p.before ++ whole ++
      (if fraction = [] then [] else '.' :: fraction) ++ p.after ∧
      p.Shows |p.shown d| whole fraction := by
  intro text p d
  have h : ofText text = .ok p := by decide +kernel
  refine ⟨h, by decide +kernel, ?_, (ofText_write h).2 d⟩
  have hodd : ¬ Even (12345679 : ℤ) := by decide
  norm_num [shown, Decimal.value, roundHalfEven, p, d, hodd]

end TextTemplate.DecimalPattern
