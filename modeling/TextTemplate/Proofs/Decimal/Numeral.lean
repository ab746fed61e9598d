import TextTemplate.Proofs.Decimal.Digits
import TextTemplate.Proofs.Decimal.Rounding
import TextTemplate.Text.Name

/-! Decimal numerals, and what the texts of numbers read as. -/

namespace TextTemplate

/-- The sign in front of a number. -/
inductive NumeralSign where
  | none
  | plus
  | minus
  deriving DecidableEq, Repr

namespace NumeralSign

def text : NumeralSign → List Char
  | none => []
  | plus => ['+']
  | minus => ['-']

def applied (n : ℕ) : NumeralSign → ℤ
  | minus => -n
  | _ => n

theorem applied_mul (k n : ℕ) (sign : NumeralSign) :
    sign.applied (k * n) = k * sign.applied n := by
  cases sign <;> simp [applied]

end NumeralSign

/-- The power of ten that a numeral may end with. -/
structure NumeralPower where
  capital : Bool
  sign : NumeralSign
  digits : List Char
  deriving DecidableEq, Repr

namespace NumeralPower

def text (p : NumeralPower) : List Char :=
  (if p.capital then 'E' else 'e') :: (p.sign.text ++ p.digits)

def exponent (p : NumeralPower) : ℤ := p.sign.applied (Nat.ofDigitChars 10 p.digits 0)

end NumeralPower

/-- A decimal number as it is written: digits with at most one point among them, which a sign may
precede and a power of ten follow. -/
structure Numeral where
  sign : NumeralSign
  whole : List Char
  fraction : Option (List Char)
  power : Option NumeralPower
  deriving DecidableEq, Repr

namespace Numeral

variable {n : Numeral}

def base (n : Numeral) : List Char :=
  n.sign.text ++ n.whole ++ (n.fraction.map fun digits => '.' :: digits).getD []

def text (n : Numeral) : List Char := n.base ++ (n.power.map NumeralPower.text).getD []

def digits (n : Numeral) : List Char := n.whole ++ n.fraction.getD []

/-- How many digits of the written number stand behind the point of its value. -/
def scale (n : Numeral) : ℤ :=
  ((n.fraction.getD []).length : ℤ) - (n.power.map NumeralPower.exponent).getD 0

/-- The number that is written. -/
def value (n : Numeral) : ℚ :=
  (n.sign.applied (Nat.ofDigitChars 10 n.digits 0) : ℚ) * 10 ^ (-n.scale)

/-- There are digits, and nothing else where digits belong. The place of the last of them is told in
64 bits. -/
structure IsWritten (n : Numeral) : Prop where
  digits_ne_nil : n.digits ≠ []
  isDigit : ∀ c ∈ n.digits, c.isDigit = true
  power_ne_nil : ∀ p ∈ n.power, p.digits ≠ []
  power_isDigit : ∀ p ∈ n.power, ∀ c ∈ p.digits, c.isDigit = true
  scale_bounds : -Decimal.maxScale - 1 ≤ n.scale ∧ n.scale ≤ Decimal.maxScale

end Numeral

namespace Decimal

theorem ne_of_isDigit {c other : Char} (hc : c.isDigit = true) (hother : other.isDigit = false) :
    c ≠ other := by
  rintro rfl
  rw [hc] at hother
  cases hother

theorem readSigned?_written (sign : NumeralSign) {ds : List Char} (hsome : ds ≠ [])
    (hds : ∀ c ∈ ds, c.isDigit = true) :
    readSigned? (sign.text ++ ds) = some (sign.applied (Nat.ofDigitChars 10 ds 0)) := by
  have hplain : readSigned?.plain ds = some (Nat.ofDigitChars 10 ds 0) := by
    rw [readSigned?.plain, if_pos ⟨hsome, List.all_eq_true.2 hds⟩, readDigits_eq_some hds]
  cases sign with
  | plus => simp [readSigned?, NumeralSign.text, NumeralSign.applied, hplain]
  | minus => simp [readSigned?, NumeralSign.text, NumeralSign.applied, hplain]
  | none =>
    obtain ⟨d, ds, rfl⟩ := List.exists_cons_of_ne_nil hsome
    have hd := hds d List.mem_cons_self
    have hminus : d ≠ '-' := ne_of_isDigit hd (by decide)
    have hplus : d ≠ '+' := ne_of_isDigit hd (by decide)
    simp [readSigned?, NumeralSign.text, NumeralSign.applied, hplain, hminus, hplus]

theorem readInt?_written (sign : NumeralSign) {ds : List Char} (hsome : ds ≠ [])
    (hds : ∀ c ∈ ds, c.isDigit = true) :
    readInt? (sign.text ++ ds) = some (sign.applied (Nat.ofDigitChars 10 ds 0)) := by
  have hread := readDigits_eq_some hds 0
  obtain ⟨d, ds, rfl⟩ := List.exists_cons_of_ne_nil hsome
  have hd := hds d List.mem_cons_self
  have hminus : d ≠ '-' := ne_of_isDigit hd (by decide)
  have hplus : d ≠ '+' := ne_of_isDigit hd (by decide)
  have hunder : d ≠ '_' := ne_of_isDigit hd (by decide)
  cases sign <;>
    simp [readInt?, readNat?, NumeralSign.text, NumeralSign.applied, hread, hminus, hplus, hunder]

/-- A text is read in three parts: the power, the point, and the digits on both sides of it. -/
theorem ofText?_of_parts {cs : List Char} (base ds : List Char) {exponent m : ℤ} {places : ℕ}
    (hpower : Text.splitFirst? (fun c => c = 'e' ∨ c = 'E') cs = none ∧ base = cs ∧ exponent = 0 ∨
      ∃ power, Text.splitFirst? (fun c => c = 'e' ∨ c = 'E') cs = some (base, power) ∧
        readSigned? power = some exponent)
    (hpoint : Text.splitFirst? (· = '.') base = none ∧ ds = base ∧ places = 0 ∨
      ∃ whole fraction, Text.splitFirst? (· = '.') base = some (whole, fraction) ∧
        ds = whole ++ fraction ∧ places = (fraction.filter (· ≠ '_')).length)
    (hread : readInt? ds = some m)
    (hscale : -maxScale - 1 ≤ places - exponent ∧ places - exponent ≤ maxScale) :
    ofText? cs = some ⟨m, places - exponent⟩ := by
  unfold ofText?
  rcases hpower with ⟨hmark, rfl, rfl⟩ | ⟨power, hmark, hexponent⟩
  · rcases hpoint with ⟨hsplit, rfl, rfl⟩ | ⟨whole, fraction, hsplit, rfl, rfl⟩
    · simp only [hmark, hsplit, hread, if_pos hscale, Option.bind_eq_bind, Option.bind_some]
    · simp only [hmark, hsplit, hread, if_pos hscale, Option.bind_eq_bind, Option.bind_some]
  · rcases hpoint with ⟨hsplit, rfl, rfl⟩ | ⟨whole, fraction, hsplit, rfl, rfl⟩
    · simp only [hmark, hexponent, Option.map_some, hsplit, hread, if_pos hscale,
        Option.bind_eq_bind, Option.bind_some]
    · simp only [hmark, hexponent, Option.map_some, hsplit, hread, if_pos hscale,
        Option.bind_eq_bind, Option.bind_some]

end Decimal

namespace Numeral

variable {n : Numeral} (h : n.IsWritten)
include h

theorem mem_base {c : Char} (hc : c ∈ n.base) : c.isDigit = true ∨ c ∈ ['+', '-', '.'] := by
  have hdigits : n.digits = n.whole ++ n.fraction.getD [] := rfl
  have hdigit := h.isDigit c
  simp only [base, List.mem_append] at hc
  rw [hdigits, List.mem_append] at hdigit
  rcases hc with (hc | hc) | hc
  · right
    cases hsign : n.sign <;> simp_all [NumeralSign.text]
  · exact .inl (hdigit (.inl hc))
  · cases hfraction : n.fraction with
    | none => simp [hfraction] at hc
    | some ds =>
      rw [hfraction] at hc hdigit
      rcases List.mem_cons.1 hc with rfl | hc
      · exact .inr (by decide)
      · exact .inl (hdigit (.inr hc))

/-- A sign, digits and a point are not the mark of a power. -/
theorem not_mark_of_mem_base {c : Char} (hc : c ∈ n.base) :
    decide (c = 'e' ∨ c = 'E') = false := by
  rcases mem_base h hc with hdigit | hother
  · have hlower : c ≠ 'e' := Decimal.ne_of_isDigit hdigit (by decide)
    have hupper : c ≠ 'E' := Decimal.ne_of_isDigit hdigit (by decide)
    simp [hlower, hupper]
  · simp only [List.mem_cons, List.not_mem_nil, or_false] at hother
    rcases hother with rfl | rfl | rfl <;> decide

theorem not_point_of_mem {c : Char} (hc : c ∈ n.sign.text ++ n.whole) :
    decide (c = '.') = false := by
  rcases List.mem_append.1 hc with hc | hc
  · cases hsign : n.sign <;> simp [hsign, NumeralSign.text] at hc <;> rw [hc] <;> decide
  · have hdigit := h.isDigit c (List.mem_append_left _ hc)
    exact decide_eq_false (Decimal.ne_of_isDigit hdigit (by decide))

/-- There are no blanks in a numeral. -/
theorem isBlank_of_mem_text {c : Char} (hc : c ∈ n.text) : Text.isBlank c = false := by
  have hdigit (hc : c.isDigit = true) : Text.isBlank c = false := by
    apply Text.isBlank_of_isNameChar
    rw [Text.isNameChar, Char.isAlphanum, hc, Bool.or_true, Bool.true_or]
  rcases List.mem_append.1 hc with hc | hc
  · rcases mem_base h hc with hc | hc
    · exact hdigit hc
    · simp only [List.mem_cons, List.not_mem_nil, or_false] at hc
      rcases hc with rfl | rfl | rfl <;> decide
  · cases hp : n.power with
    | none => simp [hp] at hc
    | some p =>
      simp only [hp, Option.map_some, Option.getD_some, NumeralPower.text, List.mem_cons,
        List.mem_append] at hc
      rcases hc with rfl | hc | hc
      · cases p.capital <;> decide
      · cases hsign : p.sign <;> simp [hsign, NumeralSign.text] at hc <;> rw [hc] <;> decide
      · exact hdigit (h.power_isDigit p hp c hc)

/-- A numeral is read as its digits, the last of them at the place where it stands. -/
theorem ofText?_text :
    Decimal.ofText? n.text = some ⟨n.sign.applied (Nat.ofDigitChars 10 n.digits 0), n.scale⟩ := by
  have hmark := fun c hc => not_mark_of_mem_base h (c := c) hc
  have hpoint := fun c hc => not_point_of_mem h (c := c) hc
  apply Decimal.ofText?_of_parts n.base (n.sign.text ++ n.digits)
  · cases hp : n.power with
    | none =>
      have htext : n.text = n.base := by simp [text, hp]
      rw [htext]
      exact .inl ⟨Text.splitFirst?_eq_none hmark, rfl, rfl⟩
    | some p =>
      have hletter : decide ((if p.capital then 'E' else 'e') = 'e' ∨
          (if p.capital then 'E' else 'e') = 'E') = true := by
        cases p.capital <;> decide
      have htext : n.text =
          n.base ++ (if p.capital then 'E' else 'e') :: (p.sign.text ++ p.digits) := by
        simp [text, hp, NumeralPower.text]
      rw [htext]
      exact .inr ⟨_, Text.splitFirst?_append _ hmark hletter,
        Decimal.readSigned?_written p.sign (h.power_ne_nil p hp) (h.power_isDigit p hp)⟩
  · cases hf : n.fraction with
    | none =>
      have hbase : n.base = n.sign.text ++ n.whole := by simp [base, hf]
      rw [digits, hf, hbase]
      exact .inl ⟨Text.splitFirst?_eq_none hpoint, by simp, rfl⟩
    | some ds =>
      have hbase : n.base = n.sign.text ++ n.whole ++ '.' :: ds := by simp [base, hf]
      have hkept : ds.filter (· ≠ '_') = ds := by
        apply List.filter_eq_self.2
        intro c hc
        have hmem : c ∈ n.digits := by
          rw [digits, hf]
          exact List.mem_append_right _ hc
        exact decide_eq_true (Decimal.ne_of_isDigit (h.isDigit c hmem) (by decide))
      rw [digits, hf, hbase]
      exact .inr ⟨_, ds, Text.splitFirst?_append _ hpoint (by decide), by simp, by rw [hkept]; rfl⟩
  · exact Decimal.readInt?_written n.sign h.digits_ne_nil h.isDigit
  · exact h.scale_bounds

theorem map_value_ofText?_text : (Decimal.ofText? n.text).map Decimal.value = some n.value := by
  rw [ofText?_text h]
  rfl

end Numeral

end TextTemplate
