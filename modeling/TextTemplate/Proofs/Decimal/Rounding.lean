import Mathlib.Algebra.Order.Field.Power
import Mathlib.Data.Rat.Floor
import Mathlib.Tactic.FieldSimp
import Mathlib.Tactic.Linarith
import Mathlib.Tactic.Positivity
import Mathlib.Tactic.Ring
import TextTemplate.Decimal.Basic

/-! Decimal numbers as rational ones, and what rounding them gives. -/

namespace TextTemplate

/-- The nearest whole number; of two that are as near, the even one. -/
def roundHalfEven (q : ℚ) : ℤ :=
  if Int.fract q < 1 / 2 then ⌊q⌋
  else if 1 / 2 < Int.fract q then ⌊q⌋ + 1
  else if Even ⌊q⌋ then ⌊q⌋
  else ⌊q⌋ + 1

theorem abs_sub_roundHalfEven (q : ℚ) : |q - roundHalfEven q| ≤ 1 / 2 := by
  have hlow := Int.fract_nonneg q
  have hhigh := Int.fract_lt_one q
  have hsplit := Int.floor_add_fract q
  rw [abs_le, roundHalfEven]
  split_ifs <;> push_cast <;> constructor <;> linarith

theorem even_roundHalfEven {q : ℚ} (h : |q - roundHalfEven q| = 1 / 2) :
    Even (roundHalfEven q) := by
  have hlow := Int.fract_nonneg q
  have hhigh := Int.fract_lt_one q
  have hsplit := Int.floor_add_fract q
  unfold roundHalfEven at h ⊢
  split_ifs at h ⊢ with hbelow habove heven
  · rw [abs_eq (by norm_num)] at h
    rcases h with h | h <;> linarith
  · push_cast at h
    rw [abs_eq (by norm_num)] at h
    rcases h with h | h <;> linarith
  · exact heven
  · exact (Int.not_even_iff_odd.1 heven).add_one

/-- Only one whole number is that near, and even where two are as near. -/
theorem roundHalfEven_eq_iff {q : ℚ} {n : ℤ} :
    roundHalfEven q = n ↔ |q - n| ≤ 1 / 2 ∧ (|q - n| = 1 / 2 → Even n) := by
  constructor
  · rintro rfl
    exact ⟨abs_sub_roundHalfEven q, even_roundHalfEven⟩
  · rintro ⟨hnear, heven⟩
    have hround := abs_sub_roundHalfEven q
    by_contra hne
    have hapart : (1 : ℤ) ≤ |roundHalfEven q - n| := Int.one_le_abs (sub_ne_zero.2 hne)
    have hdistance : (1 : ℚ) ≤ |(roundHalfEven q : ℚ) - n| := by exact_mod_cast hapart
    have htriangle := abs_add_le ((roundHalfEven q : ℚ) - q) (q - n)
    rw [sub_add_sub_cancel, abs_sub_comm _ q] at htriangle
    -- Both are at the distance of a half, and so they are even neighbours.
    obtain ⟨i, hi⟩ := even_roundHalfEven (q := q) (by linarith)
    obtain ⟨j, hj⟩ := heven (by linarith)
    have hclose : |(roundHalfEven q : ℚ) - n| ≤ 1 := by linarith
    have hneighbours : |roundHalfEven q - n| ≤ 1 := by exact_mod_cast hclose
    rw [abs_le] at hneighbours
    omega

theorem roundHalfEven_neg (q : ℚ) : roundHalfEven (-q) = -roundHalfEven q := by
  have hmirror : |-q - (-roundHalfEven q : ℤ)| = |q - roundHalfEven q| := by
    push_cast
    rw [← abs_neg]
    congr 1
    ring
  apply roundHalfEven_eq_iff.2
  rw [hmirror, even_neg]
  exact ⟨abs_sub_roundHalfEven q, even_roundHalfEven⟩

theorem roundHalfEven_intCast (n : ℤ) : roundHalfEven n = n := by
  apply roundHalfEven_eq_iff.2
  norm_num

theorem roundHalfEven_nonneg {q : ℚ} (h : 0 ≤ q) : 0 ≤ roundHalfEven q := by
  have hround := abs_sub_roundHalfEven q
  rw [abs_le] at hround
  have habove : (-1 : ℚ) < roundHalfEven q := by linarith
  have : -1 < roundHalfEven q := by exact_mod_cast habove
  omega

/-- Rounding does not depend on the sign. -/
theorem roundHalfEven_abs (q : ℚ) : roundHalfEven |q| = |roundHalfEven q| := by
  rcases le_total 0 q with h | h
  · rw [abs_of_nonneg h, abs_of_nonneg (roundHalfEven_nonneg h)]
  · have hneg := roundHalfEven_nonneg (neg_nonneg.2 h)
    rw [roundHalfEven_neg, neg_nonneg] at hneg
    rw [abs_of_nonpos h, abs_of_nonpos hneg, roundHalfEven_neg]

namespace Decimal

/-- The number that the spelling stands for. -/
def value (d : Decimal) : ℚ := d.coefficient * 10 ^ (-d.scale)

theorem value_ofInt (n : ℤ) : (ofInt n).value = n := by
  rw [value, ofInt, neg_zero, zpow_zero, mul_one]

theorem cast_tenTo (n : ℕ) : ((tenTo n : ℕ) : ℚ) = 10 ^ n := Nat.cast_pow 10 n

theorem value_shifted (d : Decimal) (n : ℕ) : (d.shifted n).value = d.value * 10 ^ n := by
  simp only [value, shifted]
  push_cast [cast_tenTo]
  ring

theorem abs_value (d : Decimal) : |d.value| = d.coefficient.natAbs * 10 ^ (-d.scale) := by
  have hpower : (0 : ℚ) < 10 ^ (-d.scale) := by positivity
  rw [value, abs_mul, abs_of_pos hpower, Nat.cast_natAbs, Int.cast_abs]

theorem divideHalfEven_eq (num : ℕ) {den : ℕ} (hden : 0 < den) :
    (divideHalfEven num den : ℤ) = roundHalfEven (num / den) := by
  have hpos : (0 : ℚ) < den := by exact_mod_cast hden
  have hrest : num % den < den := Nat.mod_lt num hden
  have hsplit : (num : ℚ) / den = (num / den : ℕ) + (num % den : ℕ) / den := by
    have hnum : (num : ℚ) = den * (num / den : ℕ) + (num % den : ℕ) := by
      exact_mod_cast (Nat.div_add_mod num den).symm
    field_simp
    linarith
  simp only [divideHalfEven]
  generalize num / den = q at hsplit ⊢
  generalize num % den = r at hsplit hrest ⊢
  have hshare : (0 : ℚ) ≤ r / den := by positivity
  symm
  apply roundHalfEven_eq_iff.2
  rw [hsplit]
  split_ifs with hbelow habove
  · have hhalf : (r : ℚ) / den < 1 / 2 := by
      rw [div_lt_div_iff₀ hpos (by norm_num)]
      exact_mod_cast (by omega : r * 2 < 1 * den)
    have herror : |(q : ℚ) + r / den - (q : ℤ)| = r / den := by
      push_cast
      rw [add_sub_cancel_left, abs_of_nonneg hshare]
    rw [herror]
    exact ⟨hhalf.le, fun h => absurd h hhalf.ne⟩
  · have hhalf : 1 / 2 < (r : ℚ) / den := by
      rw [div_lt_div_iff₀ (by norm_num) hpos]
      exact_mod_cast (by omega : 1 * den < r * 2)
    have hone : (r : ℚ) / den < 1 := by
      rw [div_lt_one hpos]
      exact_mod_cast hrest
    have herror : |(q : ℚ) + r / den - ((q + 1 : ℕ) : ℤ)| = 1 - r / den := by
      push_cast
      rw [add_sub_add_left_eq_sub, abs_of_neg (by linarith), neg_sub]
    rw [herror]
    exact ⟨by linarith, fun h => by linarith⟩
  · have hhalf : (r : ℚ) / den = 1 / 2 := by
      rw [div_eq_div_iff hpos.ne' (by norm_num)]
      exact_mod_cast (by omega : r * 2 = 1 * den)
    have hparity : q % 2 = 0 ∨ q % 2 = 1 := Nat.mod_two_eq_zero_or_one q
    have heven : Even ((q + q % 2 : ℕ) : ℤ) := by
      rw [Int.even_coe_nat, Nat.even_iff]
      omega
    refine ⟨?_, fun _ => heven⟩
    rcases hparity with h | h <;> rw [h, hhalf, abs_le] <;> push_cast <;> constructor <;> linarith

/-- A number is below the power of ten with as many zeros as it has digits. -/
theorem lt_tenTo_digitCount (n : ℕ) : n < 10 ^ digitCount n := by
  unfold digitCount
  split
  · next h => simp [h]
  · exact (Nat.length_toDigits_le_iff (by decide) Nat.length_toDigits_pos).1 (Nat.le_refl _)

/-- In units of the last place, the number is rounded. -/
theorem unitsAt_eq (d : Decimal) (places : ℕ) :
    (d.unitsAt places : ℤ) = roundHalfEven (|d.value| * 10 ^ places) := by
  have hscaled : |d.value| * 10 ^ places =
      d.coefficient.natAbs * 10 ^ ((places : ℤ) - d.scale) := by
    rw [abs_value, mul_assoc, ← zpow_natCast, ← zpow_add₀ (by norm_num), neg_add_eq_sub]
  rw [hscaled, unitsAt]
  generalize d.coefficient.natAbs = m
  simp only
  split
  · next hscale =>
    have hwhole : (m : ℚ) * 10 ^ ((places : ℤ) - d.scale) =
        ((m * tenTo (places - d.scale).toNat : ℕ) : ℤ) := by
      push_cast [cast_tenTo]
      rw [← zpow_natCast, Int.toNat_of_nonneg (sub_nonneg.2 hscale)]
    rw [hwhole, roundHalfEven_intCast]
  · next hscale =>
    have hdrop : (10 : ℚ) ^ ((places : ℤ) - d.scale) =
        (10 ^ (d.scale - places).toNat)⁻¹ := by
      rw [← zpow_natCast, Int.toNat_of_nonneg (by omega), ← zpow_neg, neg_sub]
    rw [hdrop, ← div_eq_mul_inv]
    split
    · next hfew =>
      generalize (d.scale - places).toNat = k at hfew ⊢
      have hpower : 10 ^ (digitCount m + 1) ≤ 10 ^ k := Nat.pow_le_pow_right (by decide) hfew
      have hlt := lt_tenTo_digitCount m
      have hsmall : (m : ℚ) / 10 ^ k < 1 / 2 := by
        rw [div_lt_div_iff₀ (by positivity) (by norm_num)]
        exact_mod_cast (by omega : m * 2 < 1 * 10 ^ k)
      have hnonneg : (0 : ℚ) ≤ m / 10 ^ k := by positivity
      symm
      apply roundHalfEven_eq_iff.2
      rw [Nat.cast_zero, Int.cast_zero, sub_zero, abs_of_nonneg hnonneg]
      exact ⟨hsmall.le, fun h => absurd h hsmall.ne⟩
    · have hpos : 0 < tenTo (d.scale - places).toNat := Nat.pow_pos (by decide)
      rw [divideHalfEven_eq m hpos, cast_tenTo]

/-- The number rounded to so many places after the point. -/
def rounded (d : Decimal) (places : ℕ) : ℚ :=
  roundHalfEven (d.value * 10 ^ places) / 10 ^ places

theorem abs_roundHalfEven_value (d : Decimal) (places : ℕ) :
    |roundHalfEven (d.value * 10 ^ places)| = d.unitsAt places := by
  have hpower : (0 : ℚ) < 10 ^ places := by positivity
  rw [unitsAt_eq, ← roundHalfEven_abs, abs_mul, abs_of_pos hpower]

theorem abs_rounded (d : Decimal) (places : ℕ) :
    |d.rounded places| = d.unitsAt places / 10 ^ places := by
  have hpower : (0 : ℚ) < 10 ^ places := by positivity
  have hunits := abs_roundHalfEven_value d places
  rw [rounded, abs_div, abs_of_pos hpower]
  congr 1
  exact_mod_cast hunits

/-- What is left of a negative number is negative, unless nothing is left. -/
theorem rounded_neg_iff (d : Decimal) (places : ℕ) :
    d.rounded places < 0 ↔ d.coefficient < 0 ∧ d.unitsAt places ≠ 0 := by
  have hpower : (0 : ℚ) < 10 ^ places := by positivity
  have hscale : (0 : ℚ) < 10 ^ (-d.scale) := by positivity
  have hunits := abs_roundHalfEven_value d places
  have hsign : d.rounded places < 0 ↔ roundHalfEven (d.value * 10 ^ places) < 0 := by
    rw [rounded, div_neg_iff]
    simp [hpower, hpower.le]
  rw [hsign]
  by_cases hcoefficient : d.coefficient < 0
  · have hvalue : d.value * 10 ^ places ≤ 0 := by
      have hnegative : (d.coefficient : ℚ) < 0 := by exact_mod_cast hcoefficient
      exact mul_nonpos_of_nonpos_of_nonneg
        (mul_nonpos_of_nonpos_of_nonneg hnegative.le hscale.le) hpower.le
    have hround := roundHalfEven_nonneg (neg_nonneg.2 hvalue)
    rw [roundHalfEven_neg] at hround
    rw [abs_of_nonpos (by omega)] at hunits
    omega
  · have hvalue : 0 ≤ d.value * 10 ^ places := by
      have hnonneg : (0 : ℚ) ≤ d.coefficient := by exact_mod_cast not_lt.1 hcoefficient
      exact mul_nonneg (mul_nonneg hnonneg hscale.le) hpower.le
    have hround := roundHalfEven_nonneg hvalue
    omega

end Decimal

end TextTemplate
