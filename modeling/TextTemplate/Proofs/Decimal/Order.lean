import Mathlib.Order.Compare
import TextTemplate.Proofs.Decimal.Rounding

/-! Decimal numbers compare as the rational ones that they spell. -/

namespace TextTemplate.Decimal

/-- A number is not below the power of ten with one zero less than it has digits. -/
theorem tenTo_digitCount_le {n : ℕ} (hn : 0 < n) : 10 ^ (digitCount n - 1) ≤ n := by
  rw [digitCount, if_neg hn.ne']
  have hsome := Nat.length_toDigits_pos (b := 10) (n := n)
  by_cases hone : (Nat.toDigits 10 n).length = 1
  · rw [hone]
    exact hn
  · by_contra hlt
    have hless := (Nat.length_toDigits_le_iff (by decide) (by omega)).2 (Nat.not_le.1 hlt)
    omega

theorem digitCount_pos {n : ℕ} (hn : 0 < n) : 0 < digitCount n := by
  rw [digitCount, if_neg hn.ne']
  exact Nat.length_toDigits_pos

/-- A magnitude is below the power of ten of the place in front of its leading digit. -/
theorem magnitude_lt (m : ℕ) (s : ℤ) :
    (m : ℚ) * 10 ^ (-s) < 10 ^ ((digitCount m : ℤ) - s) := by
  have hbelow : (m : ℚ) < 10 ^ (digitCount m : ℤ) := by
    rw [zpow_natCast]
    exact_mod_cast lt_tenTo_digitCount m
  rw [sub_eq_add_neg, zpow_add₀ (by norm_num)]
  exact mul_lt_mul_of_pos_right hbelow (by positivity)

/-- A magnitude is not below the power of ten of the place of its leading digit. -/
theorem le_magnitude {m : ℕ} (hm : 0 < m) (s : ℤ) :
    10 ^ ((digitCount m : ℤ) - s - 1) ≤ (m : ℚ) * 10 ^ (-s) := by
  have hcount := digitCount_pos hm
  have habove : (10 : ℚ) ^ ((digitCount m - 1 : ℕ) : ℤ) ≤ m := by
    rw [zpow_natCast]
    exact_mod_cast tenTo_digitCount_le hm
  have hplace : (digitCount m : ℤ) - s - 1 = ((digitCount m - 1 : ℕ) : ℤ) + -s := by omega
  rw [hplace, zpow_add₀ (by norm_num)]
  exact mul_le_mul_of_nonneg_right habove (by positivity)

/-- Of two magnitudes, the one whose leading digit stands further left is the greater. -/
theorem magnitude_lt_of_places {m n : ℕ} {s t : ℤ} (hn : 0 < n)
    (h : (digitCount m : ℤ) - s < (digitCount n : ℤ) - t) :
    (m : ℚ) * 10 ^ (-s) < n * 10 ^ (-t) := by
  have hpower : (10 : ℚ) ^ ((digitCount m : ℤ) - s) ≤ 10 ^ ((digitCount n : ℤ) - t - 1) :=
    zpow_le_zpow_right₀ (by norm_num) (by omega)
  calc (m : ℚ) * 10 ^ (-s) < 10 ^ ((digitCount m : ℤ) - s) := magnitude_lt m s
    _ ≤ 10 ^ ((digitCount n : ℤ) - t - 1) := hpower
    _ ≤ n * 10 ^ (-t) := le_magnitude hn t

/-- Whole numbers compare as they do in any unit. -/
theorem cmp_units (m n : ℕ) {unit : ℚ} (hunit : 0 < unit) :
    cmp ((m : ℚ) * unit) (n * unit) = compare m n := by
  rw [cmp_mul_pos_right hunit, Nat.strictMono_cast.cmp_map_eq, cmp_eq_compare]

/-- The digits of two magnitudes compare once they are in units of one place. -/
theorem cmp_magnitudes (m n : ℕ) {s t : ℤ} (h : s ≤ t) :
    cmp ((m : ℚ) * 10 ^ (-s)) (n * 10 ^ (-t)) = compare (m * tenTo (t - s).toNat) n := by
  have hunits : (m : ℚ) * 10 ^ (-s) = (m * tenTo (t - s).toNat : ℕ) * 10 ^ (-t) := by
    have hsplit : -s = ((t - s).toNat : ℤ) + -t := by omega
    rw [hsplit, zpow_add₀ (by norm_num), zpow_natCast, ← mul_assoc]
    push_cast [cast_tenTo]
    rfl
  rw [hunits, cmp_units _ _ (by positivity)]

theorem compareMagnitudes_eq_cmp (m : ℕ) (s : ℤ) (n : ℕ) (t : ℤ) :
    compareMagnitudes m s n t = cmp ((m : ℚ) * 10 ^ (-s)) (n * 10 ^ (-t)) := by
  rw [compareMagnitudes]
  by_cases hzero : m = 0 ∨ n = 0
  · rw [if_pos hzero]
    -- Nothing is nothing in every unit.
    rcases hzero with rfl | rfl
    · rw [Nat.cast_zero, zero_mul, ← cmp_units 0 n (by positivity : (0 : ℚ) < 10 ^ (-t)),
        Nat.cast_zero, zero_mul]
    · rw [Nat.cast_zero, zero_mul, ← cmp_units m 0 (by positivity : (0 : ℚ) < 10 ^ (-s)),
        Nat.cast_zero, zero_mul]
  · have hm : 0 < m := by omega
    have hn : 0 < n := by omega
    rw [if_neg hzero]
    symm
    cases hplaces : compare ((digitCount m : ℤ) - s) ((digitCount n : ℤ) - t) with
    | lt => exact (cmp_eq_lt_iff _ _).2 (magnitude_lt_of_places hn (compare_lt_iff_lt.1 hplaces))
    | gt => exact (cmp_eq_gt_iff _ _).2 (magnitude_lt_of_places hm (compare_gt_iff_gt.1 hplaces))
    | eq =>
      rw [if_neg fun hne => hne rfl]
      by_cases hscale : s ≤ t
      · rw [if_pos hscale]
        exact cmp_magnitudes m n hscale
      · rw [if_neg hscale, ← cmp_swap, cmp_magnitudes n m (Int.le_of_not_le hscale),
          ← cmp_eq_compare, cmp_swap, cmp_eq_compare]

theorem value_pos_iff {d : Decimal} : 0 < d.value ↔ 0 < d.coefficient := by
  rw [value, mul_pos_iff_of_pos_right (by positivity), Int.cast_pos]

theorem value_nonneg_iff {d : Decimal} : 0 ≤ d.value ↔ 0 ≤ d.coefficient := by
  rw [value, mul_nonneg_iff_of_pos_right (by positivity), Int.cast_nonneg_iff]

/-- Numbers of different signs need no comparison of magnitudes. -/
theorem value_lt_of_sign {a b : Decimal} (h : a.coefficient.sign < b.coefficient.sign) :
    a.value < b.value := by
  have hsign (n : ℤ) : n.sign = -1 ∧ n < 0 ∨ n.sign = 0 ∧ n = 0 ∨ n.sign = 1 ∧ 0 < n := by
    rcases lt_trichotomy n 0 with hn | hn | hn
    · exact .inl ⟨Int.sign_eq_neg_one_of_neg hn, hn⟩
    · exact .inr (.inl ⟨Int.sign_eq_zero_iff_zero.2 hn, hn⟩)
    · exact .inr (.inr ⟨Int.sign_eq_one_of_pos hn, hn⟩)
  have ha := hsign a.coefficient
  have hb := hsign b.coefficient
  by_cases hneg : a.coefficient < 0
  · have hleft : a.value < 0 := by
      rw [← not_le, value_nonneg_iff]
      omega
    have hright : 0 ≤ b.value := by
      rw [value_nonneg_iff]
      omega
    exact hleft.trans_le hright
  · have hleft : a.value ≤ 0 := by
      rw [← not_lt, value_pos_iff]
      omega
    have hright : 0 < b.value := by
      rw [value_pos_iff]
      omega
    exact hleft.trans_lt hright

/-- Whatever the spelling, numbers compare by their values. -/
theorem compare_eq_cmp (a b : Decimal) : a.compare b = cmp a.value b.value := by
  have hmagnitudes := compareMagnitudes_eq_cmp a.coefficient.natAbs a.scale b.coefficient.natAbs
    b.scale
  rw [← abs_value, ← abs_value] at hmagnitudes
  unfold Decimal.compare
  dsimp only
  cases hsigns : compare a.coefficient.sign b.coefficient.sign with
  | lt => exact ((cmp_eq_lt_iff _ _).2 (value_lt_of_sign (compare_lt_iff_lt.1 hsigns))).symm
  | gt => exact ((cmp_eq_gt_iff _ _).2 (value_lt_of_sign (compare_gt_iff_gt.1 hsigns))).symm
  | eq =>
    have hsame := compare_eq_iff_eq.1 hsigns
    rw [hmagnitudes]
    by_cases hneg : a.coefficient < 0
    · have hother : b.coefficient < 0 := by
        rwa [← Int.sign_eq_neg_one_iff_neg, ← hsame, Int.sign_eq_neg_one_iff_neg]
      have ha : a.value < 0 := by
        rwa [← not_le, value_nonneg_iff, not_le]
      have hb : b.value < 0 := by
        rwa [← not_le, value_nonneg_iff, not_le]
      -- Of two negative numbers, the one with the greater magnitude is the smaller.
      have hmirror : StrictAnti fun x : ℚ => -x := fun _ _ h => neg_lt_neg h
      rw [if_pos hneg, cmp_swap, abs_of_neg ha, abs_of_neg hb]
      exact hmirror.cmp_map_eq b.value a.value
    · have hother : 0 ≤ b.coefficient := by
        rw [← Int.sign_nonneg_iff, ← hsame, Int.sign_nonneg_iff]
        exact Int.not_lt.1 hneg
      rw [if_neg hneg, abs_of_nonneg (value_nonneg_iff.2 (Int.not_lt.1 hneg)),
        abs_of_nonneg (value_nonneg_iff.2 hother)]

end TextTemplate.Decimal
