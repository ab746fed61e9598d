import TextTemplate.Decimal.Binary
import TextTemplate.Proofs.Decimal.Numeral

/-! What the texts of floats read as. -/

namespace TextTemplate

namespace Decimal

theorem digitCount_le {n k : ℕ} (h : n < 10 ^ k) : digitCount n ≤ k := by
  unfold digitCount
  split
  · omega
  · next hn =>
    have hk : 0 < k := by
      by_contra hzero
      rw [Nat.eq_zero_of_not_pos hzero] at h
      omega
    exact (Nat.length_toDigits_le_iff (by decide) hk).2 h

end Decimal

namespace Binary64

/-- Digits and zeros after them make up the numeral of a whole number. -/
theorem exists_numeral_whole (sign : NumeralSign) {ds : List Char} {zeros : ℕ}
    (hds : ∀ c ∈ ds, c.isDigit = true) (hsome : ds ≠ [] ∨ 0 < zeros) :
    ∃ n : Numeral, n.IsWritten ∧ n.text = sign.text ++ (ds ++ List.replicate zeros '0') ∧
      n.value = (sign.applied (Nat.ofDigitChars 10 ds 0) : ℚ) * 10 ^ zeros := by
  let n : Numeral := ⟨sign, ds ++ List.replicate zeros '0', none, none⟩
  have hdigits : n.digits = ds ++ List.replicate zeros '0' := List.append_nil _
  have hscale : n.scale = 0 := rfl
  refine ⟨n, ?_, ?_, ?_⟩
  · refine ⟨?_, ?_, nofun, nofun, by rw [hscale]; decide⟩
    · intro hnil
      rw [hdigits, List.append_eq_nil_iff, List.replicate_eq_nil_iff] at hnil
      rcases hsome with hds | hzeros
      · exact hds hnil.1
      · omega
    · intro c hc
      rw [hdigits] at hc
      rcases List.mem_append.1 hc with hc | hc
      · exact hds c hc
      · exact Decimal.isDigit_of_mem_replicate zeros c hc
  · simp [n, Numeral.text, Numeral.base]
  · rw [Numeral.value, hdigits, hscale, Nat.ofDigitChars_append, Nat.ofDigitChars_replicate_zero,
      NumeralSign.applied_mul, neg_zero, zpow_zero, mul_one]
    push_cast
    exact mul_comm _ _

/-- Digits with a point among them make up the numeral of a fraction. -/
theorem exists_numeral_pointed (sign : NumeralSign) {ds : List Char} {places : ℕ}
    (hds : ∀ c ∈ ds, c.isDigit = true) (hlength : places < ds.length)
    (hplaces : places ≤ Decimal.maxScale) :
    ∃ n : Numeral, n.IsWritten ∧
      n.text = sign.text ++
        (ds.take (ds.length - places) ++ '.' :: ds.drop (ds.length - places)) ∧
      n.value = (sign.applied (Nat.ofDigitChars 10 ds 0) : ℚ) * 10 ^ (-(places : ℤ)) := by
  let n : Numeral :=
    ⟨sign, ds.take (ds.length - places), some (ds.drop (ds.length - places)), none⟩
  have hdigits : n.digits = ds := List.take_append_drop _ _
  have hscale : n.scale = places := by
    have hcount : (ds.drop (ds.length - places)).length = places := by
      rw [List.length_drop]
      omega
    simp [n, Numeral.scale, hcount]
  refine ⟨n, ?_, ?_, ?_⟩
  · refine ⟨?_, by rwa [hdigits], nofun, nofun, ?_⟩
    · rw [hdigits]
      rintro rfl
      exact Nat.not_lt_zero _ hlength
    · rw [Decimal.maxScale] at hplaces ⊢
      omega
  · simp [n, Numeral.text, Numeral.base]
  · rw [Numeral.value, hdigits, hscale]

/-- Digits with so many of them behind the point make up a numeral. -/
theorem exists_numeral_positional (sign : NumeralSign) {ds : List Char} {s : ℤ}
    (hds : ∀ c ∈ ds, c.isDigit = true) (hsome : ds = [] → s < 0) (hscale : s ≤ Decimal.maxScale) :
    ∃ n : Numeral, n.IsWritten ∧ n.text = sign.text ++ positional ds s ∧
      n.value = (sign.applied (Nat.ofDigitChars 10 ds 0) : ℚ) * 10 ^ (-s) := by
  unfold positional
  split
  · next hwhole =>
    have hzeros : ds ≠ [] ∨ 0 < (-s).toNat := by
      by_cases hnil : ds = []
      · have := hsome hnil
        exact .inr (by omega)
      · exact .inl hnil
    obtain ⟨n, hn, htext, hvalue⟩ := exists_numeral_whole sign hds hzeros
    refine ⟨n, hn, htext, ?_⟩
    rw [hvalue, ← zpow_natCast, Int.toNat_of_nonneg (by omega)]
  · next hpoint =>
    have hpadded : ∀ c ∈ List.replicate (s.toNat + 1 - ds.length) '0' ++ ds, c.isDigit = true := by
      intro c hc
      rcases List.mem_append.1 hc with hc | hc
      · exact Decimal.isDigit_of_mem_replicate _ c hc
      · exact hds c hc
    have hlength : s.toNat < (List.replicate (s.toNat + 1 - ds.length) '0' ++ ds).length := by
      rw [List.length_append, List.length_replicate]
      omega
    obtain ⟨n, hn, htext, hvalue⟩ :=
      exists_numeral_pointed sign hpadded hlength (by rwa [Int.toNat_of_nonneg (by omega)])
    refine ⟨n, hn, htext, ?_⟩
    rw [hvalue, Int.toNat_of_nonneg (by omega), Nat.ofDigitChars_append,
      Nat.ofDigitChars_replicate_zero, Nat.mul_zero]

theorem Neighbourhood.nearestOn_pos {r : Neighbourhood} {s : ℤ} {n : ℕ}
    (h : r.nearestOn s = some n) : 0 < n := by
  unfold Neighbourhood.nearestOn at h
  simp only at h
  generalize r.value * tenTo s.toNat / (r.den * tenTo (-s).toNat) = below at h
  split at h
  · next hbelow _ =>
    simp only [Bool.and_eq_true, bne_iff_ne] at hbelow
    cases h
    split <;> omega
  · next hbelow _ =>
    simp only [Bool.and_eq_true, bne_iff_ne] at hbelow
    cases h
    exact Nat.pos_of_ne_zero hbelow.2
  · cases h
    exact Nat.succ_pos below
  · cases h

theorem le_leadingPlace (num den : ℕ) :
    -(Decimal.digitCount (den / num) : ℤ) ≤ leadingPlace num den := by
  unfold leadingPlace
  split
  · omega
  · simp only
    split <;> omega

/-- There is a digit, or nothing at all, and not many digits behind the point. -/
theorem shortest_bounds (m : ℕ) {e : ℤ} (he : leastExponent ≤ e) :
    ((shortest m e).1 = 0 → (shortest m e).2 = 0) ∧ (shortest m e).2 ≤ 1093 := by
  unfold shortest
  simp only
  generalize hr : neighbourhood m e = r
  cases hfound : ((List.range 17).map fun n : Nat => (n : Int) + 1 - leadingPlace r.value r.den)
      |>.findSome? fun s => (r.nearestOn s).map (·, s) with
  | none => simp
  | some found =>
    obtain ⟨s, hs, hmap⟩ := List.exists_of_findSome?_eq_some hfound
    obtain ⟨n, hn, rfl⟩ := Option.map_eq_some_iff.1 hmap
    obtain ⟨i, hi, rfl⟩ := List.mem_map.1 hs
    have hpos := Neighbourhood.nearestOn_pos hn
    have hplace := le_leadingPlace r.value r.den
    have hden : r.den / r.value < 10 ^ ((-e).toNat + 2) := by
      have hpower : r.den = 2 ^ ((-e).toNat + 2) := by
        rw [← hr, Nat.pow_add, Nat.mul_comm]
        rfl
      rw [hpower]
      exact (Nat.div_le_self _ _).trans_lt (Nat.pow_lt_pow_left (by decide) (by omega))
    have hcount := Decimal.digitCount_le hden
    rw [leastExponent] at he
    have hrange := List.mem_range.1 hi
    simp only [Option.getD_some]
    constructor
    · omega
    · omega

theorem leastExponent_le_of_ofBits {bits : UInt64} {negative : Bool} {m : ℕ} {e : ℤ}
    (h : ofBits bits = .finite negative m e) : leastExponent ≤ e := by
  unfold ofBits at h
  simp only at h
  generalize bits.toNat / twoTo 52 % 2048 = field at h
  split at h
  · split at h <;> cases h
  · split at h
    · cases h
      exact le_rfl
    · cases h
      omega

end Binary64

/-- A finite float reads as the number that its text shows. -/
theorem Decimal.ofFloat?_of_finite {x : Float} {negative : Bool} {m : ℕ} {e : ℤ}
    (h : Binary64.ofBits x.toBits = .finite negative m e) :
    ∃ n : Numeral, n.IsWritten ∧ Float64.text x = String.ofList n.text ∧
      (Decimal.ofFloat? x).map Decimal.value = some n.value := by
  let sign := if negative then NumeralSign.minus else NumeralSign.none
  have hsign : Binary64.text.sign negative = sign.text := by
    cases negative <;> rfl
  have hmax : (1093 : ℤ) ≤ Decimal.maxScale := by decide
  rw [Float64.text, Decimal.ofFloat?, h]
  simp only [Binary64.text, hsign]
  split
  · have hzero : ∀ c ∈ ['0'], c.isDigit = true := List.forall_mem_singleton.2 (by decide)
    obtain ⟨n, hn, htext, hvalue⟩ :=
      Binary64.exists_numeral_positional sign hzero nofun (by decide : (0 : ℤ) ≤ Decimal.maxScale)
    refine ⟨n, hn, congrArg String.ofList htext.symm, ?_⟩
    have hread : Nat.ofDigitChars 10 ['0'] 0 = 0 := by decide
    rw [hvalue, hread]
    cases negative <;> simp [sign, NumeralSign.applied, Decimal.value]
  · obtain ⟨hnone, hplaces⟩ := Binary64.shortest_bounds m (Binary64.leastExponent_le_of_ofBits h)
    generalize Binary64.shortest m e = found at *
    obtain ⟨d, s⟩ := found
    obtain ⟨kept, zeros, hdigits, -, hzeros⟩ := Decimal.trailing_zeros (Nat.toDigits 10 d)
    simp only at *
    rw [hzeros]
    have htake : (Nat.toDigits 10 d).take ((Nat.toDigits 10 d).length - zeros) = kept := by
      rw [hdigits, List.length_append, List.length_replicate, Nat.add_sub_cancel, List.take_left]
    have hkept : ∀ c ∈ kept, c.isDigit = true := by
      intro c hc
      apply Nat.isDigit_of_mem_toDigits (b := 10) (n := d) (by decide) (by decide)
      rw [hdigits]
      exact List.mem_append_left _ hc
    have hd : d = 10 ^ zeros * Nat.ofDigitChars 10 kept 0 := by
      rw [← Nat.ofDigitChars_replicate_zero, ← Nat.ofDigitChars_append, ← hdigits,
        Nat.ofDigitChars_ten_toDigits]
    have hsome : kept = [] → s - (zeros : ℤ) < 0 := by
      rintro rfl
      have hcount := congrArg List.length hdigits
      have hlength := Nat.length_toDigits_pos (b := 10) (n := d)
      rw [List.length_append, List.length_replicate, List.length_nil] at hcount
      rw [hnone (by simpa using hd)]
      omega
    obtain ⟨n, hn, htext, hvalue⟩ :=
      Binary64.exists_numeral_positional sign hkept hsome (by omega)
    refine ⟨n, hn, by rw [htake, htext], ?_⟩
    have hcoefficient : (if negative then -(d : ℤ) else d) = sign.applied d := by
      cases negative <;> rfl
    have hpower : (10 : ℚ) ^ (-(s - zeros)) = 10 ^ zeros * 10 ^ (-s) := by
      rw [neg_sub, sub_eq_add_neg, zpow_add₀ (by norm_num), zpow_natCast]
    rw [hvalue, Option.map_some, hcoefficient, Decimal.value, hpower]
    simp only
    rw [hd, NumeralSign.applied_mul]
    push_cast
    rw [← mul_assoc, mul_comm ((10 : ℚ) ^ zeros)]

end TextTemplate
