import Mathlib
import TextTemplate.Proofs.Decimal.Rounding
import TextTemplate.Proofs.Format.Spelling

/-! What conversions write. Each of them says by its signs how wide it is at least, on which side it
is filled up and how its number is shown; and so it does with every value that is a number for
it. -/

namespace TextTemplate

/-! ### What is written -/

/-- The exact number that a finite float is. -/
def Binary64.value? : Binary64 → Option ℚ
  | .finite negative m e => some ((if negative then -1 else 1) * m * 2 ^ e)
  | _ => none

/-- The value is this whole number of 64 bits. -/
inductive Value.IsWhole : Value → ℤ → Prop where
  | int (m : Int64) : IsWhole (.int m) m.toInt
  | text {s : String} {n : ℤ} : Decimal.readSigned? (Text.trim s.toList) = some n →
      -2 ^ 63 ≤ n → n < 2 ^ 63 → IsWhole (.text s) n
  | float {x : Float} {n : ℤ} : (Binary64.ofBits x.toBits).value? = some (n : ℚ) →
      n.natAbs < 2 ^ 63 → IsWhole (.float x) n

namespace Conversion

/-- The text is `sign` and `body`, and what the width asks for besides: spaces on one side of the
two, or zeros between them. -/
structure Fills (c : Conversion) (sign body text : List Char) : Prop where
  length : text.length = max c.width (sign.length + body.length)
  filled : ∃ n, text =
    if c.left then sign ++ body ++ List.replicate n ' '
    else if c.zero then sign ++ List.replicate n '0' ++ body
    else List.replicate n ' ' ++ (sign ++ body)

/-- These digits before and after the point write the number `r`. -/
structure Shows (c : Conversion) (places : ℕ) (r : ℚ) (whole fraction : List Char) : Prop where
  digits : ∀ x ∈ whole.filter (· ≠ ',') ++ fraction, x.isDigit = true
  reads : (Nat.ofDigitChars 10 (whole.filter (· ≠ ',') ++ fraction) 0 : ℚ) / 10 ^ places = r
  places : fraction.length = places
  /-- No zero leads the digits but that of a number below one. -/
  leading : whole ≠ [] ∧ (whole.head? = some '0' → whole = ['0'])
  ungrouped : c.grouping = false → ',' ∉ whole
  /-- All groups have three digits but the first, which may have fewer. -/
  grouped : c.grouping = true → ∃ first others, Text.pieces (· = ',') whole = first :: others ∧
    first ≠ [] ∧ first.length ≤ 3 ∧ ∀ g ∈ others, g.length = 3

end Conversion

/-- The text is what the piece of a format writes for the value. -/
inductive FormatPiece.Writes (asText : Value → String) (v : Value) :
    FormatPiece → List Char → Prop where
  | literal (text : List Char) : Writes asText v (.literal text) text
  | text {c : Conversion} {upper : Bool} {kept text : List Char} : c.kind = .text upper →
      kept = (c.precision.elim id List.take) (asText v).toList →
      c.zero = false → c.Fills [] (if upper then Text.upper kept else kept) text →
      Writes asText v (.conversion c) text
  | decimal {c : Conversion} {places : ℕ} {d : Decimal} {whole fraction text : List Char} :
      (c.kind = .integer ∧ places = 0 ∨ c.kind = .fixed ∧ places = c.precision.getD 6) →
      v.asDecimal? = some d → c.Shows places |d.rounded places| whole fraction →
      c.Fills (if d.rounded places < 0 then ['-'] else if c.plus then ['+'] else [])
        (whole ++ if places = 0 then [] else '.' :: fraction) text →
      Writes asText v (.conversion c) text
  | hex {c : Conversion} {upper : Bool} {n : ℤ} {text : List Char} : c.kind = .hex upper →
      v.IsWhole n →
      c.Fills (if c.plus then ['+'] else [])
        ((Nat.toDigits 16 (n % 2 ^ 64).toNat).map fun x => if upper then x.toUpper else x) text →
      Writes asText v (.conversion c) text

/-! ### Numbers that are written -/

theorem toNat_toUInt64 (n : Int64) : n.toUInt64.toNat = (n.toInt % 2 ^ 64).toNat := by
  have hbits : n.toInt = (n.toUInt64.toNat : ℤ).bmod (2 ^ 64) := BitVec.toInt_eq_toNat_bmod n.toBitVec
  have hlt : n.toUInt64.toNat < 2 ^ 64 := n.toUInt64.toNat_lt
  have hmod := Int.bmod_emod (x := n.toUInt64.toNat) (m := 2 ^ 64)
  rw [← hbits, Int.emod_eq_of_lt (Int.natCast_nonneg _) (by exact_mod_cast hlt)] at hmod
  have hpower : ((2 ^ 64 : ℕ) : ℤ) = 2 ^ 64 := rfl
  rw [← hpower, hmod, Int.toNat_natCast]

theorem Binary64.toInt?_eq_some_iff {b : Binary64} {n : ℤ} :
    b.toInt? = some n ↔ b.value? = some (n : ℚ) := by
  cases b with
  | notANumber | infinite negative => simp [toInt?, value?]
  | finite negative m e =>
    have hpower : (2 : ℚ) ^ e = 2 ^ e.toNat / 2 ^ (-e).toNat := by
      have hsplit : e = (e.toNat : ℤ) - ((-e).toNat : ℤ) := by omega
      conv_lhs => rw [hsplit]
      rw [zpow_sub₀ (by norm_num), zpow_natCast, zpow_natCast]
    have hnum : ((m * twoTo e.toNat : ℕ) : ℚ) = m * 2 ^ e.toNat := by simp [twoTo]
    have hden : ((twoTo (-e).toNat : ℕ) : ℚ) = 2 ^ (-e).toNat := by simp [twoTo]
    have hpos : 0 < twoTo (-e).toNat := Nat.pow_pos (by decide)
    have hvalue : (m : ℚ) * 2 ^ e = (m * twoTo e.toNat : ℕ) / (twoTo (-e).toNat : ℕ) := by
      rw [hpower, hnum, hden, mul_div_assoc]
    simp only [toInt?, value?, Option.some.injEq, mul_assoc, hvalue]
    generalize m * twoTo e.toNat = num
    generalize twoTo (-e).toNat = den at hpos
    have hcast : (0 : ℚ) < den := by exact_mod_cast hpos
    by_cases hdvd : num % den = 0
    · obtain ⟨k, rfl⟩ := Nat.dvd_of_mod_eq_zero hdvd
      rw [if_pos hdvd, Nat.mul_div_cancel_left k hpos, Nat.cast_mul,
        mul_div_cancel_left₀ _ hcast.ne']
      cases negative <;> simp <;> norm_cast
    · rw [if_neg hdvd]
      refine ⟨fun h => absurd h.symm (Option.some_ne_none n), fun h => absurd ?_ hdvd⟩
      have habs : (num : ℚ) / den = n.natAbs := by
        have hnonneg : (0 : ℚ) ≤ num / den := by positivity
        have := congrArg abs h
        rw [abs_mul, abs_of_nonneg hnonneg] at this
        rw [Nat.cast_natAbs, Int.cast_abs, ← this]
        cases negative <;> simp
      rw [div_eq_iff hcast.ne'] at habs
      have hnat : num = n.natAbs * den := by exact_mod_cast habs
      rw [hnat, Nat.mul_mod_left]

theorem Value.isWhole_of_asWhole? {v : Value} {m : Int64} (h : v.asWhole? = some m) :
    v.IsWhole m.toInt := by
  cases v with
  | int n =>
    cases h
    exact .int _
  | text s =>
    obtain ⟨n, hn, rfl⟩ := Option.map_eq_some_iff.1 h
    obtain ⟨n, hread, hrange⟩ := Option.bind_eq_some_iff.1 hn
    split at hrange
    · next hbounds =>
      cases hrange
      simp only [leastInt, greatestInt] at hbounds
      rw [Int64.toInt_ofInt_of_le (by omega) (by omega)]
      exact .text hread (by omega) (by omega)
    · cases hrange
  | float x =>
    obtain ⟨n, hn, hrange⟩ := Option.bind_eq_some_iff.1 h
    split at hrange
    · next hbounds =>
      cases hrange
      rw [Int64.toInt_ofInt_of_le (by omega) (by omega)]
      exact .float (Binary64.toInt?_eq_some_iff.1 hn) (by omega)
    · cases hrange
  | _ => cases h

theorem Value.IsWhole.asWhole? {v : Value} {n : ℤ} (h : v.IsWhole n) :
    ∃ m : Int64, v.asWhole? = some m ∧ m.toInt = n := by
  cases h with
  | int m => exact ⟨m, rfl, rfl⟩
  | @text s n hread hlow hhigh =>
    refine ⟨Int64.ofInt n, ?_, Int64.toInt_ofInt_of_le hlow hhigh⟩
    rw [Value.asWhole?, readInt?, readInteger?, hread, Option.bind_some, if_pos, Option.map_some]
    simp only [leastInt, greatestInt]
    omega
  | @float x n hvalue hrange =>
    refine ⟨Int64.ofInt n, ?_, Int64.toInt_ofInt_of_le (by omega) (by omega)⟩
    rw [Value.asWhole?, Binary64.toInt?_eq_some_iff.2 hvalue, Option.bind_some, if_pos]
    omega

namespace Conversion
variable {c : Conversion}

theorem fills_pad (c : Conversion) (sign body : List Char) :
    c.Fills sign body (c.pad sign body) := by
  constructor
  case length =>
    unfold pad
    split
    · simp only [List.length_append, List.length_replicate]
      omega
    · split <;> simp only [List.length_append, List.length_replicate] <;> omega
  case filled =>
    exact ⟨c.width - (sign.length + body.length), by simp only [pad, List.append_assoc]⟩

theorem wholeText_toDigits (c : Conversion) (n : ℕ) :
    c.wholeText (Nat.toDigits 10 n) =
      Decimal.grouped (if c.grouping then 3 else 0) (Nat.toDigits 10 n) := by
  unfold wholeText
  rcases Nat.eq_zero_or_pos n with rfl | hn
  · rfl
  · rw [Decimal.dropWhile_toDigits hn]
    cases hdigits : Nat.toDigits 10 n with
    | nil => exact absurd hdigits Nat.toDigits_ne_nil
    | cons x xs => rfl

theorem leading_grouped (size n : ℕ) :
    Decimal.grouped size (Nat.toDigits 10 n) ≠ [] ∧
      ((Decimal.grouped size (Nat.toDigits 10 n)).head? = some '0' →
        Decimal.grouped size (Nat.toDigits 10 n) = ['0']) := by
  have hhead := Decimal.head?_grouped size (Nat.toDigits 10 n)
  constructor
  · rintro hnil
    rw [hnil] at hhead
    exact Nat.toDigits_ne_nil (List.head?_eq_none_iff.1 hhead.symm)
  · rintro hzero
    rcases Nat.eq_zero_or_pos n with rfl | hn
    · simp [Decimal.grouped]
    · exact absurd (hhead.symm.trans hzero) (Decimal.head?_toDigits hn)

/-- The digits of a rounded number show it. -/
theorem shows_toFixed (c : Conversion) (d : Decimal) (places : ℕ) :
    c.Shows places |d.rounded places| (c.wholeText (d.toFixed places).whole)
      (d.toFixed places).fraction := by
  obtain ⟨hwhole, hlength, hdigits, hread⟩ := d.toFixed_digits places
  have hvalue := d.abs_rounded places
  generalize d.toFixed places = fixed at hwhole hlength hdigits hread ⊢
  generalize d.unitsAt places = units at hwhole hread hvalue
  have hwholeDigits : ∀ x ∈ Nat.toDigits 10 (units / 10 ^ places), x.isDigit = true :=
    fun _ => Nat.isDigit_of_mem_toDigits (by decide) (by decide)
  have hplain := Decimal.not_mem_of_isDigit hwholeDigits
  have hkept := Decimal.filter_grouped (if c.grouping then 3 else 0) hplain
  rw [hwhole] at hread
  rw [hwhole, wholeText_toDigits]
  constructor
  case digits =>
    rw [hkept]
    intro x hx
    rcases List.mem_append.1 hx with hx | hx
    · exact hwholeDigits x hx
    · exact hdigits x hx
  case reads => rw [hkept, hread, hvalue]
  case places => exact hlength
  case leading => exact leading_grouped _ _
  case ungrouped =>
    intro hnone
    simpa [hnone, Decimal.grouped] using hplain
  case grouped =>
    intro hgroups
    obtain ⟨first, others, hpieces, hsplit, hfirst, hempty, hothers⟩ :=
      Decimal.pieces_grouped (Nat.succ_pos 2) hplain
    rw [hgroups]
    refine ⟨first, others, hpieces, ?_, hfirst, hothers⟩
    rintro rfl
    rw [hempty rfl] at hsplit
    exact Nat.toDigits_ne_nil hsplit

/-- What a conversion whose signs go together writes. -/
theorem writes_of_write? {asText : Value → String} {v : Value} {text : List Char}
    (hc : c.Sensible) (h : c.write? asText v = some text) :
    FormatPiece.Writes asText v (.conversion c) text := by
  have hsign (d : Decimal) (places : ℕ) : c.signText (d.toFixed places).negative =
      if d.rounded places < 0 then ['-'] else if c.plus then ['+'] else [] := by
    have hnegative : (d.toFixed places).negative = true ↔ d.rounded places < 0 := by
      rw [Decimal.rounded_neg_iff]
      simp [Decimal.toFixed]
    simp only [signText, hnegative]
  unfold write? at h
  split at h
  next upper hkind =>
    cases h
    refine .text hkind rfl (hc.text upper hkind).1 ?_
    cases c.precision with
    | none => exact fills_pad c _ _
    | some most => exact fills_pad c _ _
  next hkind =>
    obtain ⟨d, hd, rfl⟩ := Option.map_eq_some_iff.1 h
    refine .decimal (.inl ⟨hkind, rfl⟩) hd (c.shows_toFixed d 0) ?_
    rw [if_pos rfl, List.append_nil, ← hsign d 0]
    exact fills_pad c _ _
  next hkind =>
    obtain ⟨d, hd, rfl⟩ := Option.map_eq_some_iff.1 h
    refine .decimal (.inr ⟨hkind, rfl⟩) hd (c.shows_toFixed d _) ?_
    have hnil : (d.toFixed (c.precision.getD 6)).fraction = [] ↔ c.precision.getD 6 = 0 := by
      rw [← List.length_eq_zero_iff, (d.toFixed_digits _).2.1]
    simp only [hnil, hsign]
    exact fills_pad c _ _
  next upper hkind =>
    obtain ⟨n, hn, rfl⟩ := Option.map_eq_some_iff.1 h
    refine .hex hkind (Value.isWhole_of_asWhole? hn) ?_
    have hdigits : (if upper then (Nat.toDigits 16 n.toUInt64.toNat).map Char.toUpper
        else Nat.toDigits 16 n.toUInt64.toNat) =
        (Nat.toDigits 16 (n.toInt % 2 ^ 64).toNat).map fun x => if upper then x.toUpper else x := by
      rw [toNat_toUInt64]
      cases upper <;> simp
    rw [← hdigits]
    exact fills_pad c _ _

end Conversion

namespace FormatPiece
variable {asText : Value → String} {v : Value} {p : FormatPiece} {part text : List Char}

theorem Spelled.writes (hp : p.Spelled part) (h : p.write? asText v = some text) :
    p.Writes asText v text := by
  cases hp with
  | plain | percent | lineBreak =>
    cases h
    exact .literal _
  | conversion s kind hs => exact Conversion.writes_of_write? hs h

end FormatPiece

namespace ConversionFormat
variable {asText : Value → String} {v : Value} {ps : List FormatPiece}

end ConversionFormat

end TextTemplate
