import Mathlib.Data.List.Nodup
import Mathlib.Data.List.Perm.Subperm
import TextTemplate.Proofs.Decimal.Digits
import TextTemplate.Proofs.Store.Lookup
import TextTemplate.Proofs.Value.Fields

/-! The names of positions are their digits, and are read back as the positions. -/

namespace TextTemplate

namespace Decimal

theorem isDigit_of_mem_toString {n : Nat} {c : Char} (h : c ∈ (toString n).toList) :
    c.isDigit = true := by
  have htext : (toString n).toList = Nat.toDigits 10 n := Nat.toList_repr
  rw [htext] at h
  exact Nat.isDigit_of_mem_toDigits (by decide) (by decide) h

/-- A number is read back from its digits. -/
theorem readSigned?_toString (n : Nat) : readSigned? (toString n).toList = some (n : Int) := by
  have htext : (toString n).toList = Nat.toDigits 10 n := Nat.toList_repr
  have hdigits : ∀ c ∈ (toString n).toList, c.isDigit = true := fun c => isDigit_of_mem_toString
  rw [htext] at hdigits ⊢
  have hplain : readSigned?.plain (Nat.toDigits 10 n) = some n := by
    rw [readSigned?.plain, if_pos ⟨Nat.toDigits_ne_nil, List.all_eq_true.2 hdigits⟩,
      readDigits_eq_some hdigits, Nat.ofDigitChars_toDigits (by decide) (by decide)]
  unfold readSigned?
  split
  · next heq => simp [heq] at hdigits
  · next heq => simp [heq] at hdigits
  · rw [hplain]
    rfl

/-- Different positions have different names. -/
theorem toString_injective : Function.Injective (toString : Nat → String) := by
  intro i j h
  have hread := readSigned?_toString i
  rw [h, readSigned?_toString] at hread
  exact (Int.ofNat.inj (Option.some.inj hread)).symm

end Decimal

namespace Value
variable {names : List String} {items : List Value} {i n : Nat}

/-- A position of 64 bits is read back from its name. -/
theorem readIndex?_toString (i : Nat) :
    readIndex? (toString i) = if i < 2 ^ 64 then some i else none := by
  have hread : readInteger? 0 18446744073709551615 (toString i).toList =
      if i < 2 ^ 64 then some (i : Int) else none := by
    rw [readInteger?, Decimal.readSigned?_toString, Option.bind_some]
    by_cases hi : i < 2 ^ 64
    · rw [if_pos hi, if_pos (by omega)]
    · rw [if_neg hi, if_neg (by omega)]
  unfold readIndex?
  split
  · next cs heq =>
    have hsign : '-' ∈ (toString i).toList := by rw [heq]; exact List.mem_cons_self
    exact absurd (Decimal.isDigit_of_mem_toString hsign) (by decide)
  · rw [hread]
    split <;> rfl

/-- A count that fits a number is a number. -/
theorem asInt?_ofNat (h : n < 2 ^ 63) :
    ((ofNat n).asInt?).map (·.toInt.toNat) = some n := by
  rw [ofNat, if_pos (by omega), asInt?, Option.map_some]
  rw [Int64.toInt_ofNat_of_lt (by omega)]
  rfl

theorem isSizeName_toString (i : Nat) : isSizeName (toString i) = false := by
  have hne : ∀ name : String, 's' ∈ name.toList → (toString i == name) = false := by
    refine fun name hmem => beq_eq_false_iff_ne.2 fun heq => ?_
    rw [← heq] at hmem
    exact absurd (Decimal.isDigit_of_mem_toString hmem) (by decide)
  rw [isSizeName, hne "size" (by decide), hne "isEmpty" (by decide)]
  rfl

theorem mem_positions {name : String} : name ∈ positions n ↔ ∃ i < n, name = toString i := by
  simp only [positions, List.mem_map, List.mem_range, eq_comm]

theorem length_positions (n : Nat) : (positions n).length = n := by
  simp [positions]

theorem nodup_positions (n : Nat) : (positions n).Nodup :=
  List.nodup_range.map Decimal.toString_injective

/-- No position has the name of a size. -/
theorem not_mem_positions {name : String} (h : isSizeName name = true) (n : Nat) :
    name ∉ positions n := by
  intro hmem
  obtain ⟨i, -, rfl⟩ := mem_positions.1 hmem
  rw [isSizeName_toString] at h
  cases h

theorem names_numbered (items : List Value) :
    (numbered items).map (·.1) = positions items.length := by
  rw [numbered, positions, List.map_map]
  rw [List.range_eq_range', ← List.zipIdx_map_snd 0 items, List.map_map]
  rfl

theorem distinct_numbered (items : List Value) : Fields.Distinct (numbered items) := by
  rw [Fields.Distinct, names_numbered]
  exact nodup_positions _

theorem member?_list_toString (h : items.length ≤ 2 ^ 64) (i : Nat) :
    (list items).member? (toString i) = items[i]? := by
  rw [member?, indexedMember?, readIndex?_toString]
  split
  · next j hread =>
    split at hread
    · rw [Option.some.inj hread]
    · cases hread
  · next hread =>
    have hout : 2 ^ 64 ≤ i := by
      by_contra hin
      rw [if_pos (by omega)] at hread
      cases hread
    rw [sizeMember?_eq_none_iff.2 (isSizeName_toString i), List.getElem?_eq_none (by omega)]

/-- Distinct names that are all positions below their number are all of these. -/
theorem positions_iff (h : names.Nodup) :
    (∀ i, toString i ∈ names ↔ i < names.length) ↔
      ∀ name ∈ names, ∃ i < names.length, name = toString i := by
  have hlength := length_positions names.length
  constructor
  · intro hall name hname
    have hsub : positions names.length ⊆ names := fun other hother => by
      obtain ⟨i, hi, rfl⟩ := mem_positions.1 hother
      exact (hall i).2 hi
    have hperm :=
      (List.subperm_of_subset (nodup_positions _) hsub).perm_of_length_le (by omega)
    exact mem_positions.1 (hperm.mem_iff.2 hname)
  · intro hall i
    have hsub : names ⊆ positions names.length := fun name hname =>
      mem_positions.2 (hall name hname)
    have hperm := (List.subperm_of_subset h hsub).perm_of_length_le (by omega)
    rw [hperm.mem_iff, mem_positions]
    constructor
    · rintro ⟨j, hj, heq⟩
      rwa [Decimal.toString_injective heq]
    · exact fun hi => ⟨i, hi, rfl⟩

end Value
end TextTemplate
