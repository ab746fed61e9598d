import TextTemplate.Function.Builtin
import TextTemplate.Proofs.Decimal.FloatText
import TextTemplate.Proofs.Decimal.Order
import TextTemplate.Proofs.Text.Bytes

/-! How arguments compare: null comes last, numbers stand in the order of their exact values, and
other values in the order of the bytes of their texts. -/

namespace TextTemplate

/-- The value reads as the number: integers as themselves, finite floats as their text does, and
text as the number in it, blanks around it apart. -/
inductive Value.Reads : Value → ℚ → Prop where
  | int (n : Int64) : Value.Reads (.int n) n.toInt
  | float {x : Float} {d : Decimal} : (Binary64.ofBits x.toBits).isFinite = true →
      Decimal.ofText? (Float64.text x).toList = some d → Value.Reads (.float x) d.value
  | text {s : String} {d : Decimal} : Decimal.ofText? (Text.trim s.toList) = some d →
      Value.Reads (.text s) d.value

namespace Value

theorem isFinite_of_ofFloat? {x : Float} {d : Decimal} (h : Decimal.ofFloat? x = some d) :
    (Binary64.ofBits x.toBits).isFinite = true := by
  cases hbits : Binary64.ofBits x.toBits with
  | finite negative m e => rfl
  | _ => simp [Decimal.ofFloat?, hbits] at h

/-- A finite float has the value of its text. -/
theorem map_value_ofFloat? {x : Float} (h : (Binary64.ofBits x.toBits).isFinite = true) :
    (Decimal.ofFloat? x).map Decimal.value =
      (Decimal.ofText? (Float64.text x).toList).map Decimal.value := by
  cases hbits : Binary64.ofBits x.toBits with
  | finite negative m e =>
    obtain ⟨n, hn, htext, hvalue⟩ := Decimal.ofFloat?_of_finite hbits
    rw [hvalue, htext, String.toList_ofList, Numeral.map_value_ofText?_text hn]
  | _ => simp [hbits, Binary64.isFinite] at h

/-- The decimal that a value is compared by has the value that it reads as. -/
theorem reads_iff {v : Value} {q : ℚ} : v.Reads q ↔ v.asDecimal?.map Decimal.value = some q := by
  constructor
  · intro h
    cases h with
    | int n => rw [asDecimal?, Option.map_some, Decimal.value_ofInt]
    | float hfinite hread => rw [asDecimal?, map_value_ofFloat? hfinite, hread, Option.map_some]
    | text hread => rw [asDecimal?, hread, Option.map_some]
  · intro h
    obtain ⟨d, hd, rfl⟩ := Option.map_eq_some_iff.1 h
    cases v with
    | int n =>
      cases hd
      rw [Decimal.value_ofInt]
      exact .int n
    | float x =>
      have hfinite := isFinite_of_ofFloat? hd
      rw [asDecimal?, map_value_ofFloat? hfinite] at h
      obtain ⟨other, hread, hvalue⟩ := Option.map_eq_some_iff.1 h
      rw [← hvalue]
      exact .float hfinite hread
    | text s => exact .text hd
    | _ => cases hd

/-- Every finite float reads as the numeral that its text is. -/
theorem exists_reads_float {x : Float} (h : (Binary64.ofBits x.toBits).isFinite = true) :
    ∃ n : Numeral, n.IsWritten ∧ Float64.text x = String.ofList n.text ∧
      (Value.float x).Reads n.value := by
  cases hbits : Binary64.ofBits x.toBits with
  | finite negative m e =>
    obtain ⟨n, hn, htext, hvalue⟩ := Decimal.ofFloat?_of_finite hbits
    exact ⟨n, hn, htext, reads_iff.2 hvalue⟩
  | _ => simp [hbits, Binary64.isFinite] at h

/-- A numeral with blanks around it reads as its number. -/
theorem reads_numeral {n : Numeral} (h : n.IsWritten) {lead trail : List Char}
    (hlead : ∀ c ∈ lead, Text.isBlank c = true) (htrail : ∀ c ∈ trail, Text.isBlank c = true) :
    (Value.text (String.ofList (lead ++ (n.text ++ trail)))).Reads n.value := by
  have htrim : Text.trim n.text = n.text :=
    Text.trim_eq_self fun _ hc => Numeral.isBlank_of_mem_text h hc
  rw [reads_iff, asDecimal?, String.toList_ofList, Text.trim_surrounded hlead htrail htrim,
    Numeral.map_value_ofText?_text h]

end Value

namespace Argument

variable (st : Store) (a b : Argument)

theorem compare_self : a.compare st a = .eq := by
  unfold Argument.compare
  cases a.isNull with
  | true => rfl
  | false =>
    cases a.value.asDecimal? with
    | none => exact Std.ReflOrd.compare_self
    | some d => exact (Decimal.compare_eq_cmp d d).trans (cmp_self_eq_eq _)

theorem compare_swap : b.compare st a = (a.compare st b).swap := by
  have htexts : Ord.compare (st.text b.value) (st.text a.value) =
      (Ord.compare (st.text a.value) (st.text b.value)).swap := Std.OrientedOrd.eq_swap
  unfold Argument.compare
  cases a.isNull with
  | true => cases b.isNull <;> rfl
  | false =>
    cases b.isNull with
    | true => rfl
    | false =>
      cases a.value.asDecimal? with
      | none => cases b.value.asDecimal? <;> exact htexts
      | some x =>
        cases b.value.asDecimal? with
        | none => exact htexts
        | some y =>
          change y.compare x = (x.compare y).swap
          rw [Decimal.compare_eq_cmp, Decimal.compare_eq_cmp, cmp_swap]

theorem isNull_eq_true_iff {a : Argument} :
    a.isNull = true ↔ a = .null ∨ ∃ path, a = .datum path none ∨ a = .datum path (some .null) := by
  cases a with
  | literal text => simp [isNull, value, Value.isNull]
  | null => simp [isNull, value, Value.isNull]
  | datum path v =>
    cases v with
    | none => simp [isNull, value, Value.isNull]
    | some v => cases v <;> simp [isNull, value, Value.isNull]

theorem isNull_of_reads {a : Argument} {x : ℚ} (h : a.value.Reads x) : a.isNull = false := by
  unfold isNull
  generalize a.value = v at h
  cases h <;> rfl

variable {st a b}

theorem compare_of_isNull (ha : a.isNull = true) :
    a.compare st b = if b.isNull then .eq else .gt := by
  rw [Argument.compare, ha]
  cases b.isNull <;> rfl

theorem compare_of_reads {x y : ℚ} (ha : a.value.Reads x) (hb : b.value.Reads y) :
    a.compare st b = cmp x y := by
  obtain ⟨c, hc, rfl⟩ := Option.map_eq_some_iff.1 (Value.reads_iff.1 ha)
  obtain ⟨d, hd, rfl⟩ := Option.map_eq_some_iff.1 (Value.reads_iff.1 hb)
  rw [Argument.compare, isNull_of_reads ha, isNull_of_reads hb, hc, hd]
  exact Decimal.compare_eq_cmp c d

theorem compare_of_not_reads (ha : a.isNull = false) (hb : b.isNull = false)
    (h : (∀ x, ¬ a.value.Reads x) ∨ ∀ y, ¬ b.value.Reads y) :
    a.compare st b = Ord.compare (st.text a.value) (st.text b.value) := by
  have hnone {v : Value} (hv : ∀ x, ¬ v.Reads x) : v.asDecimal? = none := by
    cases hd : v.asDecimal? with
    | none => rfl
    | some d => exact absurd (Value.reads_iff.2 (by rw [hd, Option.map_some])) (hv d.value)
  rw [Argument.compare, ha, hb]
  rcases h with h | h
  · rw [hnone h]
  · rw [hnone h]
    cases a.value.asDecimal? <;> rfl

end Argument

namespace Function

/-- The six comparisons answer from the order of their two arguments, and leave the data as they
are. -/
theorem call_comparison (pageSize : Nat) (d : Data) (a b : Argument) :
    let order := a.compare d.store b
    ∀ entry ∈ [("eq", order.isEq), ("ne", order.isNe), ("lt", order.isLT), ("le", order.isLE),
      ("gt", order.isGT), ("ge", order.isGE)],
      ∃ f, (builtins pageSize).get? entry.1 = some f ∧
        (f [a, b]).run.run d = (.ok (.bool entry.2), d) := by
  intro order entry h
  simp only [List.mem_cons, List.not_mem_nil, or_false] at h
  rcases h with rfl | rfl | rfl | rfl | rfl | rfl <;> exact ⟨_, rfl, rfl⟩

end Function

/-- Arguments compare alike from both sides. What is null is the same as anything else that is and
comes after the rest; numbers stand in the order of their exact values, however they are written,
and where one of two arguments is none, their texts in the order of their bytes. The six comparisons
say so: exactly one of less, equal and greater holds, and each of the others is the opposite of one
of these. A scope that stands inside itself compares by the text that `Store.nesting` leaves it; a
program finds no text for it, and gives no answer. -/
theorem Argument.compare_orderly (st : Store) (a b : Argument) :
    b.compare st a = (a.compare st b).swap ∧ a.compare st a = .eq ∧
    (a.isNull = true ↔ a = .null ∨ ∃ path, a = .datum path none ∨ a = .datum path (some .null)) ∧
    (a.isNull = true → a.compare st b = if b.isNull then .eq else .gt) ∧
    (∀ x y, a.value.Reads x → b.value.Reads y →
      (a.compare st b = .lt ↔ x < y) ∧ (a.compare st b = .eq ↔ x = y)) ∧
    (a.isNull = false → b.isNull = false →
      (∀ x, ¬ a.value.Reads x) ∨ (∀ y, ¬ b.value.Reads y) →
      (a.compare st b = .lt ↔
        (st.text a.value).toUTF8.data.toList < (st.text b.value).toUTF8.data.toList) ∧
      (a.compare st b = .eq ↔ st.text a.value = st.text b.value)) ∧
    (∀ x : Float, (Binary64.ofBits x.toBits).isFinite = true → ∃ n : Numeral, n.IsWritten ∧
      Float64.text x = String.ofList n.text ∧ (Value.float x).Reads n.value) ∧
    (∀ n : Numeral, n.IsWritten → ∀ lead trail : List Char, (∀ c ∈ lead, Text.isBlank c = true) →
      (∀ c ∈ trail, Text.isBlank c = true) →
      (Value.text (String.ofList (lead ++ (n.text ++ trail)))).Reads n.value) ∧
    ∀ (pageSize : Nat) (d : Data), d.store = st → ∃ eq ne lt le gt ge : Bool,
      (∀ entry ∈ [("eq", eq), ("ne", ne), ("lt", lt), ("le", le), ("gt", gt), ("ge", ge)],
        ∃ f, (Function.builtins pageSize).get? entry.1 = some f ∧
          (f [a, b]).run.run d = (.ok (.bool entry.2), d)) ∧
      (lt = true ↔ a.compare st b = .lt) ∧ (eq = true ↔ a.compare st b = .eq) ∧
      (gt = true ↔ a.compare st b = .gt) ∧ [lt, eq, gt].count true = 1 ∧
      le = !gt ∧ ge = !lt ∧ ne = !eq := by
  refine ⟨compare_swap st a b, compare_self st a, isNull_eq_true_iff, compare_of_isNull, ?_, ?_,
    fun x => Value.exists_reads_float, fun n hn lead trail => Value.reads_numeral hn, ?_⟩
  · intro x y ha hb
    rw [compare_of_reads ha hb]
    exact ⟨cmp_eq_lt_iff x y, cmp_eq_eq_iff x y⟩
  · intro ha hb h
    rw [compare_of_not_reads ha hb h]
    exact ⟨Text.compare_eq_lt_iff _ _, Std.LawfulEqOrd.compare_eq_iff_eq⟩
  · rintro pageSize d rfl
    have hcall := Function.call_comparison pageSize d a b
    generalize a.compare d.store b = order at hcall
    refine ⟨order.isEq, order.isNe, order.isLT, order.isLE, order.isGT, order.isGE, hcall, ?_⟩
    cases order <;> decide

/-- Spellings of one number are equal, and a text in which there is no number makes the comparison
one of texts. -/
theorem Argument.compare_orderly_spellings :
    Argument.compare .empty (.literal " 1.50\n") (.literal "15e-1") = .eq ∧
    Argument.compare .empty (.literal "10") (.literal "9a") = .lt ∧
    Argument.compare .empty .null (.literal "z") = .gt := by
  refine ⟨?_, ?_, ?_⟩
  · obtain ⟨-, -, -, -, hnumbers, -, -, hnumerals, -⟩ :=
      compare_orderly .empty (.literal " 1.50\n") (.literal "15e-1")
    have hpoint : Numeral.IsWritten ⟨.none, ['1'], some ['5', '0'], none⟩ :=
      ⟨by decide, by simp [Numeral.digits], by simp, by simp, by decide⟩
    have hpower : Numeral.IsWritten ⟨.none, ['1', '5'], none, some ⟨false, .minus, ['1']⟩⟩ :=
      ⟨by decide, by simp [Numeral.digits], by simp, by simp, by decide⟩
    have hspace : ∀ c ∈ [' '], Text.isBlank c = true := List.forall_mem_singleton.2 (by decide)
    have hbreak : ∀ c ∈ ['\n'], Text.isBlank c = true := List.forall_mem_singleton.2 (by decide)
    have ha := hnumerals _ hpoint [' '] ['\n'] hspace hbreak
    have hb := hnumerals _ hpower [] [] (by simp) (by simp)
    have hleft : Nat.ofDigitChars 10 ['1', '5', '0'] 0 = 150 := by decide
    have hright : Nat.ofDigitChars 10 ['1', '5'] 0 = 15 := by decide
    have hexponent : Nat.ofDigitChars 10 ['1'] 0 = 1 := by decide
    apply (hnumbers _ _ ha hb).2.2
    norm_num [Numeral.value, Numeral.scale, Numeral.digits, NumeralSign.applied,
      NumeralPower.exponent, hleft, hright, hexponent]
  · obtain ⟨-, -, -, -, -, htexts, -⟩ := compare_orderly .empty (.literal "10") (.literal "9a")
    have hnone : ∀ y, ¬ (Value.text "9a").Reads y := by
      intro y hy
      have hread : Decimal.ofText? (Text.trim "9a".toList) = none := by decide
      rw [Value.reads_iff, Value.asDecimal?, hread] at hy
      cases hy
    apply (htexts rfl rfl (.inr hnone)).1.2
    decide
  · obtain ⟨-, -, -, hnull, -⟩ := compare_orderly .empty .null (.literal "z")
    exact hnull rfl

end TextTemplate
