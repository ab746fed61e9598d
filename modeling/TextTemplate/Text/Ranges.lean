namespace TextTemplate.Text

/-- A set of code points, written as its maximal runs from low to high, both ends included. -/
abbrev Ranges := Array (Nat × Nat)

def Ranges.contains (r : Ranges) (n : Nat) : Bool :=
  r.any fun (low, high) => low ≤ n && n ≤ high

/-- The same test on the list of runs, as a computation on numbers. -/
theorem Ranges.contains_eq_any (r : Ranges) (n : Nat) :
    r.contains n = r.toList.any fun run => run.1.ble n && n.ble run.2 := by
  have hble (a b : Nat) : decide (a ≤ b) = a.ble b := by
    rw [Bool.eq_iff_iff, decide_eq_true_iff, Nat.ble_eq]
  simp only [contains, ← Array.any_toList, hble]

/-- A single-character case rule: every `step`-th code point of a run moves by `shift`. -/
structure CaseRun where
  first : Nat
  last : Nat
  step : Nat
  shift : Int

def CaseRun.image? (r : CaseRun) (n : Nat) : Option Nat :=
  if r.first ≤ n ∧ n ≤ r.last ∧ (n - r.first) % r.step = 0 then some (n + r.shift).toNat else none

end TextTemplate.Text
