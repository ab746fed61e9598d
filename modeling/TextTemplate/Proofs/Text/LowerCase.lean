import TextTemplate.Text.Blank
import TextTemplate.Text.Case

/-! What is in lower case is its own lower case. The rules come as runs of code points that move
together, so this is told by the ends of the runs: no run moves into another, nor into blanks. -/

namespace TextTemplate.Text

namespace CaseRun

/-- Where the ends of a run move. -/
def imageFirst (r : CaseRun) : Nat := (r.first + r.shift).toNat

def imageLast (r : CaseRun) : Nat := (r.last + r.shift).toNat

/-- What `r` moves lands before `other`, behind it, or between its members. -/
def apart (r other : CaseRun) : Bool :=
  r.imageLast.blt other.first || other.last.blt r.imageFirst ||
    ((r.first.beq r.last || (r.step % other.step).beq 0) &&
      !(r.imageFirst % other.step).beq (other.first % other.step))

/-- What `r` moves lands before the code point, or behind it. -/
def misses (r : CaseRun) (code : Nat) : Bool := r.imageLast.blt code || code.blt r.imageFirst

/-- What `r` moves lands on characters, behind the capitals of ASCII. -/
def landsOnChars (r : CaseRun) : Bool :=
  Nat.blt 0x5f r.imageFirst &&
    (r.imageLast.blt 0xd800 || (Nat.blt 0xdfff r.imageFirst && r.imageLast.blt 0x110000))

variable {r other : CaseRun} {n m : Nat}

theorem exists_of_image? (hr : r.landsOnChars = true) (h : r.image? n = some m) :
    ∃ k, r.step ∣ k ∧ r.first + k ≤ r.last ∧ m = r.imageFirst + k ∧ m ≤ r.imageLast := by
  simp only [landsOnChars, Bool.and_eq_true, Nat.blt_eq] at hr
  unfold image? at h
  split at h
  · next hrun =>
    cases h
    refine ⟨n - r.first, Nat.dvd_of_mod_eq_zero hrun.2.2, ?_, ?_, ?_⟩ <;>
      simp only [imageFirst, imageLast] at hr ⊢ <;> omega
  · cases h

theorem image?_of_apart (hr : r.landsOnChars = true) (happart : r.apart other = true)
    (h : r.image? n = some m) : other.image? m = none := by
  obtain ⟨k, hstep, hlast, rfl, hle⟩ := exists_of_image? hr h
  simp only [apart, Bool.or_eq_true, Bool.and_eq_true, Bool.not_eq_true', ← Bool.not_eq_true,
    Nat.blt_eq, Nat.beq_eq] at happart
  refine if_neg fun ⟨hfirst, hother, hmember⟩ => ?_
  rcases happart with (hbefore | hbehind) | ⟨hsteps, hbetween⟩
  · omega
  · omega
  · have hk : other.step ∣ k := by
      rcases hsteps with hone | hsteps
      · have : k = 0 := by omega
        simp [this]
      · exact Nat.dvd_trans (Nat.dvd_of_mod_eq_zero hsteps) hstep
    obtain ⟨i, rfl⟩ := hk
    obtain ⟨j, hj⟩ := Nat.dvd_of_mod_eq_zero hmember
    have heq : r.imageFirst + other.step * i = other.first + other.step * j := by omega
    have hmod := congrArg (· % other.step) heq
    simp only [Nat.add_mul_mod_self_left] at hmod
    exact hbetween hmod

/-- What `r` moves lands on a character behind the capitals of ASCII, and on none of those that it
misses. -/
theorem of_image? (hr : r.landsOnChars = true) (h : r.image? n = some m) :
    0x5f < m ∧ m.isValidChar ∧ ∀ code, r.misses code = true → m ≠ code := by
  obtain ⟨k, -, -, rfl, hle⟩ := exists_of_image? hr h
  simp only [landsOnChars, Bool.and_eq_true, Bool.or_eq_true, Nat.blt_eq] at hr
  refine ⟨by omega, ?_, fun code hcode => ?_⟩
  · unfold Nat.isValidChar
    omega
  · simp only [misses, Bool.or_eq_true, Nat.blt_eq] at hcode
    omega

end CaseRun

/-- All that code points may move to: the runs, and the parts of expansions as runs that stay. -/
def landings : List CaseRun := ⟨0x69, 0x69, 1, 0⟩ :: ⟨0x307, 0x307, 1, 0⟩ :: lowerRuns.toList

theorem landings_apart : (landings.all fun r => lowerRuns.toList.all r.apart) = true := by
  decide +kernel

theorem landings_land :
    (landings.all fun r => r.landsOnChars && (0x130 :: blankCodes).all r.misses) = true := by
  decide +kernel

theorem runImage_eq_self {n : Nat} (h : ∀ r ∈ lowerRuns.toList, r.image? n = none) :
    runImage lowerRuns n = n := by
  rw [runImage, ← Array.findSome?_toList, List.findSome?_eq_none_iff.2 h, Option.getD_none]

/-- A character behind the capitals of ASCII that no rule moves and that is not blank. -/
structure Landed (m : Nat) : Prop where
  fixed : runImage lowerRuns m = m
  large : 0x5f < m
  valid : m.isValidChar
  missed : ∀ code ∈ 0x130 :: blankCodes, m ≠ code

theorem landed_of_image? {r : CaseRun} {n m : Nat} (hr : r ∈ landings)
    (himage : r.image? n = some m) : Landed m := by
  have hland := List.all_eq_true.1 landings_land r hr
  rw [Bool.and_eq_true, List.all_eq_true] at hland
  obtain ⟨hlarge, hvalid, hmisses⟩ := CaseRun.of_image? hland.1 himage
  refine ⟨runImage_eq_self fun other hother => ?_, hlarge, hvalid,
    fun code hcode => hmisses code (hland.2 code hcode)⟩
  have happart := List.all_eq_true.1 (List.all_eq_true.1 landings_apart r hr) other hother
  exact CaseRun.image?_of_apart hland.1 happart himage

/-- A code point stays, or lands where it stays. -/
theorem runImage_cases (n : Nat) :
    runImage lowerRuns n = n ∨ Landed (runImage lowerRuns n) := by
  cases hfind : lowerRuns.toList.findSome? (·.image? n) with
  | none => exact .inl (runImage_eq_self (List.findSome?_eq_none_iff.1 hfind))
  | some m =>
    have hm : runImage lowerRuns n = m := by
      rw [runImage, ← Array.findSome?_toList, hfind, Option.getD_some]
    obtain ⟨r, hr, himage⟩ := List.exists_of_findSome?_eq_some hfind
    rw [hm]
    exact .inr (landed_of_image? (List.mem_cons_of_mem _ (List.mem_cons_of_mem _ hr)) himage)

/-- Lower case of what is behind the capitals of ASCII. -/
theorem lowerChar_eq_self {c : Char} (hlarge : 0x5f < c.toNat) (hexpanded : c.toNat ≠ 0x130)
    (h : runImage lowerRuns c.toNat = c.toNat) : lowerChar c = [c] := by
  unfold lowerChar
  split
  · next hascii =>
    have hall : ∀ n < 0x80, 0x5f < n → (Char.ofNat n).toLower = Char.ofNat n := by decide
    have hc := hall c.toNat hascii hlarge
    rw [Char.ofNat_toNat] at hc
    rw [hc]
  · have hnone : lowerExpansions.find? (·.1 == c.toNat) = none := by
      simpa [lowerExpansions] using hexpanded.symm
    rw [caseImage, hnone]
    simp only [h, Char.ofNat_toNat]

theorem toNat_ofNat_of_isValidChar {n : Nat} (h : n.isValidChar) : (Char.ofNat n).toNat = n := by
  rw [Char.ofNat, dif_pos h]
  rfl

theorem Landed.char {m : Nat} (h : Landed m) : lowerChar (Char.ofNat m) = [Char.ofNat m] ∧
    0x5f < (Char.ofNat m).toNat ∧ isBlank (Char.ofNat m) = false := by
  have hm := toNat_ofNat_of_isValidChar h.valid
  have hblank : isBlank (Char.ofNat m) = false := by
    refine Bool.eq_false_iff.2 fun hblank => ?_
    have hcode := mem_blankCodes_of_isBlank hblank
    rw [hm] at hcode
    exact h.missed m (List.mem_cons_of_mem _ hcode) rfl
  refine ⟨lowerChar_eq_self ?_ ?_ ?_, ?_, hblank⟩
  · rw [hm]
    exact h.large
  · rw [hm]
    exact h.missed _ List.mem_cons_self
  · rw [hm]
    exact h.fixed
  · rw [hm]
    exact h.large

theorem expansion_eq {c : Char} {code : Nat} {image : List Nat}
    (h : lowerExpansions.find? (·.1 == c.toNat) = some (code, image)) : image = [0x69, 0x307] := by
  have hmem := Array.mem_of_find?_eq_some h
  simp only [lowerExpansions, List.mem_toArray, List.mem_singleton, Prod.mk.injEq] at hmem
  exact hmem.2

/-- The parts of an expansion are in lower case. -/
theorem landed_of_mem_expansion {m : Nat} (h : m ∈ [0x69, 0x307]) : Landed m := by
  simp only [List.mem_cons, List.not_mem_nil, or_false] at h
  have hstays : CaseRun.image? ⟨m, m, 1, 0⟩ m = some m := by simp [CaseRun.image?]
  rcases h with rfl | rfl
  · exact landed_of_image? List.mem_cons_self hstays
  · exact landed_of_image? (List.mem_cons_of_mem _ List.mem_cons_self) hstays

/-- What a character becomes in lower case is in lower case. It is the same character, or it is
behind the capitals of ASCII and not blank. -/
theorem of_mem_lowerChar {c d : Char} (h : d ∈ lowerChar c) :
    lowerChar d = [d] ∧ (d = c ∨ 0x5f < d.toNat ∧ isBlank d = false) := by
  unfold lowerChar at h
  split at h
  · next hascii =>
    rw [List.mem_singleton] at h
    have hall : ∀ n < 0x80, lowerChar (Char.ofNat n).toLower = [(Char.ofNat n).toLower] ∧
        ((Char.ofNat n).toLower = Char.ofNat n ∨ 0x5f < (Char.ofNat n).toLower.toNat ∧
          isBlank (Char.ofNat n).toLower = false) := by
      decide +kernel
    have hc := hall c.toNat hascii
    rwa [Char.ofNat_toNat, ← h] at hc
  · next hlarge =>
    unfold caseImage at h
    split at h
    · next image hfind =>
      rw [expansion_eq hfind] at h
      obtain ⟨m, hm, rfl⟩ := List.mem_map.1 h
      exact ⟨(landed_of_mem_expansion hm).char.1, .inr (landed_of_mem_expansion hm).char.2⟩
    · next hfind =>
      rw [List.mem_singleton] at h
      rcases runImage_cases c.toNat with hsame | hlanded
      · have hexpanded : c.toNat ≠ 0x130 := fun heq => by simp [lowerExpansions, heq] at hfind
        rw [h, hsame, Char.ofNat_toNat]
        exact ⟨lowerChar_eq_self (by omega) hexpanded hsame, .inl rfl⟩
      · rw [h]
        exact ⟨hlanded.char.1, .inr hlanded.char.2⟩

theorem lowerChar_ne_nil (c : Char) : lowerChar c ≠ [] := by
  unfold lowerChar
  split
  · simp
  · unfold caseImage
    split
    · next image hfind => simp [expansion_eq hfind]
    · simp

end TextTemplate.Text
