import Mathlib.Tactic.IntervalCases
import TextTemplate.Calendar.Date

/-! Days by count and by date. The date of a count of days is a day of the calendar, and it has that
count. -/

namespace TextTemplate.Calendar

/-- A day of an era of 400 years, that begins in March: so many days after its first, it lies in
this century, in this cycle of four years of it and in this year of the cycle, and `day` days after
the first of March. Leap days come last, in the fourth year of a cycle; the last cycle of a century
has one in the fourth century only. -/
structure EraDay (days century cycle year day : Int) : Prop where
  days_eq : days = 36524 * century + 1461 * cycle + 365 * year + day
  century_mem : 0 ≤ century ∧ century ≤ 3
  cycle_mem : 0 ≤ cycle ∧ cycle ≤ 24
  year_mem : 0 ≤ year ∧ year ≤ 3
  day_mem : 0 ≤ day ∧ day ≤ 365
  leap : day = 365 → year = 3 ∧ (cycle < 24 ∨ century = 3)

/-- Every day of an era has its place. -/
theorem exists_eraDay {days : Int} (h : 0 ≤ days) (h' : days < 146097) :
    ∃ century cycle year day, EraDay days century cycle year day := by
  obtain ⟨century, hcentury, hwithin⟩ : ∃ century, (0 ≤ century ∧ century ≤ 3) ∧
      0 ≤ days - 36524 * century ∧ days - 36524 * century ≤ 36524 ∧
      (days - 36524 * century = 36524 → century = 3) := by
    by_cases hlast : days = 146096
    · exact ⟨3, by omega⟩
    · exact ⟨days / 36524, by omega⟩
  obtain ⟨cycle, hcycle⟩ : ∃ cycle, cycle = (days - 36524 * century) / 1461 := ⟨_, rfl⟩
  obtain ⟨rest, hrest⟩ : ∃ rest, rest = days - 36524 * century - 1461 * cycle := ⟨_, rfl⟩
  have hrange : 0 ≤ rest ∧ rest ≤ 1460 := by omega
  by_cases hleap : rest = 1460
  · refine ⟨century, cycle, 3, 365, by omega, hcentury, by omega, by omega, by omega, fun _ => ?_⟩
    omega
  · refine ⟨century, cycle, rest / 365, rest % 365, by omega, hcentury, by omega, by omega,
      by omega, fun hday => ?_⟩
    omega

namespace EraDay
variable {days century cycle year day : Int} (h : EraDay days century cycle year day)
include h

theorem within_century : 0 ≤ days - 36524 * century ∧ days - 36524 * century ≤ 36524 ∧
    (days - 36524 * century = 36524 → century = 3) := by
  obtain ⟨rfl, -, hcycle, hyear, hday, hleap⟩ := h
  by_cases hlast : day = 365
  · obtain ⟨rfl, hcentury⟩ := hleap hlast
    omega
  · omega

theorem centuries_eq : days / 36524 - days / 146096 = century := by
  obtain ⟨hlow, hhigh, hlast⟩ := h.within_century
  obtain ⟨-, hcentury, -, -, -, -⟩ := h
  by_cases hend : days = 146096
  · omega
  · have hquotient : days / 36524 = century := by omega
    omega

/-- The years before the day, as they are found from the days before it. -/
theorem yearOfEra_eq : (days - days / 1460 + days / 36524 - days / 146096) / 365 =
    100 * century + 4 * cycle + year := by
  have hcenturies := h.centuries_eq
  obtain ⟨hdays, hcentury, hcycle, hyear, hday, hleap⟩ := h
  obtain ⟨above, habove⟩ : ∃ above, above = (24 * century + cycle + 365 * year + day) / 1460 :=
    ⟨_, rfl⟩
  have hcycles : days / 1460 = 25 * century + cycle + above := by omega
  -- The quotient is one above the cycles only where the last year of a cycle has begun.
  have hrest : 0 ≤ day - above ∧ day - above ≤ 364 := by omega
  have hsum : days - days / 1460 + days / 36524 - days / 146096 =
      365 * (100 * century + 4 * cycle + year) + (day - above) := by omega
  rw [hsum]
  omega

theorem dayOfYear_eq {yearOfEra : Int} (hyear : yearOfEra = 100 * century + 4 * cycle + year) :
    days - (365 * yearOfEra + yearOfEra / 4 - yearOfEra / 100) = day := by
  obtain ⟨rfl, hcentury, hcycle, hyears, hday, hleap⟩ := h
  omega

/-- The year that ends with a leap day is a leap year. -/
theorem isLeap_of_day_eq (hlast : day = 365) (era : Int) :
    isLeap (100 * century + 4 * cycle + year + era * 400 + 1) = true := by
  obtain ⟨-, hcentury, hcycle, hyear, -, hleap⟩ := h
  obtain ⟨rfl, hlater⟩ := hleap hlast
  have hfour : (100 * century + 4 * cycle + 3 + era * 400 + 1) % 4 = 0 := by omega
  simp only [isLeap, hfour, beq_self_eq_true, Bool.true_and, Bool.or_eq_true, bne_iff_ne,
    beq_iff_eq]
  omega

end EraDay

theorem daysInMonth_le (year : Int) (month : Nat) : daysInMonth year month ≤ 31 := by
  unfold daysInMonth
  split
  · split <;> decide
  all_goals decide

namespace Date

/-- The date so many days after the first of March. -/
def ofMarch (year dayOfYear : Int) : Date :=
  let monthFromMarch := (5 * dayOfYear + 2) / 153
  let day := (dayOfYear - (153 * monthFromMarch + 2) / 5 + 1).toNat
  let month := (if monthFromMarch < 10 then monthFromMarch + 3 else monthFromMarch - 9).toNat
  { year := if month ≤ 2 then year + 1 else year, month, day }

/-- A day is found by its era, the year of that, counted from March, and the day of the year. -/
theorem exists_ofDays_eq (days : Int) : ∃ era yearOfEra dayOfYear : Int,
    (0 ≤ yearOfEra ∧ yearOfEra ≤ 399) ∧ (0 ≤ dayOfYear ∧ dayOfYear ≤ 365) ∧
    (dayOfYear = 365 → isLeap (yearOfEra + era * 400 + 1) = true) ∧
    days = era * 146097 + (yearOfEra * 365 + yearOfEra / 4 - yearOfEra / 100 + dayOfYear) - 719468 ∧
    ofDays days = ofMarch (yearOfEra + era * 400) dayOfYear := by
  obtain ⟨era, hera⟩ : ∃ era, era = (days + 719468) / 146097 := ⟨_, rfl⟩
  obtain ⟨dayOfEra, hday⟩ : ∃ dayOfEra, dayOfEra = days + 719468 - era * 146097 := ⟨_, rfl⟩
  obtain ⟨century, cycle, year, day, h⟩ :=
    exists_eraDay (by omega : 0 ≤ dayOfEra) (by omega)
  refine ⟨era, 100 * century + 4 * cycle + year, day, ?_, h.day_mem, fun hlast => ?_, ?_, ?_⟩
  · have hcentury := h.century_mem
    have hcycle := h.cycle_mem
    have hyear := h.year_mem
    omega
  · exact h.isLeap_of_day_eq hlast era
  · have hdayOfYear := h.dayOfYear_eq rfl
    omega
  · simp only [ofDays, ofMarch, ← hera, ← hday, h.yearOfEra_eq, h.dayOfYear_eq rfl]

section
variable {dayOfYear : Int} (hday : 0 ≤ dayOfYear ∧ dayOfYear ≤ 365)
include hday

theorem valid_ofMarch {year : Int} (hleap : dayOfYear = 365 → isLeap (year + 1) = true) :
    (ofMarch year dayOfYear).Valid := by
  obtain ⟨month, hmonth⟩ : ∃ month, month = (5 * dayOfYear + 2) / 153 := ⟨_, rfl⟩
  have hlow : 0 ≤ month := by omega
  have hhigh : month ≤ 11 := by omega
  simp only [Valid, ofMarch, ← hmonth]
  by_cases hlast : dayOfYear = 365
  · obtain rfl : month = 11 := by omega
    simp [daysInMonth, hleap hlast]
    omega
  · interval_cases month <;> simp [daysInMonth] <;> omega

theorem toDays_ofMarch {yearOfEra : Int} (hyear : 0 ≤ yearOfEra ∧ yearOfEra ≤ 399) (era : Int) :
    (ofMarch (yearOfEra + era * 400) dayOfYear).toDays =
      era * 146097 + (yearOfEra * 365 + yearOfEra / 4 - yearOfEra / 100 + dayOfYear) - 719468 := by
  obtain ⟨month, hmonth⟩ : ∃ month, month = (5 * dayOfYear + 2) / 153 := ⟨_, rfl⟩
  have hera : (yearOfEra + era * 400) / 400 = era := by omega
  have hrest : yearOfEra + era * 400 - era * 400 = yearOfEra := by omega
  have hfirst : (153 * month + 2) / 5 ≤ dayOfYear := by omega
  by_cases hlate : month < 10
  · have hnumber : ¬ (month + 3).toNat ≤ 2 := by omega
    simp only [toDays, ofMarch, ← hmonth, if_pos hlate, if_neg hnumber, hera, hrest]
    omega
  · have hnumber : (month - 9).toNat ≤ 2 := by omega
    have hyears : yearOfEra + era * 400 + 1 - 1 = yearOfEra + era * 400 := by omega
    simp only [toDays, ofMarch, ← hmonth, if_neg hlate, if_pos hnumber, hyears, hera, hrest]
    omega

end

/-- A count of days names a day of the calendar. -/
theorem valid_ofDays (days : Int) : (ofDays days).Valid := by
  obtain ⟨era, yearOfEra, dayOfYear, -, hday, hleap, -, heq⟩ := exists_ofDays_eq days
  rw [heq]
  exact valid_ofMarch hday hleap

/-- The day that a count of days names has this count. -/
theorem toDays_ofDays (days : Int) : (ofDays days).toDays = days := by
  obtain ⟨era, yearOfEra, dayOfYear, hyear, hday, -, hdays, heq⟩ := exists_ofDays_eq days
  rw [heq, toDays_ofMarch hday hyear era, ← hdays]

end Date

end TextTemplate.Calendar
