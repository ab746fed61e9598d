import TextTemplate.Calendar.Rfc3339
import TextTemplate.Proofs.Calendar.Date
import TextTemplate.Proofs.Decimal.Digits
import TextTemplate.Text.Name

/-! The internet form of instants. What is read from it lies on a clock that goes by whole minutes,
and such an instant is read back from its internet form, leap seconds and fractions included. -/

namespace TextTemplate.Calendar

/-! ### Numbers of a fixed width -/

section
variable {width n : Nat}

theorem length_zeroPadded (hwidth : 0 < width) (h : n < 10 ^ width) :
    (zeroPadded width n).length = width := by
  have hle := (Nat.length_toDigits_le_iff (by decide) hwidth).2 h
  simp only [zeroPadded, digits, List.length_append, List.length_replicate]
  omega

theorem isDigit_of_mem_zeroPadded {c : Char} (hc : c ∈ zeroPadded width n) : c.isDigit = true := by
  rcases List.mem_append.1 hc with hc | hc
  · exact Decimal.isDigit_of_mem_replicate _ c hc
  · exact Nat.isDigit_of_mem_toDigits (by decide) (by decide) hc

theorem ofDigitChars_zeroPadded : Nat.ofDigitChars 10 (zeroPadded width n) 0 = n := by
  rw [zeroPadded, Nat.ofDigitChars_append, Nat.ofDigitChars_replicate_zero, Nat.mul_zero, digits,
    Nat.ofDigitChars_ten_toDigits]

end

section
variable {least most : Nat} {ds : List Char} (hds : ∀ c ∈ ds, c.isDigit = true)
include hds

/-- Digits are read up to a character that is none, or as many as may be. -/
theorem readNumber?_append {rest : List Char} (hleast : least ≤ ds.length)
    (hmost : ds.length ≤ most) (hrest : ds.length = most ∨ rest.head?.any Char.isDigit = false) :
    readNumber? least most (ds ++ rest) = some (Nat.ofDigitChars 10 ds 0, rest) := by
  have htaken : ((ds ++ rest).take most).takeWhile Char.isDigit = ds := by
    rw [List.take_append, List.take_of_length_le hmost]
    refine Text.takeWhile_append hds ?_
    rcases hrest with hfull | hrest
    · rw [hfull, Nat.sub_self]
      rfl
    · cases rest with
      | nil => rw [List.take_nil]; rfl
      | cons c rest =>
        cases most - ds.length with
        | zero => rfl
        | succ k => exact hrest
  rw [readNumber?, htaken]
  simp only [if_neg (Nat.not_lt.2 hleast), List.drop_left]
  rfl

theorem ofDigitChars_lt (n : Nat) : Nat.ofDigitChars 10 ds n < (n + 1) * 10 ^ ds.length := by
  induction ds generalizing n with
  | nil => simp
  | cons c ds ih =>
    obtain ⟨hc, hds⟩ := List.forall_mem_cons.1 hds
    have hdigit : c.toNat - '0'.toNat < 10 := by
      have hrange := (Char.isDigit_iff_toNat.1 hc).2
      simp only [Char.reduceToNat] at hrange ⊢
      omega
    rw [Nat.ofDigitChars_cons, List.length_cons, Nat.pow_succ, Nat.mul_comm (10 ^ ds.length),
      ← Nat.mul_assoc]
    refine Nat.lt_of_lt_of_le (ih hds _) (Nat.mul_le_mul_right _ ?_)
    omega

end

theorem readNumber?_zeroPadded {width n : Nat} (hwidth : 0 < width) (h : n < 10 ^ width)
    (rest : List Char) : readNumber? width width (zeroPadded width n ++ rest) = some (n, rest) := by
  have hlength := length_zeroPadded hwidth h
  rw [readNumber?_append (fun c => isDigit_of_mem_zeroPadded) (Nat.le_of_eq hlength.symm)
    (Nat.le_of_eq hlength) (.inl hlength), ofDigitChars_zeroPadded]

/-- A number of two digits is read back. -/
theorem readNumber?_two {n : Nat} (h : n < 100) (rest : List Char) :
    readNumber? 2 2 (zeroPadded 2 n ++ rest) = some (n, rest) :=
  readNumber?_zeroPadded (by decide) h rest

/-! ### Fractions and offsets -/

theorem readFraction?_zeroPadded {width n : Nat} (hwidth : 0 < width) (hnine : width ≤ 9)
    (h : n < 10 ^ width) {rest : List Char} (hrest : rest.head?.any Char.isDigit = false) :
    readFraction? (zeroPadded width n ++ rest) = some (n * 10 ^ (9 - width), rest) := by
  have hlength := length_zeroPadded hwidth h
  have hread : readNumber? 1 9 (zeroPadded width n ++ rest) = some (n, rest) := by
    rw [readNumber?_append (fun c => isDigit_of_mem_zeroPadded) (by omega) (by omega) (.inr hrest),
      ofDigitChars_zeroPadded]
  have hdropped : rest.dropWhile Char.isDigit = rest := by
    simpa using Text.dropWhile_append (p := Char.isDigit) (a := []) (by simp) hrest
  simp only [readFraction?, hread, Option.bind_eq_bind, Option.bind_some, List.length_append,
    Nat.add_sub_cancel, hlength, hdropped]
  rfl

/-- A fraction is told by as many digits as say it exactly. -/
theorem exists_fractionText_eq {nanos : Nat} (h : nanos < 1000000000) (hne : nanos ≠ 0) :
    ∃ width n, (0 < width ∧ width ≤ 9) ∧ n < 10 ^ width ∧ n * 10 ^ (9 - width) = nanos ∧
      fractionText nanos = '.' :: zeroPadded width n := by
  by_cases hmillis : nanos % 1000000 = 0
  · refine ⟨3, nanos / 1000000, by decide, by omega, by omega, ?_⟩
    rw [fractionText, if_neg hne, if_pos hmillis]
  · by_cases hmicros : nanos % 1000 = 0
    · refine ⟨6, nanos / 1000, by decide, by omega, by omega, ?_⟩
      rw [fractionText, if_neg hne, if_neg hmillis, if_pos hmicros]
    · refine ⟨9, nanos, by decide, h, by omega, ?_⟩
      rw [fractionText, if_neg hne, if_neg hmillis, if_neg hmicros]

theorem lt_of_readNumber? {least most n : Nat} {cs rest : List Char}
    (h : readNumber? least most cs = some (n, rest)) :
    n < 10 ^ (cs.length - rest.length) ∧ cs.length - rest.length ≤ most := by
  obtain ⟨ds, hds⟩ : ∃ ds, ds = (cs.take most).takeWhile Char.isDigit := ⟨_, rfl⟩
  have hdigits : ∀ c ∈ ds, c.isDigit = true := by
    rw [hds]
    exact List.all_eq_true.1 List.all_takeWhile
  have hlength : ds.length ≤ (cs.take most).length := by
    rw [hds]
    exact (List.takeWhile_sublist _).length_le
  rw [List.length_take] at hlength
  rw [readNumber?, ← hds, Option.ite_none_left_eq_some] at h
  obtain ⟨-, h⟩ := h
  cases h
  have hcount : cs.length - (cs.drop ds.length).length = ds.length := by
    rw [List.length_drop]
    omega
  rw [hcount]
  have hlt := ofDigitChars_lt hdigits 0
  rw [Nat.zero_add, Nat.one_mul] at hlt
  exact ⟨hlt, by omega⟩

/-- A fraction is less than a second. -/
theorem lt_of_readFraction? {cs rest : List Char} {nanos : Nat}
    (h : readFraction? cs = some (nanos, rest)) : nanos < 1000000000 := by
  simp only [readFraction?, Option.bind_eq_bind, Option.bind_eq_some_iff, Prod.exists,
    Option.some.injEq, Prod.mk.injEq] at h
  obtain ⟨n, after, hread, rfl, -⟩ := h
  obtain ⟨hlt, hcount⟩ := lt_of_readNumber? hread
  calc n * 10 ^ (9 - (cs.length - after.length))
      < 10 ^ (cs.length - after.length) * 10 ^ (9 - (cs.length - after.length)) :=
        Nat.mul_lt_mul_of_pos_right hlt (Nat.pow_pos (by decide))
    _ = 10 ^ 9 := by rw [← Nat.pow_add, Nat.add_sub_cancel' hcount]

theorem head?_write (offset : Int) :
    (OffsetForm.minutesColon.write offset).head? = some (if offset < 0 then '-' else '+') := by
  by_cases hsign : offset < 0 <;> simp [OffsetForm.write, hsign]

theorem readOffset?_write {offset : Int} (hlt : offset.natAbs < 86400) (hwhole : offset % 60 = 0)
    (rest : List Char) :
    readOffset? (OffsetForm.minutesColon.write offset ++ rest) = some (offset, rest) := by
  obtain ⟨hours, hhours⟩ : ∃ hours, hours = offset.natAbs / 3600 := ⟨_, rfl⟩
  obtain ⟨minutes, hminutes⟩ : ∃ minutes, minutes = offset.natAbs / 60 % 60 := ⟨_, rfl⟩
  have hvalid : hours < 24 ∧ minutes < 60 := by omega
  simp only [OffsetForm.write, OffsetForm.minutesColon, ← hhours, ← hminutes]
  by_cases hsign : offset < 0
  · simp [hsign, readOffset?, readChar?, readNumber?_two (by omega : hours < 100),
      readNumber?_two (by omega : minutes < 100), hvalid]
    omega
  · simp [hsign, readOffset?, readChar?, readNumber?_two (by omega : hours < 100),
      readNumber?_two (by omega : minutes < 100), hvalid]
    omega

theorem bounds_of_readOffset? {cs rest : List Char} {offset : Int}
    (h : readOffset? cs = some (offset, rest)) : offset.natAbs < 86400 ∧ offset % 60 = 0 := by
  unfold readOffset? at h
  split at h
  · cases h
    decide
  · cases h
    decide
  · split at h
    · simp only [Option.bind_eq_bind, Option.bind_eq_some_iff, Prod.exists,
        Option.ite_none_right_eq_some] at h
      obtain ⟨hours, _, -, _, -, minutes, _, -, ⟨hhours, hminutes⟩, h⟩ := h
      simp only [Option.some.injEq, Prod.mk.injEq] at h
      obtain ⟨rfl, -⟩ := h
      split <;> omega
    · cases h
  · cases h

theorem readChar?_eq_some_iff {c : Char} {cs rest : List Char} :
    readChar? c cs = some rest ↔ cs = c :: rest := by
  cases cs with
  | nil => simp [readChar?]
  | cons d cs => simp [readChar?, eq_comm]

namespace Instant

/-! ### The reader in its parts -/

/-- What follows the seconds: a fraction after a point, or none. -/
inductive ReadsFraction : List Char → Nat → List Char → Prop where
  | none {rest : List Char} : rest.head? ≠ some '.' → ReadsFraction rest 0 rest
  | some {cs rest : List Char} {nanos : Nat} :
    readFraction? cs = some (nanos, rest) → ReadsFraction ('.' :: cs) nanos rest

/-- The parts that a time of the day is read in. A second 60 is the leap second after 59. -/
inductive ReadsClock (date : Date) : List Char → Instant → Prop where
  | parts {cs afterHour afterMinute afterSecond zone : List Char} {hour minute second nanos : Nat}
    {offset : Int} :
    readNumber? 2 2 cs = some (hour, ':' :: afterHour) →
    readNumber? 2 2 afterHour = some (minute, ':' :: afterMinute) →
    readNumber? 2 2 afterMinute = some (second, afterSecond) →
    ReadsFraction afterSecond nanos zone → readOffset? zone = some (offset, []) →
    hour < 24 → minute < 60 → second ≤ 60 →
    ReadsClock date cs (ofLocal
      { date, hour, minute
        second := if second = 60 then 59 else second
        nanos := if second = 60 then nanos + 1000000000 else nanos } offset)

/-- The parts that an instant is read in. -/
inductive Reads : List Char → Instant → Prop where
  | parts {cs afterYear afterMonth afterDay : List Char} {year month day : Nat} {join : Char}
    {date : Date} {t : Instant} :
    readNumber? 4 4 cs = some (year, '-' :: afterYear) →
    readNumber? 2 2 afterYear = some (month, '-' :: afterMonth) →
    readNumber? 2 2 afterMonth = some (day, join :: afterDay) →
    join = 'T' ∨ join = 't' ∨ join = ' ' →
    Date.make? year month day = some date → ReadsClock date afterDay t → Reads cs t

/-- The offset is read last, and then everything is put together. -/
def assembled? (date? : Option Date) (hour minute second nanos : Nat) (zone : List Char) :
    Option Instant := do
  let (offset, rest) ← readOffset? zone
  let date ← date?
  if rest = [] ∧ hour < 24 ∧ minute < 60 ∧ second ≤ 60 then
    let (second, nanos) := if second = 60 then (59, nanos + 1000000000) else (second, nanos)
    some (ofLocal { date, hour, minute, second, nanos } offset)
  else none

/-- The part of the reader that follows the seconds. -/
def fractioned? (date? : Option Date) (hour minute second : Nat) (cs : List Char) :
    Option Instant :=
  match cs with
  | '.' :: rest => do
    let (nanos, cs) ← readFraction? rest
    assembled? date? hour minute second nanos cs
  | _ => assembled? date? hour minute second 0 cs

/-- The part of the reader that follows the date. -/
def clocked? (date? : Option Date) (cs : List Char) : Option Instant := do
  let (hour, cs) ← readNumber? 2 2 cs
  let cs ← readChar? ':' cs
  let (minute, cs) ← readNumber? 2 2 cs
  let cs ← readChar? ':' cs
  let (second, cs) ← readNumber? 2 2 cs
  fractioned? date? hour minute second cs

/-- The reader in its parts. -/
theorem ofRfc3339?_eq (cs : List Char) : ofRfc3339? cs = (do
    let (year, cs) ← readNumber? 4 4 cs
    let cs ← readChar? '-' cs
    let (month, cs) ← readNumber? 2 2 cs
    let cs ← readChar? '-' cs
    let (day, cs) ← readNumber? 2 2 cs
    match cs with
    | c :: rest =>
      if c = 'T' ∨ c = 't' ∨ c = ' ' then clocked? (Date.make? year month day) rest else none
    | [] => none) := rfl

theorem assembled?_eq_some_iff {date? : Option Date} {hour minute second nanos : Nat}
    {zone : List Char} {t : Instant} : assembled? date? hour minute second nanos zone = some t ↔
      ∃ offset date, readOffset? zone = some (offset, []) ∧ date? = some date ∧
        (hour < 24 ∧ minute < 60 ∧ second ≤ 60) ∧
        ofLocal
          { date, hour, minute
            second := if second = 60 then 59 else second
            nanos := if second = 60 then nanos + 1000000000 else nanos } offset = t := by
  simp only [assembled?, Option.bind_eq_bind, Option.bind_eq_some_iff, Prod.exists,
    Option.ite_none_right_eq_some]
  constructor
  · rintro ⟨offset, rest, hoffset, date, hdate, ⟨rfl, hbounds⟩, ht⟩
    refine ⟨offset, date, hoffset, hdate, hbounds, ?_⟩
    rw [← Option.some.inj ht]
    split <;> rfl
  · rintro ⟨offset, date, hoffset, hdate, hbounds, rfl⟩
    refine ⟨offset, [], hoffset, date, hdate, ⟨rfl, hbounds⟩, ?_⟩
    split <;> rfl

theorem fractioned?_eq_some_iff {date? : Option Date} {hour minute second : Nat} {cs : List Char}
    {t : Instant} : fractioned? date? hour minute second cs = some t ↔
      ∃ nanos zone, ReadsFraction cs nanos zone ∧
        assembled? date? hour minute second nanos zone = some t := by
  constructor
  · intro h
    unfold fractioned? at h
    split at h
    · obtain ⟨⟨nanos, zone⟩, hfraction, h⟩ := Option.bind_eq_some_iff.1 h
      exact ⟨nanos, zone, .some hfraction, h⟩
    · next hpoint =>
      refine ⟨0, cs, .none fun hhead => ?_, h⟩
      obtain ⟨rest, rfl⟩ := List.head?_eq_some_iff.1 hhead
      exact hpoint rest rfl
  · rintro ⟨nanos, zone, hfraction, h⟩
    cases hfraction with
    | some hfraction =>
      rw [fractioned?, hfraction]
      exact h
    | none hpoint =>
      unfold fractioned?
      split
      · exact absurd rfl hpoint
      · exact h

theorem clocked?_eq_some_iff {date? : Option Date} {cs : List Char} {t : Instant} :
    clocked? date? cs = some t ↔ ∃ date, date? = some date ∧ ReadsClock date cs t := by
  simp only [clocked?, Option.bind_eq_bind, Option.bind_eq_some_iff, Prod.exists,
    readChar?_eq_some_iff, fractioned?_eq_some_iff, assembled?_eq_some_iff]
  constructor
  · rintro ⟨hour, _, hhour, afterHour, rfl, minute, _, hminute, afterMinute, rfl, second,
      afterSecond, hsecond, nanos, zone, hfraction, offset, date, hoffset, hdate,
      ⟨hhours, hminutes, hseconds⟩, rfl⟩
    exact ⟨date, hdate,
      .parts hhour hminute hsecond hfraction hoffset hhours hminutes hseconds⟩
  · rintro ⟨date, hdate, hreads⟩
    cases hreads with
    | parts hhour hminute hsecond hfraction hoffset hhours hminutes hseconds =>
      exact ⟨_, _, hhour, _, rfl, _, _, hminute, _, rfl, _, _, hsecond, _, _, hfraction, _, date,
        hoffset, hdate, ⟨hhours, hminutes, hseconds⟩, rfl⟩

/-- The reader accepts what can be read in its parts. -/
theorem ofRfc3339?_eq_some_iff {cs : List Char} {t : Instant} :
    ofRfc3339? cs = some t ↔ Reads cs t := by
  simp only [ofRfc3339?_eq, Option.bind_eq_bind, Option.bind_eq_some_iff, Prod.exists,
    readChar?_eq_some_iff]
  constructor
  · rintro ⟨year, _, hyear, afterYear, rfl, month, _, hmonth, afterMonth, rfl, day, joined, hday, h⟩
    cases joined with
    | nil => cases h
    | cons join afterDay =>
      obtain ⟨hjoin, h⟩ := Option.ite_none_right_eq_some.1 h
      obtain ⟨date, hdate, hclock⟩ := clocked?_eq_some_iff.1 h
      exact .parts hyear hmonth hday hjoin hdate hclock
  · intro h
    cases h with
    | parts hyear hmonth hday hjoin hdate hclock =>
      refine ⟨_, _, hyear, _, rfl, _, _, hmonth, _, rfl, _, _, hday, ?_⟩
      exact (if_pos hjoin).trans (clocked?_eq_some_iff.2 ⟨_, hdate, hclock⟩)

/-! ### Instants that can be told -/

/-- The instant was told by a clock that is less than a day off universal time, by whole minutes. -/
structure ByMinutes (t : Instant) : Prop where
  offset_lt : t.offset.natAbs < 86400
  offset_whole : t.offset % 60 = 0
  nanos_lt : t.nanos < 2000000000

/-- Besides, it is in a leap second only at the end of a minute. -/
structure OnClock (t : Instant) : Prop extends t.ByMinutes where
  leap : 1000000000 ≤ t.nanos → t.localSeconds % 60 = 59

theorem ReadsFraction.lt {cs rest : List Char} {nanos : Nat} (h : ReadsFraction cs nanos rest) :
    nanos < 1000000000 := by
  cases h with
  | none => decide
  | some h => exact lt_of_readFraction? h

/-- What is read was told by a clock that goes by whole minutes. -/
theorem Reads.byMinutes {cs : List Char} {t : Instant} (h : Reads cs t) : t.ByMinutes := by
  obtain ⟨-, -, -, -, -, hclock⟩ := h
  obtain ⟨-, -, -, hfraction, hoffset, -, -, -⟩ := hclock
  obtain ⟨hlt, hwhole⟩ := bounds_of_readOffset? hoffset
  have hnanos := hfraction.lt
  refine ⟨hlt, hwhole, ?_⟩
  simp only [ofLocal]
  split <;> omega

/-- What calendar and clock show is the instant, if their offset is known. -/
theorem ofLocal_toLocal (t : Instant) : ofLocal t.toLocal t.offset = t := by
  obtain ⟨seconds, nanos, offset⟩ := t
  simp only [ofLocal, toLocal, localSeconds, secondsPerDay, Date.toDays_ofDays, mk.injEq, and_true]
  omega

theorem toLocal_bounds (t : Instant) :
    t.toLocal.hour < 24 ∧ t.toLocal.minute < 60 ∧ t.toLocal.second < 60 := by
  simp only [toLocal, secondsPerDay]
  omega

theorem second_eq (t : Instant) : (t.toLocal.second : Int) = t.localSeconds % 60 := by
  simp only [toLocal, secondsPerDay]
  omega

/-- All that calendar and clock show is told in two digits, but for the year. -/
theorem ByMinutes.two_digits {t : Instant} (h : t.ByMinutes) :
    t.toLocal.date.month < 100 ∧ t.toLocal.date.day < 100 ∧ t.toLocal.hour < 100 ∧
    t.toLocal.minute < 100 ∧ t.toLocal.clockSecond < 100 := by
  obtain ⟨-, hmonth, -, hday⟩ : t.toLocal.date.Valid := Date.valid_ofDays _
  have hdays := daysInMonth_le t.toLocal.date.year t.toLocal.date.month
  obtain ⟨hhour, hminute, hsecond⟩ := t.toLocal_bounds
  have hnanos : t.toLocal.nanos < 2000000000 := h.nanos_lt
  simp only [LocalTime.clockSecond]
  omega

/-- The clock shows 60 for the second exactly in a leap second. -/
theorem OnClock.shown {t : Instant} (h : t.OnClock) : t.toLocal.clockSecond ≤ 60 ∧
    (if t.toLocal.clockSecond = 60 then 59 else t.toLocal.clockSecond) = t.toLocal.second ∧
    (if t.toLocal.clockSecond = 60 then t.toLocal.fraction + 1000000000 else t.toLocal.fraction) =
      t.toLocal.nanos := by
  have hsecond := t.toLocal_bounds.2.2
  have hnanos : t.toLocal.nanos = t.nanos := rfl
  have hlt := h.nanos_lt
  simp only [LocalTime.clockSecond, LocalTime.fraction, hnanos]
  by_cases hleap : 1000000000 ≤ t.nanos
  · have hlast : t.toLocal.second = 59 := by
      have hshown := t.second_eq
      rw [h.leap hleap] at hshown
      omega
    have hshown : t.toLocal.second + t.nanos / 1000000000 = 60 := by omega
    rw [if_pos hshown, if_pos hshown]
    omega
  · have hshown : ¬ t.toLocal.second + t.nanos / 1000000000 = 60 := by omega
    rw [if_neg hshown, if_neg hshown]
    omega

/-! ### Writing and reading -/

theorem yearText_eq {year : Int} (h : 0 ≤ year ∧ year ≤ 9999) :
    yearText year .zeros = zeroPadded 4 year.toNat := by
  have hsign : ¬ year < 0 := by omega
  have hlarge : ¬ 10000 ≤ year := by omega
  have hsize : year.natAbs = year.toNat := by omega
  simp [yearText, paddedNumber, zeroPadded, hsign, hlarge, hsize]

/-- A day of a year of four digits is a date that is kept. -/
theorem make?_eq {date : Date} (hvalid : date.Valid) (hyear : 0 ≤ date.year ∧ date.year ≤ 9999) :
    Date.make? date.year.toNat date.month date.day = some date := by
  have hsame : (date.year.toNat : Int) = date.year := Int.toNat_of_nonneg hyear.1
  rw [Date.make?, hsame, if_pos]
  refine ⟨hvalid, ?_, ?_⟩
  · exact Int.le_trans (by decide) hyear.1
  · exact Int.le_trans hyear.2 (by decide)

theorem readsFraction_fractionText {nanos : Nat} (h : nanos < 1000000000) {rest : List Char}
    (hdigit : rest.head?.any Char.isDigit = false) (hpoint : rest.head? ≠ some '.') :
    ReadsFraction (fractionText nanos ++ rest) nanos rest := by
  by_cases hzero : nanos = 0
  · subst hzero
    exact .none hpoint
  · obtain ⟨width, n, ⟨hwidth, hnine⟩, hn, hsame, htext⟩ := exists_fractionText_eq h hzero
    rw [htext, List.cons_append]
    exact .some ((readFraction?_zeroPadded hwidth hnine hn hdigit).trans (by rw [hsame]))

/-- An instant is read back from its internet form. -/
theorem ofRfc3339?_rfc3339 {t : Instant} (h : t.OnClock)
    (hyear : 0 ≤ t.toLocal.date.year ∧ t.toLocal.date.year ≤ 9999) :
    ofRfc3339? t.rfc3339 = some t := by
  have hvalid : t.toLocal.date.Valid := Date.valid_ofDays _
  obtain ⟨hmonth₂, hday₂, hhour₂, hminute₂, hsecond₂⟩ := h.two_digits
  obtain ⟨hhour, hminute, -⟩ := t.toLocal_bounds
  obtain ⟨hclock, hsecond, hnanos⟩ := h.shown
  have hfraction : ReadsFraction
      (fractionText t.toLocal.fraction ++ OffsetForm.minutesColon.write t.offset)
      t.toLocal.fraction (OffsetForm.minutesColon.write t.offset) := by
    refine readsFraction_fractionText (Nat.mod_lt _ (by decide)) ?_ ?_
    · rw [head?_write]
      split <;> rfl
    · rw [head?_write]
      split <;> decide
  have hoffset := readOffset?_write h.offset_lt h.offset_whole []
  rw [List.append_nil] at hoffset
  have hclocked : ReadsClock t.toLocal.date _ _ := .parts (readNumber?_two hhour₂ _)
    (readNumber?_two hminute₂ _) (readNumber?_two hsecond₂ _) hfraction hoffset hhour hminute hclock
  rw [hsecond, hnanos] at hclocked
  have hreads : Reads t.rfc3339 (ofLocal t.toLocal t.offset) := by
    simp only [rfc3339, List.append_assoc, List.cons_append, yearText_eq hyear]
    exact .parts (readNumber?_zeroPadded (by decide) (by omega) _) (readNumber?_two hmonth₂ _)
      (readNumber?_two hday₂ _) (.inl rfl) (make?_eq hvalid hyear) hclocked
  rw [ofLocal_toLocal] at hreads
  exact ofRfc3339?_eq_some_iff.2 hreads

theorem isBlank_of_mem_zeroPadded {width n : Nat} :
    ∀ c ∈ zeroPadded width n, Text.isBlank c = false := by
  intro c hc
  apply Text.isBlank_of_isNameChar
  rw [Text.isNameChar, Char.isAlphanum, isDigit_of_mem_zeroPadded hc, Bool.or_true, Bool.true_or]

/-- There are no blanks in the internet form. -/
theorem isBlank_of_mem_rfc3339 {t : Instant}
    (hyear : 0 ≤ t.toLocal.date.year ∧ t.toLocal.date.year ≤ 9999) :
    ∀ c ∈ t.rfc3339, Text.isBlank c = false := by
  have hfraction : ∀ c ∈ fractionText t.toLocal.fraction, Text.isBlank c = false := by
    by_cases hzero : t.toLocal.fraction = 0
    · simp [fractionText, hzero]
    · have hlt : t.toLocal.fraction < 1000000000 := Nat.mod_lt _ (by decide)
      obtain ⟨width, n, -, -, -, htext⟩ := exists_fractionText_eq hlt hzero
      rw [htext, List.forall_mem_cons]
      exact ⟨by decide, isBlank_of_mem_zeroPadded⟩
  have hoffset : ∀ c ∈ OffsetForm.minutesColon.write t.offset, Text.isBlank c = false := by
    have hsign : ∀ c ∈ if t.offset < 0 then ['-'] else ['+'], Text.isBlank c = false := by
      split <;> exact List.forall_mem_singleton.2 (by decide)
    simp only [OffsetForm.write, OffsetForm.minutesColon, ↓reduceIte, Bool.false_eq_true,
      List.append_nil, List.forall_mem_append, List.forall_mem_cons, List.singleton_append]
    exact ⟨⟨hsign, isBlank_of_mem_zeroPadded⟩, by decide, isBlank_of_mem_zeroPadded⟩
  simp only [rfc3339, yearText_eq hyear, List.forall_mem_append, List.forall_mem_cons]
  have hnumber (width n : Nat) : ∀ c ∈ zeroPadded width n, Text.isBlank c = false :=
    isBlank_of_mem_zeroPadded
  exact ⟨⟨⟨⟨⟨⟨⟨hnumber _ _, by decide, hnumber _ _⟩, by decide, hnumber _ _⟩, by decide,
    hnumber _ _⟩, by decide, hnumber _ _⟩, by decide, hnumber _ _⟩, hfraction⟩, hoffset⟩

end Instant

end TextTemplate.Calendar
