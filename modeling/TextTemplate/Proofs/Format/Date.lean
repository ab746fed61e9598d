import TextTemplate.Format.Basic
import TextTemplate.Proofs.Calendar.Rfc3339

/-! Dates that are written in the international form. They are read again as the instants that they
were written for, down to the second. -/

namespace TextTemplate

namespace Calendar.Instant

/-! ### Whole seconds -/

/-- Nanoseconds since 1970; a leap second takes those of the second after it. -/
def totalNanos (t : Instant) : Int := t.seconds * 1000000000 + t.nanos

/-- The instant without its fraction of a second. In the last second of a minute the whole second
that is left may be a leap second; elsewhere it belongs to the next second. -/
def wholeSecond (t : Instant) : Instant :=
  if t.localSeconds % 60 = 59 then { t with nanos := t.nanos / 1000000000 * 1000000000 }
  else { t with seconds := t.seconds + t.nanos / 1000000000, nanos := 0 }

theorem offset_wholeSecond (t : Instant) : t.wholeSecond.offset = t.offset := by
  unfold wholeSecond
  split <;> rfl

theorem totalNanos_wholeSecond (t : Instant) :
    t.wholeSecond.totalNanos = t.totalNanos / 1000000000 * 1000000000 := by
  unfold wholeSecond
  split <;> simp only [totalNanos] <;> omega

section
variable {t : Instant} (h : t.ByMinutes)
include h

theorem ByMinutes.onClock_wholeSecond : t.wholeSecond.OnClock := by
  obtain ⟨hlt, hwhole, hnanos⟩ := h
  unfold wholeSecond
  split
  · next hlast => exact ⟨⟨hlt, hwhole, by simp only; omega⟩, fun _ => hlast⟩
  · exact ⟨⟨hlt, hwhole, by simp only; omega⟩, fun hleap => absurd hleap (by simp)⟩

/-- Calendar and clock show the same without the fraction. -/
theorem ByMinutes.toLocal_wholeSecond :
    t.wholeSecond.toLocal.date = t.toLocal.date ∧ t.wholeSecond.toLocal.hour = t.toLocal.hour ∧
    t.wholeSecond.toLocal.minute = t.toLocal.minute ∧
    t.wholeSecond.toLocal.clockSecond = t.toLocal.clockSecond ∧
    t.wholeSecond.toLocal.fraction = 0 := by
  have hnanos := h.nanos_lt
  by_cases hlast : t.localSeconds % 60 = 59
  · have hwhole := Nat.mul_div_cancel (t.nanos / 1000000000) (by decide : 0 < 1000000000)
    rw [wholeSecond, if_pos hlast]
    refine ⟨rfl, rfl, rfl, ?_, ?_⟩
    · simp only [toLocal, localSeconds, LocalTime.clockSecond, hwhole]
    · exact Nat.mul_mod_left _ _
  · rw [wholeSecond, if_neg hlast]
    simp only [localSeconds] at hlast
    have hday : (t.seconds + t.nanos / 1000000000 + t.offset) / 86400 =
        (t.seconds + t.offset) / 86400 := by omega
    simp only [toLocal, localSeconds, secondsPerDay, LocalTime.clockSecond, LocalTime.fraction,
      hday]
    refine ⟨trivial, ?_, ?_, ?_, trivial⟩ <;> omega

theorem ByMinutes.wholeSecond_wholeSecond : t.wholeSecond.wholeSecond = t.wholeSecond := by
  have hnanos := h.nanos_lt
  by_cases hlast : t.localSeconds % 60 = 59
  · have hwhole := Nat.mul_div_cancel (t.nanos / 1000000000) (by decide : 0 < 1000000000)
    have heq : t.wholeSecond = { t with nanos := t.nanos / 1000000000 * 1000000000 } := if_pos hlast
    have hsame : t.wholeSecond.localSeconds % 60 = 59 := by rwa [heq]
    rw [wholeSecond, if_pos hsame, heq]
    simp only [hwhole]
  · have heq : t.wholeSecond = { t with seconds := t.seconds + t.nanos / 1000000000, nanos := 0 } :=
      if_neg hlast
    rw [heq, wholeSecond]
    simp

end

end Calendar.Instant

open Calendar

/-! ### The international form -/

theorem twoDigits_eq : ∀ n < 100, twoDigits n .zeros = zeroPadded 2 n := by decide +kernel

theorem readPattern?_isoDate : readPattern? "%Y-%m-%d".toList =
    some [.zeroed .year, .literal ['-'], .zeroed .month, .literal ['-'], .zeroed .day] := by
  decide +kernel

theorem readPattern?_isoTime : readPattern? "%H:%M:%S%:z".toList =
    some [.zeroed .hour, .literal [':'], .zeroed .minute, .literal [':'], .zeroed .second,
      .text (.offset true true false)] := by
  decide +kernel

/-- Date and time in the international form are the internet form without a fraction. -/
theorem DateStyle.writeParts_iso {t : Instant} (h : t.ByMinutes) :
    DateStyle.writeParts [(.date, .iso), (.time, .iso)] t = t.wholeSecond.rfc3339 := by
  obtain ⟨hdate, hhour, hminute, hsecond, hfraction⟩ := h.toLocal_wholeSecond
  obtain ⟨hmonth₂, hday₂, hhour₂, hminute₂, hsecond₂⟩ := h.two_digits
  have hdateText : DateStyle.iso.write .date t = yearText t.toLocal.date.year .zeros ++
      '-' :: zeroPadded 2 t.toLocal.date.month ++ '-' :: zeroPadded 2 t.toLocal.date.day := by
    simp only [DateStyle.write, DateStyle.patternText, readPattern?_isoDate, Option.getD_some,
      Instant.format, List.flatMap_cons, List.flatMap_nil, PatternItem.zeroed, PatternItem.write,
      NumberField.write]
    rw [twoDigits_eq _ hmonth₂, twoDigits_eq _ hday₂]
    simp
  have htimeText : DateStyle.iso.write .time t = zeroPadded 2 t.toLocal.hour ++
      ':' :: zeroPadded 2 t.toLocal.minute ++ ':' :: zeroPadded 2 t.toLocal.clockSecond ++
      OffsetForm.minutesColon.write t.offset := by
    simp only [DateStyle.write, DateStyle.patternText, readPattern?_isoTime, Option.getD_some,
      Instant.format, List.flatMap_cons, List.flatMap_nil, PatternItem.zeroed, PatternItem.write,
      NumberField.write, TextField.write]
    rw [twoDigits_eq _ hhour₂, twoDigits_eq _ hminute₂, twoDigits_eq _ hsecond₂]
    simp [OffsetForm.minutesColon]
  have hjoined : DateStyle.writeParts [(.date, .iso), (.time, .iso)] t =
      DateStyle.iso.write .date t ++ 'T' :: DateStyle.iso.write .time t := by
    simp [DateStyle.writeParts, List.intercalate]
  rw [hjoined, hdateText, htimeText, Instant.rfc3339]
  simp only [hdate, hhour, hminute, hsecond, hfraction, t.offset_wholeSecond]
  simp [fractionText]

/-! ### The format by its name -/

theorem DateStyle.ofText_iso : DateStyle.ofText "iso" = .ok .iso := by
  have hname : Text.asciiLower (Text.trimmed "iso") = "iso" := by decide +kernel
  simp [DateStyle.ofText, hname]

theorem Format.dateStyleAt_iso {styles : List String} {i : Nat} (h : styles[i]? = some "iso") :
    Format.dateStyleAt styles i = .ok .iso := by
  have hstyle : Format.styleAt? styles i = some "iso" := by
    rw [Format.styleAt?, h]
    decide +kernel
  rw [Format.dateStyleAt, hstyle]
  exact DateStyle.ofText_iso

/-- The formats that write both parts in the international form. -/
def Format.IsIso (f : Format) : Prop := f = .dateTime .iso ∨ f = .dateAndTime .iso .iso

/-- One style serves for both parts, or each has its own. -/
theorem Format.exists_compile_iso {styles : List String}
    (h : styles = ["iso"] ∨ styles = ["iso", "iso"]) :
    ∃ f, Format.compile "datetime" styles = .ok f ∧ f.IsIso := by
  rcases h with rfl | rfl
  · refine ⟨.dateTime .iso, ?_, .inl rfl⟩
    simp [Format.compile, Format.mostStyles?, Format.dateStyleAt_iso]
    rfl
  · refine ⟨.dateAndTime .iso .iso, ?_, .inr rfl⟩
    simp [Format.compile, Format.mostStyles?, Format.dateStyleAt_iso]
    rfl

/-! ### Values that name an instant -/

/-- Whatever names an instant tells it by whole minutes, if the dates among them do. -/
theorem Value.byMinutes_of_asInstant? {v : Value} {t : Instant} (h : v.asInstant? = some t)
    (hdate : ∀ d, v = .date d → d.ByMinutes) : t.ByMinutes := by
  unfold Value.asInstant? at h
  split at h
  · next d =>
    cases h
    exact hdate t rfl
  · next millis =>
    simp only [Instant.ofMillis?, Option.ite_none_right_eq_some] at h
    obtain ⟨-, h⟩ := h
    cases h
    exact ⟨by simp, rfl, by simp only; omega⟩
  · next s =>
    rcases Option.or_eq_some_iff.1 h with hread | ⟨-, hday⟩
    · exact (Instant.ofRfc3339?_eq_some_iff.1 hread).byMinutes
    · obtain ⟨d, -, rfl⟩ := Option.map_eq_some_iff.1 hday
      exact ⟨by simp [Instant.midnight], rfl, by simp [Instant.midnight]⟩
  · cases h

/-- Text in the internet form names the instant that it was written for. -/
theorem Value.asInstant?_rfc3339 {t : Instant} (h : t.OnClock)
    (hyear : 0 ≤ t.toLocal.date.year ∧ t.toLocal.date.year ≤ 9999) :
    (Value.text (String.ofList t.rfc3339)).asInstant? = some t := by
  rw [Value.asInstant?, String.toList_ofList,
    Text.trim_eq_self (Instant.isBlank_of_mem_rfc3339 hyear), Instant.ofRfc3339?_rfc3339 h hyear]
  rfl

theorem Format.IsIso.write?_eq {f : Format} (hf : f.IsIso) {v : Value} {t : Instant}
    (h : v.asInstant? = some t) (ht : t.ByMinutes) (asText : Value → String) :
    f.write? asText v = some (String.ofList t.wholeSecond.rfc3339) := by
  have hnull : v.isNull = false := by
    cases v <;> first | rfl | cases h
  have hexact : f.writeExact? asText v = some (String.ofList t.wholeSecond.rfc3339) := by
    rcases hf with rfl | rfl <;>
      simp only [Format.writeExact?, Format.dateParts, h, Option.map_some,
        DateStyle.writeParts_iso ht]
  rw [Format.write?, hnull, hexact]
  rfl

/-- Whatever names an instant of a year of four digits is written in the international form, by one
style for both parts or by two, so that the text names the same instant again, down to the second
and by the same clock, and is written as it is. -/
theorem Format.iso_reads_back {v : Value} {t : Instant} (h : v.asInstant? = some t)
    (hdate : ∀ d, v = .date d → d.ByMinutes)
    (hyear : 0 ≤ t.toLocal.date.year ∧ t.toLocal.date.year ≤ 9999) {styles : List String}
    (hstyles : styles = ["iso"] ∨ styles = ["iso", "iso"]) (asText : Value → String) :
    ∃ f text, Format.compile "datetime" styles = .ok f ∧ f.write? asText v = some text ∧
      (Value.text text).asInstant? = some t.wholeSecond ∧
      t.wholeSecond.totalNanos = t.totalNanos / 1000000000 * 1000000000 ∧
      t.wholeSecond.offset = t.offset ∧ f.write? asText (.text text) = some text := by
  have ht : t.ByMinutes := Value.byMinutes_of_asInstant? h hdate
  have hclock := ht.onClock_wholeSecond
  have hyear' : 0 ≤ t.wholeSecond.toLocal.date.year ∧ t.wholeSecond.toLocal.date.year ≤ 9999 := by
    rwa [ht.toLocal_wholeSecond.1]
  obtain ⟨f, hcompile, hf⟩ := Format.exists_compile_iso hstyles
  have hread := Value.asInstant?_rfc3339 hclock hyear'
  have hagain := hf.write?_eq hread hclock.toByMinutes asText
  rw [ht.wholeSecond_wholeSecond] at hagain
  exact ⟨f, _, hcompile, hf.write?_eq h ht asText, hread, t.totalNanos_wholeSecond,
    t.offset_wholeSecond, hagain⟩

example : (Format.dateTime .iso).write? (fun _ => "") (.int (-1)) =
    some "1969-12-31T23:59:59+00:00" := by
  decide +kernel

/-- In the middle of a leap second, five hours behind universal time. -/
theorem Format.iso_reads_back_leap_second :
    ∃ f text, Format.compile "datetime" ["iso"] = .ok f ∧
      f.write? (fun _ => "") (.date ⟨1483228799, 1500000000, -18000⟩) = some text ∧
      (Value.text text).asInstant? = some ⟨1483228799, 1000000000, -18000⟩ := by
  obtain ⟨f, text, hcompile, hwrite, hread, -⟩ := Format.iso_reads_back
    (rfl : (Value.date ⟨1483228799, 1500000000, -18000⟩).asInstant? = _)
    (by
      intro d hd
      cases hd
      exact ⟨by decide, by decide, by decide⟩)
    (by decide) (.inl rfl) fun _ => ""
  exact ⟨f, text, hcompile, hwrite, hread⟩

end TextTemplate
