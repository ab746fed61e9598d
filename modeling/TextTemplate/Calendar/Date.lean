/-! Days of the Gregorian calendar, by date and by count. -/

namespace TextTemplate.Calendar

/-- A day of the Gregorian calendar, carried on before its adoption; the year before 1 is 0. -/
structure Date where
  year : Int
  month : Nat
  day : Nat
  deriving DecidableEq, Repr

def isLeap (year : Int) : Bool :=
  year % 4 == 0 && (year % 100 != 0 || year % 400 == 0)

def daysInMonth (year : Int) (month : Nat) : Nat :=
  match month with
  | 2 => if isLeap year then 29 else 28
  | 4 | 6 | 9 | 11 => 30
  | _ => 31

namespace Date

def Valid (d : Date) : Prop :=
  1 ≤ d.month ∧ d.month ≤ 12 ∧ 1 ≤ d.day ∧ d.day ≤ daysInMonth d.year d.month

instance (d : Date) : Decidable d.Valid := inferInstanceAs (Decidable (_ ∧ _))

/-- Days since 1970-01-01. Years are counted from March, so that the leap day comes last. -/
def toDays (d : Date) : Int :=
  let y := if d.month ≤ 2 then d.year - 1 else d.year
  let era := y / 400
  let yearOfEra := y - era * 400
  let monthFromMarch : Int := if d.month ≤ 2 then d.month + 9 else d.month - 3
  let dayOfYear := (153 * monthFromMarch + 2) / 5 + d.day - 1
  let dayOfEra := yearOfEra * 365 + yearOfEra / 4 - yearOfEra / 100 + dayOfYear
  era * 146097 + dayOfEra - 719468

def ofDays (days : Int) : Date :=
  let z := days + 719468
  let era := z / 146097
  let dayOfEra := z - era * 146097
  let yearOfEra := (dayOfEra - dayOfEra / 1460 + dayOfEra / 36524 - dayOfEra / 146096) / 365
  let dayOfYear := dayOfEra - (365 * yearOfEra + yearOfEra / 4 - yearOfEra / 100)
  let monthFromMarch := (5 * dayOfYear + 2) / 153
  let day := (dayOfYear - (153 * monthFromMarch + 2) / 5 + 1).toNat
  let month := (if monthFromMarch < 10 then monthFromMarch + 3 else monthFromMarch - 9).toNat
  let year := yearOfEra + era * 400
  { year := if month ≤ 2 then year + 1 else year, month, day }

/-- The day of the week, counted from Sunday. -/
def weekday (d : Date) : Nat := ((d.toDays + 4) % 7).toNat

/-- The day of the week from Monday, as 1, to Sunday, as 7. -/
def weekdayFromMonday (d : Date) : Nat := (d.weekday + 6) % 7 + 1

/-- The day of the year, from 1. -/
def ordinal (d : Date) : Nat := (d.toDays - (Date.mk d.year 1 1).toDays + 1).toNat

/-- The number of weeks begun in the year, where weeks begin `sinceStart` days ago. -/
def weeksBegun (d : Date) (sinceStart : Nat) : Nat := (d.ordinal + 6 - sinceStart) / 7

/-- The weeks of a year, each of which belongs to the year of its Thursday. -/
def weeksInYear (year : Int) : Nat :=
  let start := (Date.mk year 1 1).weekday
  if start = 4 ∨ (start = 3 ∧ isLeap year) then 53 else 52

/-- The year and number of the week that the day lies in, weeks belonging to the year of their
Thursday. -/
def isoWeek (d : Date) : Int × Nat :=
  let week := (d.ordinal + 10 - d.weekdayFromMonday) / 7
  if week < 1 then (d.year - 1, weeksInYear (d.year - 1))
  else if weeksInYear d.year < week then (d.year + 1, 1)
  else (d.year, week)

def leastYear : Int := -262143

def greatestYear : Int := 262142

/-- The date, if the month has the day and the year is one that dates are kept for. -/
def make? (year : Int) (month day : Nat) : Option Date :=
  let d := Date.mk year month day
  if d.Valid ∧ leastYear ≤ year ∧ year ≤ greatestYear then some d else none

end Date

def monthNames : Array String := #["January", "February", "March", "April", "May", "June", "July",
  "August", "September", "October", "November", "December"]

def weekdayNames : Array String := #["Sunday", "Monday", "Tuesday", "Wednesday", "Thursday",
  "Friday", "Saturday"]

def Date.monthName (d : Date) : String := monthNames.getD (d.month - 1) ""

def Date.weekdayName (d : Date) : String := weekdayNames.getD d.weekday ""

/-- Names are shortened to three letters. -/
def shortName (name : String) : String := String.ofList (name.toList.take 3)

end TextTemplate.Calendar
