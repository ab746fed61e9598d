import TextTemplate.Calendar.Date

namespace TextTemplate.Calendar

/-- A point in time together with the offset of the local clock it was told by. `seconds` counts
from 1970-01-01T00:00:00 universal time without leap seconds; during one, `nanos` runs on past a
thousand million. `offset` is in seconds east of universal time. -/
structure Instant where
  seconds : Int
  nanos : Nat
  offset : Int
  deriving DecidableEq, Repr

/-- What calendar and clock show. -/
structure LocalTime where
  date : Date
  hour : Nat
  minute : Nat
  second : Nat
  nanos : Nat
  deriving DecidableEq, Repr

namespace Instant

def secondsPerDay : Int := 86400

/-- Two instants are the same time whatever clock they were told by. -/
def sameTime (a b : Instant) : Bool := a.seconds == b.seconds && a.nanos == b.nanos

def localSeconds (t : Instant) : Int := t.seconds + t.offset

def toLocal (t : Instant) : LocalTime :=
  let clock := (t.localSeconds % secondsPerDay).toNat
  { date := Date.ofDays (t.localSeconds / secondsPerDay)
    hour := clock / 3600
    minute := clock / 60 % 60
    second := clock % 60
    nanos := t.nanos }

def ofLocal (l : LocalTime) (offset : Int) : Instant :=
  { seconds := l.date.toDays * secondsPerDay + l.hour * 3600 + l.minute * 60 + l.second - offset
    nanos := l.nanos
    offset }

/-- Milliseconds since 1970, as far as dates are kept. -/
def ofMillis? (millis : Int) : Option Instant :=
  let seconds := millis / 1000
  let year := (Date.ofDays (seconds / secondsPerDay)).year
  if Date.leastYear ≤ year ∧ year ≤ Date.greatestYear then
    some { seconds, nanos := (millis % 1000).toNat * 1000000, offset := 0 }
  else none

def midnight (d : Date) : Instant :=
  { seconds := d.toDays * secondsPerDay, nanos := 0, offset := 0 }

end Instant

/-- The second as the clock shows it: 60 during a leap second. -/
def LocalTime.clockSecond (l : LocalTime) : Nat := l.second + l.nanos / 1000000000

def LocalTime.fraction (l : LocalTime) : Nat := l.nanos % 1000000000

/-- The hour on a face of twelve. -/
def LocalTime.hour12 (l : LocalTime) : Nat := if l.hour % 12 = 0 then 12 else l.hour % 12

def LocalTime.isAfternoon (l : LocalTime) : Bool := 12 ≤ l.hour

end TextTemplate.Calendar
