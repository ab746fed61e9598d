import TextTemplate.Calendar.Rfc3339

/-! Patterns for dates and times: text with conversions after percent signs, most of which stand for
one number or name. -/

namespace TextTemplate.Calendar

inductive NumberField where
  | year | century | yearOfCentury
  | weekYear | weekYearOfCentury | week | weeksFromSunday | weeksFromMonday
  | quarter | month | day | dayOfYear
  | weekdayFromSunday | weekdayFromMonday
  | hour | hour12 | minute | second | nanosecond | timestamp
  deriving DecidableEq, Repr

inductive TextField where
  | shortMonth | longMonth | shortWeekday | longWeekday
  | upperMeridiem | lowerMeridiem
  | fraction
  | fractionDigits (point : Bool) (digits : Nat)
  | zoneName
  | offset (colons minutes seconds : Bool)
  | offsetToRead
  | internet
  deriving DecidableEq, Repr

/-- One part of a date pattern. -/
inductive PatternItem where
  | literal (text : List Char)
  | number (field : NumberField) (padding : Padding)
  | text (field : TextField)
  deriving DecidableEq, Repr

namespace PatternItem

def zeroed (f : NumberField) : PatternItem := .number f .zeros
def spaced (f : NumberField) : PatternItem := .number f .spaces
def bare (f : NumberField) : PatternItem := .number f .none
def chars (s : String) : PatternItem := .literal s.toList

def slashedDate : List PatternItem :=
  [zeroed .month, chars "/", zeroed .day, chars "/", zeroed .yearOfCentury]
def clock : List PatternItem :=
  [zeroed .hour, chars ":", zeroed .minute, chars ":", zeroed .second]

/-- What a conversion letter stands for. -/
def ofLetter? : Char → Option (List PatternItem)
  | 'A' => some [.text .longWeekday]
  | 'B' => some [.text .longMonth]
  | 'C' => some [zeroed .century]
  | 'D' | 'x' => some slashedDate
  | 'F' => some [zeroed .year, chars "-", zeroed .month, chars "-", zeroed .day]
  | 'G' => some [zeroed .weekYear]
  | 'H' => some [zeroed .hour]
  | 'I' => some [zeroed .hour12]
  | 'M' => some [zeroed .minute]
  | 'P' => some [.text .lowerMeridiem]
  | 'R' => some [zeroed .hour, chars ":", zeroed .minute]
  | 'S' => some [zeroed .second]
  | 'T' | 'X' => some clock
  | 'U' => some [zeroed .weeksFromSunday]
  | 'V' => some [zeroed .week]
  | 'W' => some [zeroed .weeksFromMonday]
  | 'Y' => some [zeroed .year]
  | 'Z' => some [.text .zoneName]
  | 'a' => some [.text .shortWeekday]
  | 'b' | 'h' => some [.text .shortMonth]
  | 'c' => some ([.text .shortWeekday, chars " ", .text .shortMonth, chars " ", spaced .day,
      chars " "] ++ clock ++ [chars " ", zeroed .year])
  | 'd' => some [zeroed .day]
  | 'e' => some [spaced .day]
  | 'f' => some [zeroed .nanosecond]
  | 'g' => some [zeroed .weekYearOfCentury]
  | 'j' => some [zeroed .dayOfYear]
  | 'k' => some [spaced .hour]
  | 'l' => some [spaced .hour12]
  | 'm' => some [zeroed .month]
  | 'n' => some [chars "\n"]
  | 'p' => some [.text .upperMeridiem]
  | 'q' => some [bare .quarter]
  | 'r' => some [zeroed .hour12, chars ":", zeroed .minute, chars ":", zeroed .second, chars " ",
      .text .upperMeridiem]
  | 's' => some [bare .timestamp]
  | 't' => some [chars "\t"]
  | 'u' => some [bare .weekdayFromMonday]
  | 'v' => some [spaced .day, chars "-", .text .shortMonth, chars "-", zeroed .year]
  | 'w' => some [bare .weekdayFromSunday]
  | 'y' => some [zeroed .yearOfCentury]
  | 'z' => some [.text (.offset false true false)]
  | '+' => some [.text .internet]
  | '%' => some [chars "%"]
  | _ => none

def padding? : Char → Option Padding
  | '-' => some .none
  | '0' => some .zeros
  | '_' => some .spaces
  | _ => none

/-- Reads a conversion after its percent sign: the items, and what follows. -/
def readConversion? : List Char → Option (List PatternItem × List Char)
  | '#' :: 'z' :: rest => some ([.text .offsetToRead], rest)
  | ':' :: ':' :: ':' :: 'z' :: rest => some ([.text (.offset false false false)], rest)
  | ':' :: ':' :: 'z' :: rest => some ([.text (.offset true true true)], rest)
  | ':' :: 'z' :: rest => some ([.text (.offset true true false)], rest)
  | '.' :: 'f' :: rest => some ([.text .fraction], rest)
  | '.' :: '3' :: 'f' :: rest => some ([.text (.fractionDigits true 3)], rest)
  | '.' :: '6' :: 'f' :: rest => some ([.text (.fractionDigits true 6)], rest)
  | '.' :: '9' :: 'f' :: rest => some ([.text (.fractionDigits true 9)], rest)
  | '3' :: 'f' :: rest => some ([.text (.fractionDigits false 3)], rest)
  | '6' :: 'f' :: rest => some ([.text (.fractionDigits false 6)], rest)
  | '9' :: 'f' :: rest => some ([.text (.fractionDigits false 9)], rest)
  | c :: rest =>
    match padding? c, rest with
    | some padding, letter :: rest =>
      -- only a conversion that is one number can be padded otherwise
      match ofLetter? letter with
      | some [.number field _] => some ([.number field padding], rest)
      | _ => none
    | some _, [] => none
    | none, _ => (ofLetter? c).map (·, rest)
  | [] => none

theorem readConversion?_length {cs rest : List Char} {items : List PatternItem}
    (h : readConversion? cs = some (items, rest)) : rest.length < cs.length := by
  unfold readConversion? at h
  repeat' split at h
  all_goals
    try simp only [Option.some.injEq, Prod.mk.injEq, Option.map_eq_some_iff, reduceCtorEq] at h
  all_goals first
    | (obtain ⟨-, rfl⟩ := h; simp only [List.length_cons]; omega)
    | (obtain ⟨_, -, -, rfl⟩ := h; simp only [List.length_cons]; omega)

end PatternItem

/-- A pattern is literal text with conversions after percent signs; none if one of them is not
known. -/
def readPattern? (cs : List Char) : Option (List PatternItem) :=
  match cs with
  | [] => some []
  | '%' :: rest =>
    match _h : PatternItem.readConversion? rest with
    | none => none
    | some (items, rest') => (readPattern? rest').map (items ++ ·)
  | c :: rest => (readPattern? rest).map (.literal [c] :: ·)
termination_by cs.length
decreasing_by
  all_goals simp only [List.length_cons]
  · have := PatternItem.readConversion?_length _h
    omega
  · omega

namespace NumberField

def write (f : NumberField) (padding : Padding) (t : Instant) (l : LocalTime) : List Char :=
  let d := l.date
  let byte (n : Int) : List Char := twoDigits (n % 256).toNat padding
  match f with
  | year => yearText d.year padding
  | century => byte (d.year / 100)
  | yearOfCentury => byte (d.year % 100)
  | weekYear => yearText d.isoWeek.1 padding
  | weekYearOfCentury => byte (d.isoWeek.1 % 100)
  | week => twoDigits d.isoWeek.2 padding
  | weeksFromSunday => twoDigits (d.weeksBegun d.weekday) padding
  | weeksFromMonday => twoDigits (d.weeksBegun (d.weekdayFromMonday - 1)) padding
  | quarter => digits ((d.month - 1) / 3 + 1)
  | month => twoDigits d.month padding
  | day => twoDigits d.day padding
  | dayOfYear => paddedNumber 3 d.ordinal padding false
  | weekdayFromSunday => digits d.weekday
  | weekdayFromMonday => digits d.weekdayFromMonday
  | hour => twoDigits l.hour padding
  | hour12 => twoDigits l.hour12 padding
  | minute => twoDigits l.minute padding
  | second => twoDigits l.clockSecond padding
  | nanosecond => paddedNumber 9 l.fraction padding false
  | timestamp => paddedNumber 9 t.seconds padding false

end NumberField

namespace TextField

def write (f : TextField) (t : Instant) (l : LocalTime) : List Char :=
  match f with
  | shortMonth => (shortName l.date.monthName).toList
  | longMonth => l.date.monthName.toList
  | shortWeekday => (shortName l.date.weekdayName).toList
  | longWeekday => l.date.weekdayName.toList
  | upperMeridiem => if l.isAfternoon then ['P', 'M'] else ['A', 'M']
  | lowerMeridiem => if l.isAfternoon then ['p', 'm'] else ['a', 'm']
  | fraction => fractionText l.fraction
  | fractionDigits point n =>
    (if point then ['.'] else []) ++ (zeroPadded 9 l.fraction).take n
  | zoneName => OffsetForm.minutesColon.write t.offset
  | offset colons minutes seconds => OffsetForm.write ⟨minutes, seconds, colons⟩ t.offset
  | offsetToRead => []
  | internet => t.rfc3339

end TextField

def PatternItem.write (t : Instant) : PatternItem → List Char
  | .literal cs => cs
  | .number field padding => field.write padding t t.toLocal
  | .text field => field.write t t.toLocal

/-- Writes an instant as its own clock shows it. -/
def Instant.format (t : Instant) (pattern : List PatternItem) : List Char :=
  pattern.flatMap (PatternItem.write t)

end TextTemplate.Calendar
