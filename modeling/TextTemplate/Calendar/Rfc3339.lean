import TextTemplate.Calendar.Digits
import TextTemplate.Calendar.Instant
import TextTemplate.Decimal.Basic
import TextTemplate.Text.Blank
import TextTemplate.Text.Split

/-! Reading and writing instants in the form of the internet. -/

namespace TextTemplate.Calendar

/-- Which parts of an offset are written, and whether colons stand between them. -/
structure OffsetForm where
  minutes : Bool
  seconds : Bool
  colons : Bool

def OffsetForm.minutesColon : OffsetForm := ⟨true, false, true⟩

def OffsetForm.write (f : OffsetForm) (offset : Int) : List Char :=
  let size := offset.natAbs
  let colon := if f.colons then [':'] else []
  (if offset < 0 then ['-'] else ['+']) ++ zeroPadded 2 (size / 3600)
    ++ (if f.minutes then colon ++ zeroPadded 2 (size / 60 % 60) else [])
    ++ (if f.seconds then colon ++ zeroPadded 2 (size % 60) else [])

/-- The fraction of a second after a point, in thousandths, millionths or finer, as few as say it
exactly; nothing for none. -/
def fractionText (nanos : Nat) : List Char :=
  if nanos = 0 then []
  else if nanos % 1000000 = 0 then '.' :: zeroPadded 3 (nanos / 1000000)
  else if nanos % 1000 = 0 then '.' :: zeroPadded 6 (nanos / 1000)
  else '.' :: zeroPadded 9 nanos

/-- Years of four digits stand alone, others have a sign and five digits or more. -/
def yearText (year : Int) (padding : Padding) : List Char :=
  paddedNumber 4 year padding (year < 0 || 10000 ≤ year)

/-- The internet form of an instant, such as `2024-03-05T14:07:09+01:00`. -/
def Instant.rfc3339 (t : Instant) : List Char :=
  let l := t.toLocal
  yearText l.date.year .zeros ++ '-' :: zeroPadded 2 l.date.month ++ '-' :: zeroPadded 2 l.date.day
    ++ 'T' :: zeroPadded 2 l.hour ++ ':' :: zeroPadded 2 l.minute
    ++ ':' :: zeroPadded 2 l.clockSecond ++ fractionText l.fraction
    ++ OffsetForm.minutesColon.write t.offset

def readChar? (c : Char) : List Char → Option (List Char)
  | d :: cs => if c = d then some cs else none
  | [] => none

/-- Up to nine digits of a fraction count; further ones are read and dropped. -/
def readFraction? (cs : List Char) : Option (Nat × List Char) := do
  let (n, rest) ← readNumber? 1 9 cs
  some (n * tenTo (9 - (cs.length - rest.length)), rest.dropWhile Char.isDigit)

/-- `Z`, or a sign with hours and minutes. The sign may be the typographic minus. -/
def readOffset? : List Char → Option (Int × List Char)
  | 'Z' :: rest | 'z' :: rest => some (0, rest)
  | c :: rest =>
    if c = '+' ∨ c = '-' ∨ c = '−' then do
      let (hours, rest) ← readNumber? 2 2 rest
      let rest ← readChar? ':' rest
      let (minutes, rest) ← readNumber? 2 2 rest
      if hours < 24 ∧ minutes < 60 then
        let size : Int := hours * 3600 + minutes * 60
        some (if c = '+' then size else -size, rest)
      else none
    else none
  | [] => none

/-- Reads the internet form. Date and time may also be joined by `t` or a space. -/
def Instant.ofRfc3339? (cs : List Char) : Option Instant := do
  let (year, cs) ← readNumber? 4 4 cs
  let cs ← readChar? '-' cs
  let (month, cs) ← readNumber? 2 2 cs
  let cs ← readChar? '-' cs
  let (day, cs) ← readNumber? 2 2 cs
  let cs ← match cs with
    | c :: rest => if c = 'T' ∨ c = 't' ∨ c = ' ' then some rest else none
    | [] => none
  let (hour, cs) ← readNumber? 2 2 cs
  let cs ← readChar? ':' cs
  let (minute, cs) ← readNumber? 2 2 cs
  let cs ← readChar? ':' cs
  let (second, cs) ← readNumber? 2 2 cs
  let (nanos, cs) ← match cs with
    | '.' :: rest => readFraction? rest
    | _ => some (0, cs)
  let (offset, rest) ← readOffset? cs
  let date ← Date.make? year month day
  if rest = [] ∧ hour < 24 ∧ minute < 60 ∧ second ≤ 60 then
    let (second, nanos) := if second = 60 then (59, nanos + 1000000000) else (second, nanos)
    some (Instant.ofLocal { date, hour, minute, second, nanos } offset)
  else none

/-- Reads a day as year, month and day. Blanks may precede each number, the year may have a sign
and then any number of digits, and month and day may have a single digit. -/
def Date.ofText? (cs : List Char) : Option Date := do
  let (year, cs) ← match Text.trimStart cs with
    | '-' :: rest => (readNumber? 1 rest.length rest).map fun (n, r) => (-(n : Int), r)
    | '+' :: rest => (readNumber? 1 rest.length rest).map fun (n, r) => ((n : Int), r)
    | rest => (readNumber? 1 4 rest).map fun (n, r) => ((n : Int), r)
  let cs ← readChar? '-' cs
  let (month, cs) ← readNumber? 1 2 (Text.trimStart cs)
  let cs ← readChar? '-' cs
  let (day, rest) ← readNumber? 1 2 (Text.trimStart cs)
  if rest = [] then Date.make? year month day else none

end TextTemplate.Calendar
