import TextTemplate.Calendar.Pattern
import TextTemplate.Format.Error
import TextTemplate.Text.Case
import TextTemplate.Value.Basic

namespace TextTemplate

/-- How a date or a time is written: in one of the named ways, or by a pattern. -/
inductive DateStyle where
  | short
  | medium
  | long
  | full
  | iso
  | pattern (text : String)
  deriving DecidableEq, Repr

inductive DatePart where
  | date
  | time
  deriving DecidableEq, Repr

namespace DateStyle

def ofText (text : String) : Except FormatError DateStyle :=
  let style := Text.trimmed text
  match Text.asciiLower style with
  | "short" => .ok short
  | "medium" | "default" => .ok medium
  | "long" => .ok long
  | "full" => .ok full
  | "iso" => .ok iso
  | _ =>
    if style.toList.contains '%' then
      if (Calendar.readPattern? style.toList).isSome then .ok (pattern style)
      else .error (.malformedDate style)
    else .error (.unknownDate style)

/-- The pattern of a style for a part; a pattern of its own serves for both. -/
def patternText : DateStyle → DatePart → String
  | short, .date => "%-m/%-d/%y"
  | medium, .date => "%b %-d, %Y"
  | long, .date => "%B %-d, %Y"
  | full, .date => "%A, %B %-d, %Y"
  | iso, .date => "%Y-%m-%d"
  | short, .time => "%-I:%M %p"
  | medium, .time => "%-I:%M:%S %p"
  | long, .time | full, .time => "%-I:%M:%S %p %:z"
  | iso, .time => "%H:%M:%S%:z"
  | pattern text, _ => text

def write (s : DateStyle) (part : DatePart) (t : Calendar.Instant) : List Char :=
  t.format ((Calendar.readPattern? (s.patternText part).toList).getD [])

end DateStyle

/-- The time that a value names: a date, text in the internet form or as year, month and day, or a
count of milliseconds since 1970. -/
def Value.asInstant? : Value → Option Calendar.Instant
  | date t => some t
  | int millis => Calendar.Instant.ofMillis? millis.toInt
  | text s =>
    let cs := Text.trim s.toList
    (Calendar.Instant.ofRfc3339? cs).or
      ((Calendar.Date.ofText? cs).map Calendar.Instant.midnight)
  | _ => none

/-- Writes the parts with a space between them, or `T` if both follow the international form. -/
def DateStyle.writeParts (parts : List (DatePart × DateStyle)) (t : Calendar.Instant) : List Char :=
  let separator := if parts.length == 2 && parts.all (·.2 == .iso) then ['T'] else [' ']
  List.intercalate separator (parts.map fun (part, style) => style.write part t)

end TextTemplate
