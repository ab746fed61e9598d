import TextTemplate.Format.Conversion
import TextTemplate.Format.Date
import TextTemplate.Format.Number

/-! The formats of typed values, by kind and style. Styles are read when a template is compiled, so
a value never meets a malformed one. -/

namespace TextTemplate

/-- How a typed value is written. -/
inductive Format where
  | date (style : DateStyle)
  | time (style : DateStyle)
  | dateTime (style : DateStyle)
  | dateAndTime (date time : DateStyle)
  | number (style : NumberStyle)
  | conversion (format : ConversionFormat)
  deriving DecidableEq, Repr

namespace Format

def mostStyles? : String → Option Nat
  | "datetime" => some 2
  | "date" | "time" | "number" | "format" => some 1
  | _ => none

/-- Blank styles are as good as none. -/
def styleAt? (styles : List String) (i : Nat) : Option String :=
  styles[i]?.filter fun s => Text.trim s.toList ≠ []

def dateStyleAt (styles : List String) (i : Nat) : Except FormatError DateStyle :=
  match styleAt? styles i with
  | none => .ok .medium
  | some s => DateStyle.ofText s

/-- The format of a kind with its styles. -/
def compile (kind : String) (styles : List String) : Except FormatError Format :=
  match mostStyles? kind with
  | none => .error (.unknownKind kind)
  | some most =>
    if most < styles.length then .error (.tooManyStyles kind most)
    else match kind with
      | "date" => (dateStyleAt styles 0).map date
      | "time" => (dateStyleAt styles 0).map time
      | "datetime" =>
        if styles.length = 2 then do
          let d ← dateStyleAt styles 0
          let t ← dateStyleAt styles 1
          .ok (dateAndTime d t)
        else (dateStyleAt styles 0).map dateTime
      | "number" =>
        match styleAt? styles 0 with
        | none => .ok (number .number)
        | some s => (NumberStyle.ofText s).map number
      | _ =>
        match styleAt? styles 0 with
        | none => .error .missingPattern
        | some s => (ConversionFormat.ofText s).map conversion

def kind : Format → String
  | date _ => "date"
  | time _ => "time"
  | dateTime _ | dateAndTime .. => "datetime"
  | number _ => "number"
  | conversion _ => "format"

/-- The parts that a date format writes. -/
def dateParts : Format → List (DatePart × DateStyle)
  | date s => [(.date, s)]
  | time s => [(.time, s)]
  | dateTime s => [(.date, s), (.time, s)]
  | dateAndTime d t => [(.date, d), (.time, t)]
  | _ => []

/-- Writes the value if it has the shape that the format asks for. -/
def writeExact? (f : Format) (asText : Value → String) (v : Value) : Option String :=
  match f with
  | number style => style.write? v
  | conversion format => format.write? asText v
  | f => v.asInstant?.map fun t => String.ofList (DateStyle.writeParts f.dateParts t)

/-- Writes a value; one of another shape as plain text, and null not at all. -/
def write? (f : Format) (asText : Value → String) (v : Value) : Option String :=
  if v.isNull then none else some ((f.writeExact? asText v).getD (asText v))

end Format

end TextTemplate
