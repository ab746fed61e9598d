import TextTemplate.Format.Error
import TextTemplate.Text.Case
import TextTemplate.Value.Basic

/-! Numbers by pattern, such as `#,##0.00`. -/

namespace TextTemplate

/-- A pattern for decimal numbers: what stands around the number, how many digits it has at least
and at most, and how many of them form a group; no groups if that is zero. -/
structure DecimalPattern where
  before : List Char
  after : List Char
  leastWhole : Nat
  grouping : Nat
  leastFraction : Nat
  mostFraction : Nat
  percent : Bool
  deriving DecidableEq, Repr

namespace DecimalPattern

def isNumberSign (c : Char) : Bool := c == '#' || c == '0' || c == ',' || c == '.'

/-- Reads the part of a pattern that stands for the number: `0` for a digit that is always written,
`#` for one that may be missing, a comma before the last group and a point before the fraction. -/
def ofParts (before number after : List Char) : Except NumberFault DecimalPattern :=
  let (whole, fraction) := (Text.splitFirst? (· = '.') number).getD (number, [])
  let digits := whole.filter (· ≠ ',')
  let grouping := if whole.contains ',' then (whole.reverse.takeWhile (· ≠ ',')).length else 0
  if after.any isNumberSign then .error .digitsAfterSuffix
  else if fraction.contains '.' then .error .twoPoints
  else if fraction.contains ',' then .error .groupingInFraction
  else if (fraction.dropWhile (· = '0')).contains '0' then .error .requiredAfterOptional
  else if (digits.dropWhile (· = '#')).contains '#' then .error .optionalAfterRequired
  else if whole.contains ',' && grouping == 0 then .error .emptyGroup
  else .ok {
    before, after
    leastWhole := digits.count '0'
    grouping
    leastFraction := fraction.count '0'
    mostFraction := fraction.length
    percent := before.contains '%' || after.contains '%' }

def ofText (text : String) : Except FormatError DecimalPattern :=
  let (before, rest) := text.toList.span (!isNumberSign ·)
  let (number, after) := rest.span isNumberSign
  let parsed := if number = [] then .error .noDigits else ofParts before number after
  parsed.mapError (.malformedNumber text)

def write (p : DecimalPattern) (d : Decimal) : List Char :=
  let fixed := (if p.percent then d.shifted 2 else d).toFixed p.mostFraction
  let kept := fixed.fraction.length - (fixed.fraction.reverse.takeWhile (· = '0')).length
  let fraction := fixed.fraction.take (max kept p.leastFraction)
  let digits := fixed.whole.dropWhile (· = '0')
  let whole := List.replicate (p.leastWhole - digits.length) '0' ++ digits
  let whole := if whole = [] ∧ fraction = [] then ['0'] else whole
  (if fixed.negative then ['-'] else []) ++ p.before ++ Decimal.grouped p.grouping whole
    ++ (if fraction = [] then [] else '.' :: fraction) ++ p.after

end DecimalPattern

inductive NumberStyle where
  | integer
  | number
  | percent
  | currency
  | pattern (p : DecimalPattern)
  deriving DecidableEq, Repr

namespace NumberStyle

def ofText (text : String) : Except FormatError NumberStyle :=
  match Text.asciiLower (Text.trimmed text) with
  | "integer" => .ok integer
  | "number" | "default" => .ok number
  | "percent" => .ok percent
  | "currency" => .ok currency
  | _ => (DecimalPattern.ofText text).map pattern

/-- The pattern of a style: `#,##0`, `#,##0.###`, `#,##0%` or `$#,##0.00`. -/
def decimalPattern : NumberStyle → DecimalPattern
  | integer => ⟨[], [], 1, 3, 0, 0, false⟩
  | number => ⟨[], [], 1, 3, 0, 3, false⟩
  | percent => ⟨[], ['%'], 1, 3, 0, 0, true⟩
  | currency => ⟨['$'], [], 1, 3, 2, 2, false⟩
  | pattern p => p

def write? (s : NumberStyle) (v : Value) : Option String :=
  v.asDecimal?.map fun d => String.ofList (s.decimalPattern.write d)

end NumberStyle

end TextTemplate
