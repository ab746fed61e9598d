import Mathlib.Data.List.Forall2
import TextTemplate.Format.Conversion
import TextTemplate.Proofs.Decimal.Digits

/-! Formats in which `%` introduces conversions, as they are spelled. A conversion stands for its
signs and its letter; all other characters stand for themselves. -/

namespace TextTemplate

def ConversionKind.letter : ConversionKind → Char
  | .text upper => if upper then 'S' else 's'
  | .integer => 'd'
  | .fixed => 'f'
  | .hex upper => if upper then 'X' else 'x'

namespace Conversion

/-- The size that digits stand for: none without digits, or if it takes more than 64 bits. -/
def sizeOf? (ds : List Char) : Option ℕ :=
  if ds ≠ [] ∧ Nat.ofDigitChars 10 ds 0 < 2 ^ 64 then some (Nat.ofDigitChars 10 ds 0) else none

/-- What stands between a percent sign and the letter that follows: signs for flags, digits for the
width, and digits for the precision if there is a point. -/
structure Signs where
  flags : List Char
  width : List Char
  precision : Option (List Char)
  flags_mem : ∀ c ∈ flags, c ∈ ['-', '0', '+', ',']
  width_digits : ∀ c ∈ width, c.isDigit = true
  precision_digits : ∀ ds ∈ precision, ∀ c ∈ ds, c.isDigit = true

namespace Signs

def written (s : Signs) : List Char :=
  s.flags ++ s.width ++ (s.precision.map ('.' :: ·)).getD []

def given (s : Signs) : Flags :=
  ⟨s.flags.contains '-', s.flags.contains '0', s.flags.contains '+', s.flags.contains ','⟩

/-- The conversion that the signs and a letter make. -/
def conversion (s : Signs) (kind : ConversionKind) : Conversion where
  left := s.given.left
  zero := s.given.zero
  plus := s.given.plus
  grouping := s.given.grouping
  width := (sizeOf? s.width).getD 0
  precision := s.precision.bind sizeOf?
  kind := kind

end Signs

/-- Signs that go together with one another and with the letter. -/
structure Sensible (c : Conversion) : Prop where
  oneSide : ¬ (c.left = true ∧ c.zero = true)
  text : ∀ upper, c.kind = .text upper → c.zero = false ∧ c.plus = false ∧ c.grouping = false
  precision : c.precision.isSome → c.kind = .fixed ∨ ∃ upper, c.kind = .text upper
  hex : ∀ upper, c.kind = .hex upper → c.grouping = false

end Conversion

open Conversion in
/-- These characters of a format stand for the piece. -/
inductive FormatPiece.Spelled : FormatPiece → List Char → Prop where
  | plain {c : Char} : c ≠ '%' → Spelled (.literal [c]) [c]
  | percent (s : Signs) : s.flags = [] → sizeOf? s.width = none →
      Spelled (.literal ['%']) ('%' :: s.written ++ ['%'])
  | lineBreak (s : Signs) : s.flags = [] → sizeOf? s.width = none →
      Spelled (.literal ['\n']) ('%' :: s.written ++ ['n'])
  | conversion (s : Signs) (kind : ConversionKind) : (s.conversion kind).Sensible →
      Spelled (.conversion (s.conversion kind)) ('%' :: s.written ++ [kind.letter])

namespace Conversion

end Conversion

namespace ConversionFormat

/-- The text with each percent sign twice. -/
def doubled (text : String) : String :=
  String.ofList (text.toList.flatMap fun c => if c = '%' then ['%', '%'] else [c])

end ConversionFormat

end TextTemplate
