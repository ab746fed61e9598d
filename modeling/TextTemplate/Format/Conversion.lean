import TextTemplate.Format.Error
import TextTemplate.Text.Case
import TextTemplate.Value.Basic

/-! Formats in which a percent sign introduces each place where the value is written, such as
`%08.3f`. -/

namespace TextTemplate

inductive ConversionKind where
  | text (upper : Bool)
  | integer
  | fixed
  | hex (upper : Bool)
  deriving DecidableEq, Repr

/-- One place of a format where the value is written. -/
structure Conversion where
  left : Bool
  zero : Bool
  plus : Bool
  grouping : Bool
  width : Nat
  precision : Option Nat
  kind : ConversionKind
  deriving DecidableEq, Repr

inductive FormatPiece where
  | literal (text : List Char)
  | conversion (c : Conversion)
  deriving DecidableEq, Repr

/-- A format in which `%` introduces conversions: flags, width, precision and a letter. -/
structure ConversionFormat where
  pieces : List FormatPiece
  deriving DecidableEq, Repr

namespace Conversion

structure Flags where
  left : Bool := false
  zero : Bool := false
  plus : Bool := false
  grouping : Bool := false
  deriving DecidableEq, Repr

def Flags.any (f : Flags) : Bool := f.left || f.zero || f.plus || f.grouping

def readFlags (f : Flags) : List Char → Flags × List Char
  | '-' :: rest => readFlags { f with left := true } rest
  | '0' :: rest => readFlags { f with zero := true } rest
  | '+' :: rest => readFlags { f with plus := true } rest
  | ',' :: rest => readFlags { f with grouping := true } rest
  | cs => (f, cs)

/-- Reads digits. A number of more than 64 bits is read but counts as missing. -/
def readSize (cs : List Char) : Option Nat × List Char :=
  let ds := cs.takeWhile Char.isDigit
  let size := if ds = [] then none else (Decimal.readDigits 0 ds).filter (· < 18446744073709551616)
  (size, cs.dropWhile Char.isDigit)

def kindOf? : Char → Option ConversionKind
  | 's' => some (.text false)
  | 'S' => some (.text true)
  | 'd' => some .integer
  | 'f' => some .fixed
  | 'x' => some (.hex false)
  | 'X' => some (.hex true)
  | _ => none

def ConversionKind.isText : ConversionKind → Bool
  | .text _ => true
  | _ => false

def ConversionKind.isHex : ConversionKind → Bool
  | .hex _ => true
  | _ => false

/-- Which combinations make no sense, the first fault counting. -/
def check (f : Flags) (width precision : Option Nat) (kind : ConversionKind) :
    Except ConversionFault Unit :=
  if f.left && f.zero then .error .leftAndZero
  else if (f.zero || f.left) && width.isNone then .error .paddingWithoutWidth
  else if ConversionKind.isText kind && (f.zero || f.plus || f.grouping) then
    .error .numericFlagOnText
  else if precision.isSome && (kind == .integer || ConversionKind.isHex kind) then
    .error .precisionOnInteger
  else if f.grouping && ConversionKind.isHex kind then .error .groupingOnHex
  else .ok ()

/-- Reads the precision, which a point introduces. -/
def readPrecision : List Char → Except ConversionFault (Option Nat × List Char)
  | '.' :: rest =>
    match readSize rest with
    | (some p, rest) => .ok (some p, rest)
    | (none, _) => .error .missingPrecision
  | cs => .ok (none, cs)

/-- Reads the letter of a conversion. A second percent sign and `n` stand for fixed texts. -/
def readLetter (f : Flags) (width precision : Option Nat) :
    List Char → Except ConversionFault (FormatPiece × List Char)
  | [] => .error .dangling
  | c :: rest =>
    if c = '%' ∨ c = 'n' then
      if f.any || width.isSome then .error .flagsOnFixedText
      else .ok (.literal [if c = '%' then '%' else '\n'], rest)
    else
      match kindOf? c with
      | none => .error (.unknownConversion c)
      | some kind => (check f width precision kind).map fun _ =>
        (.conversion ⟨f.left, f.zero, f.plus, f.grouping, width.getD 0, precision, kind⟩, rest)

/-- Reads what follows a percent sign: a piece, and the rest. -/
def read (cs : List Char) : Except ConversionFault (FormatPiece × List Char) :=
  let (flags, cs) := readFlags {} cs
  let (width, cs) := readSize cs
  match readPrecision cs with
  | .error e => .error e
  | .ok (precision, cs) => readLetter flags width precision cs

theorem readFlags_length (f : Flags) (cs : List Char) :
    (readFlags f cs).2.length ≤ cs.length := by
  fun_induction readFlags f cs with
  | case1 f rest ih => simp only [List.length_cons]; omega
  | case2 f rest ih => simp only [List.length_cons]; omega
  | case3 f rest ih => simp only [List.length_cons]; omega
  | case4 f rest ih => simp only [List.length_cons]; omega
  | case5 f cs => exact Nat.le_refl _

theorem readSize_length (cs : List Char) : (readSize cs).2.length ≤ cs.length := by
  simp only [readSize]
  exact (List.dropWhile_suffix _).length_le

theorem readPrecision_length {cs rest : List Char} {p : Option Nat}
    (h : readPrecision cs = .ok (p, rest)) : rest.length ≤ cs.length := by
  unfold readPrecision at h
  split at h
  · rename_i r
    have hs := readSize_length r
    split at h
    · rename_i hn
      rw [hn] at hs
      cases h
      exact Nat.le_succ_of_le hs
    · cases h
  · cases h
    exact Nat.le_refl _

theorem readLetter_length {f : Flags} {width precision : Option Nat} {cs rest : List Char}
    {p : FormatPiece} (h : readLetter f width precision cs = .ok (p, rest)) :
    rest.length < cs.length := by
  unfold readLetter at h
  split at h
  · cases h
  · simp only [List.length_cons]
    split at h
    · split at h
      · cases h
      · cases h
        omega
    · split at h
      · cases h
      · cases hc : check f width precision ‹_› <;> rw [hc] at h <;> cases h
        omega

theorem read_length {cs rest : List Char} {p : FormatPiece} (h : read cs = .ok (p, rest)) :
    rest.length < cs.length := by
  have hf := readFlags_length {} cs
  have hw := readSize_length (readFlags {} cs).2
  unfold read at h
  simp only at h
  split at h
  · cases h
  · rename_i hq
    have := readPrecision_length hq
    have := readLetter_length h
    omega

end Conversion

namespace ConversionFormat

def readPieces (cs : List Char) : Except ConversionFault (List FormatPiece) :=
  match cs with
  | [] => .ok []
  | '%' :: rest =>
    match _h : Conversion.read rest with
    | .error e => .error e
    | .ok (piece, rest') => (readPieces rest').map (piece :: ·)
  | c :: rest => (readPieces rest).map (.literal [c] :: ·)
termination_by cs.length
decreasing_by
  · have := Conversion.read_length _h
    simp only [List.length_cons]
    omega
  · simp only [List.length_cons]
    omega

def ofText (text : String) : Except FormatError ConversionFormat :=
  ((readPieces text.toList).map ConversionFormat.mk).mapError (.malformedConversion text)

end ConversionFormat

/-- The whole number of a value: floats without a fraction only as far as 64 bits go. -/
def Value.asWhole? : Value → Option Int64
  | int n => some n
  | text s => readInt? s
  | float x =>
    (Binary64.ofBits x.toBits).toInt?.bind fun n =>
      if n.natAbs < 9223372036854775808 then some (Int64.ofInt n) else none
  | _ => none

namespace Conversion

/-- Fills up to the width: spaces after the text, zeros between sign and digits, or spaces before
both. -/
def pad (c : Conversion) (sign body : List Char) : List Char :=
  let fill := c.width - (sign.length + body.length)
  if c.left then sign ++ body ++ List.replicate fill ' '
  else if c.zero then sign ++ List.replicate fill '0' ++ body
  else List.replicate fill ' ' ++ sign ++ body

def signText (c : Conversion) (negative : Bool) : List Char :=
  if negative then ['-'] else if c.plus then ['+'] else []

def wholeText (c : Conversion) (digits : List Char) : List Char :=
  let trimmed := match digits.dropWhile (· = '0') with
    | [] => ['0']
    | ds => ds
  Decimal.grouped (if c.grouping then 3 else 0) trimmed

/-- Writes the value, if it is of the conversion's kind. `asText` is the text of a value. -/
def write? (c : Conversion) (asText : Value → String) (v : Value) : Option (List Char) :=
  match c.kind with
  | .text upper =>
    let cs := (asText v).toList
    let cs := match c.precision with
      | some most => cs.take most
      | none => cs
    some (c.pad [] (if upper then Text.upper cs else cs))
  | .integer => v.asDecimal?.map fun d =>
    let fixed := d.toFixed 0
    c.pad (c.signText fixed.negative) (c.wholeText fixed.whole)
  | .fixed => v.asDecimal?.map fun d =>
    let fixed := d.toFixed (c.precision.getD 6)
    let fraction := if fixed.fraction = [] then [] else '.' :: fixed.fraction
    c.pad (c.signText fixed.negative) (c.wholeText fixed.whole ++ fraction)
  | .hex upper => v.asWhole?.map fun n =>
    let ds := Nat.toDigits 16 n.toUInt64.toNat
    c.pad (c.signText false) (if upper then ds.map Char.toUpper else ds)

end Conversion

def FormatPiece.write? (p : FormatPiece) (asText : Value → String) (v : Value) :
    Option (List Char) :=
  match p with
  | literal text => some text
  | conversion c => c.write? asText v

/-- Writes the value into every place of the format, if it suits them all. -/
def ConversionFormat.write? (f : ConversionFormat) (asText : Value → String) (v : Value) :
    Option String :=
  (f.pieces.mapM fun (p : FormatPiece) => p.write? asText v).map fun parts =>
    String.ofList parts.flatten

end TextTemplate
