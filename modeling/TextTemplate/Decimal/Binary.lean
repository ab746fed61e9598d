import TextTemplate.Decimal.Basic

/-! Binary floating-point numbers as exact fractions. A float is written with the fewest digits that
read back as the same float, and a text is read as the float nearest to it. -/

namespace TextTemplate

/-- A binary floating-point number of 64 bits, taken apart. A finite one is its significand times
two to the power of its exponent. -/
inductive Binary64 where
  | notANumber
  | infinite (negative : Bool)
  | finite (negative : Bool) (significand : Nat) (exponent : Int)
  deriving DecidableEq, Repr

namespace Binary64

def leastExponent : Int := -1074

def greatestExponent : Int := 971

/-- Significands from here on have all their 53 bits. -/
def fullSignificand : Nat := twoTo 52

def ofBits (bits : UInt64) : Binary64 :=
  let n := bits.toNat
  let negative := n / twoTo 63 % 2 == 1
  let field : Nat := n / twoTo 52 % 2048
  let fraction := n % twoTo 52
  if field = 2047 then if fraction = 0 then infinite negative else notANumber
  else if field = 0 then finite negative fraction leastExponent
  else finite negative (fullSignificand + fraction) (leastExponent + (field : Int) - 1)

def toBits : Binary64 → UInt64
  | notANumber => 0x7ff8000000000000
  | infinite negative => UInt64.ofNat (signBit negative + 2047 * twoTo 52)
  | finite negative m e =>
    UInt64.ofNat (signBit negative +
      if m < fullSignificand then m
      else (e - leastExponent + 1).toNat * twoTo 52 + (m - fullSignificand))
where
  signBit (negative : Bool) : Nat := if negative then twoTo 63 else 0

/-- `num / den` in units of `2 ^ e`, as a fraction again. -/
def inUnits (num den : Nat) (e : Int) : Nat × Nat :=
  (num * twoTo (-e).toNat, den * twoTo e.toNat)

/-- The float nearest to `num / den`, a half going to the even significand. Too large a number
becomes infinite. -/
def nearest (negative : Bool) (num den : Nat) : Binary64 :=
  if num = 0 then finite negative 0 leastExponent
  else
    let guess : Int := (Nat.log2 num : Int) - Nat.log2 den - 52
    let exact (e : Int) : Nat :=
      let (n, d) := inUnits num den e
      n / d
    let e := if exact guess < fullSignificand then guess - 1 else guess
    let e := if e < leastExponent then leastExponent else e
    let (n, d) := inUnits num den e
    let m := Decimal.divideHalfEven n d
    let (m, e) := if m = 2 * fullSignificand then (fullSignificand, e + 1) else (m, e)
    if e > greatestExponent then infinite negative else finite negative m e

/-- The float nearest to a decimal. Numbers far outside the range are settled by the place of their
leading digit. -/
def ofDecimal (negative : Bool) (coefficient : Nat) (scale : Int) : Binary64 :=
  let place := (Decimal.digitCount coefficient : Int) - scale
  if coefficient = 0 ∨ place < -400 then finite negative 0 leastExponent
  else if place > 400 then infinite negative
  else nearest negative (coefficient * tenTo (-scale).toNat) (tenTo scale.toNat)

def isFinite : Binary64 → Bool
  | finite .. => true
  | _ => false

def negated : Binary64 → Binary64
  | notANumber => notANumber
  | infinite negative => infinite !negative
  | finite negative m e => finite (!negative) m e

/-- The float nearest to the product of two finite ones. -/
def times : Binary64 → Binary64 → Option Binary64
  | finite s m e, finite t n f =>
    some (nearest (s != t) (m * n * twoTo (e + f).toNat) (twoTo (-(e + f)).toNat))
  | _, _ => none

/-- The float nearest to the quotient of two finite ones, the second of which is not zero. -/
def dividedBy : Binary64 → Binary64 → Option Binary64
  | finite s m e, finite t n f =>
    if n = 0 then none
    else some (nearest (s != t) (m * twoTo (e - f).toNat) (n * twoTo (f - e).toNat))
  | _, _ => none

/-- The numbers that round to the finite float `m * 2 ^ e`: an interval whose ends, and the number
itself, are given over one denominator. The ends belong to it iff the significand is even. -/
structure Neighbourhood where
  low : Nat
  value : Nat
  high : Nat
  den : Nat
  closed : Bool

def neighbourhood (m : Nat) (e : Int) : Neighbourhood :=
  let den := 4 * twoTo (-e).toNat
  let unit := twoTo e.toNat
  let lowGap := if m = fullSignificand ∧ leastExponent < e then 1 else 2
  { low := (4 * m - lowGap) * unit
    value := 4 * m * unit
    high := (4 * m + 2) * unit
    den
    closed := m % 2 == 0 }

/-- Whether `d / 10 ^ scale` reads back as the float. -/
def Neighbourhood.contains (r : Neighbourhood) (d : Nat) (scale : Int) : Bool :=
  let x := d * r.den * tenTo (-scale).toNat
  let low := r.low * tenTo scale.toNat
  let high := r.high * tenTo scale.toNat
  if r.closed then low ≤ x && x ≤ high else low < x && x < high

/-- The point of the grid `10 ^ -scale` that reads back and lies nearest to the float; of two
equally near ones the larger. -/
def Neighbourhood.nearestOn (r : Neighbourhood) (scale : Int) : Option Nat :=
  let num := r.value * tenTo scale.toNat
  let den := r.den * tenTo (-scale).toNat
  let below := num / den
  let above := below + 1
  match r.contains below scale && below != 0, r.contains above scale with
  | true, true => some (if 2 * (num % den) < den then below else above)
  | true, false => some below
  | false, true => some above
  | false, false => none

/-- The place of the leading digit of `num / den`: one for numbers from 1 up to 10. -/
def leadingPlace (num den : Nat) : Int :=
  if num ≥ den then Decimal.digitCount (num / den)
  else
    let zeros := (Decimal.digitCount (den / num) : Int) - 1
    if den / num * num = den ∧ tenTo zeros.toNat = den / num then 1 - zeros else -zeros

/-- The fewest digits that read back, as a number and the count of its digits after the point. -/
def shortest (m : Nat) (e : Int) : Nat × Int :=
  let r := neighbourhood m e
  let place := leadingPlace r.value r.den
  let scales := (List.range 17).map fun n : Nat => (n : Int) + 1 - place
  (scales.findSome? fun s => (r.nearestOn s).map (·, s)).getD (0, 0)

/-- Writes a number without an exponent: the digits, with zeros up to the point or after it. -/
def positional (digits : List Char) (scale : Int) : List Char :=
  if scale ≤ 0 then digits ++ List.replicate (-scale).toNat '0'
  else
    let padded := List.replicate (scale.toNat + 1 - digits.length) '0' ++ digits
    let cut := padded.length - scale.toNat
    padded.take cut ++ '.' :: padded.drop cut

/-- The text of a float: the fewest digits that read back, never with an exponent, and without a
point where the number is whole. -/
def text : Binary64 → List Char
  | notANumber => "NaN".toList
  | infinite negative => sign negative ++ "inf".toList
  | finite negative m e =>
    if m = 0 then sign negative ++ ['0']
    else
      let (d, s) := shortest m e
      let digits := Nat.toDigits 10 d
      let zeros := (digits.reverse.takeWhile (· = '0')).length
      sign negative ++ positional (digits.take (digits.length - zeros)) (s - zeros)
where
  sign (negative : Bool) : List Char := if negative then ['-'] else []

/-- The whole number that a float without a fraction stands for. -/
def toInt? : Binary64 → Option Int
  | finite negative m e =>
    let (n, d) := (m * twoTo e.toNat, twoTo (-e).toNat)
    if n % d = 0 then some (if negative then -((n / d : Nat) : Int) else (n / d : Nat)) else none
  | _ => none

/-- Reads a float: digits with an optional point, of which there is at least one, and an optional
power of ten; or one of the names of the infinite and undefined values in any case. -/
def ofText? (cs : List Char) : Option Binary64 :=
  let (negative, body) := match cs with
    | '-' :: rest => (true, rest)
    | '+' :: rest => (false, rest)
    | _ => (false, cs)
  let name := String.ofList (body.map Char.toLower)
  if name = "nan" then some notANumber
  else if name = "inf" ∨ name = "infinity" then some (infinite negative)
  else do
    let (base, exponent) ← match Text.splitFirst? (fun c => c = 'e' ∨ c = 'E') body with
      | none => some (body, 0)
      | some (base, power) => (Decimal.readSigned? power).map fun e => (base, e)
    let (whole, fraction) := (Text.splitFirst? (· = '.') base).getD (base, [])
    let digits := whole ++ fraction
    if digits ≠ [] ∧ digits.all Char.isDigit then
      let n ← Decimal.readDigits 0 digits
      some (ofDecimal negative n (fraction.length - exponent))
    else none

end Binary64

/-- The number whose text a finite float has. -/
def Decimal.ofFloat? (x : Float) : Option Decimal :=
  match Binary64.ofBits x.toBits with
  | .finite negative m e =>
    if m = 0 then some ⟨0, 0⟩
    else
      let (d, s) := Binary64.shortest m e
      some ⟨if negative then -(d : Int) else d, s⟩
  | _ => none

namespace Float64

def ofBinary (b : Binary64) : Float := Float.ofBits b.toBits

def text (x : Float) : String := String.ofList (Binary64.ofBits x.toBits).text

def ofText? (s : String) : Option Float := (Binary64.ofText? s.toList).map ofBinary

def ofInt (n : Int) : Float := ofBinary (Binary64.nearest (n < 0) n.natAbs 1)

end Float64

end TextTemplate
