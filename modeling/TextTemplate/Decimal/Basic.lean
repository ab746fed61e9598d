import TextTemplate.Text.Split

/-! Exact decimal numbers: their texts, their order, and rounding to a number of places, where a
half goes to the even neighbour. -/

namespace TextTemplate

/-- A power of ten. -/
abbrev tenTo (n : Nat) : Nat := Nat.pow 10 n

/-- A power of two. -/
abbrev twoTo (n : Nat) : Nat := Nat.pow 2 n

/-- An exact decimal number: `coefficient` divided by ten to the power of `scale`. One number has
many spellings; a negative scale stands for trailing zeros. -/
structure Decimal where
  coefficient : Int
  scale : Int
  deriving DecidableEq, Repr

namespace Decimal

def ofInt (n : Int) : Decimal := ⟨n, 0⟩

/-- The number multiplied by ten to the power of `n`. -/
def shifted (d : Decimal) (n : Nat) : Decimal := ⟨d.coefficient * tenTo n, d.scale⟩

def digitValue? (c : Char) : Option Nat :=
  if c.isDigit then some (c.toNat - '0'.toNat) else none

/-- Reads digits after the number `n`; underscores between them mean nothing. -/
def readDigits (n : Nat) : List Char → Option Nat
  | [] => some n
  | c :: cs =>
    if c = '_' then readDigits n cs
    else (digitValue? c).bind fun d => readDigits (10 * n + d) cs

/-- A number without a sign starts with a digit, and one plus sign may precede it. -/
def readNat? (cs : List Char) : Option Nat :=
  let body := match cs with
    | '+' :: rest => rest
    | _ => cs
  match body with
  | [] | '_' :: _ => none
  | _ => readDigits 0 body

def readInt? : List Char → Option Int
  | '-' :: '+' :: _ => none
  | '-' :: rest => (readNat? rest).map fun n => -(n : Int)
  | cs => (readNat? cs).map fun n => (n : Int)

/-- Digits, and nothing but digits, after an optional sign. -/
def readSigned? : List Char → Option Int
  | '-' :: ds => (plain ds).map fun n => -(n : Int)
  | '+' :: ds => (plain ds).map fun n => (n : Int)
  | ds => (plain ds).map fun n => (n : Int)
where
  plain (ds : List Char) : Option Nat :=
    if ds ≠ [] ∧ ds.all Char.isDigit then readDigits 0 ds else none

def maxScale : Int := 9223372036854775807

/-- Reads a decimal text: a signed number with at most one point and an optional power of ten. The
digits on both sides of the point are read as one number, so the sign may also follow the point. -/
def ofText? (cs : List Char) : Option Decimal := do
  let (base, exponent) ← match Text.splitFirst? (fun c => c = 'e' ∨ c = 'E') cs with
    | none => some (cs, 0)
    | some (base, power) => (readSigned? power).map fun e => (base, e)
  let (digits, places) := match Text.splitFirst? (· = '.') base with
    | none => (base, 0)
    | some (whole, fraction) => (whole ++ fraction, (fraction.filter (· ≠ '_')).length)
  let scale : Int := places - exponent
  if -maxScale - 1 ≤ scale ∧ scale ≤ maxScale then
    let n ← readInt? digits
    some ⟨n, scale⟩
  else none

/-- The number of decimal digits; zero has none. -/
def digitCount (n : Nat) : Nat := if n = 0 then 0 else (Nat.toDigits 10 n).length

/-- Compares `m / 10 ^ s` with `n / 10 ^ t`. Numbers whose leading digits stand at different places
are told apart by those places, so that no long row of zeros is ever written out. -/
def compareMagnitudes (m : Nat) (s : Int) (n : Nat) (t : Int) : Ordering :=
  if m = 0 ∨ n = 0 then compare m n
  else
    let places := compare ((digitCount m : Int) - s) ((digitCount n : Int) - t)
    if places ≠ .eq then places
    else if s ≤ t then compare (m * tenTo (t - s).toNat) n
    else compare m (n * tenTo (s - t).toNat)

/-- The order of the exact values. -/
protected def compare (a b : Decimal) : Ordering :=
  let byMagnitude := compareMagnitudes a.coefficient.natAbs a.scale b.coefficient.natAbs b.scale
  match compare a.coefficient.sign b.coefficient.sign with
  | .eq => if a.coefficient < 0 then byMagnitude.swap else byMagnitude
  | different => different

/-- `num / den` to the nearest whole number, a half to the even neighbour. -/
def divideHalfEven (num den : Nat) : Nat :=
  let q := num / den
  let twice := 2 * (num % den)
  if twice < den then q
  else if den < twice then q + 1
  else q + q % 2

/-- The magnitude in units of `10 ^ -places`, rounded half to even. A number whose leading digit
stands two or more places further right is nothing in these units. -/
def unitsAt (d : Decimal) (places : Nat) : Nat :=
  let m := d.coefficient.natAbs
  if d.scale ≤ places then m * tenTo (places - d.scale).toNat
  else
    let drop := (d.scale - places).toNat
    if digitCount m < drop then 0 else divideHalfEven m (tenTo drop)

/-- A number in fixed point: its sign, and the digits before and after the point. -/
structure Fixed where
  negative : Bool
  whole : List Char
  fraction : List Char
  deriving DecidableEq, Repr

/-- Rounds half to even at `places` digits after the point. There is at least one digit before the
point, and a number rounded to zero has no sign. -/
def toFixed (d : Decimal) (places : Nat) : Fixed :=
  let units := d.unitsAt places
  let digits := Nat.toDigits 10 units
  let padded := List.replicate (places + 1 - digits.length) '0' ++ digits
  { negative := decide (d.coefficient < 0) && units != 0
    whole := padded.take (padded.length - places)
    fraction := padded.drop (padded.length - places) }

/-- Puts a comma between groups of `size` digits, counted from the right. -/
def grouped (size : Nat) (digits : List Char) : List Char :=
  if size = 0 then digits
  else
    let n := digits.length
    (digits.zipIdx.map fun (c, i) => if 0 < i && (n - i) % size == 0 then [',', c] else [c]).flatten

end Decimal

end TextTemplate
