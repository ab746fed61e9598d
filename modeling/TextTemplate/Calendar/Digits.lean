namespace TextTemplate.Calendar

/-- How a number is filled up to its width. -/
inductive Padding where
  | none
  | zeros
  | spaces
  deriving DecidableEq, Repr

def digits (n : Nat) : List Char := Nat.toDigits 10 n

/-- `n` with leading zeros up to `width` digits. -/
def zeroPadded (width n : Nat) : List Char :=
  List.replicate (width - (digits n).length) '0' ++ digits n

/-- A number of any size filled up to `width` characters, its sign included. Zeros go between sign
and digits, spaces before the sign. A sign that is always wanted adds to the width. -/
def paddedNumber (width : Nat) (n : Int) (padding : Padding) (alwaysSigned : Bool) : List Char :=
  let sign := if n < 0 then ['-'] else if alwaysSigned then ['+'] else []
  let body := digits n.natAbs
  let fill := (if alwaysSigned then width + 1 else width) - sign.length - body.length
  match padding with
  | .none => sign ++ body
  | .zeros => sign ++ List.replicate fill '0' ++ body
  | .spaces => List.replicate fill ' ' ++ sign ++ body

/-- A field of two digits. It holds one byte; tens past nine go on in character order. -/
def twoDigits (n : Nat) (padding : Padding) : List Char :=
  let n := n % 256
  let tens := match n / 10, padding with
    | 0, .none => []
    | 0, .spaces => [' ']
    | t, _ => [Char.ofNat ('0'.toNat + t)]
  tens ++ digits (n % 10)

/-- Reads at least `least` and at most `most` digits. -/
def readNumber? (least most : Nat) (cs : List Char) : Option (Nat × List Char) :=
  let ds := (cs.take most).takeWhile Char.isDigit
  if ds.length < least then none
  else some (ds.foldl (fun n c => 10 * n + (c.toNat - '0'.toNat)) 0, cs.drop ds.length)

end TextTemplate.Calendar
