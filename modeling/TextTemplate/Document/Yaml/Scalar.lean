import TextTemplate.Document.Json.Reader
import TextTemplate.Value.Basic

/-! The values that scalars stand for. -/

namespace TextTemplate.Yaml

/-! ### Numbers -/

def digitsIn? (base : Nat) (cs : List Char) : Option Nat :=
  if cs ≠ [] ∧ cs.all fun c => (Json.hexValue? c).any (· < base) then
    some (cs.foldl (fun n c => base * n + (Json.hexValue? c).getD 0) 0)
  else none

/-- A whole number without its sign. A leading zero says that digits are text. -/
def readMagnitude? : List Char → Option Nat
  | '0' :: 'x' :: cs => digitsIn? 16 cs
  | '0' :: 'o' :: cs => digitsIn? 8 cs
  | '0' :: 'b' :: cs => digitsIn? 2 cs
  | '0' :: _ :: _ => none
  | cs => digitsIn? 10 cs

def readSigned? : List Char → Option Int
  | '-' :: cs => (readMagnitude? cs).map fun n => -(n : Int)
  | '+' :: cs => (readMagnitude? cs).map fun n => (n : Int)
  | cs => (readMagnitude? cs).map fun n => (n : Int)

/-- Whether a whole number has room in so many bits, with a sign or without. -/
def fitsIn (bits : Nat) (n : Int) : Bool :=
  -(twoTo (bits - 1) : Int) ≤ n && n < (twoTo bits : Int)

/-- A whole number. Those that no 128 bits hold are none. -/
def readInt? (cs : List Char) : Option Int := (readSigned? cs).filter (fitsIn 128)

/-- Digits after a leading zero, which are text. -/
def isPaddedDigits (cs : List Char) : Bool :=
  let ds := match cs with
    | '-' :: ds | '+' :: ds => ds
    | ds => ds
  1 < ds.length && ds.head? == some '0' && ds.all Char.isDigit

def infinities : List String :=
  [".inf", ".Inf", ".INF", "+.inf", "+.Inf", "+.INF", "-.inf", "-.Inf", "-.INF"]

/-- A float. Those that no document can hold are null: infinite ones, and what is no number. -/
def readFloat? (cs : List Char) : Option Json :=
  let s := String.ofList cs
  if (infinities ++ [".nan", ".NaN", ".NAN"]).contains s then some .null
  else ((Float64.ofText? s).filter (·.isFinite)).map .float

/-! ### Other values -/

def isNull (s : String) : Bool := ["null", "Null", "NULL", "~"].contains s

def readBool? (s : String) : Option Bool :=
  if ["true", "True", "TRUE"].contains s then some true
  else if ["false", "False", "FALSE"].contains s then some false
  else none

/-- A whole number, if a document has room for it. -/
def ofInt? (n : Int) : Option Json := if fitsIn 64 n then some (.int n) else none

/-- The value of a scalar without quotes and tag: what it looks like, or else a text. -/
def ofPlain? (s : String) : Option Json :=
  let cs := s.toList
  if cs = [] ∨ isNull s then some .null
  else match readBool? s with
    | some b => some (.bool b)
    | none =>
      if isPaddedDigits cs then some (.text s)
      else match readInt? cs with
        | some n => ofInt? n
        | none => some ((readFloat? cs).getD (.text s))

/-- What a tag asks for. -/
inductive Kind where
  | bool
  | int
  | float
  | null
  | text
  /-- A kind that only the one who wrote it knows. -/
  | custom
  deriving DecidableEq, Repr

def Kind.ofTag (tag : String) : Kind :=
  if tag.startsWith "!" then custom
  else match tag with
    | "tag:yaml.org,2002:bool" => bool
    | "tag:yaml.org,2002:int" => int
    | "tag:yaml.org,2002:float" => float
    | "tag:yaml.org,2002:null" => null
    | _ => text

/-- The value of a scalar of a kind, which must look like one of that kind. -/
def ofKind? (s : String) : Kind → Option Json
  | .bool => (readBool? s).map .bool
  | .int => if isPaddedDigits s.toList then none else (readInt? s.toList).bind ofInt?
  | .float => readFloat? s.toList
  | .null => if isNull s then some .null else none
  | .text => some (.text s)
  | .custom => none

/-- The value of a scalar. -/
def scalarValue? (tag : Option String) (quoted : Bool) (s : String) : Option Json :=
  match tag with
  | some tag => ofKind? s (Kind.ofTag tag)
  | none => if quoted then some (.text s) else ofPlain? s

end TextTemplate.Yaml
