import TextTemplate.Calendar.Instant
import TextTemplate.Decimal.Binary
import TextTemplate.Fields
import TextTemplate.Text.Blank

/-! Values of loose type. They convert to numbers and truth values where that makes sense and keep
their own type everywhere else. -/

namespace TextTemplate

/-- A function by name. Two functions are the same when their identities are. -/
structure FunctionRef where
  identity : Nat
  name : String
  deriving DecidableEq, Repr

mutual

/-- A loosely typed value. What the host supplies as a whole carries an identity, by which it is
told apart from others that look alike. -/
inductive Value where
  | null
  | bool (b : Bool)
  | int (n : Int64)
  | float (x : Float)
  | text (s : String)
  | list (items : List Value)
  | map (fields : List (String × Value))
  | entries (pairs : List (Value × Value))
  | entry (key value : Value)
  | date (t : Calendar.Instant)
  /-- A host object. Of the names that it is asked for it answers those in `props`, always the same,
  and it lists its properties under `names`: a record as given, any other object in their order. It
  may answer names that it does not list, and list some that it does not answer. -/
  | object (identity : Nat) (typeName : String) (isRecord : Bool) (names : List String)
      (props : List (String × Value))
  /-- A host collection: the items that it has, by the names of their positions, and how long it
  says that it is. It need not have an item at every position. -/
  | collection (identity : Nat) (items : List (String × Value)) (length : Nat)
  | function (f : FunctionRef)
  | scope (s : Scope)

/-- One place to look names up in, followed by the places outside it. -/
inductive Scope where
  /-- Outside of everything. -/
  | nowhere
  | over (own : Value) (outer : Scope)
  /-- A scope supplied by the host that answers from data of its own, always the same, and has
  nothing outside it. -/
  | host (identity : Nat) (own : Value)
  /-- One turn of a loop. -/
  | turn (key : Option Value) (value : Value) (index size : Nat) (outer : Scope)
  /-- A scope that can be written to; what it holds is kept in a store. -/
  | overlay (id : Nat)

end

instance : Inhabited Value := ⟨.null⟩

instance : Inhabited Scope := ⟨.nowhere⟩

namespace Value

def isNull : Value → Bool
  | null => true
  | _ => false

/-- A count as a value. -/
def ofNat (n : Nat) : Value :=
  if n < 9223372036854775808 then int (Int64.ofNat n) else float (Float64.ofInt n)

/-- What conditions ask: false, null, zero, the undefined number, empty text and the word `false`
do not hold. Everything else does, empty collections included. -/
def isTruthy : Value → Bool
  | null => false
  | bool b => b
  | int n => n != 0
  | float x => !(x.isNaN || x == 0)
  | text s => !(s == "" || s.map Char.toLower == "false")
  | _ => true

def kind : Value → String
  | null => "null"
  | bool _ => "boolean"
  | int _ | float _ => "number"
  | text _ => "string"
  | list _ => "list"
  | map _ => "map"
  | entries _ => "entries"
  | entry .. => "entry"
  | date _ => "date"
  | object .. => "object"
  | collection .. => "indexed"
  | function _ => "function"
  | scope _ => "scope"

def isNumber : Value → Bool
  | int _ | float _ => true
  | _ => false

def text? : Value → Option String
  | text s => some s
  | _ => none

def isFunction : Value → Bool
  | function _ => true
  | _ => false

def leastInt : Int := -9223372036854775808

def greatestInt : Int := 9223372036854775807

/-- Digits with an optional sign, for a number from `least` to `greatest`. -/
def readInteger? (least greatest : Int) (cs : List Char) : Option Int :=
  (Decimal.readSigned? cs).bind fun n => if least ≤ n ∧ n ≤ greatest then some n else none

/-- A position in a sequence: digits with an optional plus sign. -/
def readIndex? (name : String) : Option Nat :=
  match name.toList with
  | '-' :: _ => none
  | cs => (readInteger? 0 18446744073709551615 cs).map Int.toNat

/-- The nearest integer of 64 bits. -/
def clampInt (n : Int) : Int64 := Int64.ofInt (max leastInt (min n greatestInt))

def readInt? (s : String) : Option Int64 :=
  (readInteger? leastInt greatestInt (Text.trim s.toList)).map Int64.ofInt

/-- The value as an integer: floats without a fraction as near as integers get, and text that is
one. -/
def asInt? : Value → Option Int64
  | int n => some n
  | float x => (Binary64.ofBits x.toBits).toInt?.map clampInt
  | text s => readInt? s
  | _ => none

def asFloat? : Value → Option Float
  | int n => some (Float64.ofInt n.toInt)
  | float x => some x
  | text s => Float64.ofText? (Text.trimmed s)
  | _ => none

/-- The value as an exact decimal: numbers, and text that reads as one. -/
def asDecimal? : Value → Option Decimal
  | int n => some (Decimal.ofInt n.toInt)
  | float x => Decimal.ofFloat? x
  | text s => Decimal.ofText? (Text.trim s.toList)
  | _ => none

end Value

end TextTemplate
