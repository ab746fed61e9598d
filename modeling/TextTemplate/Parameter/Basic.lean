import TextTemplate.Data.Basic

namespace TextTemplate

/-- What a function is given, as the template writes it. -/
inductive Parameter where
  | literal (text : String)
  | datum (path : DataPath)
  | null
  deriving DecidableEq, Repr

/-- A parameter with the data that it stands for. -/
inductive Argument where
  | literal (text : String)
  | datum (path : DataPath) (value : Option Value)
  | null

def Parameter.bind (d : Data) : Parameter → Argument
  | literal text => .literal text
  | datum path => .datum path (d.get? path)
  | null => .null

namespace Argument

/-- The value of an argument; missing data is null. -/
def value : Argument → Value
  | literal text => .text text
  | datum _ v => v.getD .null
  | null => .null

def isNull (a : Argument) : Bool := a.value.isNull

/-- Two numbers compare by magnitude, anything else as text. Null comes after all that is not. -/
def compare (st : Store) (a b : Argument) : Ordering :=
  match a.isNull, b.isNull with
  | true, true => .eq
  | true, false => .gt
  | false, true => .lt
  | false, false =>
    match a.value.asDecimal?, b.value.asDecimal? with
    | some x, some y => Decimal.compare x y
    | _, _ => Ord.compare (st.text a.value) (st.text b.value)

end Argument

end TextTemplate
