import TextTemplate.Fields
import TextTemplate.Function.Paging
import TextTemplate.Text.Case

/-! Comparisons, truth, texts and sizes: the functions that need no host. -/

namespace TextTemplate.Function

def comparing (holds : Ordering → Bool) (st : Store) : List Argument → Except FunctionError Value
  | [a, b] => .ok (.bool (holds (a.compare st b)))
  | args => .error (.arity (.exactly 2) args.length)

/-- A function of one argument. -/
def unary (f : Argument → Except FunctionError Value) : List Argument → Except FunctionError Value
  | [a] => f a
  | args => .error (.arity (.exactly 1) args.length)

def negation (a : Argument) : Except FunctionError Value := .ok (.bool !a.value.isTruthy)

/-- Whether all arguments hold. -/
def conjunction (args : List Argument) : Except FunctionError Value := do
  checkArity (.atLeast 1) args
  .ok (.bool (args.all (·.value.isTruthy)))

/-- Whether some argument holds. -/
def disjunction (args : List Argument) : Except FunctionError Value := do
  checkArity (.atLeast 1) args
  .ok (.bool (args.any (·.value.isTruthy)))

/-- The number of characters or items. Null has none; other single values have no size. -/
def length? (st : Store) : Value → Option Nat
  | .null => some 0
  | .text s => some s.length
  | .map fields => some fields.length
  | v => match st.sequence v with
    | .single _ => none
    | q => some (q.length st)

def emptiness (st : Store) (a : Argument) : Except FunctionError Value :=
  .ok (.bool (length? st a.value == some 0))

def size (st : Store) (a : Argument) : Except FunctionError Value :=
  match length? st a.value with
  | some n => .ok (.ofNat n)
  | none => .error (.badArgument 0 "value has no size")

def concatenation (st : Store) (args : List Argument) : Except FunctionError Value :=
  .ok (.text (String.join (args.map fun a => st.text a.value)))

def recased (change : List Char → List Char) (st : Store) (a : Argument) :
    Except FunctionError Value :=
  .ok (.text (String.ofList (change (st.text a.value).toList)))

/-- The functions that are always there. -/
def builtins (pageSize : Nat) : Fields Function := [
  ("eq", reading (comparing Ordering.isEq)),
  ("ne", reading (comparing Ordering.isNe)),
  ("lt", reading (comparing Ordering.isLT)),
  ("le", reading (comparing Ordering.isLE)),
  ("gt", reading (comparing Ordering.isGT)),
  ("ge", reading (comparing Ordering.isGE)),
  ("not", reading fun _ => unary negation),
  ("and", reading fun _ => conjunction),
  ("or", reading fun _ => disjunction),
  ("empty", reading fun st => unary (emptiness st)),
  ("concat", reading concatenation),
  ("upper", reading fun st => unary (recased Text.upper st)),
  ("lower", reading fun st => unary (recased Text.lower st)),
  ("size", reading fun st => unary (size st)),
  ("page", reading fun _ => PageIndex.call pageSize)]

end TextTemplate.Function
