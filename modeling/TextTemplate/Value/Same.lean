import TextTemplate.Value.Basic

namespace TextTemplate

/-- Scopes are the same when they are one overlay or one scope of the host. -/
def Scope.same : Scope → Scope → Bool
  | .overlay a, .overlay b => a == b
  | .host a _, .host b _ => a == b
  | _, _ => false

mutual

/-- Equality of values: numbers by magnitude, dates by the time they name, maps without regard to
order, and what the host supplied by identity. The undefined number equals nothing. -/
def Value.same : Value → Value → Bool
  | .null, .null => true
  | .bool a, .bool b => a == b
  | .int a, .int b => a == b
  | .float a, .float b => a == b
  | .int a, .float b => Float64.ofInt a.toInt == b
  | .float a, .int b => a == Float64.ofInt b.toInt
  | .text a, .text b => a == b
  | .list as, .list bs => Value.sameItems as bs
  | .map as, .map bs => as.length == bs.length && Value.sameFields as bs
  | .entries as, .entries bs => Value.samePairs as bs
  | .entry k v, .entry k' v' => Value.same k k' && Value.same v v'
  | .date a, .date b => a.sameTime b
  | .object a _ _ _ _, .object b _ _ _ _ => a == b
  | .collection a _ _, .collection b _ _ => a == b
  | .function f, .function g => f.identity == g.identity
  | .scope a, .scope b => a.same b
  | _, _ => false

def Value.sameItems : List Value → List Value → Bool
  | [], [] => true
  | a :: as, b :: bs => Value.same a b && Value.sameItems as bs
  | _, _ => false

/-- Whether every field has its equal under the same name in `others`. -/
def Value.sameFields : List (String × Value) → List (String × Value) → Bool
  | [], _ => true
  | (k, v) :: rest, others =>
    (match Fields.get? k others with
      | some w => Value.same v w
      | none => false) && Value.sameFields rest others

def Value.samePairs : List (Value × Value) → List (Value × Value) → Bool
  | [], [] => true
  | (k, v) :: rest, (k', v') :: rest' =>
    Value.same k k' && Value.same v v' && Value.samePairs rest rest'
  | _, _ => false

end

end TextTemplate
