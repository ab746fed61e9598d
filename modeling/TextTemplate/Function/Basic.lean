import TextTemplate.Parameter.Basic

/-! Functions that templates call. They see their arguments and the data, to which they may write.
-/

namespace TextTemplate

/-- How many arguments a function takes. -/
structure Arity where
  least : Nat
  most : Option Nat
  deriving DecidableEq, Repr

namespace Arity

def exactly (n : Nat) : Arity := ⟨n, some n⟩

def atLeast (n : Nat) : Arity := ⟨n, none⟩

def between (least most : Nat) : Arity := ⟨least, some most⟩

def admits (a : Arity) (n : Nat) : Bool := a.least ≤ n && a.most.all (n ≤ ·)

def shown (a : Arity) : String :=
  match a.most with
  | none => "at least " ++ toString a.least
  | some most =>
    if most = a.least then toString most else toString a.least ++ " to " ++ toString most

end Arity

/-- Why a call of a function ended without a value. -/
inductive FunctionError where
  | arity (expected : Arity) (found : Nat)
  | notAFunction (name : String)
  | badArgument (index : Nat) (message : String)
  | failed (message : String)
  deriving DecidableEq, Repr

def FunctionError.message : FunctionError → String
  | arity expected found =>
    "expected " ++ expected.shown ++ " argument(s), got " ++ toString found
  | notAFunction name => "`" ++ name ++ "` is not a function"
  | badArgument index message => "argument " ++ toString index ++ ": " ++ message
  | failed message => message

/-- A computation that may fail and may write to the data; what was written stays. -/
abbrev Call := ExceptT FunctionError (StateM Data)

abbrev Function := List Argument → Call Value

namespace Function

def checkArity (a : Arity) (args : List Argument) : Except FunctionError Unit :=
  if a.admits args.length then .ok () else .error (.arity a args.length)

/-- A function that only looks at the stored values. -/
def reading (f : Store → List Argument → Except FunctionError Value) : Function := fun args => do
  let d ← get
  f d.store args

end Function

end TextTemplate
