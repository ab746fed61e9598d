import TextTemplate.Fields

/-! Settings as TOML documents hold them. -/

namespace TextTemplate

/-- How a table came to be, which decides how it may grow. -/
inductive TableOrigin where
  /-- It has a header of its own. -/
  | header
  /-- It is only on the way to a header. -/
  | implied
  /-- It is on the way to a dotted key. -/
  | dotted
  /-- It is written as a value. -/
  | inline
  deriving DecidableEq, Repr

/-- A settings document. -/
inductive Toml where
  | text (s : String)
  | int (n : Int)
  | float (x : Float)
  | bool (b : Bool)
  /-- A date, a time or both, in their usual form. -/
  | moment (s : String)
  | array (items : List Toml)
  | table (origin : TableOrigin) (entries : List (String × Toml))
  /-- Tables that share a header, in order. -/
  | tables (items : List (List (String × Toml)))

namespace Toml

/-- Changes the table that the names lead to. Tables on the way are made if they are missing, and
entered only if `enterable` allows it; of several tables under one header the last is entered. The
change is told how the table it is made in came to be, which for the outermost is `here`. -/
def within (origin : TableOrigin) (enterable : TableOrigin → Bool)
    (change : TableOrigin → Fields Toml → Option (Fields Toml)) :
    List String → (here : TableOrigin) → Fields Toml → Option (Fields Toml)
  | [], here, entries => change here entries
  | name :: rest, _, entries =>
    let go := within origin enterable change rest
    match entries.get? name with
    | none => (go origin []).map fun inner => entries.set name (table origin inner)
    | some (table o inner) =>
      if enterable o then (go o inner).map fun inner => entries.set name (table o inner) else none
    | some (tables items) =>
      match items.reverse with
      | last :: before =>
        (go .header last).map fun inner => entries.set name (tables (before.reverse ++ [inner]))
      | [] => none
    | some _ => none

def isOpen (o : TableOrigin) : Bool := o != .inline

def isUndeclared (o : TableOrigin) : Bool := o == .implied || o == .dotted

/-- Enters the table with the given header. -/
def underHeader (header : List String) (change : Fields Toml → Option (Fields Toml))
    (root : Fields Toml) : Option (Fields Toml) :=
  within .implied isOpen (fun _ => change) header .header root

def splitLast (names : List String) : List String × String :=
  (names.dropLast, names.getLast?.getD "")

/-- Declares a table, which must not have been declared before. -/
def declareTable (header : List String) (root : Fields Toml) : Option (Fields Toml) :=
  let (way, name) := splitLast header
  underHeader way (fun entries =>
    match entries.get? name with
    | none => some (entries.set name (table .header []))
    | some (table .implied inner) => some (entries.set name (table .header inner))
    | some _ => none) root

/-- Declares one more of several tables under a header. -/
def declareItem (header : List String) (root : Fields Toml) : Option (Fields Toml) :=
  let (way, name) := splitLast header
  underHeader way (fun entries =>
    match entries.get? name with
    | none => some (entries.set name (tables [[]]))
    | some (tables items) => some (entries.set name (tables (items ++ [[]])))
    | some _ => none) root

/-- Gives a dotted key its value. No key has two, and the dots lead to a table that dots have
made. -/
def assign (key : List String) (v : Toml) (entries : Fields Toml) : Option (Fields Toml) :=
  let (way, name) := splitLast key
  within .dotted isUndeclared (fun here entries =>
    if entries.has name ∨ (way ≠ [] ∧ here ≠ .dotted) then none else some (entries.set name v))
    way .header entries

end Toml

end TextTemplate
