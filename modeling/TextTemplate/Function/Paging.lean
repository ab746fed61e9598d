import TextTemplate.Function.Basic

/-! Rows of a table on pages of equal length. -/

namespace TextTemplate

/-- Where a row stands among pages of a fixed number of rows. Rows and pages count from one. -/
structure PageIndex where
  isFirstOnPage : Bool
  isLastOnPage : Bool
  pageRow : Nat
  pageNumber : Nat
  pageCount : Nat
  deriving DecidableEq, Repr

namespace PageIndex

/-- The place of the row `index` of `size`. Pages of no rows mean one page for all. -/
def of (index size pageSize : Nat) : PageIndex :=
  let rows := if pageSize = 0 then max size 1 else pageSize
  let offset := index % rows
  { isFirstOnPage := offset == 0
    isLastOnPage := offset + 1 == rows || index + 1 == size
    pageRow := offset + 1
    pageNumber := index / rows + 1
    pageCount := (size + rows - 1) / rows }

def toValue (p : PageIndex) : Value := .map [
  ("isFirstOnPage", .bool p.isFirstOnPage),
  ("isLastOnPage", .bool p.isLastOnPage),
  ("pageRow", .ofNat p.pageRow),
  ("pageNumber", .ofNat p.pageNumber),
  ("pageCount", .ofNat p.pageCount)]

/-- An argument that is a count. -/
def count (args : List Argument) (i : Nat) : Except FunctionError Nat :=
  let n? := args[i]?.bind fun (a : Argument) => a.value.asInt?
  match n?.filter (0 ≤ ·) with
  | some n => .ok n.toInt.toNat
  | none => .error (.badArgument i "expected a non-negative integer")

/-- The function of a row, the number of rows and, if it is given, the number of rows on a page. -/
def call (defaultPageSize : Nat) (args : List Argument) : Except FunctionError Value := do
  Function.checkArity (.between 2 3) args
  let index ← count args 0
  let size ← count args 1
  let pageSize ← if args[2]?.any (!·.isNull) then count args 2 else .ok defaultPageSize
  .ok (of index size pageSize).toValue

end PageIndex

end TextTemplate
