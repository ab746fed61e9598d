import TextTemplate.Document.Json.Basic

/-! Writing documents in JSON. -/

namespace TextTemplate.Json

def hexDigits (width n : Nat) : List Char :=
  let ds := Nat.toDigits 16 n
  List.replicate (width - ds.length) '0' ++ ds

def quotedChar (c : Char) : List Char :=
  if c = '"' then ['\\', '"']
  else if c = '\\' then ['\\', '\\']
  else if c.toNat < 0x20 then '\\' :: 'u' :: hexDigits 4 c.toNat
  else [c]

def quoted (s : String) : List Char := '"' :: s.toList.flatMap quotedChar ++ ['"']

/-- A float is told from a whole number by its point. Numbers that have no decimal text are null. -/
def floatText (x : Float) : List Char :=
  match Binary64.ofBits x.toBits with
  | .finite negative m e =>
    let text := (Binary64.finite negative m e).text
    if text.contains '.' then text else text ++ ['.', '0']
  | _ => "null".toList

mutual

/-- The text of a document, without blanks. -/
def print : Json → List Char
  | .null => "null".toList
  | .bool b => (toString b).toList
  | .int n => (toString n).toList
  | .float x => floatText x
  | .text s => quoted s
  | .array items => '[' :: List.intercalate [','] (printItems items) ++ [']']
  | .object members => '{' :: List.intercalate [','] (printMembers members) ++ ['}']

def printItems : List Json → List (List Char)
  | [] => []
  | v :: rest => print v :: printItems rest

def printMembers : List (String × Json) → List (List Char)
  | [] => []
  | (k, v) :: rest => (quoted k ++ ':' :: print v) :: printMembers rest

end

def toText (j : Json) : String := String.ofList j.print

end TextTemplate.Json
