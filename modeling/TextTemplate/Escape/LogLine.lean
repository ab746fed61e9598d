import TextTemplate.Escape.Markup

/-! Text in a log. A line that goes on is marked where it ends and indented where it continues. -/

namespace TextTemplate.Escape

/-- How a text of several lines stands in a log: what ends a line that goes on, and what begins the
next one. -/
structure LogForm where
  marker : List Char
  lead : List Char
  deriving DecidableEq, Repr

namespace LogForm

def standard : LogForm := ⟨['↵'], [' ', ' ', ' ', ' ']⟩

def tabStop : Nat := 8

def isLineBreak (c : Char) : Bool :=
  c == '\n' || c == '\r' || c.toNat == 0x85 || c.toNat == 0x2028 || c.toNat == 0x2029

/-- Text from the given column on. A line break, which CR LF is one of, goes on in the next line; a
tab reaches the next tab stop; forbidden characters are replaced. -/
def escapeFrom (f : LogForm) (column : Nat) : List Char → List Char
  | [] => []
  | '\r' :: '\n' :: rest => f.marker ++ '\n' :: f.lead ++ f.escapeFrom f.lead.length rest
  | c :: rest =>
    if isLineBreak c then f.marker ++ '\n' :: f.lead ++ f.escapeFrom f.lead.length rest
    else if c = '\t' then
      let width := tabStop - column % tabStop
      List.replicate width ' ' ++ f.escapeFrom (column + width) rest
    else (if isForbidden c then '\ufffd' else c) :: f.escapeFrom (column + 1) rest

def escape (f : LogForm) (cs : List Char) : List Char := f.escapeFrom 0 cs

end LogForm

end TextTemplate.Escape
