/-! Text for markup, in which no character of the text can end what it stands in. -/

namespace TextTemplate.Escape

/-- Characters that no document may contain: controls other than tab and line feed, and the code
points that are no characters. -/
def isForbidden (c : Char) : Bool :=
  let n := c.toNat
  if n = 0x09 ∨ n = 0x0a then false
  else n ≤ 0x1f || (0x7f ≤ n && n ≤ 0x9f) || (0xfdd0 ≤ n && n ≤ 0xfdef) || n % 0x10000 ≥ 0xfffe

namespace Markup

def isHexDigit (c : Char) : Bool := c.isDigit || ('a' ≤ c && c ≤ 'f') || ('A' ≤ c && c ≤ 'F')

/-- Whether the text starts with `least` to `most` characters of a class and then a semicolon. The
class has no semicolon. -/
def isRun (p : Char → Bool) (least most : Nat) (cs : List Char) : Bool :=
  let n := (cs.takeWhile p).length
  least ≤ n && n ≤ most && (cs.drop n).head? == some ';'

/-- Whether a character reference goes on here, after its ampersand: a name, or a number in decimal
or hexadecimal digits. -/
def isReference : List Char → Bool
  | '#' :: 'x' :: rest | '#' :: 'X' :: rest => isRun isHexDigit 1 6 rest
  | '#' :: rest => isRun Char.isDigit 1 7 rest
  | c :: rest => c.isAlpha && isRun Char.isAlphanum 1 31 rest
  | [] => false

/-- What a character becomes when `rest` follows it. -/
def charText (strict : Bool) (c : Char) (rest : List Char) : List Char :=
  if c = '\r' then ['\n']
  else if c = '&' then if !strict && isReference rest then ['&'] else "&amp;".toList
  else if c = '<' then "&lt;".toList
  else if c = '>' then "&gt;".toList
  else if c = '"' then "&quot;".toList
  else if c = '\'' then "&#39;".toList
  else if strict && c = '`' then "&#96;".toList
  else if strict && c = '=' then "&#61;".toList
  else if isForbidden c then []
  else [c]

/-- Text as it stands between tags and in attribute values. The strict form writes every ampersand
as a reference, and what matters in attributes without quotes; the other keeps references that are
there already. Line ends become line feeds. -/
def escape (strict : Bool) : List Char → List Char
  | [] => []
  | '\r' :: '\n' :: rest => '\n' :: escape strict rest
  | c :: rest => charText strict c rest ++ escape strict rest

/-- The characters that can end what text stands in. -/
def delimiters : List Char := ['<', '>', '"', '\'']

theorem not_mem_charText {c : Char} (h : c ∈ delimiters) (strict : Bool) (d : Char)
    (rest : List Char) : c ∉ charText strict d rest := by
  have hfixed : ∀ s ∈ ["\n", "&", "&amp;", "&lt;", "&gt;", "&quot;", "&#39;", "&#96;", "&#61;"],
      c ∉ s.toList := by
    simp only [delimiters, List.mem_cons, List.not_mem_nil, or_false] at h
    rcases h with rfl | rfl | rfl | rfl
    all_goals decide
  unfold charText
  split
  · exact hfixed "\n" (by decide)
  split
  · split
    · exact hfixed "&" (by decide)
    · exact hfixed "&amp;" (by decide)
  split
  · exact hfixed "&lt;" (by decide)
  split
  · exact hfixed "&gt;" (by decide)
  split
  · exact hfixed "&quot;" (by decide)
  split
  · exact hfixed "&#39;" (by decide)
  split
  · exact hfixed "&#96;" (by decide)
  split
  · exact hfixed "&#61;" (by decide)
  split
  · exact List.not_mem_nil
  · next hlt hgt hquote hapostrophe _ _ _ =>
    intro hmem
    rw [List.mem_singleton.1 hmem] at h
    simp [delimiters, hlt, hgt, hquote, hapostrophe] at h

/-- Escaped text has no delimiter. -/
theorem not_mem_escape {c : Char} (h : c ∈ delimiters) (strict : Bool) (cs : List Char) :
    c ∉ escape strict cs := by
  fun_induction escape strict cs with
  | case1 => exact List.not_mem_nil
  | case2 rest ih =>
    refine List.not_mem_cons_of_ne_of_not_mem ?_ ih
    rintro rfl
    exact absurd h (by decide)
  | case3 d rest _ ih =>
    rw [List.mem_append, not_or]
    exact ⟨not_mem_charText h strict d rest, ih⟩

end Markup

end TextTemplate.Escape
