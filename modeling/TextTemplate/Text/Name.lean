import TextTemplate.Text.Blank

namespace TextTemplate.Text

def isNameStart (c : Char) : Bool := c.isAlpha || c == '_'

def isNameChar (c : Char) : Bool := c.isAlphanum || c == '_'

/-- Letters, digits and underscores, not beginning with a digit. -/
def isName (cs : List Char) : Bool := cs.head?.any isNameStart && cs.all isNameChar

theorem isNameChar_of_mem {cs : List Char} {c : Char} (h : isName cs = true) (hc : c ∈ cs) :
    isNameChar c = true :=
  List.all_eq_true.1 (Bool.and_eq_true_iff.1 h).2 c hc

theorem isBlank_of_isNameChar {c : Char} (h : isNameChar c = true) : isBlank c = false := by
  rw [Bool.eq_false_iff]
  intro hblank
  have hcodes : ∀ n ∈ blankCodes, isNameChar (Char.ofNat n) = false := by decide
  have hc := hcodes _ (mem_blankCodes_of_isBlank hblank)
  rw [Char.ofNat_toNat, h] at hc
  cases hc

end TextTemplate.Text
