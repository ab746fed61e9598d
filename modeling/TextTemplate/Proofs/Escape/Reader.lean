import TextTemplate.Document.Json.Reader
import TextTemplate.Escape.Literal
import TextTemplate.Text.Split

/-! Reading the text of a literal, as each language takes apart what stands between its quotes. -/

namespace TextTemplate.Escape

namespace LiteralLanguage
variable {l : LiteralLanguage} {cs rest : List Char} {c e : Char}

/-- The signs between which text stands. -/
def quotes : LiteralLanguage → List Char
  | ecma => ['"', '\'', '`']
  | java => ['"', '\'']
  | json => ['"']

/-- Whether a character stands for itself between quotes. -/
def isPlain (l : LiteralLanguage) (c : Char) : Bool :=
  c != '\\' && !l.quotes.contains c &&
    match l with
    | json => decide (0x20 ≤ c.toNat)
    | ecma | java => c != '\n' && c != '\r'

/-- Whether a character that has no meaning of its own after a backslash stands for itself there. -/
def isOwnMeaning (e : Char) : Bool :=
  !(e.isDigit || ['x', 'u', '\n', '\r', '\u2028', '\u2029'].contains e)

/-- The character that a letter or sign means after a backslash. -/
def meaning? : LiteralLanguage → Char → Option Char
  | _, '\\' => some '\\'
  | _, '"' => some '"'
  | _, 'b' => some '\x08'
  | _, 'f' => some '\x0c'
  | _, 'n' => some '\n'
  | _, 'r' => some '\r'
  | _, 't' => some '\t'
  | json, '/' => some '/'
  | java, '\'' => some '\''
  | java, 's' => some ' '
  | ecma, 'v' => some '\x0b'
  | ecma, e => if isOwnMeaning e then some e else none
  | _, _ => none

/-- Reads the digits of a character's number up to a closing brace. -/
def readBraced? (cs : List Char) : Option (Char × List Char) := do
  let (digits, rest) ← Text.splitFirst? (· = '}') cs
  let (n, _) ← Json.readHex? digits.length 0 digits
  if digits ≠ [] ∧ n.isValidChar then some (Char.ofNat n, rest) else none

/-- Reads what stands after a backslash. Where the escapes of code units are resolved before the
quotes are found, they cannot stand for what has a meaning there. -/
def readEscape? (l : LiteralLanguage) : List Char → Option (Char × List Char)
  | [] => none
  | 'u' :: '{' :: rest => if l = ecma then readBraced? rest else none
  | 'u' :: rest => (Json.readUnit? rest).filter fun r => l ≠ java || l.isPlain r.1
  | e :: rest => (l.meaning? e).map fun c => (c, rest)

theorem readHex?_length {width n m : Nat}
    (h : Json.readHex? width n cs = some (m, rest)) : rest.length ≤ cs.length := by
  induction width generalizing n cs with
  | zero =>
    cases h
    exact Nat.le_refl _
  | succ width ih =>
    cases cs with
    | nil => cases h
    | cons c cs =>
      obtain ⟨d, _, h⟩ := Option.bind_eq_some_iff.1 h
      exact Nat.le_succ_of_le (ih h)

theorem readUnit?_length (h : Json.readUnit? cs = some (c, rest)) :
    rest.length ≤ cs.length := by
  rw [Json.readUnit?, Option.bind_eq_bind, Option.bind_eq_some_iff] at h
  obtain ⟨⟨unit, after⟩, hunit, h⟩ := h
  have hafter := readHex?_length hunit
  dsimp only at h
  split at h
  · split at h
    · obtain ⟨⟨low, after'⟩, hlow, h⟩ := Option.bind_eq_some_iff.1 h
      have hafter' := readHex?_length hlow
      split at h
      · have hrest : after' = rest := (Prod.mk.inj (Option.some.inj h)).2
        simp only [List.length_cons, hrest] at hafter hafter'
        omega
      · cases h
    · cases h
  · split at h
    · cases h
    · cases h
      exact hafter

theorem readBraced?_length (h : readBraced? cs = some (c, rest)) : rest.length ≤ cs.length := by
  rw [readBraced?, Option.bind_eq_bind, Option.bind_eq_some_iff] at h
  obtain ⟨⟨digits, after⟩, hsplit, h⟩ := h
  rw [Option.bind_eq_bind, Option.bind_eq_some_iff] at h
  obtain ⟨⟨n, _⟩, _, h⟩ := h
  obtain ⟨closing, _, _, hcs⟩ := Text.splitFirst?_eq_some.1 hsplit
  dsimp only at h
  split at h
  · cases h
    simp only [hcs, List.length_append, List.length_cons]
    omega
  · cases h

theorem readEscape?_length (h : l.readEscape? cs = some (c, rest)) : rest.length ≤ cs.length := by
  unfold readEscape? at h
  split at h
  · cases h
  · split at h
    · have hrest := readBraced?_length h
      simp only [List.length_cons]
      omega
    · cases h
  · have hrest := readUnit?_length (Option.filter_eq_some_iff.1 h).1
    exact Nat.le_succ_of_le hrest
  · obtain ⟨d, _, heq⟩ := Option.map_eq_some_iff.1 h
    cases heq
    exact Nat.le_succ _

theorem readEscape?_sign (h : l.meaning? e = some c) (he : e ≠ 'u') (rest : List Char) :
    l.readEscape? (e :: rest) = some (c, rest) := by
  unfold readEscape?
  split
  · next heq => cases heq
  · next heq => exact absurd (List.cons.inj heq).1 he
  · next heq => exact absurd (List.cons.inj heq).1 he
  · next heq =>
    cases heq
    rw [h, Option.map_some]

theorem readEscape?_unit (h : Json.readUnit? cs = some (c, rest))
    (hjava : l = java → l.isPlain c = true) : l.readEscape? ('u' :: cs) = some (c, rest) := by
  have hstands : (decide (l ≠ java) || l.isPlain c) = true := by
    by_cases hl : l = java
    · rw [hjava hl, Bool.or_true]
    · rw [decide_eq_true hl, Bool.true_or]
  unfold readEscape?
  split
  · next heq => cases heq
  · next brace heq =>
    cases heq
    cases h
  · next heq =>
    cases heq
    rw [h, Option.filter_some, if_pos hstands]
  · next hsign heq => exact absurd (List.cons.inj heq).1.symm hsign

/-- The text that stands between the quotes, if no quote ends it and all escapes are known. -/
def read? (l : LiteralLanguage) : List Char → Option (List Char)
  | [] => some []
  | c :: cs =>
    if c = '\\' then
      match h : l.readEscape? cs with
      | some (d, rest) =>
        have := readEscape?_length h
        (l.read? rest).map (d :: ·)
      | none => none
    else if l.isPlain c then (l.read? cs).map (c :: ·) else none
termination_by cs => cs.length

theorem read?_escape (h : l.readEscape? cs = some (c, rest)) :
    l.read? ('\\' :: cs) = (l.read? rest).map (c :: ·) := by
  rw [read?, if_pos rfl]
  split
  · next heq =>
    rw [h] at heq
    cases heq
    rfl
  · next heq =>
    rw [h] at heq
    cases heq

theorem read?_plain (h : l.isPlain c = true) (cs : List Char) :
    l.read? (c :: cs) = (l.read? cs).map (c :: ·) := by
  have hc : c ≠ '\\' := by
    rintro rfl
    cases h
  rw [read?, if_neg hc, if_pos h]

end LiteralLanguage

end TextTemplate.Escape
