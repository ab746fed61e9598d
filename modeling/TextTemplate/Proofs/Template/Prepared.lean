import TextTemplate.Proofs.Template.Preamble
import TextTemplate.Proofs.Text.Bytes

/-! What is cut out of a text before it is read, and where the bytes that are left stood. -/

namespace TextTemplate

namespace Text

/-- The line break that the text begins with, if it does. -/
def leadingBreak : List Char → List Char
  | '\r' :: '\n' :: _ => ['\r', '\n']
  | '\n' :: _ => ['\n']
  | _ => []

theorem leadingBreak_append (cs : List Char) : leadingBreak cs ++ skipLineBreak cs = cs := by
  unfold leadingBreak
  split
  · rfl
  · rfl
  · unfold skipLineBreak
    split <;> simp_all

end Text

namespace Preamble

/-- A preamble with this parameter as it stands in a text. -/
def written (ignored : Bool) (param : List Char) : List Char :=
  '[' :: ((if ignored then ['!'] else []) ++ (name.toList ++ (param ++ [']'])))

/-- The parameter ends with the bracket that follows it, and begins behind the name. -/
def IsParameter (param : List Char) : Prop :=
  Mark.Enclosed param ∧ (param ++ [']']).head?.any Text.isWordChar = false

theorem read?_eq_some {cs : List Char} {found : Found} (h : read? cs = some found) :
    found.before = [] ∧ found.opened = cs ∧ ∃ param rest, IsParameter param ∧
      cs = written found.ignored param ++ rest ∧ found.after = Text.skipLineBreak rest := by
  unfold read? at h
  split at h
  · obtain ⟨⟨trimmed, rest⟩, hread, rfl⟩ := Option.map_eq_some_iff.1 h
    obtain ⟨param, hparam, hword, rfl⟩ := Mark.readNamed?_eq_some hread
    exact ⟨rfl, rfl, param, rest, ⟨hparam, hword⟩, by simp [written], rfl⟩
  · obtain ⟨⟨trimmed, rest⟩, hread, rfl⟩ := Option.map_eq_some_iff.1 h
    obtain ⟨param, hparam, hword, rfl⟩ := Mark.readNamed?_eq_some hread
    exact ⟨rfl, rfl, param, rest, ⟨hparam, hword⟩, by simp [written], rfl⟩
  · cases h

/-- No preamble begins before the end of `before`, with which the text begins. -/
def NoneIn (before cs : List Char) : Prop :=
  ∀ a b, cs = a ++ b → a.length < before.length → ∀ d, IsDirective d → ¬ d <+: b

/-- The search finds the first preamble of the text. -/
theorem find?_eq_some {cs : List Char} {found : Found} (h : find? cs = some found) :
    NoneIn found.before cs ∧ cs = found.before ++ found.opened ∧
    ∃ param rest, IsParameter param ∧ found.opened = written found.ignored param ++ rest ∧
      found.after = Text.skipLineBreak rest := by
  induction cs generalizing found with
  | nil => cases h
  | cons c cs ih =>
    rw [find?] at h
    split at h
    · rename_i found' hread
      cases h
      obtain ⟨hbefore, hopened, hwritten⟩ := read?_eq_some hread
      rw [hbefore, hopened]
      exact ⟨fun a b _ hlt => absurd hlt (Nat.not_lt_zero _), rfl, hwritten⟩
    · rename_i hread
      obtain ⟨found', hfind, rfl⟩ := Option.map_eq_some_iff.1 h
      obtain ⟨hnone, hcs, hwritten⟩ := ih hfind
      refine ⟨fun a b hsplit hlt d hd => ?_, by rw [List.cons_append, ← hcs], hwritten⟩
      cases a with
      | nil =>
        rw [List.nil_append] at hsplit
        rw [← hsplit]
        intro hbegins
        have hsome := isSome_read?_iff.2 ⟨d, hd, hbegins⟩
        rw [hread] at hsome
        cases hsome
      | cons x a =>
        obtain ⟨_, rfl⟩ := List.cons.inj hsplit
        exact hnone a b rfl (by simpa using hlt) d hd

/-- A text in three parts, of which the middle one is left out: the first preamble together with the
line break that follows it, only the mark of a preamble that is to be ignored, or nothing. -/
inductive LeftOut (cs : List Char) : (before cut after : List Char) → Prop
  | nothing (absent : ∀ d, IsDirective d → ¬ d <:+: cs) : LeftOut cs cs [] []
  | directive {before param rest : List Char} (whole : cs = before ++ (written false param ++ rest))
      (parameter : IsParameter param) (first : NoneIn before cs) :
      LeftOut cs before (written false param ++ Text.leadingBreak rest) (Text.skipLineBreak rest)
  | mark {before param rest : List Char} (whole : cs = before ++ (written true param ++ rest))
      (parameter : IsParameter param) (first : NoneIn before cs) :
      LeftOut cs (before ++ ['[']) ['!'] ((written false param).tail ++ rest)

theorem LeftOut.whole_eq {cs before cut after : List Char} (h : LeftOut cs before cut after) :
    cs = before ++ (cut ++ after) := by
  cases h with
  | nothing => simp
  | directive whole => rw [List.append_assoc, Text.leadingBreak_append, ← whole]
  | mark whole => simp [whole, written]

end Preamble

namespace Prepared
open Preamble (LeftOut)

theorem ofText_eq_ok {text : String} {p : Prepared} (h : ofText text = .ok p) :
    ∃ before cut after, LeftOut text.toList before cut after ∧ p.text = before ++ after ∧
      p.cut = if cut = [] then none else some ⟨Text.utf8Length before, Text.utf8Length cut⟩ := by
  unfold ofText at h
  split at h
  · rename_i hnone
    cases h
    exact ⟨_, _, _, .nothing (Preamble.find?_eq_none_iff.1 hnone), (List.append_nil _).symm, rfl⟩
  · rename_i found hfound
    obtain ⟨hfirst, hwhole, param, rest, hparam, hopened, hafter⟩ := Preamble.find?_eq_some hfound
    rw [hopened] at hwhole
    simp only at h
    split at h
    · rename_i hignored
      cases h
      rw [hignored] at hopened hwhole
      refine ⟨_, _, _, .mark hwhole hparam hfirst, ?_, ?_⟩
      · simp [hopened, Preamble.written]
      · simp [Text.utf8Length_append, Text.utf8Length]
        decide
    · rename_i hignored
      rw [Bool.not_eq_true] at hignored
      rw [hignored] at hopened hwhole
      split at h
      · cases h
      · cases h
        refine ⟨_, _, _, .directive hwhole hparam hfirst, by rw [hafter], ?_⟩
        have hsize : found.opened = (Preamble.written false param ++ Text.leadingBreak rest) ++
            Text.skipLineBreak rest := by
          rw [List.append_assoc, Text.leadingBreak_append, hopened]
        have hcount : Text.utf8Length found.opened - Text.utf8Length found.after =
            Text.utf8Length (Preamble.written false param ++ Text.leadingBreak rest) := by
          rw [hsize, hafter, Text.utf8Length_append, Nat.add_sub_cancel_right]
        simp only [hcount]
        simp [Preamble.written]

/-- A preamble that cannot be applied is the fault of the text, at the place where it stands. -/
theorem ofText_eq_error {text : String} {fault : PreambleFault} {n : Nat}
    (h : ofText text = .error (fault, n)) :
    ∃ before param rest, text.toList = before ++ (Preamble.written false param ++ rest) ∧
      Preamble.IsParameter param ∧ Preamble.NoneIn before text.toList ∧
      Text.utf8Length before = n := by
  unfold ofText at h
  split at h
  · cases h
  · rename_i found hfound
    obtain ⟨hfirst, hwhole, param, rest, hparam, hopened, hafter⟩ := Preamble.find?_eq_some hfound
    simp only at h
    split at h
    · cases h
    · rename_i hignored
      rw [Bool.not_eq_true] at hignored
      rw [hopened, hignored] at hwhole
      split at h
      · cases h
        exact ⟨_, _, _, hwhole, hparam, hfirst, rfl⟩
      · cases h

theorem writtenOffset_lt (p : Prepared) {m n : Nat} (h : m < n) :
    p.writtenOffset m < p.writtenOffset n := by
  unfold writtenOffset
  split
  · split <;> split <;> omega
  · exact h

section
variable {p : Prepared} {before cut after : List Char}
  (hcut : p.cut = if cut = [] then none else some ⟨Text.utf8Length before, Text.utf8Length cut⟩)
include hcut

theorem writtenOffset_eq (i : Nat) :
    p.writtenOffset i =
      if Text.utf8Length before ≤ i then i + Text.utf8Length cut else i := by
  rw [writtenOffset, hcut]
  by_cases hnil : cut = []
  · simp [hnil, Text.utf8Length]
  · simp [hnil]

/-- Every byte that is left is the one at its place in the text as written. -/
theorem bytes_writtenOffset (i : Nat) :
    (Text.bytes (before ++ (cut ++ after)))[p.writtenOffset i]? =
      (Text.bytes (before ++ after))[i]? := by
  rw [writtenOffset_eq hcut]
  simp only [Text.bytes_append, ← Text.length_bytes]
  split
  · rename_i hle
    rw [List.getElem?_append_right (by omega), List.getElem?_append_right (by omega),
      List.getElem?_append_right (by omega)]
    congr 1
    omega
  · rename_i hlt
    rw [List.getElem?_append_left (by omega), List.getElem?_append_left (by omega)]

theorem writtenOffset_not_cut (i : Nat) : ∀ c ∈ p.cut,
    p.writtenOffset i < c.start ∨ c.start + c.size ≤ p.writtenOffset i := by
  intro c hc
  rw [writtenOffset_eq hcut]
  rw [hcut] at hc
  split at hc
  · cases hc
  · cases hc
    split <;> simp only <;> omega

/-- Where a character begins in what is left, it began in the text as written. -/
theorem writtenOffset_boundary {a b : List Char} (h : before ++ after = a ++ b) :
    ∃ a' b', before ++ (cut ++ after) = a' ++ b' ∧
      Text.utf8Length a' = p.writtenOffset (Text.utf8Length a) ∧ b'.head? = b.head? := by
  rw [writtenOffset_eq hcut]
  split
  · rename_i hle
    obtain ⟨m, rfl, rfl⟩ := Text.append_of_utf8Length_le h hle
    refine ⟨before ++ (cut ++ m), b, by simp, ?_, rfl⟩
    simp only [Text.utf8Length_append]
    omega
  · rename_i hlt
    obtain ⟨m, rfl, rfl⟩ := Text.append_of_utf8Length_le h.symm (by omega)
    refine ⟨a, m ++ (cut ++ after), by simp, rfl, ?_⟩
    cases m with
    | nil => simp at hlt
    | cons x m => rfl

end

end Prepared

end TextTemplate
