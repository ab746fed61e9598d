import TextTemplate.Template.Fault

/-! A directive anywhere in a text may set what holds for the whole of it. It is taken out before
the text is read, so offsets in what is left have to be mapped back. -/

namespace TextTemplate

/-- Settings for a whole template. -/
structure Preamble where
  inverted : Bool
  bundle : Option String
  escape : Option String
  deriving DecidableEq, Repr

namespace Preamble

def none : Preamble := ⟨false, .none, .none⟩

def setMode (p : Preamble) (mode : String) : Except PreambleFault Preamble :=
  match Text.asciiLower mode with
  | "inverted" => .ok { p with inverted := true }
  | "normal" => .ok { p with inverted := false }
  | other => .error (.unknownMode other)

def set (p : Preamble) (s : Setting) : Except PreambleFault Preamble :=
  match s.key with
  | "mode" => p.setMode s.value
  | "bundle" => .ok { p with bundle := some s.value }
  | "escape" => .ok { p with escape := some s.value }
  | key => .error (.unknownSetting key)

def ofParameter (param : List Char) : Except PreambleFault Preamble :=
  match Setting.ofText (String.ofList param) with
  | .error e => .error (.settings e)
  | .ok settings => settings.foldlM set none

/-- The bytes `[start, start + size)` of a text, to be left out. -/
structure Cut where
  start : Nat
  size : Nat
  deriving DecidableEq, Repr

/-- A directive with settings for the whole template, and the text around it. -/
structure Found where
  before : List Char
  ignored : Bool
  param : List Char
  /-- The text from the opening bracket on. -/
  opened : List Char
  /-- The text after the directive and the line break that follows it. -/
  after : List Char

def name : String := "global"

/-- Reads the directive that the text begins with. An exclamation mark makes it ignored. -/
def read? : List Char → Option Found
  | '[' :: '!' :: cs =>
    (Mark.readNamed? name cs).map fun (param, rest) =>
      ⟨[], true, param, '[' :: '!' :: cs, Text.skipLineBreak rest⟩
  | '[' :: cs =>
    (Mark.readNamed? name cs).map fun (param, rest) =>
      ⟨[], false, param, '[' :: cs, Text.skipLineBreak rest⟩
  | _ => .none

/-- The first such directive in a text. -/
def find? : List Char → Option Found
  | [] => .none
  | c :: cs =>
    match read? (c :: cs) with
    | some found => some found
    | .none => (find? cs).map fun found => { found with before := c :: found.before }

/-- After a bracket, no directive of this kind begins but with a mark or the letter of its name. -/
theorem read?_eq_none {cs : List Char} (hmark : cs.head? ≠ some '!') (hname : cs.head? ≠ some 'g') :
    read? ('[' :: cs) = .none := by
  have hdrop : Text.dropLead? name.toList cs = .none := by
    cases cs with
    | nil => rfl
    | cons c cs => exact Text.dropLead?_cons_eq_none _ cs fun heq => hname (by rw [← heq]; rfl)
  unfold read?
  split
  · simp_all
  · rename_i heq
    cases heq
    rw [Mark.readNamed?, hdrop]
    rfl
  · rfl

/-- Where no bracket opens, no directive of this kind begins. -/
theorem find?_append {a rest : List Char} (ha : '[' ∉ a) (h : find? rest = .none) :
    find? (a ++ rest) = .none := by
  induction a with
  | nil => exact h
  | cons c a ih =>
    simp only [List.mem_cons, not_or] at ha
    have hread : read? (c :: (a ++ rest)) = .none := by
      unfold read?
      split <;> simp_all
    rw [List.cons_append, find?, hread, ih ha.2]
    rfl

/-- A text without such a directive ends in text without one. -/
theorem find?_of_append {a rest : List Char} (h : find? (a ++ rest) = .none) :
    find? rest = .none := by
  induction a with
  | nil => exact h
  | cons c a ih =>
    rw [List.cons_append, find?] at h
    split at h
    · cases h
    · exact ih (Option.map_eq_none_iff.1 h)

theorem find?_bracket (a : List Char) {rest : List Char}
    (hhead : a.head?.any (fun c => c != '!' && c != 'g') = true) (ha : '[' ∉ a)
    (h : find? rest = .none) : find? ('[' :: (a ++ rest)) = .none := by
  have hmark := Text.head?_append_ne rest hhead (by decide : ('!' != '!' && '!' != 'g') = false)
  have hname := Text.head?_append_ne rest hhead (by decide : ('g' != '!' && 'g' != 'g') = false)
  rw [find?, read?_eq_none hmark hname, find?_append ha h]
  rfl

end Preamble

/-- A template text without its preamble. -/
structure Prepared where
  text : List Char
  settings : Preamble
  cut : Option Preamble.Cut

namespace Prepared

/-- The byte of the text as written that a byte of the prepared text stands at. -/
def writtenOffset (p : Prepared) (offset : Nat) : Nat :=
  match p.cut with
  | some cut => if cut.start ≤ offset then offset + cut.size else offset
  | none => offset

/-- Takes the first preamble out. One that is to be ignored stays as text, without its mark. -/
def ofText (text : String) : Except (PreambleFault × Nat) Prepared :=
  match Preamble.find? text.toList with
  | none => .ok ⟨text.toList, .none, none⟩
  | some found =>
    let start := Text.utf8Length found.before
    if found.ignored then
      .ok ⟨found.before ++ '[' :: found.opened.drop 2, .none, some ⟨start + 1, 1⟩⟩
    else match Preamble.ofParameter found.param with
      | .error fault => .error (fault, start)
      | .ok settings =>
        let size := Text.utf8Length found.opened - Text.utf8Length found.after
        .ok ⟨found.before ++ found.after, settings, some ⟨start, size⟩⟩

theorem ofText_of_found {text : String} {found : Preamble.Found} {settings : Preamble}
    (hfound : Preamble.find? text.toList = some found) (hignored : found.ignored = false)
    (hparameter : Preamble.ofParameter found.param = .ok settings) :
    ofText text = .ok ⟨found.before ++ found.after, settings, some ⟨Text.utf8Length found.before,
      Text.utf8Length found.opened - Text.utf8Length found.after⟩⟩ := by
  simp only [ofText, hfound, hignored, Bool.false_eq_true, ↓reduceIte, hparameter]

end Prepared

end TextTemplate
