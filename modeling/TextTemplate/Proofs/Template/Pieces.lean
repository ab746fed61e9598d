import Mathlib.Data.List.Chain
import TextTemplate.Proofs.Scan.Marks
import TextTemplate.Proofs.Scan.Reads
import TextTemplate.Template.BlockReader

/-! The pieces that a template text is written in, and the tokens that a scanner reads them as. A
piece is read by itself, whatever stands next to it. -/

namespace TextTemplate

/-- Text that no mark begins in, and that does more than lay out. -/
structure PlainText where
  text : String
  nonempty : text ≠ ""
  unmarked : ∀ c ∈ text.toList, c ≠ '[' ∧ c ≠ '{'
  notLayout : (Block.text text false).isLayout = false

/-- What a comment says. -/
structure Note where
  text : String
  unmarked : ∀ c ∈ text.toList, c ∉ ['[', ']', '{', '}', '*']

/-- A value that is written in one of the styles that are always there. -/
structure StyledPath (styles : EscapeTable) where
  style : EscapeStyle
  path : DataPath
  builtin : style.name ∈ EscapeTable.builtins.map (·.1)
  known : styles.find? style.name = some style
  spelled : path.Over Text.isNameChar
  named : path.segments.head?.any (Text.isName ·.toList) = true

/-- Letters and digits of any script, and underscores. -/
def Text.isSegmentChar (c : Char) : Bool := isAlphanumeric c || c == '_'

/-- What a branch depends on. -/
structure BranchPath where
  path : DataPath
  spelled : path.Over Text.isSegmentChar

inductive Piece (styles : EscapeTable) where
  | text (t : PlainText)
  | comment (ofValue : Bool) (note : Note)
  | value (v : StyledPath styles)
  | opening (kind : BranchKind) (branch : BranchPath)
  | divider
  | closing

namespace Text

theorem isBlank_of_isSegmentChar {c : Char} (h : isSegmentChar c = true) : isBlank c = false := by
  rw [Bool.eq_false_iff]
  intro hblank
  simp only [isSegmentChar, isAlphanumeric_of_isBlank hblank, Bool.false_or, beq_iff_eq] at h
  subst h
  revert hblank
  decide

end Text

namespace EscapeTable
variable {name : String}

theorem head_of_builtin (h : name ∈ builtins.map (·.1)) :
    name.toList.head?.any Char.isAlpha = true := by
  have hall : ∀ name ∈ builtins.map (·.1), name.toList.head?.any Char.isAlpha = true := by
    decide
  exact hall _ h

theorem chars_of_builtin (h : name ∈ builtins.map (·.1)) :
    ∀ c ∈ name.toList, Mark.isStyleChar c = true := by
  have hall : ∀ name ∈ builtins.map (·.1), name.toList.all Mark.isStyleChar = true := by
    decide
  exact List.all_eq_true.1 (hall _ h)

end EscapeTable

section
variable {path : DataPath} (h : path.Over Text.isNameChar)
include h

theorem DataPath.Over.ofText_name : DataPath.ofText path.text = path :=
  h.ofText_text (by decide) fun _ hc => Text.isBlank_of_isNameChar hc

/-- A path that begins with a name can be written as that of a value. -/
theorem DataPath.Over.isPath (hnamed : path.segments.head?.any (Text.isName ·.toList) = true) :
    Mark.isPath path.text.toList = true := by
  have hpieces := h.pieces_text (by decide)
  have hspelled := h.2
  unfold Mark.isPath
  rw [hpieces]
  cases hsegments : path.segments with
  | nil => simp [hsegments] at hnamed
  | cons first others =>
    rw [hsegments] at hnamed hspelled
    simp only [List.map_cons, Bool.and_eq_true, List.all_map, List.all_eq_true]
    refine ⟨by simpa using hnamed, fun s hs => ?_⟩
    obtain ⟨hne, hchars⟩ := hspelled s (List.mem_cons_of_mem _ hs)
    simpa [hne] using hchars

end

namespace StyledPath
variable {styles : EscapeTable} (v : StyledPath styles)

theorem style_head : v.style.name.toList.head?.any Char.isAlpha = true :=
  EscapeTable.head_of_builtin v.builtin

theorem style_chars : ∀ c ∈ v.style.name.toList, Mark.isStyleChar c = true :=
  EscapeTable.chars_of_builtin v.builtin

theorem path_chars {c : Char} (hc : c ∈ v.path.text.toList) : c ∉ ['{', '}', ',', '>', '['] := by
  intro hsign
  rcases v.spelled.of_mem_text hc with hname | hdot
  · revert hname
    simp only [List.mem_cons, List.not_mem_nil, or_false] at hsign
    rcases hsign with rfl | rfl | rfl | rfl | rfl <;> decide
  · subst hdot
    revert hsign
    decide

theorem isPath : Mark.isPath v.path.text.toList = true := v.spelled.isPath v.named

theorem ofText_path : DataPath.ofText v.path.text = v.path := v.spelled.ofText_name

end StyledPath

namespace BranchPath
variable (b : BranchPath)

theorem path_chars {c : Char} (hc : c ∈ b.path.text.toList) : c ≠ ']' ∧ c ≠ '\'' ∧ c ≠ '[' := by
  rcases b.spelled.of_mem_text hc with hname | rfl
  · refine ⟨?_, ?_, ?_⟩ <;>
      rintro rfl <;>
      revert hname <;>
      decide
  · decide

theorem path_blank {c : Char} (hc : c ∈ b.path.text.toList) : Text.isBlank c = false := by
  rcases b.spelled.of_mem_text hc with hname | rfl
  · exact Text.isBlank_of_isSegmentChar hname
  · decide

theorem ofText_path : DataPath.ofText b.path.text = b.path :=
  b.spelled.ofText_text (by decide) fun _ hc => Text.isBlank_of_isSegmentChar hc

end BranchPath

namespace Piece
variable {styles : EscapeTable}

/-- The piece as it stands in a text. -/
def written : Piece styles → String
  | text t => t.text
  | comment false note => "[*" ++ note.text ++ "*]"
  | comment true note => "\x7b*" ++ note.text ++ "*\x7d"
  | value v => "\x7b" ++ v.style.name ++ ":" ++ v.path.text ++ "\x7d"
  | opening kind b => "[" ++ kind.name ++ " " ++ b.path.text ++ "]"
  | divider => "[else]"
  | closing => "[end]"

/-- What is read where the piece stands, unless it is text. -/
def mark? : Piece styles → Option Mark
  | text _ => none
  | comment ofValue _ => some (.comment ofValue)
  | value v => some (.value (some v.style.name) v.path.text none)
  | opening kind b => some (.directive kind.name b.path.text)
  | divider => some (.directive "else" "")
  | closing => some (.directive "end" "")

def token : Piece styles → Token
  | text t => .text t.text
  | comment ofValue _ => .comment ofValue
  | value v => .value (some v.style.name) v.path.text none
  | opening kind b => .directive kind.name b.path.text
  | divider => .directive "else" ""
  | closing => .directive "end" ""

theorem ofMark_token {p : Piece styles} {m : Mark} (h : p.mark? = some m) (start stop : Cursor) :
    Token.ofMark ⟨start, stop, m⟩ = .ok (p.token, stop) := by
  cases p <;> cases h <;> rfl

/-- Of all kinds of marks, the piece is read as its own. -/
theorem read_written {p : Piece styles} {m : Mark} (h : p.mark? = some m) (rest : List Char) :
    MarkKind.all.findSome? (·.read? (p.written.toList ++ rest)) = some (m, rest) := by
  cases p with
  | text t => cases h
  | comment ofValue note =>
    cases h
    have hnote : '*' ∉ note.text.toList := fun hstar => by
      have := note.unmarked '*' hstar
      simp at this
    have hread := MarkKind.findSome?_read?_comment ofValue rest hnote
    cases ofValue <;> simpa [written] using hread
  | value v =>
    cases h
    have hread := MarkKind.findSome?_read?_value rest v.style_head v.style_chars v.isPath
      fun c hc hsign => v.path_chars hc (List.mem_append_left ['['] hsign)
    simpa [written] using hread
  | opening kind b =>
    cases h
    have hname : kind.name ∈ Mark.directiveNames := by
      cases kind <;> decide
    have hparam : Mark.Enclosed (' ' :: b.path.text.toList) :=
      .plain (by decide) (by decide) (.of_plain fun _ hc =>
        ⟨(b.path_chars hc).1, (b.path_chars hc).2.1⟩)
    have htrim : Text.trim (' ' :: b.path.text.toList) = b.path.text.toList := by
      rw [Text.trim_cons_blank _ (by decide), Text.trim_eq_self fun c hc => b.path_blank hc]
    have hread := MarkKind.findSome?_read?_directive kind.name _ rest hname (by rfl) hparam
    rw [htrim, String.ofList_toList] at hread
    simpa [written] using hread
  | divider =>
    cases h
    simpa [written] using MarkKind.findSome?_read?_directive "else" [] rest (by decide) (by decide)
      .nil
  | closing =>
    cases h
    simpa [written] using MarkKind.findSome?_read?_directive "end" [] rest (by decide) (by decide)
      .nil

/-- No piece is, or begins, a preamble. -/
theorem find?_written (p : Piece styles) {rest : List Char} (h : Preamble.find? rest = none) :
    Preamble.find? (p.written.toList ++ rest) = none := by
  cases p with
  | text t => exact Preamble.find?_append (fun hmem => (t.unmarked _ hmem).1 rfl) h
  | comment ofValue note =>
    have hnote : '[' ∉ note.text.toList := fun hmem => by
      have := note.unmarked '[' hmem
      simp at this
    cases ofValue with
    | false =>
      have hfind := Preamble.find?_bracket ('*' :: (note.text.toList ++ ['*', ']'])) (by simp)
        (by simp [hnote]) h
      simpa [written] using hfind
    | true => exact Preamble.find?_append (by simp [written, hnote]) h
  | value v =>
    have hpath : '[' ∉ v.path.text.toList := fun hmem => by
      have := v.path_chars hmem
      simp at this
    have hstyle : '[' ∉ v.style.name.toList := fun hmem => by
      have := v.style_chars _ hmem
      revert this
      decide
    exact Preamble.find?_append (by simp [written, hpath, hstyle]) h
  | opening kind b =>
    have hpath : '[' ∉ b.path.text.toList := fun hmem => (b.path_chars hmem).2.2 rfl
    have hfind : Preamble.find?
        ('[' :: ((kind.name.toList ++ ' ' :: (b.path.text.toList ++ [']'])) ++ rest)) = none := by
      cases kind with
      | condition | loop | use =>
        exact Preamble.find?_bracket _ (by rfl) (by simp [BranchKind.name, hpath]) h
    simpa [written] using hfind
  | divider =>
    simpa [written] using Preamble.find?_bracket "else]".toList (by simp) (by simp) h
  | closing => simpa [written] using Preamble.find?_bracket "end]".toList (by simp) (by simp) h

theorem written_ne_nil (p : Piece styles) : p.written.toList ≠ [] := by
  cases p with
  | text t => exact fun hempty => t.nonempty (String.toList_eq_nil_iff.1 hempty)
  | comment ofValue note => cases ofValue <;> simp [written]
  | value | opening | divider | closing => simp [written]

def size (p : Piece styles) : Nat := Text.utf8Length p.written.toList

/-- Pieces, one after the other. -/
def joined (ps : List (Piece styles)) : List Char := ps.flatMap (·.written.toList)

theorem joined_cons (p : Piece styles) (ps : List (Piece styles)) :
    joined (p :: ps) = p.written.toList ++ joined ps := List.flatMap_cons

/-- No two pieces that stand side by side are both text. -/
def Apart (ps : List (Piece styles)) : Prop :=
  ps.IsChain fun a b => ¬ (a.mark? = none ∧ b.mark? = none)

/-- The tokens of pieces of which the first begins at the byte `offset`. -/
def spans (offset : Nat) : List (Piece styles) → List Spanned
  | [] => []
  | p :: ps => ⟨p.token, offset, offset + p.size⟩ :: spans (offset + p.size) ps

theorem find?_joined (ps : List (Piece styles)) : Preamble.find? (joined ps) = none := by
  induction ps with
  | nil => rfl
  | cons p ps ih =>
    rw [joined_cons]
    exact p.find?_written ih

theorem earliest?_written {p : Piece styles} {m : Mark} (h : p.mark? = some m) (offset : Nat)
    (rest : List Char) :
    MarkKind.earliest? MarkKind.all ⟨offset, p.written.toList ++ rest⟩ =
      some ⟨⟨offset, p.written.toList ++ rest⟩, ⟨offset + p.size, rest⟩, m⟩ := by
  rw [MarkKind.earliest?_of_read (p.read_written h rest), Cursor.moveTo_append]
  rfl

/-- At a piece, its token is read, and nothing of what follows. -/
theorem ofPlace_written {p : Piece styles} {ps : List (Piece styles)} (h : Apart (p :: ps))
    (offset : Nat) :
    Token.ofPlace ⟨offset, joined (p :: ps)⟩
        (MarkKind.earliest? MarkKind.all ⟨offset, joined (p :: ps)⟩) =
      .ok (⟨p.token, offset, offset + p.size⟩, ⟨offset + p.size, joined ps⟩) := by
  rw [joined_cons]
  cases hm : p.mark? with
  | some m =>
    rw [earliest?_written hm]
    simp [Token.ofPlace, ofMark_token hm, Except.map]
  | none =>
    cases p with
    | text t =>
      have htext : t.text.toList ≠ [] := (text t : Piece styles).written_ne_nil
      simp only [written, MarkKind.earliest?_append MarkKind.all offset _ t.unmarked]
      cases ps with
      | nil =>
        rw [show joined ([] : List (Piece styles)) = [] from rfl, MarkKind.earliest?_nil,
          List.append_nil, Token.ofPlace_none, String.ofList_toList]
        rfl
      | cons q ps =>
        cases hq : q.mark? with
        | none => exact absurd ⟨hm, hq⟩ h.rel
        | some m =>
          rw [joined_cons, earliest?_written hq, Token.ofPlace_before _ _ _ _ htext,
            String.ofList_toList]
          rfl
    | comment | value | opening | divider | closing => cases hm

end Piece

/-- The scanner has read up to a place, looks for every kind of mark from there on, and has nothing
put back. -/
structure Scanner.StandsAt (s : Scanner) (c : Cursor) : Prop where
  here : s.here = c
  kinds : s.kinds = MarkKind.all
  pushed : s.pushed = none

theorem Scanner.standsAt_ofCursor (c : Cursor) : (ofCursor c).StandsAt c where
  here := rfl
  kinds := by simp [ofCursor, ofKinds, Scanner.kinds, Function.comp_def]
  pushed := rfl

theorem Scanner.standsAt_ofText_append (a b : String) :
    (ofText (a ++ b)).StandsAt ⟨0, a.toList ++ b.toList⟩ := by
  rw [ofText, Cursor.start, String.toList_append]
  exact standsAt_ofCursor _

theorem Scanner.StandsAt.step {s : Scanner} {c d : Cursor} {t : Spanned} (h : s.StandsAt c)
    (hc : c.rest ≠ []) (hplace : Token.ofPlace c (MarkKind.earliest? MarkKind.all c) = .ok (t, d)) :
    ∃ s', s.step = (.ok (some t), s') ∧ s'.StandsAt d := by
  rw [← h.here] at hc
  rw [← h.here, ← h.kinds] at hplace
  obtain ⟨hd, hstep⟩ := step_of_ok h.pushed hc hplace
  exact ⟨_, hstep, rfl, by simp [h.kinds], by simp [h.pushed]⟩

/-- A scanner of pieces reads their tokens. -/
theorem Piece.reads_spans {styles : EscapeTable} {ps : List (Piece styles)} {s : Scanner}
    {offset : Nat} (hapart : Apart ps) (h : s.StandsAt ⟨offset, joined ps⟩) :
    Reads s (spans offset ps) none := by
  induction ps generalizing s offset with
  | nil => exact .ended (Scanner.step_of_end h.pushed (by rw [h.here]; rfl))
  | cons p ps ih =>
    have hsome : joined (p :: ps) ≠ [] := by
      rw [joined_cons]
      exact List.append_ne_nil_of_left_ne_nil p.written_ne_nil _
    obtain ⟨s', hstep, hs'⟩ := h.step hsome (ofPlace_written hapart offset)
    exact .token hstep (ih hapart.tail hs')

end TextTemplate
