import Mathlib.Logic.Relation
import TextTemplate.Pattern.Reference

/-! What a pattern text means whose references stand for other pattern texts: each reference is a
group that holds the expansion of the text that it stands for. No memory takes part in this. -/

namespace TextTemplate

namespace PatternPart

/-- The names that the parts refer to, in order. -/
def names : List PatternPart → List String
  | [] => []
  | .char _ :: rest => names rest
  | .reference name :: rest => String.ofList name :: names rest

/-- The names that a pattern text refers to, in order. -/
def references (text : String) : List String := names (ofChars text.toList)

/-! ### Reading references -/

/-- A name in braces, as it follows a percent sign. -/
def braced (name : List Char) : List Char := '{' :: (name ++ ['}'])

theorem readName?_eq_some_iff {cs name rest : List Char} :
    readName? cs = some (name, rest) ↔ Text.isName name = true ∧ cs = braced name ++ rest := by
  constructor
  · intro h
    unfold readName? at h
    split at h
    · next inner =>
      simp only at h
      have hsplit := List.takeWhile_append_dropWhile (p := Text.isNameChar) (l := inner)
      split at h
      · next hrest =>
        split at h
        · next hname =>
          cases h
          rw [hrest] at hsplit
          refine ⟨hname, ?_⟩
          calc '{' :: inner
              = '{' :: (inner.takeWhile Text.isNameChar ++ '}' :: rest) := by rw [hsplit]
            _ = braced (inner.takeWhile Text.isNameChar) ++ rest := by simp [braced]
        · cases h
      · cases h
    · cases h
  · rintro ⟨hname, rfl⟩
    have hchars : ∀ c ∈ name, Text.isNameChar c = true := fun c hc =>
      Text.isNameChar_of_mem hname hc
    have hend : ('}' :: rest).head?.any Text.isNameChar = false := rfl
    have hbraced : braced name ++ rest = '{' :: (name ++ '}' :: rest) := by simp [braced]
    simp only [hbraced, readName?, Text.takeWhile_append hchars hend,
      Text.dropWhile_append hchars hend, hname, if_true]

/-- No parentheses stand in a reference. -/
theorem ne_of_mem_braced {name : List Char} (h : Text.isName name = true) {c : Char}
    (hc : c ∈ braced name) : c ≠ '(' ∧ c ≠ ')' := by
  have hcases : c = '{' ∨ c ∈ name ∨ c = '}' := by simpa [braced] using hc
  rcases hcases with rfl | hname | rfl
  · decide
  · have hchar := Text.isNameChar_of_mem h hname
    constructor <;> rintro rfl <;> exact absurd hchar (by decide)
  · decide

theorem ofChars_eq_char {cs : List Char} {c : Char} {rest : List PatternPart}
    (h : ofChars cs = .char c :: rest) :
    ∃ tail, cs = c :: tail ∧ ofChars tail = rest ∧ (c = '%' → readName? tail = none) := by
  rw [ofChars.eq_def] at h
  split at h
  · cases h
  · split at h
    · cases h
    · next hnone =>
      cases h
      exact ⟨_, rfl, rfl, fun _ => hnone⟩
  · next hne =>
    cases h
    exact ⟨_, rfl, rfl, fun hpercent => absurd hpercent hne⟩

theorem ofChars_eq_reference {cs name : List Char} {rest : List PatternPart}
    (h : ofChars cs = .reference name :: rest) :
    ∃ tail after, cs = '%' :: tail ∧ readName? tail = some (name, after) ∧
      ofChars after = rest := by
  rw [ofChars.eq_def] at h
  split at h
  · cases h
  · split at h
    · next hread =>
      cases h
      exact ⟨_, _, rfl, hread, rfl⟩
    · cases h
  · cases h

/-- A text without references. -/
def IsFree : List Char → Prop
  | [] => True
  | c :: cs => (c = '%' → readName? cs = none) ∧ IsFree cs

theorem names_ofChars_of_isFree {cs : List Char} (h : IsFree cs) : names (ofChars cs) = [] := by
  fun_induction ofChars cs with
  | case1 => rfl
  | case2 cs name rest hread _ =>
    have hnone := h.1 rfl
    rw [hread] at hnone
    cases hnone
  | case3 cs _ ih => exact ih h.2
  | case4 c cs _ ih => exact ih h.2

/-- A closing parenthesis keeps apart what stands on both sides of it. -/
theorem readName?_append_closing {a : List Char} (b : List Char) (h : readName? a = none) :
    readName? (a ++ ')' :: b) = none := by
  rw [Option.eq_none_iff_forall_ne_some]
  rintro ⟨name, rest⟩ hsome
  obtain ⟨hname, heq⟩ := readName?_eq_some_iff.1 hsome
  rcases List.append_eq_append_iff.1 heq with ⟨m, hbraced, hb⟩ | ⟨m, ha, -⟩
  · cases m with
    | nil =>
      have hread : readName? a = some (name, []) :=
        readName?_eq_some_iff.2 ⟨hname, by simpa using hbraced.symm⟩
      rw [h] at hread
      cases hread
    | cons x m =>
      cases hb
      have hmem : ')' ∈ braced name := by
        rw [hbraced]
        exact List.mem_append_right _ List.mem_cons_self
      exact (ne_of_mem_braced hname hmem).2 rfl
  · have hread : readName? a = some (name, m) := readName?_eq_some_iff.2 ⟨hname, ha⟩
    rw [h] at hread
    cases hread

theorem IsFree.append_closing {a b : List Char} (ha : IsFree a) (hb : IsFree b) :
    IsFree (a ++ ')' :: b) := by
  induction a with
  | nil => exact ⟨nofun, hb⟩
  | cons c a ih => exact ⟨fun hc => readName?_append_closing b (ha.1 hc), ih ha.2⟩

end PatternPart

/-- Full recursive substitution: what parts of a pattern text come to if each reference is replaced
by a group with the expansion of the text that `find` gives for its name. -/
inductive Expands (find : String → Option String) : List PatternPart → List Char → Prop where
  | nil : Expands find [] []
  | char {c rest text} : Expands find rest text → Expands find (.char c :: rest) (c :: text)
  | reference {name raw inner rest text} : find (String.ofList name) = some raw →
      Expands find (PatternPart.ofChars raw.toList) inner → Expands find rest text →
      Expands find (.reference name :: rest) ('(' :: '?' :: ':' :: (inner ++ ')' :: text))

/-- The text that `find` gives for a name refers to another. -/
def Refers (find : String → Option String) (name other : String) : Prop :=
  ∃ raw, find name = some raw ∧ other ∈ PatternPart.references raw

open PatternPart Relation

/-- Where references come to an end, none of them leads back. -/
theorem not_transGen_of_acc {find : String → Option String} {name : String}
    (h : Acc (Function.swap (Refers find)) name) : ¬ TransGen (Refers find) name name := by
  rw [← transGen_swap]
  have hpaths := h.transGen
  clear h
  intro hcycle
  induction hpaths with
  | intro name _ ih => exact ih name hcycle hcycle

namespace Expands

variable {find : String → Option String} {parts : List PatternPart} {text other : List Char}

/-- There is one expansion at most. -/
theorem unique (h : Expands find parts text) (hother : Expands find parts other) :
    text = other := by
  induction h generalizing other with
  | nil =>
    cases hother
    rfl
  | char _ ih =>
    cases hother with
    | char hrest => rw [ih hrest]
  | reference hfind _ _ ihInner ihRest =>
    cases hother with
    | reference hfind' hinner hrest =>
      cases hfind.symm.trans hfind'
      rw [ihInner hinner, ihRest hrest]

/-- What has an expansion refers to nothing that leads back to itself: from its names, references
lead downwards and come to an end. -/
theorem acc (h : Expands find parts text) :
    ∀ name ∈ names parts, (find name).isSome ∧ Acc (Function.swap (Refers find)) name := by
  induction h with
  | nil => exact nofun
  | char _ ih => exact ih
  | @reference name raw _ _ _ hfind _ _ ihInner ihRest =>
    intro other hother
    rcases List.mem_cons.1 hother with rfl | hrest
    · refine ⟨by rw [hfind]; rfl, Acc.intro _ ?_⟩
      rintro next ⟨raw', hraw, hnext⟩
      cases hfind.symm.trans hraw
      exact (ihInner next hnext).2
    · exact ihRest other hrest

/-- What follows an expansion up to the first parenthesis follows the text, too. -/
theorem exists_append {cs lead rest : List Char} (h : Expands find (ofChars cs) (lead ++ rest))
    (hlead : ∀ c ∈ lead, c ≠ '(') : ∃ tail, cs = lead ++ tail := by
  induction lead generalizing cs with
  | nil => exact ⟨cs, rfl⟩
  | cons x lead ih =>
    obtain ⟨hx, hlead⟩ := List.forall_mem_cons.1 hlead
    generalize hparts : ofChars cs = parts at h
    generalize htext : x :: lead ++ rest = text at h
    cases h with
    | nil => cases htext
    | char hrest =>
      cases htext
      obtain ⟨tail, rfl, rfl, -⟩ := ofChars_eq_char hparts
      obtain ⟨tail', rfl⟩ := ih hrest hlead
      exact ⟨tail', rfl⟩
    | reference => exact absurd (List.cons.inj htext).1 hx

/-- No reference is left in an expansion, nor does one come up where its pieces meet. -/
theorem isFree {cs : List Char} (h : Expands find (ofChars cs) text) : IsFree text := by
  generalize hparts : ofChars cs = parts at h
  induction h generalizing cs with
  | nil => trivial
  | @char c rest text hrest ih =>
    obtain ⟨tail, -, rfl, hpercent⟩ := ofChars_eq_char hparts
    refine ⟨fun hc => ?_, ih rfl⟩
    rw [Option.eq_none_iff_forall_ne_some]
    rintro ⟨name, after⟩ hsome
    obtain ⟨hname, rfl⟩ := readName?_eq_some_iff.1 hsome
    obtain ⟨tail', rfl⟩ := exists_append hrest fun c hc => (ne_of_mem_braced hname hc).1
    have hread := readName?_eq_some_iff.2 ⟨hname, rfl (a := braced name ++ tail')⟩
    rw [hpercent hc] at hread
    cases hread
  | @reference name raw inner rest text _ _ _ ihInner ihRest =>
    obtain ⟨_, after, -, -, rfl⟩ := ofChars_eq_reference hparts
    have hgroup : IsFree (inner ++ ')' :: text) := (ihInner rfl).append_closing (ihRest rfl)
    exact ⟨nofun, nofun, nofun, hgroup⟩

end Expands

end TextTemplate
