import TextTemplate.Scan.Mark

/-! What values and the heads of here-documents have in common: a style or none, a path, and what
braces can hold. -/

namespace TextTemplate.Mark

/-- A kind with a comma after it, or nothing. -/
def kindText : Option String → String
  | some kind => kind ++ ","
  | none => ""

variable {style : Option String} {cs path rest : List Char}

theorem not_mem_of_isStyleChar (h : ∀ c ∈ cs, isStyleChar c = true) {sign : Char}
    (hsign : isStyleChar sign = false) : sign ∉ cs := fun hmem => by
  rw [h sign hmem] at hsign
  cases hsign

theorem isBlank_of_isStyleChar {c : Char} (h : isStyleChar c = true) : Text.isBlank c = false := by
  simp only [isStyleChar, Bool.or_eq_true, beq_iff_eq] at h
  rcases h with (h | rfl) | rfl
  · exact Text.isBlank_of_isNameChar h
  · decide
  · decide

theorem isStyleChar_of_isNameChar {c : Char} (h : Text.isNameChar c = true) :
    isStyleChar c = true := by
  rw [isStyleChar, h, Bool.true_or, Bool.true_or]

theorem isStyleChar_of_isName (h : Text.isName cs = true) : ∀ c ∈ cs, isStyleChar c = true :=
  fun _ hc => isStyleChar_of_isNameChar (Text.isNameChar_of_mem h hc)

/-- Text that braces can hold. -/
def Unbraced (cs : List Char) : Prop := ∀ c ∈ cs, c ≠ '{' ∧ c ≠ '}'

@[simp] theorem unbraced_nil : Unbraced [] := nofun

@[simp] theorem unbraced_cons {c : Char} :
    Unbraced (c :: cs) ↔ (c ≠ '{' ∧ c ≠ '}') ∧ Unbraced cs := List.forall_mem_cons

@[simp] theorem unbraced_append {a b : List Char} :
    Unbraced (a ++ b) ↔ Unbraced a ∧ Unbraced b := List.forall_mem_append

theorem unbraced_of_isStyleChar (h : ∀ c ∈ cs, isStyleChar c = true) : Unbraced cs := by
  intro c hc
  constructor <;>
    rintro rfl <;>
    exact not_mem_of_isStyleChar h (by decide) hc

theorem trimEnd_path (h : ∀ c ∈ path, isStyleChar c = true) : Text.trimEnd path = path := by
  apply Text.trimEnd_eq_self
  cases hlast : path.getLast? with
  | none => rfl
  | some c => exact isBlank_of_isStyleChar (h c (List.mem_of_getLast? hlast))

theorem splitComma?_eq_none (h : ∀ c ∈ cs, isStyleChar c = true) : splitComma? cs = none := by
  apply Text.splitFirst?_eq_none
  intro c hc
  rw [decide_eq_false_iff_not]
  rintro rfl
  exact not_mem_of_isStyleChar h (by decide) hc

theorem splitComma?_append (h : ∀ c ∈ cs, isStyleChar c = true) (rest : List Char) :
    splitComma? (cs ++ ',' :: rest) = some (cs, rest) := by
  apply Text.splitFirst?_append rest
  · intro c hc
    rw [decide_eq_false_iff_not]
    rintro rfl
    exact not_mem_of_isStyleChar h (by decide) hc
  · decide

theorem readStyle_append {name : List Char} (rest : List Char)
    (hhead : name.head?.any Char.isAlpha = true) (hname : ∀ c ∈ name, isStyleChar c = true) :
    readStyle (name ++ ':' :: rest) = (some (String.ofList name), rest) := by
  have hcolon : (':' :: rest).head?.any isStyleChar = false := by rfl
  have htake := Text.takeWhile_append hname hcolon
  have hdrop := Text.dropWhile_append hname hcolon
  simp only [readStyle, htake, hdrop, hhead, ↓reduceIte]

theorem readBraced_append {inner : List Char} (rest : List Char) (h : Unbraced inner) :
    readBraced (inner ++ '}' :: rest) = some (inner, rest) := by
  have hopening : inner.contains '{' = false := by
    rw [Bool.eq_false_iff]
    intro hmem
    exact (h '{' (List.contains_iff_mem.1 hmem)).1 rfl
  have hclosing : ∀ c ∈ inner, decide (c = '}') = false := fun c hc => by simp [(h c hc).2]
  rw [readBraced, Text.splitFirst?_append rest hclosing (by simp),
    Option.filter_some_pos (by simp only [hopening, Bool.not_false])]

/-- Where no colon follows, there is no style. -/
theorem readStyle_eq_none (hcs : ∀ c ∈ cs, isStyleChar c = true)
    (hrest : rest.head?.any (fun c => isStyleChar c || c == ':') = false) :
    readStyle (cs ++ rest) = (none, cs ++ rest) := by
  have hstop : rest.head?.any isStyleChar = false := by
    cases rest with
    | nil => rfl
    | cons c rest => exact (Bool.or_eq_false_iff.1 hrest).1
  simp only [readStyle, Text.dropWhile_append hcs hstop]
  split
  · simp at hrest
  · rfl

/-- Arrows in a text stand after all that has none. -/
theorem arrows_of_append {a cs : List Char} (ha : '>' ∉ a) (harrows : ['>', '>'] <:+: a ++ cs) :
    ['>', '>'] <:+: cs := by
  induction a with
  | nil => exact harrows
  | cons x a ih =>
    simp only [List.mem_cons, not_or] at ha
    rcases List.infix_cons_iff.1 harrows with hlead | hinfix
    · exact absurd (List.cons_prefix_cons.1 hlead).1 ha.1
    · exact ih ha.2 hinfix

/-- Braces hold no here-document unless a name follows the last arrows in them. -/
theorem readHereDocument_eq_none {inner : List Char}
    (hstyle : readStyle cs = (style, inner ++ '}' :: rest)) (hbraces : Unbraced inner)
    (harrows : ∀ before marker, inner = before ++ '>' :: '>' :: marker →
      Text.isName (Text.trim marker) = false) : readHereDocument ('{' :: cs) = none := by
  simp only [readHereDocument, hstyle, readBraced_append rest hbraces, Option.bind_some]
  cases hsplit : Text.splitAtText? ['>', '>'] inner.reverse with
  | none => rfl
  | some parts =>
    have hinner := congrArg List.reverse (Text.splitAtText?_eq_append hsplit)
    have hmarker := harrows parts.2.reverse parts.1.reverse (by simpa using hinner)
    simp only [Option.bind_some, hmarker, Bool.false_eq_true, ↓reduceIte]
    cases readHead parts.2.reverse <;> rfl

theorem readHereDocument_of_head {parts marker : List Char} {path kind styles : Option String}
    (hstyle : readStyle cs = (style, parts ++ '>' :: '>' :: (marker ++ '}' :: rest)))
    (hbraces : Unbraced parts) (hmarker : Text.isName marker = true)
    (hhead : readHead parts = some (path, kind, styles)) :
    readHereDocument ('{' :: cs) =
      some (hereDocument style path kind styles (String.ofList marker), rest) := by
  have hchars := isStyleChar_of_isName hmarker
  have hinner : Unbraced (parts ++ '>' :: '>' :: marker) := by
    simp [hbraces, unbraced_of_isStyleChar hchars]
  have hsplit : Text.splitAtText? ['>', '>'] (parts ++ '>' :: '>' :: marker).reverse =
      some (marker.reverse, parts.reverse) := by
    have hplain : '>' ∉ marker.reverse := by
      rw [List.mem_reverse]
      exact not_mem_of_isStyleChar hchars (by decide)
    simpa using Text.splitAtText?_append ['>'] parts.reverse hplain
  have htrim : Text.trim marker = marker :=
    Text.trim_eq_self fun c hc => isBlank_of_isStyleChar (hchars c hc)
  have hstyle' : readStyle cs = (style, (parts ++ '>' :: '>' :: marker) ++ '}' :: rest) := by
    simpa using hstyle
  simp only [readHereDocument, hstyle', readBraced_append rest hinner, Option.bind_some, hsplit,
    List.reverse_reverse, hhead, htrim, hmarker, ↓reduceIte]

section
variable (hpath : isPath path = true) (hchars : ∀ c ∈ path, isStyleChar c = true)
include hpath hchars

/-- A value with more in its braces than a path. -/
theorem readValue_extra {extra : List Char}
    (hstyle : readStyle cs = (style, path ++ ',' :: (extra ++ '}' :: rest)))
    (hbraces : Unbraced extra) :
    readValue ('{' :: cs) =
      some (value style (String.ofList path) (some (String.ofList extra)), rest) := by
  have hinner : Unbraced (path ++ ',' :: extra) := by
    simp [hbraces, unbraced_of_isStyleChar hchars]
  have hcomma := splitComma?_append hchars extra
  have htrim : Text.trimEnd path = path := trimEnd_path hchars
  have hstyle' : readStyle cs = (style, (path ++ ',' :: extra) ++ '}' :: rest) := by
    simpa using hstyle
  simp only [readValue, hstyle', readBraced_append rest hinner, Option.bind_some, hcomma, htrim,
    hpath, ↓reduceIte]

/-- A path with a comma after it, and maybe a kind with another. -/
theorem readHead_append {kind : Option String} (hkind : ∀ k ∈ kind, Text.isName k.toList = true) :
    readHead (path ++ ',' :: (kindText kind).toList) =
      some (some (String.ofList path), kind, none) := by
  have hend (cs : List Char) : (Text.trimEnd (cs ++ [','])).reverse = ',' :: cs.reverse := by
    rw [Text.trimEnd_eq_self, List.reverse_concat]
    rw [List.getLast?_concat]
    decide
  have htrim : Text.trimEnd path = path := trimEnd_path hchars
  cases kind with
  | none =>
    have hnone := splitComma?_eq_none hchars
    have hinner := hend path
    have htext : (kindText none).toList = [] := rfl
    rw [htext, readHead]
    · simp only [hinner, List.reverse_reverse, hnone, Option.map_none, htrim, hpath,
        Option.all_none, Bool.and_true, ↓reduceIte]
    · simp
  | some k =>
    have hname := hkind k rfl
    have hkindChars := isStyleChar_of_isName hname
    have hsplit := splitComma?_append hchars k.toList
    have hnone := splitComma?_eq_none hkindChars
    have hkindTrim : Text.trim k.toList = k.toList :=
      Text.trim_eq_self fun c hc => isBlank_of_isStyleChar (hkindChars c hc)
    have hinner := hend (path ++ ',' :: k.toList)
    have htext : (kindText (some k)).toList = k.toList ++ [','] := by simp [kindText]
    rw [List.append_assoc, List.cons_append] at hinner
    rw [htext, readHead]
    · simp only [hinner, List.reverse_reverse, hsplit, Option.map_some, hnone, hkindTrim, htrim,
        hpath, hname, Option.all_some, Option.map_none, Bool.and_self, ↓reduceIte,
        String.ofList_toList]
    · simp

end

end TextTemplate.Mark
