import TextTemplate.Proofs.Parameter.Written
import TextTemplate.Proofs.Template.Single

/-! Calls of functions that are written out are read back, whatever their literals hold. -/

namespace TextTemplate

namespace Parameter

/-- The parameter as it stands in a call: a literal in quotes, and null as an empty place. -/
def written : Parameter → String
  | literal text => String.ofList (ParameterToken.inQuotes text.toList)
  | datum path => path.text
  | null => ""

/-- The token at the place of the parameter, which is none at an empty place. -/
def tokens : Parameter → List ParameterToken
  | literal text => [.quoted text]
  | datum path => [.word path.text]
  | null => []

end Parameter

namespace ApplyCall

/-- The call, with a comma between one place and the next. -/
def argument (c : ApplyCall) : String :=
  (match c.out with
    | some out => out.text ++ " = "
    | none => "") ++
  c.function.text ++ "(" ++ ", ".intercalate (c.parameters.map Parameter.written) ++ ")"

/-- The call as a directive. -/
def written (c : ApplyCall) : String := "[apply " ++ c.argument ++ "]"

/-- The paths of the call have letters and digits of ASCII and underscores, as words do, and the
places can be told from what is written. -/
structure Writable (c : ApplyCall) : Prop where
  function : c.function.Over Text.isNameChar
  out : ∀ path ∈ c.out, path.Over Text.isNameChar
  data : ∀ path, .datum path ∈ c.parameters → path.Over Text.isNameChar
  /-- Between parentheses, one empty place is no place. -/
  places : c.parameters ≠ [.null]

def placeTokens (ps : List Parameter) : List ParameterToken :=
  [.comma].intercalate (ps.map Parameter.tokens)

def tokens (c : ApplyCall) : List ParameterToken :=
  (match c.out with
    | some out => [.word out.text, .equals]
    | none => []) ++
  .word c.function.text :: .opening :: (placeTokens c.parameters ++ [.closing])

end ApplyCall

/-! ### The tokens of a call -/

theorem ParameterToken.isWordStart_of_isNameChar {c : Char} (h : Text.isNameChar c = true) :
    isWordStart c = true := by
  simp only [Text.isNameChar, Bool.or_eq_true, beq_iff_eq] at h
  rcases h with h | rfl
  · rw [isWordStart, h, Bool.true_or]
  · decide

section
variable {path : DataPath} (h : path.Over Text.isNameChar)
include h

/-- A path is one word. -/
theorem DataPath.Over.legible : (ParameterToken.word path.text).Legible := by
  constructor
  · have hhead := h.head_text
    cases hc : path.text.toList.head? with
    | none => simp [hc] at hhead
    | some c =>
      rw [hc] at hhead
      exact ParameterToken.isWordStart_of_isNameChar hhead
  · apply List.all_eq_true.2
    intro c hc
    rcases h.of_mem_text hc with hname | rfl
    · rw [ParameterToken.isWordPart, ParameterToken.isWordStart_of_isNameChar hname, Bool.true_or,
        Bool.true_or]
    · decide

theorem DataPath.Over.enclosed : Mark.Enclosed path.text.toList := by
  apply Mark.Enclosed.of_plain
  intro c hc
  rcases h.of_mem_text hc with hname | rfl
  · constructor <;>
      rintro rfl <;>
      revert hname <;>
      decide
  · decide

end

namespace ApplyCall
open ParameterToken (Spells)

theorem spells_place {p : Parameter} {c : Char} {cs : List Char} {ts : List ParameterToken}
    (hp : ∀ path, p = .datum path → path.Over Text.isNameChar)
    (hword : ParameterToken.isWordPart c = false) (hquote : c ≠ '\'')
    (hrest : Spells (c :: cs) ts) :
    Spells (p.written.toList ++ c :: cs) (p.tokens ++ ts) := by
  have hends (t : ParameterToken) : t.EndsBefore (c :: cs) := t.endsBefore_cons cs hword hquote
  cases p with
  | literal text =>
    rw [Parameter.written, String.toList_ofList]
    exact .token (t := .quoted text) trivial (hends _) hrest
  | datum path => exact .token (t := .word path.text) (hp path rfl).legible (hends _) hrest
  | null => exact hrest

/-- The places, up to the closing parenthesis. -/
theorem spells_places {ps : List Parameter}
    (hps : ∀ path, .datum path ∈ ps → path.Over Text.isNameChar) {cs : List Char}
    {ts : List ParameterToken} (hrest : Spells (')' :: cs) ts) :
    Spells ((", ".intercalate (ps.map Parameter.written)).toList ++ ')' :: cs)
      (placeTokens ps ++ ts) := by
  rw [String.toList_intercalate, List.map_map, placeTokens]
  induction ps with
  | nil => exact hrest
  | cons p ps ih =>
    have hp : ∀ path, p = .datum path → path.Over Text.isNameChar := fun path hpath =>
      hps path (by simp [hpath])
    cases ps with
    | nil => simpa using spells_place hp (by decide) (by decide) hrest
    | cons q ps =>
      have hmore := ih fun path hpath => hps path (List.mem_cons_of_mem _ hpath)
      have hcomma := Spells.token (t := .comma) trivial trivial (.gap (c := ' ') (by decide) hmore)
      simpa [List.intercalate_cons_cons] using spells_place hp (by decide) (by decide) hcomma

theorem Writable.spells {c : ApplyCall} (h : c.Writable) : Spells c.argument.toList c.tokens := by
  have hclosing : Spells [')'] [.closing] := .token (t := .closing) trivial trivial .nil
  have hopening := Spells.token (t := .opening) trivial trivial (spells_places h.data hclosing)
  have hfunction := Spells.token h.function.legible
    (ParameterToken.endsBefore_cons _ _ (by decide) (by decide)) hopening
  unfold argument tokens
  cases hout : c.out with
  | none => simpa [ParameterToken.written] using hfunction
  | some out =>
    have hequals := Spells.token (t := .equals) trivial trivial
      (.gap (c := ' ') (by decide) hfunction)
    have hword := Spells.token (h.out out hout).legible
      (ParameterToken.endsBefore_cons _ _ (by decide) (by decide))
      (.gap (c := ' ') (by decide) hequals)
    simpa [ParameterToken.written] using hword

/-- What the current place holds once the parameter is read. -/
def held : Parameter → Option Parameter
  | .null => none
  | p => some p

theorem readParameters_tokens {p : Parameter}
    (hp : ∀ path, p = .datum path → path.Over Text.isNameChar) (separated : Bool)
    (rest : List ParameterToken) :
    readParameters none separated (p.tokens ++ rest) = readParameters (held p) separated rest := by
  cases p with
  | literal text => rfl
  | datum path =>
    simp only [Parameter.tokens, List.cons_append, List.nil_append, readParameters,
      (hp path rfl).ofText_name, held]
  | null => rfl

theorem held_getD (p : Parameter) : (held p).getD .null = p := by
  cases p <;> rfl

/-- The places are read back one by one. At the last one, only a comma before it tells an empty
place from no place. -/
theorem readParameters_placeTokens {p : Parameter} {ps : List Parameter} {separated : Bool}
    (hps : ∀ path, .datum path ∈ p :: ps → path.Over Text.isNameChar)
    (hplaces : separated = true ∨ p :: ps ≠ [.null]) (rest : List ParameterToken) :
    readParameters none separated (placeTokens (p :: ps) ++ .closing :: rest) =
      .ok (p :: ps, rest) := by
  have hp : ∀ path, p = .datum path → path.Over Text.isNameChar := fun path hpath =>
    hps path (by simp [hpath])
  induction ps generalizing p separated with
  | nil =>
    have hlast : ((held p).isSome || separated) = true := by
      rcases hplaces with rfl | hnull
      · exact Bool.or_true _
      · cases p with
        | null => exact absurd rfl hnull
        | literal | datum => rfl
    rw [placeTokens, List.map_singleton, List.intercalate_singleton, readParameters_tokens hp,
      readParameters, if_pos hlast, held_getD]
  | cons q ps ih =>
    have hmore : readParameters none true (placeTokens (q :: ps) ++ .closing :: rest) =
        .ok (q :: ps, rest) :=
      ih (fun path hpath => hps path (List.mem_cons_of_mem _ hpath)) (.inl rfl) fun path hpath =>
        hps path (by simp [hpath])
    rw [placeTokens, List.map_cons, List.map_cons, List.intercalate_cons_cons, ← List.map_cons,
      ← placeTokens, List.append_assoc, List.append_assoc, readParameters_tokens hp,
      List.singleton_append, readParameters, hmore, held_getD]
    rfl

theorem Writable.ofTokens_tokens {c : ApplyCall} (h : c.Writable) : ofTokens c.tokens = .ok c := by
  have hparameters : readParameters none false (placeTokens c.parameters ++ [.closing]) =
      .ok (c.parameters, []) := by
    cases hps : c.parameters with
    | nil => rfl
    | cons p ps => exact readParameters_placeTokens (hps ▸ h.data) (.inr (hps ▸ h.places)) []
  have harguments : readArguments (.opening :: (placeTokens c.parameters ++ [.closing])) =
      .ok c.parameters := by
    rw [readArguments, hparameters]
  obtain ⟨function, out, parameters⟩ := c
  cases out with
  | none =>
    simp only [tokens, List.nil_append, ofTokens, harguments, Except.map, h.function.ofText_name]
  | some out =>
    simp only [tokens, List.cons_append, List.nil_append, ofTokens, harguments, Except.map,
      h.function.ofText_name, (h.out out rfl).ofText_name]

/-- The parameter of the directive is read as the call. -/
theorem Writable.ofText_argument {c : ApplyCall} (h : c.Writable) : ofText c.argument = .ok c := by
  obtain ⟨placed, hread, htokens⟩ := h.spells.readAll 0
  have htext : ParameterToken.ofText c.argument = .ok placed := hread
  rw [ofText, htext]
  simp only [htokens, h.ofTokens_tokens]

/-! ### The directive -/

theorem enclosed_places {ps : List Parameter}
    (hps : ∀ path, .datum path ∈ ps → path.Over Text.isNameChar) :
    Mark.Enclosed (", ".intercalate (ps.map Parameter.written)).toList := by
  have hplace (p : Parameter) (hp : p ∈ ps) : Mark.Enclosed p.written.toList := by
    cases p with
    | literal text =>
      rw [Parameter.written, String.toList_ofList]
      exact ParameterToken.enclosed_inQuotes text.toList
    | datum path => exact (hps path hp).enclosed
    | null => exact .nil
  clear hps
  rw [String.toList_intercalate, List.map_map]
  induction ps with
  | nil => exact .nil
  | cons p ps ih =>
    obtain ⟨hp, hmore⟩ := List.forall_mem_cons.1 hplace
    cases ps with
    | nil => simpa using hp
    | cons q ps =>
      have hcomma : Mark.Enclosed ", ".toList := .of_plain (by simp)
      rw [List.map_cons, List.map_cons, List.intercalate_cons_cons]
      exact (hp.append hcomma).append (ih hmore)

theorem Writable.enclosed {c : ApplyCall} (h : c.Writable) : Mark.Enclosed c.argument.toList := by
  have hparentheses : Mark.Enclosed
      ('(' :: ((", ".intercalate (c.parameters.map Parameter.written)).toList ++ [')'])) :=
    .plain (by decide) (by decide) ((enclosed_places h.data).append (.of_plain (by simp)))
  have hcall := h.function.enclosed.append hparentheses
  unfold argument
  cases hout : c.out with
  | none => simpa using hcall
  | some out =>
    have hequals : Mark.Enclosed " = ".toList := .of_plain (by simp)
    simpa using (h.out out hout).enclosed.append (hequals.append hcall)

/-- No blanks stand around the call: it begins with a path and ends with a parenthesis. -/
theorem Writable.trim_argument {c : ApplyCall} (h : c.Writable) :
    Text.trim c.argument.toList = c.argument.toList := by
  have hbegins {path : DataPath} (hpath : path.Over Text.isNameChar) (rest : List Char) :
      (path.text.toList ++ rest).head?.any Text.isBlank = false := by
    have hhead := hpath.head_text
    cases hchars : path.text.toList with
    | nil => simp [hchars] at hhead
    | cons first more =>
      rw [hchars] at hhead
      exact Text.isBlank_of_isNameChar hhead
  apply Text.trim_eq_self_iff.2
  constructor
  · unfold argument
    simp only [String.toList_append, List.append_assoc]
    cases hout : c.out with
    | none => exact hbegins h.function _
    | some out =>
      rw [String.toList_append, List.append_assoc]
      exact hbegins (h.out out hout) _
  · have hlast : c.argument.toList.getLast? = some ')' := by
      rw [argument, String.toList_append]
      exact List.getLast?_concat
    rw [hlast]
    rfl

theorem Writable.reads_written {c : ApplyCall} (h : c.Writable) :
    Reads (.ofText c.written)
      [⟨.directive "apply" c.argument, 0, Text.utf8Length c.written.toList⟩] none := by
  have hwritten : c.written.toList =
      '[' :: ("apply".toList ++ (' ' :: c.argument.toList ++ [']'])) := by simp [written]
  have hread := MarkKind.findSome?_read?_directive "apply" (' ' :: c.argument.toList) []
    (by decide) (by rfl) (.plain (by decide) (by decide) h.enclosed)
  rw [Text.trim_cons_blank _ (by decide), h.trim_argument, String.ofList_toList, ← hwritten]
    at hread
  apply Scanner.reads_single hread
  have hstop := Cursor.moveTo_append 0 c.written.toList []
  rw [List.append_nil, Nat.zero_add] at hstop
  simp only [Token.ofMark, Cursor.start, hstop]

/-- A call that is written as a directive is one token. If nothing in it sets what holds for the
whole template, it compiles to the one block that calls this function with these parameters. -/
theorem written_read_back {c : ApplyCall} (h : c.Writable) :
    (Scanner.ofText c.written).tokens =
      ([⟨.directive "apply" c.argument, 0, Text.utf8Length c.written.toList⟩], none) ∧
    ∀ {ctx : TemplateContext} {d : Defaults}, Defaults.initial ctx .none = .ok d →
      Preamble.find? c.written.toList = none →
        Template.ofText ctx c.written =
          .ok ⟨ctx.id.shown, [.apply c.function c.out c.parameters]⟩ := by
  refine ⟨h.reads_written.eq_tokens, fun {ctx d} hdefaults hpreamble => ?_⟩
  have hblock : Block.ofToken ctx d (.directive "apply" c.argument) =
      .ok (.apply c.function c.out c.parameters, d) := by
    simp only [Block.ofToken, Block.ofApply, h.ofText_argument, Except.map]
  rw [Template.ofText_single hpreamble h.reads_written rfl, hdefaults]
  simp only [Except.bind, hblock]
  rfl

/-- Literals with brackets, quotes, signs of calls, a line break and a directive, between empty
places. -/
theorem written_read_back_directive_in_literal :
    let c : ApplyCall := ⟨⟨["text", "join"]⟩, some ⟨["out", "0"]⟩,
      [.null, .literal "it's ]\x7d, f(", .datum ⟨["x_1"]⟩, .literal "'\n[end]", .null]⟩
    let ctx : TemplateContext := ⟨.source ⟨[], "t"⟩ .root none "none", .standard, ".txt"⟩
    c.written = "[apply out.0 = text.join(, 'it''s ]\x7d, f(', x_1, '''\n[end]', )]" ∧ c.Writable ∧
    (Scanner.ofText c.written).tokens =
      ([⟨.directive "apply" c.argument, 0, Text.utf8Length c.written.toList⟩], none) ∧
    Template.ofText ctx c.written =
      .ok ⟨ctx.id.shown, [.apply c.function c.out c.parameters]⟩ := by
  intro c ctx
  have hwritable : c.Writable := ⟨by decide, by decide, by simp [c]; decide, by decide⟩
  have hdefaults : Defaults.initial ctx .none = .ok ⟨none, .none⟩ := Defaults.initial_standard ..
  obtain ⟨htokens, hcompiled⟩ := written_read_back hwritable
  exact ⟨by decide, hwritable, htokens, hcompiled hdefaults (by decide)⟩

end ApplyCall

end TextTemplate
