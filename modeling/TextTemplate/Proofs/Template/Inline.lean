import TextTemplate.Proofs.Scan.Terminator
import TextTemplate.Proofs.Template.Preamble
import TextTemplate.Proofs.Template.Single

/-! A value has its style or its fallback in its braces or in the body of a here-document, and
compiles to the same block. -/

namespace TextTemplate

/-! ### Bodies -/

/-- What stands around the body of a here-document, but for the head. -/
structure BodyFrame where
  marker : String
  named : Text.isName marker.toList = true
  lineBreak : String
  breaks : lineBreak = "\n" ∨ lineBreak = "\r\n"

namespace BodyFrame
variable (f : BodyFrame)

/-- The body in its frame, from the arrows on. -/
def around (body : String) : String :=
  ">>" ++ f.marker ++ "\x7d" ++ f.lineBreak ++ body ++ "\x7b" ++ f.marker ++ "\x7d"

def closing : List Char := '{' :: (f.marker.toList ++ ['}'])

/-- What follows the head of the here-document. -/
def tail (body : String) : List Char := f.lineBreak.toList ++ (body.toList ++ f.closing)

/-- A body without braces ends where its frame does. -/
theorem ofMark_tail (start : Cursor) (n : Nat) (style path kind styles : Option String)
    {body : String} (hbody : '{' ∉ body.toList) :
    Token.ofMark ⟨start, ⟨n, f.tail body⟩, .hereDocument style path kind styles f.marker⟩ =
      .ok (.hereDocument style path kind styles body (n + Text.utf8Length f.lineBreak.toList),
        ⟨n + Text.utf8Length (f.tail body), []⟩) := by
  have hskip : Text.skipLineBreak (f.tail body) = body.toList ++ f.closing := by
    rcases f.breaks with hbreak | hbreak <;> rw [tail, hbreak] <;> rfl
  have hopen : ¬ Token.HasTerminator f.marker.toList body.toList := by
    rintro ⟨t, ht, hinside⟩
    obtain ⟨_, rfl, _⟩ := ht.eq_cons f.named
    exact hbody (hinside.subset List.mem_cons_self)
  have hterminator : Token.IsTerminator f.marker.toList f.closing :=
    ⟨[], [], by simp, by simp, rfl⟩
  have hsplit := Token.splitTerminator?_append [] f.named hopen hterminator
  rw [List.append_nil] at hsplit
  have hbegun : Cursor.moveTo ⟨n, f.tail body⟩ (body.toList ++ f.closing) =
      ⟨n + Text.utf8Length f.lineBreak.toList, body.toList ++ f.closing⟩ :=
    Cursor.moveTo_append n f.lineBreak.toList _
  have hend (m : Nat) (cs : List Char) :
      Cursor.moveTo ⟨m, cs⟩ [] = ⟨m + Text.utf8Length cs, []⟩ := by
    simpa using Cursor.moveTo_append m cs []
  have hlength : n + Text.utf8Length f.lineBreak.toList +
      Text.utf8Length (body.toList ++ f.closing) = n + Text.utf8Length (f.tail body) := by
    rw [tail, Text.utf8Length_append f.lineBreak.toList, Nat.add_assoc]
  simp only [Token.ofMark, hskip, hbegun, hsplit, hend, hlength, String.ofList_toList]

end BodyFrame

/-! ### Blocks -/

/-- Of the kinds with one style, a blank one is as good as none. -/
theorem Format.compile_nil {kind : String} (h : kind ≠ "datetime") :
    compile kind [] = compile kind [""] := by
  unfold compile
  cases hmost : mostStyles? kind with
  | none => rfl
  | some most =>
    unfold mostStyles? at hmost
    split at hmost
    · exact absurd rfl h
    all_goals cases hmost
    all_goals rfl

namespace Block
variable {ctx : TemplateContext} {d : Defaults} {style : Option String}

/-- All that follows the kind is its style. -/
theorem ofFormat_styles {kind : String} {cs : List Char} (path : DataPath) (escape : EscapeStyle)
    (hkind : kind ≠ "datetime") (htrim : Text.trim cs = cs) :
    ofFormat path escape kind (styles kind cs) = ofFormat path escape kind [String.ofList cs] := by
  rw [styles, htrim]
  cases cs with
  | nil =>
    simp only [ofFormat, Format.compile_nil hkind, String.ofList_nil]
  | cons c cs => simp only [if_neg hkind]

theorem kept_of_ofFormat {path : DataPath} {escape : EscapeStyle} {kind : String}
    {styles : List String} {b : Block} (hb : ofFormat path escape kind styles = .ok b) :
    Layout.kept [b] = [b] := by
  unfold ofFormat at hb
  split at hb <;> cases hb
  rfl

/-- No blanks stand around a kind and a style if none stand around the style. -/
theorem trim_kind {kind cs : List Char} (hkind : Text.isName kind = true)
    (htrim : Text.trim cs = cs) : Text.trim (kind ++ ',' :: cs) = kind ++ ',' :: cs := by
  have hchars := Mark.isStyleChar_of_isName hkind
  apply Text.trim_eq_self_iff.2
  constructor
  · cases kind with
    | nil => rfl
    | cons c kind => exact Mark.isBlank_of_isStyleChar (hchars c List.mem_cons_self)
  · rw [List.getLast?_append_of_ne_nil _ (List.cons_ne_nil _ _)]
    cases cs with
    | nil => decide
    | cons c cs =>
      rw [List.getLast?_cons_cons]
      exact (Text.trim_eq_self_iff.1 htrim).2

theorem ofValue_styled (path : String) {kind s : String}
    (hkind : Text.isName kind.toList = true) (hne : kind ≠ "datetime")
    (htrim : Text.trim s.toList = s.toList) :
    ofValue ctx d style path (some (kind ++ "," ++ s)) =
      (d.style ctx style).bind fun escape => ofFormat (.ofText path) escape kind [s] := by
  obtain ⟨first, more, hchars⟩ : ∃ first more, kind.toList = first :: more := by
    apply List.exists_cons_of_ne_nil
    intro hnil
    rw [hnil] at hkind
    cases hkind
  have hplain := Mark.isStyleChar_of_isName hkind
  have hquote : first ≠ '\'' := by
    have hout : '\'' ∉ kind.toList := Mark.not_mem_of_isStyleChar hplain (by decide)
    rintro rfl
    exact hout (by simp [hchars])
  have hrest : (kind ++ "," ++ s).toList = kind.toList ++ ',' :: s.toList := by simp
  have htrimRest := trim_kind hkind htrim
  have hsplit : Text.splitFirst? (· = ',') (kind.toList ++ ',' :: s.toList) =
      some (kind.toList, s.toList) := Mark.splitComma?_append hplain s.toList
  have hkindTrim : Text.trim kind.toList = kind.toList :=
    Text.trim_eq_self fun c hc => Mark.isBlank_of_isStyleChar (hplain c hc)
  cases hstyle : d.style ctx style with
  | error fault => simp [ofValue, hstyle, bind, Except.bind]
  | ok escape =>
    have hformat := ofFormat_styles (.ofText path) escape hne htrim
    rw [hchars, List.cons_append] at htrimRest hsplit
    rw [hchars, List.cons_append] at hrest
    simp only [ofValue, hstyle, bind, Except.bind, Option.getD_some, hrest, htrimRest]
    split
    · rename_i hnil
      cases hnil
    · rename_i hcons
      exact absurd (List.cons.inj hcons).1 hquote
    · simp only [hsplit, ← hchars, String.ofList_toList, hkindTrim, hformat]

/-- A text in quotes is the fallback that it stands for. -/
theorem fallback_inQuotes (text : String) :
    fallback (String.ofList (ParameterToken.inQuotes text.toList)) = .ok text := by
  have hspells : ParameterToken.Spells (ParameterToken.inQuotes text.toList) [.quoted text] := by
    have hends : (ParameterToken.quoted text).EndsBefore [] := nofun
    have htoken := ParameterToken.Spells.token (t := .quoted text) trivial hends .nil
    rwa [List.append_nil] at htoken
  obtain ⟨placed, hread, htokens⟩ := hspells.readAll 0
  have htext : ParameterToken.ofText (String.ofList (ParameterToken.inQuotes text.toList)) =
      .ok placed := by
    rw [← hread, ParameterToken.ofText, Cursor.start, String.toList_ofList]
  obtain ⟨⟨t, start, stop⟩, rfl, rfl⟩ := List.map_eq_singleton_iff.1 htokens
  rw [fallback, htext]

theorem trim_inQuotes (cs : List Char) :
    Text.trim (ParameterToken.inQuotes cs) = ParameterToken.inQuotes cs := by
  apply Text.trim_eq_self_iff.2
  constructor
  · rfl
  · have hlast : (ParameterToken.inQuotes cs).getLast? = some '\'' := by
      rw [ParameterToken.inQuotes, ← List.cons_append, List.getLast?_concat]
    rw [hlast]
    decide

theorem ofValue_fallback (path text : String) :
    ofValue ctx d style path (some (String.ofList (ParameterToken.inQuotes text.toList))) =
      (d.style ctx style).bind fun escape => .ok (.value (.ofText path) escape (some text)) := by
  cases hstyle : d.style ctx style with
  | error fault => simp [ofValue, hstyle, bind, Except.bind]
  | ok escape =>
    have hfallback := fallback_inQuotes text
    rw [ParameterToken.inQuotes] at hfallback
    simp only [ofValue, hstyle, bind, Except.bind, Option.getD_some, String.toList_ofList,
      trim_inQuotes]
    simp only [ParameterToken.inQuotes, hfallback, Except.map]

end Block

/-! ### Values -/

/-- An escape style, or none, and the path of a value. -/
structure ValueHead where
  style : Option String
  path : DataPath
  styled : ∀ name ∈ style, name.toList.head?.any Char.isAlpha = true ∧
    ∀ c ∈ name.toList, Mark.isStyleChar c = true
  spelled : path.Over Text.isNameChar
  named : path.segments.head?.any (Text.isName ·.toList) = true

/-- A style that braces can hold next to a path and a kind, and that nothing else is read in. -/
structure InlineStyle (s : String) : Prop where
  unbraced : Mark.Unbraced s.toList
  arrowless : ¬ ['>', '>'] <:+: s.toList
  trimmed : Text.trim s.toList = s.toList
  plain : Preamble.find? s.toList = none

namespace ValueHead
variable (h : ValueHead)

def written : String :=
  (match h.style with
    | some name => name ++ ":"
    | none => "") ++ h.path.text

/-- The value with all the rest in its braces. -/
def inline (rest : String) : String := "\x7b" ++ h.written ++ "," ++ rest ++ "\x7d"

def inlineStyle (kind s : String) : String := h.inline (kind ++ "," ++ s)

def inlineFallback (t : String) : String :=
  h.inline (String.ofList (ParameterToken.inQuotes t.toList))

/-- The value as the head of a here-document, with a kind or none. -/
def hereDocument (kind : Option String) (f : BodyFrame) (body : String) : String :=
  "\x7b" ++ h.written ++ "," ++ Mark.kindText kind ++ f.around body

/-- What a text of this one value compiles to, where `block` is its block in an escape style. -/
def compiled (ctx : TemplateContext) (block : EscapeStyle → Except ParseFault Block) :
    Except ParseError Template :=
  match (Defaults.initial ctx .none).bind fun d => (d.style ctx h.style).bind block with
  | .ok b => .ok ⟨ctx.id.shown, [b]⟩
  | .error fault => .error ⟨ctx.id.shown, fault, ⟨1, 1⟩⟩

theorem path_chars : ∀ c ∈ h.path.text.toList, Mark.isStyleChar c = true := by
  intro c hc
  rcases h.spelled.of_mem_text hc with hname | rfl
  · exact Mark.isStyleChar_of_isNameChar hname
  · decide

theorem isPath : Mark.isPath h.path.text.toList = true := h.spelled.isPath h.named

theorem readStyle_written (rest : List Char) :
    Mark.readStyle (h.written.toList ++ ',' :: rest) =
      (h.style, h.path.text.toList ++ ',' :: rest) := by
  cases hstyle : h.style with
  | none =>
    have hwritten : h.written = h.path.text := by simp [written, hstyle]
    rw [hwritten]
    exact Mark.readStyle_eq_none h.path_chars (by rfl)
  | some name =>
    obtain ⟨hhead, hchars⟩ := h.styled name hstyle
    have hread := Mark.readStyle_append (h.path.text.toList ++ ',' :: rest) hhead hchars
    simpa [written, hstyle] using hread

theorem not_mem_written {sign : Char} (hsign : Mark.isStyleChar sign = false)
    (hcolon : sign ≠ ':') : sign ∉ h.written.toList := by
  have hpath := Mark.not_mem_of_isStyleChar h.path_chars hsign
  cases hstyle : h.style with
  | none => simpa [written, hstyle] using hpath
  | some name =>
    have hname := Mark.not_mem_of_isStyleChar (h.styled name hstyle).2 hsign
    simp [written, hstyle, hname, hcolon, hpath]

theorem head?_written (rest : List Char) : (h.written.toList ++ ',' :: rest).head? ≠ some '*' := by
  have hstar : '*' ∉ h.written.toList := h.not_mem_written (by decide) (by decide)
  cases hchars : h.written.toList with
  | nil => simp
  | cons c cs =>
    rw [hchars] at hstar
    simpa using fun heq => hstar (by simp [heq])

/-- Where the braces hold no here-document, the value is one token. -/
theorem reads_inline {rest : String} (hbraces : Mark.Unbraced rest.toList)
    (harrows : Mark.readHereDocument (h.inline rest).toList = none) :
    Reads (.ofText (h.inline rest)) [⟨.value h.style h.path.text (some rest), 0,
      Text.utf8Length (h.inline rest).toList⟩] none := by
  have htext : (h.inline rest).toList =
      '{' :: (h.written.toList ++ ',' :: (rest.toList ++ ['}'])) := by simp [inline]
  have hstyle := h.readStyle_written (rest.toList ++ ['}'])
  have hread := Mark.readValue_extra h.isPath h.path_chars hstyle hbraces
  rw [htext] at harrows
  have hmark := MarkKind.findSome?_read?_brace (h.head?_written _) harrows
  rw [hread, ← htext, String.ofList_toList, String.ofList_toList] at hmark
  apply Scanner.reads_single hmark
  have hstop := Cursor.moveTo_append 0 (h.inline rest).toList []
  rw [List.append_nil, Nat.zero_add] at hstop
  simp only [Token.ofMark, Cursor.start, hstop]

theorem unbraced_kindText {kind : Option String} (hkind : ∀ k ∈ kind, Text.isName k.toList = true) :
    Mark.Unbraced (h.path.text.toList ++ ',' :: (Mark.kindText kind).toList) := by
  have hpath := Mark.unbraced_of_isStyleChar h.path_chars
  cases kind with
  | none => simp [Mark.kindText, hpath]
  | some k =>
    have hname := Mark.unbraced_of_isStyleChar (Mark.isStyleChar_of_isName (hkind k rfl))
    simp [Mark.kindText, hpath, hname]

/-- The head of the here-document, with its braces. -/
def head (kind : Option String) (f : BodyFrame) : List Char :=
  '{' :: (h.written.toList ++ ',' :: ((Mark.kindText kind).toList ++
    '>' :: '>' :: (f.marker.toList ++ ['}'])))

theorem toList_hereDocument (kind : Option String) (f : BodyFrame) (body : String) :
    (h.hereDocument kind f body).toList = h.head kind f ++ f.tail body := by
  simp [hereDocument, BodyFrame.around, BodyFrame.tail, BodyFrame.closing, head]

theorem read_head {kind : Option String} (f : BodyFrame) (rest : List Char)
    (hkind : ∀ k ∈ kind, Text.isName k.toList = true) :
    MarkKind.all.findSome? (·.read? (h.head kind f ++ rest)) =
      some (.hereDocument h.style h.path.text kind none f.marker, rest) := by
  let arrows := '>' :: '>' :: (f.marker.toList ++ '}' :: rest)
  have htext : h.head kind f ++ rest =
      '{' :: (h.written.toList ++ ',' :: ((Mark.kindText kind).toList ++ arrows)) := by
    simp [head, arrows]
  have hstyle : Mark.readStyle
      (h.written.toList ++ ',' :: ((Mark.kindText kind).toList ++ arrows)) =
      (h.style, (h.path.text.toList ++ ',' :: (Mark.kindText kind).toList) ++ arrows) := by
    rw [h.readStyle_written, List.append_assoc, List.cons_append]
  have hhead := Mark.readHead_append h.isPath h.path_chars hkind
  have hread := Mark.readHereDocument_of_head hstyle (h.unbraced_kindText hkind) f.named hhead
  have hmark := MarkKind.findSome?_read?_of_readHereDocument (h.head?_written _) hread
  rwa [← htext, String.ofList_toList, String.ofList_toList] at hmark

/-- The here-document is one token with its body in it. -/
theorem reads_hereDocument {kind : Option String} (f : BodyFrame) {body : String}
    (hkind : ∀ k ∈ kind, Text.isName k.toList = true) (hbody : '{' ∉ body.toList) :
    ∃ bodyStart, Reads (.ofText (h.hereDocument kind f body))
      [⟨.hereDocument h.style h.path.text kind none body bodyStart, 0,
        Text.utf8Length (h.hereDocument kind f body).toList⟩] none := by
  have htext := h.toList_hereDocument kind f body
  have hmark := h.read_head f (f.tail body) hkind
  have hstart : (Cursor.start (h.hereDocument kind f body)).moveTo (f.tail body) =
      ⟨Text.utf8Length (h.head kind f), f.tail body⟩ := by
    have hmove := Cursor.moveTo_append 0 (h.head kind f) (f.tail body)
    rwa [Nat.zero_add, ← htext] at hmove
  have htoken := f.ofMark_tail (Cursor.start (h.hereDocument kind f body))
    (Text.utf8Length (h.head kind f)) h.style (some h.path.text) kind none hbody
  have hlength : Text.utf8Length (h.head kind f) + Text.utf8Length (f.tail body) =
      Text.utf8Length (h.hereDocument kind f body).toList := by
    rw [htext, Text.utf8Length_append]
  rw [hlength, ← hstart] at htoken
  rw [← htext] at hmark
  exact ⟨_, Scanner.reads_single hmark htoken⟩

/-- A text of one value compiles to its block, unless an escape style is unknown. -/
theorem ofText_compiled {ctx : TemplateContext} {text : String} {token : Token} {stop : Nat}
    {block : EscapeStyle → Except ParseFault Block} (hpreamble : Preamble.find? text.toList = none)
    (hreads : Reads (.ofText text) [⟨token, 0, stop⟩] none) (hrole : token.role = .stands)
    (htoken : ∀ d, Block.ofToken ctx d token = ((d.style ctx h.style).bind block).map (·, d))
    (hkept : ∀ escape b, block escape = .ok b → Layout.kept [b] = [b]) :
    Template.ofText ctx text = h.compiled ctx block := by
  rw [Template.ofText_single hpreamble hreads hrole, compiled]
  cases Defaults.initial ctx .none with
  | error fault => rfl
  | ok d =>
    simp only [Except.bind, htoken]
    cases d.style ctx h.style with
    | error fault => rfl
    | ok escape =>
      simp only
      cases hblock : block escape with
      | error fault => rfl
      | ok b => simp only [Except.map, hkept escape b hblock]

/-! ### Two forms -/

variable (ctx : TemplateContext)

/-- Where the body of a here-document holds no preamble, the whole has none. -/
theorem find?_hereDocument {kind : Option String} (f : BodyFrame) {body : String}
    (hkind : ∀ k ∈ kind, Text.isName k.toList = true)
    (hbody : Preamble.find? body.toList = none) :
    Preamble.find? (h.hereDocument kind f body).toList = none := by
  have hwritten : '[' ∉ h.written.toList := h.not_mem_written (by decide) (by decide)
  have hmarker {sign : Char} (hsign : Mark.isStyleChar sign = false) : sign ∉ f.marker.toList :=
    Mark.not_mem_of_isStyleChar (Mark.isStyleChar_of_isName f.named) hsign
  have hopening : '[' ∉ f.marker.toList := hmarker (by decide)
  have hclosing : ']' ∉ f.marker.toList := hmarker (by decide)
  have hkindText : '[' ∉ (Mark.kindText kind).toList := by
    cases kind with
    | none => nofun
    | some k =>
      have hname : '[' ∉ k.toList :=
        Mark.not_mem_of_isStyleChar (Mark.isStyleChar_of_isName (hkind k rfl)) (by decide)
      simp [Mark.kindText, hname]
  have hbreak : '[' ∉ f.lineBreak.toList := by
    rcases f.breaks with hbreak | hbreak <;> rw [hbreak] <;> decide
  rw [toList_hereDocument, BodyFrame.tail, ← List.append_assoc]
  apply Preamble.find?_around _ hbody
  · simp [BodyFrame.closing, hclosing]
  · simp [head, hwritten, hkindText, hopening, hbreak]

theorem ofText_hereDocument {kind : Option String} (f : BodyFrame) {body : String}
    (hkind : ∀ k ∈ kind, Text.isName k.toList = true) (hbraces : '{' ∉ body.toList)
    (hbody : Preamble.find? body.toList = none) :
    Template.ofText ctx (h.hereDocument kind f body) = h.compiled ctx fun escape =>
      match kind with
      | some kind => Block.ofFormat h.path escape kind [body]
      | none => .ok (.value h.path escape (some body)) := by
  obtain ⟨bodyStart, hreads⟩ := h.reads_hereDocument f hkind hbraces
  apply h.ofText_compiled (h.find?_hereDocument f hkind hbody) hreads rfl
  · intro d
    cases kind with
    | none =>
      simp only [Block.ofToken, Block.ofHereDocument, h.spelled.ofText_name]
      cases d.style ctx h.style <;> rfl
    | some kind =>
      simp only [Block.ofToken, Block.ofHereDocument, h.spelled.ofText_name]
      cases d.style ctx h.style <;> rfl
  · intro escape b hb
    cases kind with
    | none =>
      cases hb
      rfl
    | some kind => exact Block.kept_of_ofFormat hb

theorem readHereDocument_inlineStyle {kind s : String} (hkind : Text.isName kind.toList = true)
    (hs : InlineStyle s) : Mark.readHereDocument (h.inlineStyle kind s).toList = none := by
  have hkindChars := Mark.isStyleChar_of_isName hkind
  have htext : (h.inlineStyle kind s).toList =
      '{' :: (h.written.toList ++ ',' :: (kind.toList ++ ',' :: (s.toList ++ ['}']))) := by
    simp [inlineStyle, inline]
  have hstyle := h.readStyle_written (kind.toList ++ ',' :: (s.toList ++ ['}']))
  have hinner : h.path.text.toList ++ ',' :: (kind.toList ++ ',' :: (s.toList ++ ['}'])) =
      (h.path.text.toList ++ ',' :: (kind.toList ++ [','])) ++ s.toList ++ ['}'] := by simp
  rw [hinner] at hstyle
  rw [htext]
  apply Mark.readHereDocument_eq_none hstyle
  · have hpath := Mark.unbraced_of_isStyleChar h.path_chars
    have hname := Mark.unbraced_of_isStyleChar hkindChars
    simp [hpath, hname, hs.unbraced]
  · intro before marker hsplit
    have harrows : ['>', '>'] <:+:
        (h.path.text.toList ++ ',' :: (kind.toList ++ [','])) ++ s.toList :=
      ⟨before, marker, by simp [hsplit]⟩
    have hpath : '>' ∉ h.path.text.toList := Mark.not_mem_of_isStyleChar h.path_chars (by decide)
    have hname : '>' ∉ kind.toList := Mark.not_mem_of_isStyleChar hkindChars (by decide)
    exact absurd (Mark.arrows_of_append (by simp [hpath, hname]) harrows) hs.arrowless

/-- After the last arrows there is the closing quote, and so no name. -/
theorem readHereDocument_inlineFallback {t : String} (ht : Mark.Unbraced t.toList) :
    Mark.readHereDocument (h.inlineFallback t).toList = none := by
  have htext : (h.inlineFallback t).toList =
      '{' :: (h.written.toList ++ ',' :: (ParameterToken.inQuotes t.toList ++ ['}'])) := by
    simp [inlineFallback, inline]
  have hstyle := h.readStyle_written (ParameterToken.inQuotes t.toList ++ ['}'])
  have hinner : h.path.text.toList ++ ',' :: (ParameterToken.inQuotes t.toList ++ ['}']) =
      (h.path.text.toList ++ ',' :: ParameterToken.inQuotes t.toList) ++ ['}'] := by simp
  rw [hinner] at hstyle
  rw [htext]
  apply Mark.readHereDocument_eq_none hstyle
  · simp [Mark.unbraced_of_isStyleChar h.path_chars, ParameterToken.unbraced_inQuotes ht]
  · intro before marker hsplit
    have hquote : '\'' ∈ marker := by
      have hlast := congrArg List.getLast? hsplit
      rw [ParameterToken.inQuotes, ← List.cons_append, ← List.cons_append, ← List.append_assoc,
        List.getLast?_concat] at hlast
      cases hmarker : marker with
      | nil => simp [hmarker] at hlast
      | cons c cs =>
        apply List.mem_of_getLast?
        rw [hlast, hmarker]
        simp [List.getLast?_append, List.getLast?_cons]
    rw [Bool.eq_false_iff]
    intro hname
    have htrimmed := Text.mem_trim hquote (by decide)
    exact Mark.not_mem_of_isStyleChar (Mark.isStyleChar_of_isName hname) (by decide) htrimmed

theorem ofText_inlineStyle {kind s : String} (hkind : Text.isName kind.toList = true)
    (hne : kind ≠ "datetime") (hs : InlineStyle s) :
    Template.ofText ctx (h.inlineStyle kind s) =
      h.compiled ctx fun escape => Block.ofFormat h.path escape kind [s] := by
  have hkindChars := Mark.isStyleChar_of_isName hkind
  have htext : (h.inlineStyle kind s).toList =
      ('{' :: (h.written.toList ++ ',' :: (kind.toList ++ [',']))) ++ (s.toList ++ ['}']) := by
    simp [inlineStyle, inline]
  have hbraces : Mark.Unbraced (kind ++ "," ++ s).toList := by
    simp [Mark.unbraced_of_isStyleChar hkindChars, hs.unbraced]
  have hplain : Preamble.find? (h.inlineStyle kind s).toList = none := by
    have hwritten : '[' ∉ h.written.toList := h.not_mem_written (by decide) (by decide)
    have hname : '[' ∉ kind.toList := Mark.not_mem_of_isStyleChar hkindChars (by decide)
    rw [htext]
    apply Preamble.find?_around _ hs.plain (by decide)
    simp [hwritten, hname]
  have harrows := h.readHereDocument_inlineStyle hkind hs
  apply h.ofText_compiled hplain (h.reads_inline hbraces harrows) rfl
  · intro d
    simp only [Block.ofToken, Block.ofValue_styled _ hkind hne hs.trimmed, h.spelled.ofText_name]
  · intro escape b hb
    exact Block.kept_of_ofFormat hb

theorem ofText_inlineFallback {t : String} (ht : Mark.Unbraced t.toList)
    (hplain : Preamble.find? (h.inlineFallback t).toList = none) :
    Template.ofText ctx (h.inlineFallback t) =
      h.compiled ctx fun escape => .ok (.value h.path escape (some t)) := by
  have hbraces : Mark.Unbraced (String.ofList (ParameterToken.inQuotes t.toList)).toList := by
    rw [String.toList_ofList]
    exact ParameterToken.unbraced_inQuotes ht
  have harrows := h.readHereDocument_inlineFallback ht
  apply h.ofText_compiled hplain (h.reads_inline hbraces harrows) rfl
  · intro d
    simp only [Block.ofToken, Block.ofValue_fallback, h.spelled.ofText_name]
  · intro escape b hb
    cases hb
    rfl

/-- If a fallback in its quotes gives no preamble, it holds none. -/
theorem find?_of_inlineFallback {t : String}
    (hplain : Preamble.find? (h.inlineFallback t).toList = none) :
    Preamble.find? t.toList = none := by
  have htext : (h.inlineFallback t).toList = ('{' :: (h.written.toList ++ [',', '\''])) ++
      (ParameterToken.doubled t.toList ++ ['\'', '}']) := by
    simp [inlineFallback, inline, ParameterToken.inQuotes]
  rw [htext] at hplain
  exact Preamble.find?_of_doubled (Preamble.find?_of_append hplain)

/-- A style, or a fallback, may stand in the braces of a value or in the body of a here-document:
both compile to the same, where the fallback in its quotes gives no preamble. -/
theorem inline_eq_hereDocument (f : BodyFrame) :
    (∀ kind s : String, Text.isName kind.toList = true → kind ≠ "datetime" → InlineStyle s →
      Template.ofText ctx (h.inlineStyle kind s) =
        Template.ofText ctx (h.hereDocument (some kind) f s) ∧
      Template.ofText ctx (h.inlineStyle kind s) =
        h.compiled ctx fun escape => Block.ofFormat h.path escape kind [s]) ∧
    ∀ t : String, Mark.Unbraced t.toList → Preamble.find? (h.inlineFallback t).toList = none →
      Template.ofText ctx (h.inlineFallback t) = Template.ofText ctx (h.hereDocument none f t) ∧
      Template.ofText ctx (h.inlineFallback t) =
        h.compiled ctx fun escape => .ok (.value h.path escape (some t)) := by
  have hopening {cs : List Char} (hcs : Mark.Unbraced cs) : '{' ∉ cs := fun hmem =>
    (hcs _ hmem).1 rfl
  constructor
  · intro kind s hkind hne hs
    have hnamed : ∀ k ∈ some kind, Text.isName k.toList = true := by simpa using hkind
    have hinline := h.ofText_inlineStyle ctx hkind hne hs
    have hbody := h.ofText_hereDocument ctx f hnamed (hopening hs.unbraced) hs.plain
    exact ⟨hinline.trans hbody.symm, hinline⟩
  · intro t ht hplain
    have hnamed : ∀ k ∈ (none : Option String), Text.isName k.toList = true := nofun
    have hinline := h.ofText_inlineFallback ctx ht hplain
    have hbody := h.ofText_hereDocument ctx f hnamed (hopening ht)
      (h.find?_of_inlineFallback hplain)
    exact ⟨hinline.trans hbody.symm, hinline⟩

/-- A pattern with commas, and a fallback with quotes, arrows and a directive. -/
theorem inline_eq_hereDocument_commas_and_quotes :
    let ctx : TemplateContext := ⟨.source ⟨[], "t"⟩ .root none "none", .standard, ".txt"⟩
    let h : ValueHead := ⟨none, ⟨["a", "0"]⟩, nofun, by decide, by decide⟩
    let f : BodyFrame := ⟨"END", by decide, "\r\n", .inr rfl⟩
    h.inlineStyle "number" "#,##0.00" = "\x7ba.0,number,#,##0.00\x7d" ∧
    h.hereDocument (some "number") f "#,##0.00" =
      "\x7ba.0,number,>>END\x7d\r\n#,##0.00\x7bEND\x7d" ∧
    Template.ofText ctx (h.inlineStyle "number" "#,##0.00") =
      Template.ofText ctx (h.hereDocument (some "number") f "#,##0.00") ∧
    h.inlineFallback "it's [if] >>END" = "\x7ba.0,'it''s [if] >>END'\x7d" ∧
    Template.ofText ctx (h.inlineFallback "it's [if] >>END") =
      .ok ⟨ctx.id.shown, [.value h.path .none (some "it's [if] >>END")]⟩ := by
  intro ctx h f
  have hdefaults : Defaults.initial ctx .none = .ok ⟨none, .none⟩ := Defaults.initial_standard ..
  obtain ⟨hstyle, hfallback⟩ := h.inline_eq_hereDocument ctx f
  have hpattern : InlineStyle "#,##0.00" :=
    ⟨by simp [Mark.Unbraced], by decide +kernel, by decide +kernel, by decide +kernel⟩
  obtain ⟨hsame, _⟩ := hstyle "number" "#,##0.00" (by decide) (by decide) hpattern
  have htext : h.inlineFallback "it's [if] >>END" = "\x7ba.0,'it''s [if] >>END'\x7d" := by decide
  have hunbraced : Mark.Unbraced "it's [if] >>END".toList := by simp [Mark.Unbraced]
  obtain ⟨_, hcompiled⟩ := hfallback "it's [if] >>END" hunbraced (by rw [htext]; decide +kernel)
  refine ⟨by decide, by decide, hsame, htext, ?_⟩
  rw [hcompiled, compiled, hdefaults]
  rfl

/-- Doubled, an open quote is a closed one, and so the text in quotes may hold a preamble that the
text itself does not hold. -/
theorem inline_ne_hereDocument_open_quote :
    let ctx : TemplateContext := ⟨.source ⟨[], "t"⟩ .root none "none", .standard, ".txt"⟩
    let h : ValueHead := ⟨none, ⟨["p"]⟩, nofun, by decide, by decide⟩
    let f : BodyFrame := ⟨"M", by decide, "\n", .inl rfl⟩
    let t := "[global 'x]"
    Mark.Unbraced t.toList ∧ Preamble.find? t.toList = none ∧
    Template.ofText ctx (h.inlineFallback t) =
      .error ⟨ctx.id.shown, .preamble (.settings (.unexpected (.quoted ""))), ⟨1, 5⟩⟩ ∧
    Template.ofText ctx (h.hereDocument none f t) =
      .ok ⟨ctx.id.shown, [.value h.path .none (some t)]⟩ := by
  intro ctx h f t
  have hdefaults : Defaults.initial ctx .none = .ok ⟨none, .none⟩ := Defaults.initial_standard ..
  have hplain : Preamble.find? t.toList = none := by decide +kernel
  have hunbraced : Mark.Unbraced t.toList := by simp [t, Mark.Unbraced]
  refine ⟨hunbraced, hplain, ?_, ?_⟩
  · have htext : h.inlineFallback t = "\x7bp,'[global ''x]'\x7d" := by decide
    have hfound : Preamble.find? "\x7bp,'[global ''x]'\x7d".toList =
        some ⟨"\x7bp,'".toList, false, "''x".toList, "[global ''x]'\x7d".toList, "'\x7d".toList⟩ :=
      rfl
    have hends : (ParameterToken.quoted "").EndsBefore ['x'] := nofun
    have hspells : ParameterToken.Spells "''x".toList [.quoted "", .word "x"] :=
      .token (t := .quoted "") trivial hends
        (.token (t := .word "x") ⟨by decide, by decide⟩ rfl .nil)
    obtain ⟨placed, hread, htokens⟩ := hspells.readAll 0
    have hparameter : ParameterToken.ofText (String.ofList "''x".toList) = .ok placed := hread
    have hsettings : Setting.ofText (String.ofList "''x".toList) =
        .error (.unexpected (.quoted "")) := by
      rw [Setting.ofText, hparameter]
      simp only [htokens]
      rfl
    have hfault : Preamble.ofParameter "''x".toList =
        .error (.settings (.unexpected (.quoted ""))) := by
      rw [Preamble.ofParameter, hsettings]
    have hprepared := Prepared.ofText_of_fault hfound rfl hfault
    rw [htext, Template.ofText, hprepared]
    rfl
  · have hkind : ∀ k ∈ (none : Option String), Text.isName k.toList = true := nofun
    have hopening : '{' ∉ t.toList := by decide
    rw [h.ofText_hereDocument ctx f hkind hopening hplain, compiled, hdefaults]
    rfl

end ValueHead

end TextTemplate
