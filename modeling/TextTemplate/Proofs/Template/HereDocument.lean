import TextTemplate.Proofs.Scan.Terminator
import TextTemplate.Proofs.Template.Pieces
import TextTemplate.Proofs.Template.Shift
import TextTemplate.Render.Basic

/-! Here-documents without a path are text: their bodies come out as they were written, whatever
stands in them. -/

namespace TextTemplate

/-- The head of a here-document without a path, in a style that is always there. -/
structure HereHead (styles : EscapeTable) where
  style : EscapeStyle
  builtin : (style.name, style.escaper) ∈ EscapeTable.builtins
  known : styles.find? style.name = some style
  marker : String
  named : Text.isName marker.toList = true

/-- Every style that is always there may stand in a head, if none was put in its place. -/
def HereHead.standard {name : String} {escaper : Escaper}
    (builtin : (name, escaper) ∈ EscapeTable.builtins) (marker : String)
    (named : Text.isName marker.toList = true) : HereHead .standard :=
  ⟨⟨name, escaper⟩, builtin, EscapeTable.find?_builtin builtin, marker, named⟩

/-- A here-document whose body holds no terminator of its marker. -/
structure HereText (styles : EscapeTable) extends HereHead styles where
  lineBreak : String
  breaks : lineBreak = "\n" ∨ lineBreak = "\r\n"
  body : String
  unclosed : ¬ Token.HasTerminator marker.toList body.toList

namespace HereHead
variable {styles : EscapeTable} (h : HereHead styles)

def written : String := "\x7b" ++ h.style.name ++ ":>>" ++ h.marker ++ "\x7d"

def mark : Mark := .hereDocument (some h.style.name) none none none h.marker

theorem read_written (rest : List Char) :
    MarkKind.all.findSome? (·.read? (h.written.toList ++ rest)) = some (h.mark, rest) := by
  have hname : h.style.name ∈ EscapeTable.builtins.map (·.1) := List.mem_map.2 ⟨_, h.builtin, rfl⟩
  have hread := MarkKind.findSome?_read?_hereDocument rest (EscapeTable.head_of_builtin hname)
    (EscapeTable.chars_of_builtin hname) h.named
  simpa [written, mark] using hread

/-- At the head, the token is that of the head. -/
theorem ofPlace_written (n : Nat) (rest : List Char) :
    Token.ofPlace ⟨n, h.written.toList ++ rest⟩
        (MarkKind.earliest? MarkKind.all ⟨n, h.written.toList ++ rest⟩) =
      (Token.ofMark ⟨⟨n, h.written.toList ++ rest⟩, ⟨n + Text.utf8Length h.written.toList, rest⟩,
        h.mark⟩).map fun (token, stop) => (⟨token, n, stop.offset⟩, stop) := by
  rw [MarkKind.earliest?_of_read (h.read_written rest), Cursor.moveTo_append]
  simp only [Token.ofPlace, Nat.lt_irrefl, ↓reduceIte]

theorem written_ne_nil (rest : List Char) : h.written.toList ++ rest ≠ [] := by
  simp [written]

theorem ofMark_unclosed {tail : List Char} (start : Cursor) (n : Nat)
    (htail : ¬ Token.HasTerminator h.marker.toList tail) :
    Token.ofMark ⟨start, ⟨n, tail⟩, h.mark⟩ = .error (.neverClosed h.marker start.offset) := by
  obtain ⟨lead, hlead⟩ := Text.skipLineBreak_eq_append tail
  have hrest : ¬ Token.HasTerminator h.marker.toList (Text.skipLineBreak tail) :=
    fun ⟨t, ht, hinfix⟩ => htail ⟨t, ht, hinfix.trans ⟨lead, [], by simpa using hlead.symm⟩⟩
  have hsplit : Token.splitTerminator? h.marker.toList (Text.skipLineBreak tail) = none := by
    rw [← Option.not_isSome_iff_eq_none, Token.splitTerminator?_isSome_iff h.named]
    exact hrest
  simp only [Token.ofMark, mark, Cursor.moveTo, hsplit]

/-- Where no terminator follows, the here-document is never closed. -/
theorem reads_unclosed {n : Nat} {tail : List Char} {s : Scanner}
    (hs : s.StandsAt ⟨n, h.written.toList ++ tail⟩)
    (htail : ¬ Token.HasTerminator h.marker.toList tail) :
    Reads s [] (some (.neverClosed h.marker n)) := by
  refine .failed (Scanner.step_of_error hs.pushed ?_ ?_)
  · rw [hs.here]
    exact h.written_ne_nil tail
  · rw [hs.here, hs.kinds, ofPlace_written, ofMark_unclosed _ _ _ htail]
    rfl

end HereHead

namespace HereText
variable {styles : EscapeTable} (h : HereText styles)

def written : String :=
  h.toHereHead.written ++ h.lineBreak ++ h.body ++ "\x7b" ++ h.marker ++ "\x7d"

/-- The number of bytes that the here-document takes. -/
def size : Nat := Text.utf8Length h.written.toList

/-- The here-document as a token that begins at the byte `n`. -/
def spanned (n : Nat) : Spanned :=
  let bodyStart := n + Text.utf8Length (h.toHereHead.written ++ h.lineBreak).toList
  ⟨.hereDocument (some h.style.name) none none none h.body bodyStart, n, n + h.size⟩

def block : Block := .text (h.style.apply h.body) true

/-- The terminator that closes the here-document. -/
def closing : List Char := '{' :: (h.marker.toList ++ ['}'])

theorem isTerminator_closing : Token.IsTerminator h.marker.toList h.closing :=
  ⟨[], [], by simp, by simp, rfl⟩

theorem toList_written : h.written.toList =
    h.toHereHead.written.toList ++ (h.lineBreak.toList ++ (h.body.toList ++ h.closing)) := by
  simp [written, closing]

theorem skipLineBreak_append (rest : List Char) :
    Text.skipLineBreak (h.lineBreak.toList ++ rest) = rest := by
  rcases h.breaks with hbreak | hbreak <;> rw [hbreak] <;> rfl

/-- At the here-document, its token is read, and nothing of what follows. -/
theorem ofPlace_written (n : Nat) (rest : List Char) :
    Token.ofPlace ⟨n, h.written.toList ++ rest⟩
        (MarkKind.earliest? MarkKind.all ⟨n, h.written.toList ++ rest⟩) =
      .ok (h.spanned n, ⟨n + h.size, rest⟩) := by
  have hsplit := Token.splitTerminator?_append rest h.named h.unclosed h.isTerminator_closing
  have hstop (m : Nat) : Cursor.moveTo ⟨m, h.body.toList ++ (h.closing ++ rest)⟩ rest =
      ⟨m + Text.utf8Length (h.body.toList ++ h.closing), rest⟩ := by
    rw [← List.append_assoc, Cursor.moveTo_append]
  simp only [h.toList_written, List.append_assoc, HereHead.ofPlace_written, Token.ofMark,
    HereHead.mark, h.skipLineBreak_append, Cursor.moveTo_append, hsplit, hstop, Except.map, spanned,
    size, String.toList_append, Text.utf8Length_append, String.ofList_toList, Nat.add_assoc]

theorem written_ne_nil (rest : List Char) : h.written.toList ++ rest ≠ [] := by
  rw [h.toList_written, List.append_assoc]
  exact h.toHereHead.written_ne_nil _

/-- Wherever the here-document stands, it is one token, and what follows is read by itself. -/
theorem reads_written {n : Nat} {rest : String} {s : Scanner} {ts : List Spanned}
    {e : Option ScanError} (hs : s.StandsAt ⟨n, h.written.toList ++ rest.toList⟩)
    (hrest : Reads (.ofText rest) ts e) :
    Reads s (h.spanned n :: ts.map (·.shift (n + h.size))) (e.map (·.shift (n + h.size))) := by
  obtain ⟨s', hstep, hs'⟩ := hs.step (h.written_ne_nil _) (h.ofPlace_written n rest.toList)
  have hkinds : s'.kinds = (Scanner.ofText rest).kinds := by
    rw [hs'.kinds]
    exact (Scanner.standsAt_ofCursor _).kinds.symm
  have hhere : s'.here = (Scanner.ofText rest).here.shift (n + h.size) := by
    rw [hs'.here]
    simp [Scanner.ofText, Scanner.ofCursor, Scanner.ofKinds, Cursor.start, Cursor.shift]
  exact .token hstep (hrest.shift rfl hs'.pushed hkinds hhere)

end HereText

section
variable {ctx : TemplateContext} (h : HereText ctx.styles)

/-- The token compiles to the body in the style, whatever is in effect. -/
theorem HereText.ofToken_spanned (d : Defaults) (n : Nat) :
    Block.ofToken ctx d (h.spanned n).token = .ok (h.block, d) := by
  have hstyle : d.style ctx (some h.style.name) = .ok h.style := by
    simp [Defaults.style, TemplateContext.style, h.known]
  simp [spanned, Block.ofToken, Block.ofHereDocument, hstyle, block, bind, Except.bind, Except.map]

theorem HereText.inert_block : Layout.Inert [h.block] := fun blocks =>
  Layout.kept_append [] blocks rfl rfl

/-- The block of the here-document comes before those that the rest of the text compiles to. -/
theorem HereText.readWhole_written (d : Defaults) (rest : String) :
    Shifted h.size (fun bs bs' => h.block :: bs = bs')
      (Template.readWhole (Template.compileToken ctx) d (.ofText rest))
      (Template.readWhole (Template.compileToken ctx) d (.ofText (h.written ++ rest))) := by
  have hrest := Reads.of_tokens (.ofText rest)
  have hwhole := h.reads_written (Scanner.standsAt_ofText_append h.written rest) hrest
  have hfirst (e : Option ScanError) (ts : List Spanned) :
      (Reading.start d).run (Template.compileToken ctx) e (h.spanned 0 :: ts) =
        Reading.run (Template.compileToken ctx) ⟨[], d, [h.block]⟩ e ts :=
    Reading.run_block rfl (h.ofToken_spanned d 0)
  rw [Reading.readWhole_eq_run hrest, Reading.readWhole_eq_run hwhole, hfirst, Nat.zero_add]
  exact Reading.run_shift (Template.shifts_compileToken ctx h.size) h.inert_block (.start d) _ _

end

/-- What is true of a text that begins with a here-document. -/
structure HereText.Verbatim {ctx : TemplateContext} (h : HereText ctx.styles) (rest : String) :
    Prop where
  /-- The here-document is one token that holds its body, wherever it stands. The tokens of the rest
  follow, as far further on as they stand. -/
  scanned {n : Nat} {s : Scanner} {ts : List Spanned} {e : Option ScanError}
    (stands : s.StandsAt ⟨n, h.written.toList ++ rest.toList⟩) (reads : Reads (.ofText rest) ts e) :
    Reads s (h.spanned n :: ts.map (·.shift (n + h.size))) (e.map (·.shift (n + h.size)))
  /-- The token compiles to text that is required, whatever is in effect. -/
  text (d : Defaults) (n : Nat) :
    Block.ofToken ctx d (h.spanned n).token = .ok (.text (h.style.apply h.body) true, d)
  unchanged (plain : h.style.name = EscapeStyle.none.name) : h.style.apply h.body = h.body
  compiled {t : Template} (follows : Template.ofText ctx rest = .ok t) :
    Template.ofText ctx (h.written ++ rest) = .ok ⟨ctx.id.shown, h.block :: t.blocks⟩
  /-- What is wrong with the rest is wrong with the whole. -/
  faulty {f : ParseError} (follows : Template.ofText ctx rest = .error f) :
    ∃ g, Template.ofText ctx (h.written ++ rest) = .error g ∧ g.template = f.template ∧
      g.message = f.message
  /-- Among whatever blocks, it is not left out as layout. -/
  kept (before after : List Block) :
    Layout.kept (before ++ h.block :: after) = Layout.kept before ++ h.block :: Layout.kept after
  rendered {m : Type → Type} [Monad m] (rc : RenderContext m) (t : Template) :
    Render.template rc { t with blocks := h.block :: t.blocks } = do
      Render.write (h.style.apply h.body)
      Render.template rc t

/-- What is true of a text that begins with the head of a here-document and has no terminator. -/
structure HereHead.Unclosed {ctx : TemplateContext} (h : HereHead ctx.styles) (tail : String) :
    Prop where
  scanned {n : Nat} {s : Scanner} (stands : s.StandsAt ⟨n, h.written.toList ++ tail.toList⟩) :
    Reads s [] (some (.neverClosed h.marker n))
  compiled {d : Defaults} (defaults : Defaults.initial ctx .none = .ok d)
    (preamble : Preamble.find? (h.written ++ tail).toList = none) :
    Template.ofText ctx (h.written ++ tail) =
      .error ⟨ctx.id.shown, .scan (.neverClosed h.marker 0), ⟨1, 1⟩⟩

section
variable {ctx : TemplateContext}

/-- The block of the here-document, and then those of the rest; or what is wrong with the rest. -/
theorem HereText.ofText_written (h : HereText ctx.styles) {rest : String}
    (hpreamble : Preamble.find? (h.written ++ rest).toList = none) :
    match Template.ofText ctx rest with
    | .ok t => Template.ofText ctx (h.written ++ rest) = .ok ⟨ctx.id.shown, h.block :: t.blocks⟩
    | .error f => ∃ g, Template.ofText ctx (h.written ++ rest) = .error g ∧
        g.template = f.template ∧ g.message = f.message := by
  have hrest : Preamble.find? rest.toList = none := by
    rw [String.toList_append] at hpreamble
    exact Preamble.find?_of_append hpreamble
  rw [Template.ofText_of_no_preamble hpreamble, Template.ofText_of_no_preamble hrest]
  cases Defaults.initial ctx .none with
  | error fault =>
    refine ⟨_, rfl, rfl, ?_⟩
    simp only [ParseError.message]
  | ok d =>
    have hread := h.readWhole_written d rest
    simp only [Template.placed, Except.bind]
    generalize Template.readWhole (Template.compileToken ctx) d (.ofText rest) = x at hread ⊢
    generalize Template.readWhole (Template.compileToken ctx) d _ = y at hread ⊢
    cases hread with
    | ok agree =>
      rw [← agree]
    | error message offset => exact ⟨_, rfl, rfl, message⟩

theorem HereText.apply_none (h : HereText ctx.styles)
    (hname : h.style.name = EscapeStyle.none.name) : h.style.apply h.body = h.body := by
  have hplain : ∀ b ∈ EscapeTable.builtins, b.1 = EscapeStyle.none.name → b.2 = .plain := by
    decide
  have hescaper : h.style.escaper = .plain := hplain _ h.builtin hname
  rw [EscapeStyle.apply, hescaper, Escaper.escape, String.ofList_toList]

theorem HereText.verbatim (h : HereText ctx.styles) {rest : String}
    (hpreamble : Preamble.find? (h.written ++ rest).toList = none) : h.Verbatim rest where
  scanned := h.reads_written
  text := h.ofToken_spanned
  unchanged := h.apply_none
  compiled follows := by
    have hwritten := h.ofText_written hpreamble
    rw [follows] at hwritten
    exact hwritten
  faulty follows := by
    have hwritten := h.ofText_written hpreamble
    rw [follows] at hwritten
    exact hwritten
  kept before after := Layout.kept_append before after rfl rfl
  rendered rc t := rfl

theorem HereHead.unclosed (h : HereHead ctx.styles) {tail : String}
    (htail : ¬ Token.HasTerminator h.marker.toList tail.toList) : h.Unclosed tail where
  scanned stands := h.reads_unclosed stands htail
  compiled hdefaults hpreamble := by
    have hreads := h.reads_unclosed (Scanner.standsAt_ofText_append h.written tail) htail
    rw [Template.ofText_eq_run hpreamble hdefaults hreads, ← Position.ofOffset_zero]
    rfl

/-- A here-document without a path, in a style that is always there, is text as it was written; and
if it is never closed, it is reported where it begins. -/
theorem hereDocuments_verbatim :
    (∀ (h : HereText ctx.styles) (rest : String),
      Preamble.find? (h.written ++ rest).toList = none → h.Verbatim rest) ∧
    ∀ (h : HereHead ctx.styles) (tail : String),
      ¬ Token.HasTerminator h.marker.toList tail.toList → h.Unclosed tail :=
  ⟨fun h _ => h.verbatim, fun h _ => h.unclosed⟩

end

/-- A body with markup, with what is almost a terminator, and with other marks. -/
theorem hereDocuments_verbatim_almost_closed :
    let ctx : TemplateContext := ⟨.source ⟨[], "t"⟩ .root none "none", .standard, ".txt"⟩
    let head : HereHead ctx.styles :=
      .standard (by decide : ("html", .markup false) ∈ EscapeTable.builtins) "END" (by decide)
    let h : HereText ctx.styles := ⟨head, "\r\n", .inr rfl,
      "<\x7b END ]\x7bEND\n[if x]\x7b*\x7b>>END\x7d", fun hterminator =>
        absurd ((Token.splitTerminator?_isSome_iff head.named).2 hterminator) (by decide)⟩
    h.style.apply h.body = "&lt;\x7b END ]\x7bEND\n[if x]\x7b*\x7b&gt;&gt;END\x7d" ∧
    Template.ofText ctx (h.written ++ "") = .ok ⟨ctx.id.shown, [h.block]⟩ ∧
    Template.ofText ctx (head.written ++ h.body) =
      .error ⟨ctx.id.shown, .scan (.neverClosed head.marker 0), ⟨1, 1⟩⟩ := by
  intro ctx head h
  have hdefaults : Defaults.initial ctx .none = .ok ⟨none, .none⟩ := Defaults.initial_standard ..
  have hempty : Template.ofText ctx "" = .ok ⟨ctx.id.shown, []⟩ := by
    rw [Template.ofText_eq_run rfl hdefaults (.ended (Scanner.step_of_end rfl rfl))]
    rfl
  refine ⟨by decide, ?_, ?_⟩
  · exact (hereDocuments_verbatim.1 h "" (by decide)).compiled hempty
  · exact (hereDocuments_verbatim.2 head h.body h.unclosed).compiled hdefaults (by decide)

end TextTemplate
