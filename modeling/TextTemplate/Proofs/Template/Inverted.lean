import TextTemplate.Proofs.Scan.Tiling
import TextTemplate.Proofs.Template.Shift
import TextTemplate.Render.Basic

/-! A text in which only the bodies of here-documents are template text: what it compiles to, part
by part. -/

namespace TextTemplate

/-- What a token of such a text stands for: itself, or a template of its own. -/
inductive InvertedPart where
  | text (s : String)
  | template (t : Template)

namespace InvertedPart

def block : InvertedPart → Block
  | text s => .text s false
  | template t => .nested t.blocks

/-- The blocks that are left of the part, which are none if it is layout. -/
def blocks : InvertedPart → List Block
  | text s => if (Block.text s false).isLayout then [] else [.text s false]
  | template t => [.nested t.blocks]

/-- The part that a token stands for where these settings are in effect. The body of a here-document
is compiled by itself, from these settings on but for the style. -/
inductive Of (ctx : TemplateContext) (d : Defaults) : Token → InvertedPart → Prop
  | text (s : String) : Of ctx d (.text s) (text s)
  | hereDocument {escape kind styles : Option String} {body : String} {bodyStart : Nat}
      {style : EscapeStyle} {blocks : List Block} (named : d.style ctx escape = .ok style)
      (compiled : Template.readWhole (Template.compileToken ctx) { d with escape := style }
        (.ofText body) = .ok blocks) :
      Of ctx d (.hereDocument escape none kind styles body bodyStart)
        (template ⟨ctx.id.shown, blocks⟩)

/-- Writes the part by itself. -/
def render {m : Type → Type} [Monad m] (rc : RenderContext m) : InvertedPart → RenderM m Unit
  | text s => if (Block.text s false).isLayout then pure () else Render.write s
  | template t => Render.template rc t

end InvertedPart

theorem Mark.eq_hereDocument_of_read {cs rest : List Char} {m : Mark}
    (h : readHereDocument cs = some (m, rest)) :
    ∃ escape path kind styles marker, m = .hereDocument escape path kind styles marker := by
  unfold readHereDocument at h
  split at h
  · obtain ⟨⟨inner, after⟩, _, h⟩ := Option.bind_eq_some_iff.1 h
    obtain ⟨⟨marker, before⟩, _, h⟩ := Option.bind_eq_some_iff.1 h
    obtain ⟨⟨path, kind, styles⟩, _, h⟩ := Option.bind_eq_some_iff.1 h
    simp only at h
    split at h
    · cases h
      exact ⟨_, _, _, _, _, rfl⟩
    · cases h
  · cases h

/-- Text, or a here-document. -/
def Token.IsInverted (t : Token) : Prop :=
  (∃ s, t = .text s) ∨
    ∃ escape path kind styles body start, t = .hereDocument escape path kind styles body start

theorem Token.isInverted_of_place {c d : Cursor} {t : Spanned}
    (h : ofPlace c (MarkKind.earliest? [.hereDocument] c) = .ok (t, d)) : t.token.IsInverted := by
  cases hnext : MarkKind.earliest? [.hereDocument] c with
  | none =>
    rw [hnext] at h
    cases h
    exact .inl ⟨_, rfl⟩
  | some o =>
    obtain ⟨k, hk, hfind⟩ := MarkKind.earliest?_eq_some hnext
    obtain rfl := List.mem_singleton.1 hk
    obtain ⟨⟨m, rest⟩, hread, heq⟩ := Option.map_eq_some_iff.1 (MarkKind.find?_eq_some hfind).2
    obtain ⟨escape, path, kind, styles, marker, rfl⟩ := Mark.eq_hereDocument_of_read hread
    rw [hnext, ← heq] at h
    simp only [ofPlace] at h
    split at h
    · cases h
      exact .inl ⟨_, rfl⟩
    · simp only [ofMark] at h
      split at h
      · cases h
      · cases h
        exact .inr ⟨_, _, _, _, _, _, rfl⟩

/-- A scanner that looks for here-documents only reads nothing but them and text. -/
theorem Reads.isInverted {s : Scanner} {ts : List Spanned} {e : Option ScanError}
    (h : Reads s ts e) (hpushed : s.pushed = none) (hkinds : s.kinds = [.hereDocument]) :
    ∀ t ∈ ts, t.token.IsInverted := by
  induction h with
  | ended | failed => simp
  | @token s s' t ts e step rest ih =>
    obtain ⟨_, d, hd, hplace, rfl⟩ := Scanner.step_eq_some_of_unpushed hpushed step
    rw [hkinds] at hplace
    exact List.forall_mem_cons.2
      ⟨Token.isInverted_of_place hplace, ih (by simp [hpushed]) (by simp [hkinds])⟩

namespace Template
variable {ctx : TemplateContext} {d d' : Defaults}

/-- The body of a here-document compiles as it does by itself. -/
theorem readWhole_body (start : Nat) (body : String) (blocks : List Block) :
    readWhole (compileToken ctx) d (.ofCursor ⟨start, body.toList⟩) = .ok blocks ↔
      readWhole (compileToken ctx) d (.ofText body) = .ok blocks := by
  have hhere : (⟨start, body.toList⟩ : Cursor) = (Cursor.start body).shift start := by
    simp [Cursor.start, Cursor.shift]
  have hshift : Shifted start Eq (readWhole (compileToken ctx) d (.ofText body))
      (readWhole (compileToken ctx) d (.ofCursor ⟨start, body.toList⟩)) :=
    readWhole_shift (shifts_compileToken ctx start) d rfl rfl rfl hhere
  exact hshift.ok_iff.symm

/-- A token compiles to the block of the part that it stands for, and leaves what is in effect. -/
theorem compileInverted_eq_ok {t : Spanned} {b : Block} (ht : t.token.IsInverted) :
    compileInverted ctx d t = .ok (b, d') ↔
      d' = d ∧ ∃ part, InvertedPart.Of ctx d t.token part ∧ b = part.block := by
  obtain ⟨token, start, stop⟩ := t
  constructor
  · intro h
    rcases ht with ⟨s, rfl⟩ | ⟨escape, path, kind, styles, body, bodyStart, rfl⟩
    · cases h
      exact ⟨rfl, .text s, .text s, rfl⟩
    · cases path with
      | some path => cases h
      | none =>
        obtain ⟨style, hstyle, h⟩ := bind_eq_ok_iff.1 h
        obtain ⟨blocks, hread, h⟩ := bind_eq_ok_iff.1 h
        cases h
        exact ⟨rfl, .template ⟨ctx.id.shown, blocks⟩,
          .hereDocument (placed_eq_ok_iff.1 hstyle) ((readWhole_body ..).1 hread), rfl⟩
  · rintro ⟨rfl, part, hpart, rfl⟩
    cases hpart with
    | text s => rfl
    | hereDocument named compiled =>
      exact bind_eq_ok_iff.2 ⟨_, placed_eq_ok_iff.2 named,
        bind_eq_ok_iff.2 ⟨_, (readWhole_body ..).2 compiled, rfl⟩⟩

end Template

namespace Reading
variable {ctx : TemplateContext} {d : Defaults}

/-- The tokens compile, one by one, to the blocks of the parts that they stand for. -/
theorem run_inverted {e : Option ScanError} {ts : List Spanned}
    (hts : ∀ t ∈ ts, t.token.IsInverted) (before blocks : List Block) :
    run (Template.compileInverted ctx) ⟨[], d, before⟩ e ts = .ok blocks ↔
      e = none ∧ ∃ parts, List.Forall₂ (fun t part => InvertedPart.Of ctx d t.token part) ts parts ∧
        blocks = Layout.kept (before.reverse ++ parts.map (·.block)) := by
  induction ts generalizing before with
  | nil =>
    cases e with
    | none => simp [run, finish, list, eq_comm]
    | some e => simp [run]
  | cons t ts ih =>
    obtain ⟨ht, hts⟩ := List.forall_mem_cons.1 hts
    have hrole : t.token.role = .stands := by
      rcases ht with ⟨s, hs⟩ | ⟨escape, path, kind, styles, body, start, hs⟩ <;> rw [hs] <;> rfl
    -- No part changes what is in effect, so every token is compiled with the same settings.
    have hstep (part : InvertedPart) (hpart : InvertedPart.Of ctx d t.token part) :
        run (Template.compileInverted ctx) ⟨[], d, before⟩ e (t :: ts) =
          run (Template.compileInverted ctx) ⟨[], d, part.block :: before⟩ e ts := by
      simp only [run, token, hrole,
        (Template.compileInverted_eq_ok ht).2 ⟨rfl, part, hpart, rfl⟩]
      rfl
    have hblocks (part : InvertedPart) (parts : List InvertedPart) :
        (part.block :: before).reverse ++ parts.map (·.block) =
          before.reverse ++ (part :: parts).map (·.block) := by
      simp
    constructor
    · intro h
      obtain ⟨part, hpart⟩ : ∃ part, InvertedPart.Of ctx d t.token part := by
        cases hcompile : Template.compileInverted ctx d t with
        | error fault => simp [run, token, hrole, hcompile, Except.map] at h
        | ok r =>
          obtain ⟨_, part, hpart, _⟩ := (Template.compileInverted_eq_ok ht).1 hcompile
          exact ⟨part, hpart⟩
      rw [hstep part hpart] at h
      obtain ⟨he, parts, hparts, hread⟩ := (ih hts _).1 h
      exact ⟨he, part :: parts, .cons hpart hparts, by rw [hread, hblocks]⟩
    · rintro ⟨he, all, hall, hread⟩
      obtain ⟨part, parts, hpart, hparts, rfl⟩ := List.forall₂_cons_left_iff.1 hall
      rw [hstep part hpart]
      exact (ih hts _).2 ⟨he, parts, hparts, by rw [hread, hblocks]⟩

end Reading

namespace InvertedPart

/-- No part produces a value, so all layout between the parts is left out. -/
theorem kept_blocks (parts : List InvertedPart) :
    Layout.kept (parts.map (·.block)) = parts.flatMap (·.blocks) := by
  have hvalue : ∀ b ∈ parts.map (·.block), b.isValueProducing = false := by
    intro b hb
    obtain ⟨part, _, rfl⟩ := List.mem_map.1 hb
    cases part <;> rfl
  rw [Layout.kept_of_no_value hvalue]
  induction parts with
  | nil => rfl
  | cons part parts ih =>
    rw [List.map_cons, List.filter_cons, List.flatMap_cons,
      ih fun b hb => hvalue b (List.mem_cons_of_mem _ hb)]
    cases part with
    | text s =>
      cases hlayout : (Block.text s false).isLayout <;> simp [block, blocks, hlayout]
    | template t => rfl

end InvertedPart

section
variable {m : Type → Type} [Monad m] [LawfulMonad m] (rc : RenderContext m)

theorem Render.blocks_append (included : Handle TemplateId → RenderM m Unit) (xs ys : List Block) :
    blocks rc included (xs ++ ys) = (do
      blocks rc included xs
      blocks rc included ys) := by
  induction xs with
  | nil => simp [blocks]
  | cons x xs ih => simp [blocks, ih]

theorem InvertedPart.render_blocks (part : InvertedPart) :
    Render.blocks rc (Render.included rc rc.limit) part.blocks = part.render rc := by
  cases part with
  | text s =>
    simp only [blocks, render]
    split <;> simp [Render.blocks, Render.block]
  | template t => simp [blocks, render, Render.blocks, Render.block, Render.template]

/-- The parts are written one after the other, each with the data as those before it left them. -/
theorem InvertedPart.render_template (name : String) (parts : List InvertedPart) :
    Render.template rc ⟨name, parts.flatMap (·.blocks)⟩ = parts.forM (·.render rc) := by
  rw [Render.template]
  induction parts with
  | nil => rfl
  | cons part parts ih =>
    rw [List.flatMap_cons, Render.blocks_append, render_blocks, ih]
    rfl

end

theorem Template.ofText_inverted_eq_ok {ctx : TemplateContext} {text : String} {p : Prepared}
    {ts : List Spanned} {e : Option ScanError} {t : Template}
    (hprepared : Prepared.ofText text = .ok p) (hinverted : p.settings.inverted = true)
    (hscan : Reads (.ofKinds [.hereDocument] ⟨0, p.text⟩) ts e) :
    ofText ctx text = .ok t ↔ ∃ d blocks, Defaults.initial ctx p.settings = .ok d ∧
      (Reading.start d).run (compileInverted ctx) e ts = .ok blocks ∧
      t = ⟨ctx.id.shown, blocks⟩ := by
  have hread (blocks : List Block) : readPrepared ctx p = .ok blocks ↔
      ∃ d, Defaults.initial ctx p.settings = .ok d ∧
        (Reading.start d).run (compileInverted ctx) e ts = .ok blocks := by
    simp only [readPrepared, hinverted, ↓reduceIte, bind, bind_eq_ok_iff, placed_eq_ok_iff,
      Reading.readWhole_eq_run hscan]
  simp only [ofText_eq_ok_iff hprepared, hread]
  tauto

/-- What a text compiles to in which only here-documents count: a part for each token, and nothing
else. -/
structure InvertedReading (ctx : TemplateContext) (p : Prepared) (d : Defaults)
    (ts : List Spanned) (parts : List InvertedPart) (t : Template) : Prop where
  defaults : Defaults.initial ctx p.settings = .ok d
  scanned : Reads (.ofKinds [.hereDocument] ⟨0, p.text⟩) ts none
  means : List.Forall₂ (fun u part => InvertedPart.Of ctx d u.token part) ts parts
  compiled : t = ⟨ctx.id.shown, parts.flatMap (·.blocks)⟩

/-- A text in which only here-documents count compiles, if it does, to what its tokens mean one by
one. What is not in a here-document is text as it was written, and the parts are rendered one after
the other on the same data. -/
theorem Template.ofText_inverted {ctx : TemplateContext} {text : String} {p : Prepared}
    (hprepared : Prepared.ofText text = .ok p) (hinverted : p.settings.inverted = true)
    (t : Template) :
    (ofText ctx text = .ok t ↔ ∃ d ts parts, InvertedReading ctx p d ts parts t) ∧
    ∀ d ts parts, InvertedReading ctx p d ts parts t →
      (∀ u ∈ ts, ∀ s, u.token = .text s → s.toList = Text.slice p.text u.start u.stop) ∧
      ∀ {m : Type → Type} [Monad m] [LawfulMonad m] (rc : RenderContext m),
        Render.template rc t = parts.forM (·.render rc) := by
  refine ⟨⟨fun h => ?_, ?_⟩, ?_⟩
  · have hscan := Reads.of_tokens (.ofKinds [.hereDocument] ⟨0, p.text⟩)
    obtain ⟨d, blocks, hdefaults, hrun, rfl⟩ :=
      (ofText_inverted_eq_ok hprepared hinverted hscan).1 h
    obtain ⟨he, parts, hparts, rfl⟩ := (Reading.run_inverted (hscan.isInverted rfl rfl) [] _).1 hrun
    rw [he] at hscan
    rw [List.reverse_nil, List.nil_append, InvertedPart.kept_blocks]
    exact ⟨d, _, parts, hdefaults, hscan, hparts, rfl⟩
  · rintro ⟨d, ts, parts, hdefaults, hscan, hparts, rfl⟩
    rw [ofText_inverted_eq_ok hprepared hinverted hscan]
    refine ⟨d, _, hdefaults, ?_, rfl⟩
    rw [← InvertedPart.kept_blocks]
    exact (Reading.run_inverted (hscan.isInverted rfl rfl) [] _).2 ⟨rfl, parts, hparts, rfl⟩
  · rintro d ts parts ⟨hdefaults, hscan, hparts, rfl⟩
    refine ⟨fun u hu s hs => ?_, fun rc => InvertedPart.render_template rc _ parts⟩
    have hslice := hscan.text_eq_slice rfl [] [] rfl u hu s hs
    rw [List.nil_append, List.append_nil] at hslice
    exact hslice

/-- Directives are text, up to the here-document, in whose body a comment is one. -/
theorem Template.ofText_inverted_directives :
    let ctx : TemplateContext := ⟨.source ⟨[], "t"⟩ .root none "none", .standard, ".txt"⟩
    ofText ctx "[global mode=inverted]\n[if a]\x7b>>T\x7d\x7b*c*\x7d\x7bT\x7d\n" =
      .ok ⟨ctx.id.shown, [.text "[if a]" false, .nested [.comment true]]⟩ := by
  intro ctx
  have hfound : Preamble.find?
      "[global mode=inverted]\n[if a]\x7b>>T\x7d\x7b*c*\x7d\x7bT\x7d\n".toList =
      some ⟨[], false, "mode=inverted".toList,
        "[global mode=inverted]\n[if a]\x7b>>T\x7d\x7b*c*\x7d\x7bT\x7d\n".toList,
        "[if a]\x7b>>T\x7d\x7b*c*\x7d\x7bT\x7d\n".toList⟩ := by
    rfl
  have hparameter : Preamble.ofParameter "mode=inverted".toList = .ok ⟨true, none, none⟩ := by
    decide +kernel
  have hprepared := Prepared.ofText_of_found hfound rfl hparameter
  have hscan : Reads
      (.ofKinds [.hereDocument] ⟨0, "[if a]\x7b>>T\x7d\x7b*c*\x7d\x7bT\x7d\n".toList⟩)
      [⟨.text "[if a]", 0, 6⟩, ⟨.hereDocument none none none none "\x7b*c*\x7d" 11, 6, 19⟩,
        ⟨.text "\n", 19, 20⟩] none :=
    .of_tokens_eq (by decide +kernel)
  have hbodyScan : Reads (.ofText "\x7b*c*\x7d") [⟨.comment true, 0, 5⟩] none :=
    .of_tokens_eq (by decide +kernel)
  have hbody : readWhole (compileToken ctx) ⟨none, .none⟩ (.ofText "\x7b*c*\x7d") =
      .ok [.comment true] := by
    rw [Reading.readWhole_eq_run hbodyScan]
    rfl
  refine ((ofText_inverted hprepared rfl _).1).2 ⟨⟨none, .none⟩, _,
    [.text "[if a]", .template ⟨ctx.id.shown, [.comment true]⟩, .text "\n"], ?_, hscan, ?_, ?_⟩
  · exact Defaults.initial_standard ..
  · exact .cons (.text _) (.cons (.hereDocument rfl hbody) (.cons (.text _) .nil))
  · rfl

end TextTemplate
