import TextTemplate.Proofs.Template.Pieces
import TextTemplate.Proofs.Template.Stack

/-! Blocks that are written out and compiled again are the same blocks. -/

namespace TextTemplate

/-- Blocks, and how they are written. Text does not follow text in one list, and may come first
only if the index says so. -/
inductive Markup (styles : EscapeTable) : Bool → Type where
  | nil {first : Bool} : Markup styles first
  | text (t : PlainText) (rest : Markup styles false) : Markup styles true
  | comment {first : Bool} (ofValue : Bool) (note : Note) (rest : Markup styles true) :
      Markup styles first
  | value {first : Bool} (v : StyledPath styles) (rest : Markup styles true) : Markup styles first
  /-- A branch whose other part is empty and not written. -/
  | branch {first : Bool} (kind : BranchKind) (b : BranchPath) (main rest : Markup styles true) :
      Markup styles first
  /-- A branch whose other part is written, be it empty or not. -/
  | divided {first : Bool} (kind : BranchKind) (b : BranchPath)
      (main otherwise rest : Markup styles true) : Markup styles first

namespace Markup
variable {styles : EscapeTable} {first : Bool}

def blocks {first : Bool} : Markup styles first → List Block
  | nil => []
  | text t rest => .text t.text false :: rest.blocks
  | comment ofValue _ rest => .comment ofValue :: rest.blocks
  | value v rest => .value v.path v.style none :: rest.blocks
  | branch kind b main rest => .branch kind b.path main.blocks [] :: rest.blocks
  | divided kind b main otherwise rest =>
    .branch kind b.path main.blocks otherwise.blocks :: rest.blocks

def pieces {first : Bool} : Markup styles first → List (Piece styles)
  | nil => []
  | text t rest => .text t :: rest.pieces
  | comment ofValue note rest => .comment ofValue note :: rest.pieces
  | value v rest => .value v :: rest.pieces
  | branch kind b main rest => .opening kind b :: (main.pieces ++ .closing :: rest.pieces)
  | divided kind b main otherwise rest =>
    .opening kind b ::
      (main.pieces ++ .divider :: (otherwise.pieces ++ .closing :: rest.pieces))

/-- The blocks as a template text. -/
def printed (m : Markup styles first) : String := String.ofList (Piece.joined m.pieces)

theorem blocks_notLayout (m : Markup styles first) : ∀ b ∈ m.blocks, b.isLayout = false := by
  induction m with
  | nil => simp [blocks]
  | text t rest ih => exact List.forall_mem_cons.2 ⟨t.notLayout, ih⟩
  | comment _ _ rest ih => exact List.forall_mem_cons.2 ⟨rfl, ih⟩
  | value _ rest ih => exact List.forall_mem_cons.2 ⟨rfl, ih⟩
  | branch _ _ _ rest _ ih => exact List.forall_mem_cons.2 ⟨rfl, ih⟩
  | divided _ _ _ _ rest _ _ ih => exact List.forall_mem_cons.2 ⟨rfl, ih⟩

end Markup

namespace Piece
variable {styles : EscapeTable}

theorem Apart.cons {p : Piece styles} {ps : List (Piece styles)}
    (hp : p.mark? ≠ none ∨ ∀ q ∈ ps.head?, q.mark? ≠ none) (h : Apart ps) : Apart (p :: ps) := by
  refine List.isChain_cons.2 ⟨fun q hq hboth => ?_, h⟩
  rcases hp with hp | hps
  · exact hp hboth.1
  · exact hps q hq hboth.2

theorem Apart.append {p : Piece styles} {ps qs : List (Piece styles)} (hp : p.mark? ≠ none)
    (hps : Apart ps) (hqs : Apart qs) : Apart (ps ++ p :: qs) := by
  refine List.isChain_append.2 ⟨hps, hqs.cons (.inl hp), fun x _ y hy hboth => ?_⟩
  cases hy
  exact hp hboth.2

theorem spans_append (offset : Nat) (ps qs : List (Piece styles)) :
    spans offset (ps ++ qs) =
      spans offset ps ++ spans (offset + Text.utf8Length (joined ps)) qs := by
  induction ps generalizing offset with
  | nil => rfl
  | cons p ps ih =>
    simp only [List.cons_append, spans, ih, joined_cons, Text.utf8Length_append, size,
      Nat.add_assoc]

end Piece

namespace Markup
variable {styles : EscapeTable} {first : Bool}

theorem pieces_apart (m : Markup styles first) :
    Piece.Apart m.pieces ∧ (first = false → ∀ p ∈ m.pieces.head?, p.mark? ≠ none) := by
  have hclosing : (.closing : Piece styles).mark? ≠ none := nofun
  have hdivider : (.divider : Piece styles).mark? ≠ none := nofun
  induction m with
  | nil => simp [pieces, Piece.Apart]
  | text t rest ih => exact ⟨ih.1.cons (.inr (ih.2 rfl)), nofun⟩
  | comment _ _ rest ih => exact ⟨ih.1.cons (.inl nofun), by simp [pieces, Piece.mark?]⟩
  | value _ rest ih => exact ⟨ih.1.cons (.inl nofun), by simp [pieces, Piece.mark?]⟩
  | branch _ _ main rest hmain hrest =>
    have hbranch := hmain.1.append hclosing hrest.1
    exact ⟨hbranch.cons (.inl nofun), by simp [pieces, Piece.mark?]⟩
  | divided _ _ main otherwise rest hmain hotherwise hrest =>
    have hbranch := hmain.1.append hdivider (hotherwise.1.append hclosing hrest.1)
    exact ⟨hbranch.cons (.inl nofun), by simp [pieces, Piece.mark?]⟩

end Markup

theorem BranchPath.branchPath_text (kind : BranchKind) (b : BranchPath) :
    Block.branchPath kind b.path.text = .ok b.path := by
  have htrim : Text.trim b.path.text.toList = b.path.text.toList :=
    Text.trim_eq_self fun c hc => b.path_blank hc
  have hchars : b.path.text.toList.all (fun c => Text.isAlphanumeric c || c == '_' || c == '.') =
      true := by
    rw [List.all_eq_true]
    intro c hc
    rcases b.spelled.of_mem_text hc with hsegment | rfl
    · rw [Text.isSegmentChar] at hsegment
      rw [hsegment, Bool.true_or]
    · decide
  have hsome : b.path.text.toList ≠ [] := b.spelled.text_ne_nil (by decide)
  simp only [Block.branchPath, htrim, hchars, hsome, ne_eq, not_false_eq_true, and_self,
    ↓reduceIte, String.ofList_toList, b.ofText_path]

theorem StyledPath.ofToken_value {ctx : TemplateContext} (d : Defaults)
    (v : StyledPath ctx.styles) :
    Block.ofToken ctx d (.value (some v.style.name) v.path.text none) =
      .ok (.value v.path v.style none, d) := by
  have hstyle : d.style ctx (some v.style.name) = .ok v.style := by
    simp [Defaults.style, TemplateContext.style, v.known]
  simp [Block.ofToken, Block.ofValue, hstyle, v.ofText_path, bind, Except.bind, Except.map]

namespace Reading
variable {ctx : TemplateContext} {frames : List OpenBranch} {d : Defaults} {before : List Block}
  {start stop : Nat} {e : Option ScanError} {ts : List Spanned}

theorem run_opening (kind : BranchKind) (b : BranchPath) :
    run (Template.compileToken ctx) ⟨frames, d, before⟩ e
        (⟨.directive kind.name b.path.text, start, stop⟩ :: ts) =
      run (Template.compileToken ctx) ⟨⟨kind, b.path, start, d, before, none⟩ :: frames, d, []⟩ e
        ts := by
  have hrole : (Token.directive kind.name b.path.text).role = .opens kind b.path.text := by
    cases kind <;> rfl
  simp [run, Reading.token, hrole, b.branchPath_text, Template.placed, Except.map, openBranch]

theorem run_divider {b : OpenBranch} (hb : b.main = none) :
    run (Template.compileToken ctx) ⟨b :: frames, d, before⟩ e
        (⟨.directive "else" "", start, stop⟩ :: ts) =
      run (Template.compileToken ctx)
        ⟨{ b with main := some (Layout.kept before.reverse) } :: frames, b.outer, []⟩ e ts := by
  have hrole : (Token.directive "else" "").role = .divides := rfl
  simp [run, Reading.token, hrole, hb, list, divided]

theorem run_closing {b : OpenBranch} :
    run (Template.compileToken ctx) ⟨b :: frames, d, before⟩ e
        (⟨.directive "end" "", start, stop⟩ :: ts) =
      run (Template.compileToken ctx)
        ⟨frames, b.outer, b.closed (Layout.kept before.reverse) :: b.before⟩ e ts := by
  have hrole : (Token.directive "end" "").role = .closes := rfl
  simp [run, Reading.token, hrole, list, left]

/-- The tokens of blocks that are written out add these blocks to the list that is read, whatever is
open around it and whatever follows. -/
theorem run_spans {first : Bool} (m : Markup ctx.styles first) (offset : Nat) :
    run (Template.compileToken ctx) ⟨frames, d, before⟩ e (Piece.spans offset m.pieces ++ ts) =
      run (Template.compileToken ctx) ⟨frames, d, m.blocks.reverse ++ before⟩ e ts := by
  induction m generalizing frames before offset ts with
  | nil => rfl
  | text t rest ih =>
    simp only [Markup.pieces, Piece.spans, List.cons_append, Piece.token]
    rw [run_block rfl rfl, ih]
    simp [Markup.blocks]
  | comment ofValue note rest ih =>
    simp only [Markup.pieces, Piece.spans, List.cons_append, Piece.token]
    rw [run_block rfl rfl, ih]
    simp [Markup.blocks]
  | value v rest ih =>
    simp only [Markup.pieces, Piece.spans, List.cons_append, Piece.token]
    rw [run_block rfl (v.ofToken_value d), ih]
    simp [Markup.blocks]
  | branch kind b main rest hmain hrest =>
    simp only [Markup.pieces, Piece.spans, Piece.spans_append, List.cons_append, List.append_assoc,
      Piece.token]
    rw [run_opening, hmain, run_closing, hrest]
    simp [Markup.blocks, OpenBranch.closed, Layout.kept_of_no_layout main.blocks_notLayout]
  | divided kind b main otherwise rest hmain hotherwise hrest =>
    simp only [Markup.pieces, Piece.spans, Piece.spans_append, List.cons_append, List.append_assoc,
      Piece.token]
    rw [run_opening, hmain, run_divider rfl, hotherwise, run_closing, hrest]
    simp [Markup.blocks, OpenBranch.closed, Layout.kept_of_no_layout main.blocks_notLayout,
      Layout.kept_of_no_layout otherwise.blocks_notLayout]

end Reading

/-- Blocks that are written out, branch by branch and with the other part of a branch or without,
compile to themselves. -/
theorem ofText_printed {ctx : TemplateContext} {d : Defaults}
    (hdefaults : Defaults.initial ctx .none = .ok d) (m : Markup ctx.styles true) :
    Template.ofText ctx m.printed = .ok ⟨ctx.id.shown, m.blocks⟩ := by
  have hpreamble : Preamble.find? m.printed.toList = none := by
    rw [Markup.printed, String.toList_ofList]
    exact Piece.find?_joined m.pieces
  have hstart : (Scanner.ofText m.printed).StandsAt ⟨0, Piece.joined m.pieces⟩ := by
    rw [Scanner.ofText, Cursor.start, Markup.printed, String.toList_ofList]
    exact Scanner.standsAt_ofCursor _
  have hscan := Piece.reads_spans m.pieces_apart.1 hstart
  have hrun : (Reading.start d).run (Template.compileToken ctx) none (Piece.spans 0 m.pieces) =
      .ok m.blocks := by
    rw [← List.append_nil (Piece.spans 0 m.pieces), Reading.start, Reading.run_spans]
    simp [Reading.run, Reading.finish, Reading.list, Layout.kept_of_no_layout m.blocks_notLayout]
  rw [Template.ofText_eq_run hpreamble hdefaults hscan, hrun]

/-- A value in a loop in a condition, whose other part is written but empty. -/
theorem ofText_printed_value_in_loop :
    let ctx : TemplateContext := ⟨.source ⟨[], "t"⟩ .root none "none", .standard, ".txt"⟩
    let shown : StyledPath ctx.styles := ⟨⟨"html", .markup false⟩, ⟨["p", "0"]⟩, by decide,
      EscapeTable.find?_builtin (by decide), by decide, by decide⟩
    let m : Markup ctx.styles true := .divided .condition ⟨⟨["a_1"]⟩, by decide⟩
      (.branch .loop ⟨⟨["b", "c"]⟩, by decide⟩ (.value shown .nil) .nil) .nil
      (.text ⟨"\n]", by decide, by simp, by decide⟩ .nil)
    m.printed = "[if a_1][loop b.c]{html:p.0}[end][else][end]\n]" ∧
    Defaults.initial ctx .none = .ok ⟨none, .none⟩ ∧
    Template.ofText ctx m.printed = .ok ⟨ctx.id.shown, m.blocks⟩ := by
  intro ctx shown m
  have hdefaults : Defaults.initial ctx .none = .ok ⟨none, .none⟩ :=
    Defaults.initial_standard ..
  exact ⟨by decide, hdefaults, ofText_printed hdefaults m⟩

end TextTemplate
