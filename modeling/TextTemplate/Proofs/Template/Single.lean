import TextTemplate.Proofs.Template.Pieces
import TextTemplate.Proofs.Template.Stack

/-! A text that is one mark from its beginning to its end compiles to one block. -/

namespace TextTemplate

/-- The scanner reads the mark, and then there is nothing left. -/
theorem Scanner.reads_single {text : String} {m : Mark} {rest : List Char} {token : Token}
    (hread : MarkKind.all.findSome? (·.read? text.toList) = some (m, rest))
    (htoken : Token.ofMark ⟨Cursor.start text, (Cursor.start text).moveTo rest, m⟩ =
      .ok (token, ⟨Text.utf8Length text.toList, []⟩)) :
    Reads (.ofText text) [⟨token, 0, Text.utf8Length text.toList⟩] none := by
  have hsome : (Cursor.start text).rest ≠ [] := by
    obtain ⟨k, _, hk⟩ := List.exists_of_findSome?_eq_some hread
    obtain ⟨taken, htaken⟩ := MarkKind.read?_eq_append hk
    rw [Cursor.start, htaken]
    exact List.cons_ne_nil _ _
  have hplace : Token.ofPlace (Cursor.start text)
      (MarkKind.earliest? MarkKind.all (Cursor.start text)) =
      .ok (⟨token, 0, Text.utf8Length text.toList⟩, ⟨Text.utf8Length text.toList, []⟩) := by
    rw [MarkKind.earliest?_of_read (c := Cursor.start text) hread]
    simp only [Token.ofPlace, Nat.lt_irrefl, ↓reduceIte, htoken, Except.map]
    rfl
  obtain ⟨s, hstep, hs⟩ := (standsAt_ofCursor (Cursor.start text)).step hsome hplace
  refine .token hstep (.ended (Scanner.step_of_end hs.pushed ?_))
  rw [hs.here]

/-- The block that the one token of a text compiles to, or what is wrong with it, at the beginning
of the text. -/
theorem Template.ofText_single {ctx : TemplateContext} {text : String} {token : Token} {stop : Nat}
    (hpreamble : Preamble.find? text.toList = none)
    (hreads : Reads (.ofText text) [⟨token, 0, stop⟩] none) (hrole : token.role = .stands) :
    Template.ofText ctx text =
      match (Defaults.initial ctx .none).bind fun d => Block.ofToken ctx d token with
      | .ok (block, _) => .ok ⟨ctx.id.shown, Layout.kept [block]⟩
      | .error fault => .error ⟨ctx.id.shown, fault, ⟨1, 1⟩⟩ := by
  rw [Template.ofText_of_no_preamble hpreamble]
  cases Defaults.initial ctx .none with
  | error fault => simp only [placed, Except.bind, Position.ofOffset_zero]
  | ok d =>
    simp only [placed, Except.bind, Reading.readWhole_eq_run hreads]
    cases hblock : Block.ofToken ctx d token with
    | error fault =>
      simp only [Reading.run, Reading.token, hrole, compileToken, Reading.start, hblock, placed,
        Except.map, Position.ofOffset_zero]
    | ok result =>
      rw [Reading.start, Reading.run_block hrole hblock]
      rfl

end TextTemplate
