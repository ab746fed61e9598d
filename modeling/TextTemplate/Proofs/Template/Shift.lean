import TextTemplate.Proofs.Scan.Shift
import TextTemplate.Proofs.Template.Stack

/-! A text compiles to the same blocks wherever it stands, and has the same faults there, as far
further on as it is. -/

namespace TextTemplate

/-- Two outcomes of compiling one text at places `n` bytes apart: results that agree as `R` says, or
faults that read alike, the second one that much further on. -/
inductive Shifted (n : Nat) {α : Type} (R : α → α → Prop) :
    Except PlacedFault α → Except PlacedFault α → Prop
  | ok {a b : α} (agree : R a b) : Shifted n R (.ok a) (.ok b)
  | error {f g : PlacedFault} (message : g.fault.message = f.fault.message)
      (offset : g.offset = f.offset + n) : Shifted n R (.error f) (.error g)

namespace Shifted
variable {n : Nat} {α β : Type} {R : α → α → Prop} {x y : Except PlacedFault α}

theorem eq_ok {a : α} (h : Shifted n Eq x y) (hx : x = .ok a) : y = .ok a := by
  cases h with
  | ok agree => rw [← agree, hx]
  | error => cases hx

theorem ok_iff {a : α} (h : Shifted n Eq x y) : x = .ok a ↔ y = .ok a := by
  refine ⟨h.eq_ok, fun hy => ?_⟩
  cases h with
  | ok agree => rw [agree, hy]
  | error => cases hy

theorem map {S : β → β → Prop} {f g : α → β} (h : Shifted n R x y)
    (hfg : ∀ a b, R a b → S (f a) (g b)) : Shifted n S (x.map f) (y.map g) := by
  cases h with
  | ok agree => exact .ok (hfg _ _ agree)
  | error message offset => exact .error message offset

theorem placed {start : Nat} (x : Except ParseFault α) :
    Shifted n Eq (Template.placed start x) (Template.placed (start + n) x) := by
  cases x with
  | ok a => exact .ok rfl
  | error fault => exact .error rfl rfl

end Shifted

/-- Where a token stands makes no difference to its block. -/
def TokenCompiler.Shifts (compile : TokenCompiler) (n : Nat) : Prop :=
  ∀ d t, Shifted n Eq (compile d t) (compile d (t.shift n))

theorem Token.role_shift (n : Nat) (t : Token) : (t.shift n).role = t.role := by
  cases t <;> rfl

theorem Template.shifts_compileToken (ctx : TemplateContext) (n : Nat) :
    (compileToken ctx).Shifts n := fun d t => by
  have htoken : Block.ofToken ctx d (t.shift n).token = Block.ofToken ctx d t.token := by
    rw [Spanned.shift_token]
    cases t.token <;> rfl
  rw [compileToken, compileToken, htoken]
  exact .placed _

/-- Blocks before a text, the last one first, that change nothing in the layout of what follows. -/
def Layout.Inert (lead : List Block) : Prop :=
  ∀ blocks, kept (lead.reverse ++ blocks) = lead.reverse ++ kept blocks

namespace Reading

/-- The blocks of a list with `lead` in front of them, if no branch is open around the list. -/
def led (lead : List Block) (outer : List OpenBranch) (blocks : List Block) : List Block :=
  if outer = [] then blocks ++ lead else blocks

@[simp] theorem led_nil (lead blocks : List Block) : led lead [] blocks = blocks ++ lead := rfl

theorem cons_led (lead : List Block) (outer : List OpenBranch) (block : Block)
    (blocks : List Block) : led lead outer (block :: blocks) = block :: led lead outer blocks := by
  cases outer <;> rfl

def shiftOpened (n : Nat) (lead : List Block) : List OpenBranch → List OpenBranch
  | [] => []
  | b :: outer =>
    { b with offset := b.offset + n, before := led lead outer b.before } :: shiftOpened n lead outer

/-- The same reading of a text that stands `n` bytes further on, behind the blocks `lead`. -/
def shift (n : Nat) (lead : List Block) (r : Reading) : Reading :=
  ⟨shiftOpened n lead r.opened, r.defaults, led lead r.opened r.blocks⟩

variable {n : Nat} {compile : TokenCompiler}

theorem token_shift (hcompile : compile.Shifts n) (lead : List Block) (r : Reading)
    (t : Spanned) : Shifted n (fun r r' => r.shift n lead = r') (r.token compile t)
      ((r.shift n lead).token compile (t.shift n)) := by
  obtain ⟨opened, d, blocks⟩ := r
  simp only [token, shift, Spanned.shift_token, Token.role_shift, Spanned.shift_start]
  cases t.token.role with
  | divides =>
    cases opened with
    | nil => exact .error rfl rfl
    | cons b outer =>
      simp only [shiftOpened]
      split
      · exact .error rfl rfl
      · exact .ok rfl
  | closes =>
    cases opened with
    | nil => exact .error rfl rfl
    | cons b outer =>
      refine .ok ?_
      simp only [left, cons_led]
      rfl
  | opens kind param =>
    refine (Shifted.placed _).map fun path _ hpath => ?_
    rw [← hpath]
    rfl
  | stands =>
    refine (hcompile d t).map fun r _ hr => ?_
    rw [← hr]
    simp only [add, cons_led]

theorem finish_shift {lead : List Block} (hlead : Layout.Inert lead) (r : Reading) :
    Shifted n (fun bs bs' => lead.reverse ++ bs = bs') r.finish (r.shift n lead).finish := by
  obtain ⟨opened, d, blocks⟩ := r
  cases opened with
  | nil =>
    refine .ok ?_
    simp only [list, shift, led_nil, List.reverse_append]
    exact (hlead _).symm
  | cons b outer => exact .error rfl rfl

/-- Tokens further on, behind blocks that change nothing in the layout, give these blocks and then
those of the tokens where they stood. -/
theorem run_shift {lead : List Block} (hcompile : compile.Shifts n) (hlead : Layout.Inert lead)
    (r : Reading) (e : Option ScanError) (ts : List Spanned) :
    Shifted n (fun bs bs' => lead.reverse ++ bs = bs') (r.run compile e ts)
      ((r.shift n lead).run compile (e.map (·.shift n)) (ts.map (·.shift n))) := by
  induction ts generalizing r with
  | nil =>
    cases e with
    | none => exact finish_shift hlead r
    | some e =>
      obtain ⟨marker, offset⟩ := e
      exact .error rfl rfl
  | cons t ts ih =>
    have hstep := token_shift hcompile lead r t
    simp only [List.map_cons, run]
    generalize r.token compile t = x at hstep ⊢
    generalize (r.shift n lead).token compile (t.shift n) = y at hstep ⊢
    cases hstep with
    | error message offset => exact .error message offset
    | ok agree =>
      subst agree
      exact ih _

end Reading

/-- A text is read alike by any two scanners of it, wherever it stands for them. -/
theorem Template.readWhole_shift {n : Nat} {compile : TokenCompiler} (hcompile : compile.Shifts n)
    (d : Defaults) {s s' : Scanner} (hpushed : s.pushed = none) (hpushed' : s'.pushed = none)
    (hkinds : s'.kinds = s.kinds) (hhere : s'.here = s.here.shift n) :
    Shifted n Eq (readWhole compile d s) (readWhole compile d s') := by
  have hreads := Reads.of_tokens s
  have hshift := hreads.shift hpushed hpushed' hkinds hhere
  rw [Reading.readWhole_eq_run hreads, Reading.readWhole_eq_run hshift]
  exact Reading.run_shift hcompile (fun _ => rfl : Layout.Inert []) (.start d) s.tokens.2 s.tokens.1

end TextTemplate
