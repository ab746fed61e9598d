import TextTemplate.Proofs.Scan.Reads
import TextTemplate.Template.Parser

/-! Reading lists of blocks one inside the other is the same as reading token by token onto a stack
of open branches. -/

namespace TextTemplate

namespace Template

theorem bind_eq_ok_iff {ε α β : Type} {x : Except ε α} {f : α → Except ε β} {b : β} :
    x.bind f = .ok b ↔ ∃ a, x = .ok a ∧ f a = .ok b := by
  cases x <;> simp [Except.bind]

theorem bind_eq_error_iff {ε α β : Type} {x : Except ε α} {f : α → Except ε β} {e : ε} :
    x.bind f = .error e ↔ x = .error e ∨ ∃ a, x = .ok a ∧ f a = .error e := by
  cases x <;> simp [Except.bind]

theorem map_eq_error_iff {ε α β : Type} {x : Except ε α} {f : α → β} {e : ε} :
    x.map f = .error e ↔ x = .error e := by
  cases x <;> simp [Except.map]

theorem placed_eq_ok_iff {α : Type} {offset : Nat} {x : Except ParseFault α} {a : α} :
    placed offset x = .ok a ↔ x = .ok a := by
  cases x <;> simp [placed]

theorem placed_eq_error_iff {α : Type} {n : Nat} {x : Except ParseFault α} {f : PlacedFault} :
    placed n x = .error f ↔ ∃ fault, x = .error fault ∧ f = ⟨fault, n⟩ := by
  cases x <;> simp [placed, eq_comm]

theorem offset_of_placed_error {α : Type} {n : Nat} {x : Except ParseFault α} {f : PlacedFault}
    (h : placed n x = .error f) : n = f.offset := by
  obtain ⟨fault, _, rfl⟩ := placed_eq_error_iff.1 h
  rfl

end Template

/-- A branch whose end is not reached yet. -/
structure OpenBranch where
  kind : BranchKind
  path : DataPath
  offset : Nat
  /-- The settings in effect around the branch. -/
  outer : Defaults
  /-- The blocks before the branch, the last one first. -/
  before : List Block
  /-- The first part, once its other part has begun. -/
  main : Option (List Block)

/-- The branch as a block, if its last list of blocks is this one. -/
def OpenBranch.closed (b : OpenBranch) (last : List Block) : Block :=
  match b.main with
  | some main => .branch b.kind b.path main last
  | none => .branch b.kind b.path last []

/-- What was read of a template: the open branches, the innermost first, and the blocks of the
innermost list, the last one first. -/
structure Reading where
  opened : List OpenBranch
  defaults : Defaults
  blocks : List Block

namespace Reading

def start (d : Defaults) : Reading := ⟨[], d, []⟩

/-- The list that was read last, without its layout. -/
def list (r : Reading) : List Block := Layout.kept r.blocks.reverse

/-- Goes on with a block, after which these settings are in effect. -/
def add (r : Reading) (b : Block) (d : Defaults) : Reading := ⟨r.opened, d, b :: r.blocks⟩

def openBranch (r : Reading) (kind : BranchKind) (path : DataPath) (offset : Nat) : Reading :=
  ⟨⟨kind, path, offset, r.defaults, r.blocks, none⟩ :: r.opened, r.defaults, []⟩

/-- Begins the other part of the branch `b`, with the settings from around the branch. -/
def divided (b : OpenBranch) (outer : List OpenBranch) (main : List Block) : Reading :=
  ⟨{ b with main := some main } :: outer, b.outer, []⟩

/-- Ends the branch `b`. -/
def left (b : OpenBranch) (outer : List OpenBranch) (last : List Block) : Reading :=
  ⟨outer, b.outer, b.closed last :: b.before⟩

/-- Goes on with one token. -/
def token (compile : TokenCompiler) (r : Reading) (t : Spanned) : Except PlacedFault Reading :=
  match t.token.role, r.opened with
  | .divides, b :: outer =>
    if b.main.isSome then .error ⟨.elseOutside, t.start⟩ else .ok (divided b outer r.list)
  | .divides, [] => .error ⟨.elseOutside, t.start⟩
  | .closes, b :: outer => .ok (left b outer r.list)
  | .closes, [] => .error ⟨.endOutside, t.start⟩
  | .opens kind param, _ =>
    (Template.placed t.start (Block.branchPath kind param)).map fun path =>
      r.openBranch kind path t.start
  | .stands, _ => (compile r.defaults t).map fun (b, d) => r.add b d

/-- The blocks that were read, if every branch has its end. -/
def finish (r : Reading) : Except PlacedFault (List Block) :=
  match r.opened with
  | [] => .ok r.list
  | b :: _ => .error ⟨.missingEnd, b.offset⟩

/-- Goes on to the end of the tokens, or to the first fault. -/
def run (compile : TokenCompiler) (r : Reading) (e : Option ScanError) :
    List Spanned → Except PlacedFault (List Block)
  | [] =>
    match e with
    | none => r.finish
    | some e => .error ⟨.scan e, e.offset⟩
  | t :: ts =>
    match r.token compile t with
    | .error fault => .error fault
    | .ok r => r.run compile e ts

/-- The part that is read inside of the open branches, and where the branch around it was opened. -/
inductive Inside : Part → Nat → List OpenBranch → Prop
  | whole {opened : Nat} : Inside .whole opened []
  | main {b : OpenBranch} {outer : List OpenBranch} (undivided : b.main = none) :
      Inside .main b.offset (b :: outer)
  | otherwise {b : OpenBranch} {outer : List OpenBranch} {main : List Block}
      (divided : b.main = some main) : Inside .otherwise b.offset (b :: outer)

/-- What reading one list by itself says of the outcome of the whole run: its fault is that of the
run, and where the list ends, the run goes on with what is left. -/
def Foretells (compile : TokenCompiler) (e : Option ScanError) (part : Part)
    (opened : List OpenBranch) (outcome : Except PlacedFault (List Block)) {s : Scanner} :
    Except PlacedFault (ListRead s) → Prop
  | .error fault => outcome = .error fault
  | .ok l =>
    match part, opened with
    | .whole, _ => outcome = .ok l.blocks
    | .main, b :: outer =>
      ∃ ts, Reads l.after ts e ∧ outcome = (divided b outer l.blocks).run compile e ts
    | .otherwise, b :: outer =>
      ∃ ts, Reads l.after ts e ∧ outcome = (left b outer l.blocks).run compile e ts
    | _, [] => False

section
variable {compile : TokenCompiler} {e : Option ScanError} {part part' : Part}
  {opened opened' : List OpenBranch} {outcome : Except PlacedFault (List Block)} {s s₁ : Scanner}
  {x : Except PlacedFault (ListRead s₁)}

/-- A fault in a first list is the fault of the whole; if there is none, what is read after the list
foretells the rest. -/
theorem Foretells.bind {next : ListRead s₁ → Except PlacedFault (ListRead s)}
    (hx : Foretells compile e part' opened' outcome x)
    (hnext : ∀ l : ListRead s₁, Foretells compile e part' opened' outcome (.ok l) →
      Foretells compile e part opened outcome (next l)) :
    Foretells compile e part opened outcome (x.bind next) := by
  cases x with
  | error fault => exact hx
  | ok l => exact hnext l hx

theorem Foretells.since (hx : Foretells compile e part opened outcome x) (h : s₁.left ≤ s.left) :
    Foretells compile e part opened outcome (x.bind fun l => .ok (l.since h)) :=
  hx.bind fun _ hl => hl

end

/-- Reading a list agrees with the run on the stack, whatever is open around it. -/
theorem readList_foretells {compile : TokenCompiler} {e : Option ScanError} {part : Part}
    {opened : Nat} {r : Reading} {s : Scanner} {ts : List Spanned}
    (hin : Inside part opened r.opened) (hs : Reads s ts e) :
    Foretells compile e part r.opened (r.run compile e ts)
      (Template.readList compile part opened r.defaults r.blocks s) := by
  induction hleft : s.left using Nat.strongRecOn generalizing part opened r s ts with
  | ind n ih =>
    subst hleft
    obtain ⟨frames, d, blocks⟩ := r
    simp only at hin
    unfold Template.readList
    split
    · rename_i e' s' hstep
      obtain ⟨rfl, rfl⟩ := hs.unique (.failed hstep)
      exact rfl
    · rename_i s' hstep
      obtain ⟨rfl, rfl⟩ := hs.unique (.ended hstep)
      cases hin <;> exact rfl
    · rename_i t s₁ hstep
      have hfewer := Scanner.left_of_step hstep
      cases hs with
      | ended step | failed step => simp [hstep] at step
      | @token _ _ _ ts _ step rest =>
        rw [hstep] at step
        cases step
        cases hrole : t.token.role with
        | divides =>
          cases hin with
          | whole => simp [Foretells, run, token, hrole]
          | main undivided =>
            refine ⟨ts, rest, ?_⟩
            simp [run, token, hrole, undivided, list]
          | otherwise divided => simp [Foretells, run, token, hrole, divided]
        | closes =>
          cases hin with
          | whole => simp [Foretells, run, token, hrole]
          | @main b outer undivided =>
            -- The end that is put back closes the other part, which has no blocks.
            refine ⟨t :: ts, rest.push t (Scanner.pushed_of_step hstep), ?_⟩
            simp [run, token, hrole, left, divided, OpenBranch.closed, undivided, list, Layout.kept,
              Layout.elide, Layout.elideAfter]
          | otherwise divided =>
            refine ⟨ts, rest, ?_⟩
            simp [run, token, hrole, list]
        | opens kind param =>
          simp only [run, token, hrole]
          cases hpath : Template.placed t.start (Block.branchPath kind param) with
          | error fault => exact rfl
          | ok path =>
            let b : OpenBranch := ⟨kind, path, t.start, d, blocks, none⟩
            have hmain := ih _ hfewer (r := ⟨b :: frames, d, []⟩) (.main (b := b) rfl) rest rfl
            refine hmain.bind fun main hmain => ?_
            obtain ⟨us, hus, hrun⟩ := hmain
            have hfewer := Nat.lt_of_le_of_lt main.left_le hfewer
            have hother := ih _ hfewer (r := divided b frames main.blocks)
              (.otherwise (b := { b with main := some main.blocks }) rfl) hus rfl
            rw [← hrun] at hother
            refine hother.bind fun other hother => ?_
            obtain ⟨vs, hvs, hrun⟩ := hother
            have hfewer := Nat.lt_of_le_of_lt other.left_le hfewer
            have hrest := ih _ hfewer (r := left { b with main := some main.blocks } frames
              other.blocks) hin hvs rfl
            rw [← hrun] at hrest
            exact hrest.since _
        | stands =>
          simp only [run, token, hrole]
          cases hblock : compile d t with
          | error fault => exact rfl
          | ok result =>
            obtain ⟨b, d'⟩ := result
            have hrest := ih _ hfewer (r := ⟨frames, d', b :: blocks⟩) hin rest rfl
            exact hrest.since _

/-- The blocks of a whole text are those that the run on the stack gives for its tokens. -/
theorem readWhole_eq_run {compile : TokenCompiler} {d : Defaults} {s : Scanner}
    {ts : List Spanned} {e : Option ScanError} (hs : Reads s ts e) :
    Template.readWhole compile d s = (start d).run compile e ts := by
  have hread : Foretells compile e .whole [] ((start d).run compile e ts)
      (Template.readList compile .whole 0 d [] s) := readList_foretells (r := start d) .whole hs
  unfold Template.readWhole
  cases h : Template.readList compile .whole 0 d [] s with
  | error fault =>
    rw [h] at hread
    exact hread.symm
  | ok l =>
    rw [h] at hread
    exact hread.symm

/-- A token that stands for itself adds its block to the list that is read. -/
theorem run_block {ctx : TemplateContext} {frames : List OpenBranch} {d d' : Defaults}
    {before : List Block} {start stop : Nat} {e : Option ScanError} {ts : List Spanned}
    {token : Token} {block : Block} (hrole : token.role = .stands)
    (hblock : Block.ofToken ctx d token = .ok (block, d')) :
    run (Template.compileToken ctx) ⟨frames, d, before⟩ e (⟨token, start, stop⟩ :: ts) =
      run (Template.compileToken ctx) ⟨frames, d', block :: before⟩ e ts := by
  simp [run, Reading.token, hrole, Template.compileToken, hblock, Template.placed, Except.map, add]

end Reading

theorem Template.ofText_eq_ok_iff {ctx : TemplateContext} {text : String} {p : Prepared}
    {t : Template} (hprepared : Prepared.ofText text = .ok p) :
    ofText ctx text = .ok t ↔
      ∃ blocks, readPrepared ctx p = .ok blocks ∧ t = ⟨ctx.id.shown, blocks⟩ := by
  simp only [ofText, hprepared]
  cases readPrepared ctx p <;> simp [eq_comm]

/-- A text without a preamble is read as it stands, and its faults are placed where they are. -/
theorem Template.ofText_of_no_preamble {ctx : TemplateContext} {text : String}
    (hpreamble : Preamble.find? text.toList = none) :
    Template.ofText ctx text =
      match (placed 0 (Defaults.initial ctx .none)).bind fun d =>
        readWhole (compileToken ctx) d (.ofText text) with
      | .ok blocks => .ok ⟨ctx.id.shown, blocks⟩
      | .error ⟨fault, offset⟩ =>
        .error ⟨ctx.id.shown, fault, Position.ofOffset text offset⟩ := by
  have hprepared : Prepared.ofText text = .ok ⟨text.toList, .none, none⟩ := by
    simp [Prepared.ofText, hpreamble]
  have hread : readPrepared ctx ⟨text.toList, .none, none⟩ =
      (placed 0 (Defaults.initial ctx .none)).bind fun d =>
        readWhole (compileToken ctx) d (.ofText text) := rfl
  simp only [ofText, hprepared, hread, Prepared.writtenOffset]
  generalize (placed 0 (Defaults.initial ctx .none)).bind _ = x
  cases x <;> rfl

/-- A text without a preamble is compiled by the run on the stack, which gives its faults their
places. -/
theorem Template.ofText_eq_run {ctx : TemplateContext} {text : String} {d : Defaults}
    {ts : List Spanned} {e : Option ScanError} (hpreamble : Preamble.find? text.toList = none)
    (hdefaults : Defaults.initial ctx .none = .ok d) (hscan : Reads (.ofText text) ts e) :
    Template.ofText ctx text =
      match (Reading.start d).run (compileToken ctx) e ts with
      | .ok blocks => .ok ⟨ctx.id.shown, blocks⟩
      | .error ⟨fault, offset⟩ =>
        .error ⟨ctx.id.shown, fault, Position.ofOffset text offset⟩ := by
  rw [ofText_of_no_preamble hpreamble, hdefaults, ← Reading.readWhole_eq_run hscan]
  rfl

end TextTemplate
