import TextTemplate.Proofs.Template.Stack

/-! Which texts compile as far as their branches go: those whose directives a stack of open blocks
accepts, and where it refuses one, compiling fails there. -/

namespace TextTemplate

/-- What an open block may still meet of its own. -/
inductive Expects where
  | elseOrEnd
  | endOnly
  deriving DecidableEq, Repr

structure OpenBlock where
  expects : Expects
  /-- Where the directive stands that opened the block. -/
  offset : Nat
  deriving DecidableEq, Repr

/-- What is wrong with the nesting of directives, and at which byte. -/
inductive Violation where
  | elseOutside (offset : Nat)
  | endOutside (offset : Nat)
  | missingEnd (offset : Nat)
  deriving DecidableEq, Repr

namespace Violation

def message : Violation → String
  | elseOutside _ => "[else] without an open [if], [loop] or [use]"
  | endOutside _ => "[end] without an open block"
  | missingEnd _ => "missing [end]"

def offset : Violation → Nat
  | elseOutside offset | endOutside offset | missingEnd offset => offset

/-- The fault that compiling reports. -/
def fault : Violation → ParseFault
  | elseOutside _ => .elseOutside
  | endOutside _ => .endOutside
  | missingEnd _ => .missingEnd

theorem message_fault (v : Violation) : v.fault.message = v.message := by
  cases v <;> rfl

end Violation

namespace Nesting

/-- What one token does to the open blocks, the innermost first. -/
def step (opened : List OpenBlock) (t : Spanned) : Except Violation (List OpenBlock) :=
  match t.token with
  | .directive name _ =>
    if name ∈ ["if", "loop", "use"] then .ok (⟨.elseOrEnd, t.start⟩ :: opened)
    else if name = "else" then
      match opened with
      | ⟨.elseOrEnd, offset⟩ :: outer => .ok (⟨.endOnly, offset⟩ :: outer)
      | _ => .error (.elseOutside t.start)
    else if name = "end" then
      match opened with
      | _ :: outer => .ok outer
      | [] => .error (.endOutside t.start)
    else .ok opened
  | _ => .ok opened

/-- Accepts the tokens, or gives the first violation. -/
def check : List OpenBlock → List Spanned → Except Violation Unit
  | [], [] => .ok ()
  | b :: _, [] => .error (.missingEnd b.offset)
  | opened, t :: ts =>
    match step opened t with
    | .ok opened => check opened ts
    | .error v => .error v

end Nesting

/-- The settings in effect at a place, and those around each of the blocks open there. -/
structure Surroundings where
  here : Defaults
  around : List Defaults

/-- What is in effect after a token. -/
def Surroundings.after (ctx : TemplateContext) (s : Surroundings) (t : Spanned) : Surroundings :=
  match t.token.role with
  | .opens .. => ⟨s.here, s.here :: s.around⟩
  | .divides => ⟨s.around.headD s.here, s.around⟩
  | .closes => ⟨s.around.headD s.here, s.around.tail⟩
  | .stands =>
    match Block.ofToken ctx s.here t.token with
    | .ok (_, d) => ⟨d, s.around⟩
    | .error _ => s

/-- Apart from its place among other directives, nothing is wrong with a token. -/
def Compiles (ctx : TemplateContext) (d : Defaults) (t : Spanned) : Prop :=
  match t.token.role with
  | .opens kind param => ∃ path, Block.branchPath kind param = .ok path
  | .divides | .closes => True
  | .stands => ∃ result, Block.ofToken ctx d t.token = .ok result

/-- Every token compiles where it stands, as long as no violation comes before it. -/
def EachCompiles (ctx : TemplateContext) (opened : List OpenBlock) (s : Surroundings)
    (ts : List Spanned) : Prop :=
  ∀ before t after, ts = before ++ t :: after →
    (∃ opened', before.foldlM Nesting.step opened = .ok opened') →
    Compiles ctx (before.foldl (·.after ctx) s).here t

namespace EachCompiles
variable {ctx : TemplateContext} {opened : List OpenBlock} {s : Surroundings} {t : Spanned}
  {ts : List Spanned}

theorem head (h : EachCompiles ctx opened s (t :: ts)) : Compiles ctx s.here t :=
  h [] t ts rfl ⟨opened, rfl⟩

theorem tail {opened' : List OpenBlock} (h : EachCompiles ctx opened s (t :: ts))
    (hstep : Nesting.step opened t = .ok opened') :
    EachCompiles ctx opened' (s.after ctx t) ts := by
  rintro before u after rfl ⟨reached, hreached⟩
  refine h (t :: before) u after rfl ⟨reached, ?_⟩
  simpa [List.foldlM_cons, hstep, bind, Except.bind] using hreached

theorem cons (hhead : Compiles ctx s.here t)
    (htail : ∀ opened', Nesting.step opened t = .ok opened' →
      EachCompiles ctx opened' (s.after ctx t) ts) : EachCompiles ctx opened s (t :: ts) := by
  rintro before u after hts ⟨reached, hreached⟩
  cases before with
  | nil =>
    cases hts
    exact hhead
  | cons v before =>
    cases hts
    cases hstep : Nesting.step opened t with
    | error v => simp [List.foldlM_cons, hstep, bind, Except.bind] at hreached
    | ok opened' =>
      simp only [List.foldlM_cons, hstep, bind, Except.bind] at hreached
      exact htail opened' hstep before u after rfl ⟨reached, hreached⟩

end EachCompiles

/-- Only the names of directives matter to the nesting, and only by their role. -/
theorem Nesting.step_eq (opened : List OpenBlock) (t : Spanned) :
    step opened t =
      match t.token.role, opened with
      | .opens .., _ => .ok (⟨.elseOrEnd, t.start⟩ :: opened)
      | .divides, ⟨.elseOrEnd, offset⟩ :: outer => .ok (⟨.endOnly, offset⟩ :: outer)
      | .divides, _ => .error (.elseOutside t.start)
      | .closes, _ :: outer => .ok outer
      | .closes, [] => .error (.endOutside t.start)
      | .stands, _ => .ok opened := by
  obtain ⟨token, start, stop⟩ := t
  cases token with
  | directive name param =>
    by_cases hif : name = "if"
    · subst hif
      rfl
    by_cases hloop : name = "loop"
    · subst hloop
      rfl
    by_cases huse : name = "use"
    · subst huse
      rfl
    by_cases helse : name = "else"
    · subst helse
      rcases opened with _ | ⟨⟨_ | _, _⟩, _⟩ <;> rfl
    by_cases hend : name = "end"
    · subst hend
      cases opened <;> rfl
    have hkind : BranchKind.ofName? name = none := by
      unfold BranchKind.ofName?
      split <;> simp_all
    have hrole : (Token.directive name param).role = .stands := by
      unfold Token.role
      split <;> simp_all
    simp [step, hrole, hif, hloop, huse, helse, hend]
  | text | comment | value | hereDocument | resource => rfl

namespace OpenBranch

/-- An open branch as the nesting sees it. -/
def nested (b : OpenBranch) : OpenBlock :=
  ⟨if b.main.isSome then .endOnly else .elseOrEnd, b.offset⟩

end OpenBranch

namespace Reading

def nested (r : Reading) : List OpenBlock := r.opened.map (·.nested)

def surroundings (r : Reading) : Surroundings := ⟨r.defaults, r.opened.map (·.outer)⟩

/-- A token that compiles goes on with the blocks that the nesting leaves open, and one that the
nesting refuses is refused. -/
theorem token_agrees {ctx : TemplateContext} {r : Reading} {t : Spanned}
    (hc : Compiles ctx r.defaults t) :
    match Nesting.step r.nested t with
    | .error v => r.token (Template.compileToken ctx) t = .error ⟨v.fault, v.offset⟩
    | .ok opened => ∃ r', r.token (Template.compileToken ctx) t = .ok r' ∧ r'.nested = opened ∧
        r'.surroundings = r.surroundings.after ctx t := by
  obtain ⟨frames, d, blocks⟩ := r
  rw [Nesting.step_eq]
  simp only [token, surroundings, Surroundings.after]
  simp only [Compiles] at hc
  cases hrole : t.token.role with
  | opens kind param =>
    simp only [hrole] at hc
    obtain ⟨path, hpath⟩ := hc
    simp [hpath, Template.placed, Except.map, openBranch, nested, OpenBranch.nested]
  | divides =>
    cases frames with
    | nil => simp [nested, Violation.fault, Violation.offset]
    | cons b outer =>
      cases hmain : b.main with
      | none => simp [nested, OpenBranch.nested, hmain, divided]
      | some main => simp [nested, OpenBranch.nested, hmain, Violation.fault, Violation.offset]
  | closes =>
    cases frames with
    | nil => simp [nested, Violation.fault, Violation.offset]
    | cons b outer => simp [nested, left]
  | stands =>
    simp only [hrole] at hc
    obtain ⟨⟨block, d'⟩, hblock⟩ := hc
    simp [hblock, Template.compileToken, Template.placed, Except.map, add, nested]

/-- Over a run, the nesting finds the fault that ends it, or none does. -/
theorem run_agrees {ctx : TemplateContext} {r : Reading} {ts : List Spanned}
    (hc : EachCompiles ctx r.nested r.surroundings ts) :
    match Nesting.check r.nested ts with
    | .error v => r.run (Template.compileToken ctx) none ts = .error ⟨v.fault, v.offset⟩
    | .ok _ => ∃ blocks, r.run (Template.compileToken ctx) none ts = .ok blocks := by
  induction ts generalizing r with
  | nil =>
    obtain ⟨frames, d, blocks⟩ := r
    cases frames with
    | nil => exact ⟨_, rfl⟩
    | cons b outer => rfl
  | cons t ts ih =>
    have hagrees := token_agrees (r := r) hc.head
    simp only [Nesting.check, run]
    cases hstep : Nesting.step r.nested t with
    | error v =>
      rw [hstep] at hagrees
      simp only at hagrees
      simp only [hagrees]
    | ok opened =>
      rw [hstep] at hagrees
      obtain ⟨r', htoken, rfl, hsurroundings⟩ := hagrees
      have htail := hc.tail hstep
      rw [← hsurroundings] at htail
      simp only [htoken]
      exact ih htail

end Reading

/-- A text without a preamble, in which nothing is wrong but perhaps the nesting, compiles exactly
if the stack of open blocks accepts its directives. If not, the first violation is the error, at its
place in the text. -/
theorem ofText_nesting {ctx : TemplateContext} {text : String} {d : Defaults} {ts : List Spanned}
    (hpreamble : Preamble.find? text.toList = none)
    (hdefaults : Defaults.initial ctx .none = .ok d)
    (hscan : Reads (.ofText text) ts none) (hc : EachCompiles ctx [] ⟨d, []⟩ ts) :
    ((∃ template, Template.ofText ctx text = .ok template) ↔ Nesting.check [] ts = .ok ()) ∧
    ∀ v, Nesting.check [] ts = .error v → ∃ e, Template.ofText ctx text = .error e ∧
      e.template = ctx.id.shown ∧ e.message = v.message ∧
      e.position = Position.ofOffset text v.offset := by
  have hagrees := Reading.run_agrees (r := .start d) hc
  rw [Template.ofText_eq_run hpreamble hdefaults hscan]
  cases hcheck : Nesting.check [] ts with
  | ok u =>
    rw [show (Reading.start d).nested = [] from rfl, hcheck] at hagrees
    obtain ⟨blocks, hblocks⟩ := hagrees
    simp [hblocks]
  | error v =>
    rw [show (Reading.start d).nested = [] from rfl, hcheck] at hagrees
    simp only at hagrees
    simp [hagrees, ParseError.message, Violation.message_fault]

/-- A branch with its other part begun twice: the second time is refused where it stands. -/
theorem ofText_nesting_second_else :
    let ctx : TemplateContext := ⟨.source ⟨[], "t"⟩ .root none "none", .standard, ".txt"⟩
    let text := "[if a]x[else]y[else]z[end]"
    let d : Defaults := ⟨none, .none⟩
    let ts : List Spanned := [⟨.directive "if" "a", 0, 6⟩, ⟨.text "x", 6, 7⟩,
      ⟨.directive "else" "", 7, 13⟩, ⟨.text "y", 13, 14⟩, ⟨.directive "else" "", 14, 20⟩,
      ⟨.text "z", 20, 21⟩, ⟨.directive "end" "", 21, 26⟩]
    Preamble.find? text.toList = none ∧ Defaults.initial ctx .none = .ok d ∧
    Reads (.ofText text) ts none ∧ EachCompiles ctx [] ⟨d, []⟩ ts ∧
    Nesting.check [] ts = .error (.elseOutside 14) ∧
    ((∃ template, Template.ofText ctx text = .ok template) ↔ Nesting.check [] ts = .ok ()) ∧
    ∀ v, Nesting.check [] ts = .error v → ∃ e, Template.ofText ctx text = .error e ∧
      e.template = ctx.id.shown ∧ e.message = v.message ∧
      e.position = Position.ofOffset text v.offset := by
  intro ctx text d ts
  have hpreamble : Preamble.find? text.toList = none := Option.isNone_iff_eq_none.1 (by decide)
  have hdefaults : Defaults.initial ctx .none = .ok d := Defaults.initial_standard ..
  have hscan : Reads (.ofText text) ts none := by
    show Reads (.ofText "[if a]x[else]y[else]z[end]") _ none
    iterate 7 refine .token (by rfl) ?_
    exact .ended (by rfl)
  have hc : EachCompiles ctx [] ⟨d, []⟩ ts := by
    refine .cons ⟨⟨["a"]⟩, rfl⟩ fun opened h => ?_
    cases h
    refine .cons ⟨(.text "x" false, d), rfl⟩ fun opened h => ?_
    cases h
    refine .cons trivial fun opened h => ?_
    cases h
    refine .cons ⟨(.text "y" false, d), rfl⟩ fun opened h => ?_
    cases h
    refine .cons trivial fun opened h => ?_
    cases h
  exact ⟨hpreamble, hdefaults, hscan, hc, rfl, ofText_nesting hpreamble hdefaults hscan hc⟩

end TextTemplate
