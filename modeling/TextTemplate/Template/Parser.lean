import TextTemplate.Scan.Scanner
import TextTemplate.Template.BlockReader
import TextTemplate.Template.Layout

/-! Compiling a text: a list of blocks is read token by token, and so are the two lists of every
branch in it, one inside the other. Every list loses its layout when it ends. -/

namespace TextTemplate

/-- What a list of blocks is a part of, and so what may end it. -/
inductive Part where
  /-- A whole text, which ends where the text does. -/
  | whole
  /-- The first part of a branch. It ends where the other part begins, or with the branch. -/
  | main
  /-- The other part of a branch, which ends with the branch. -/
  | otherwise
  deriving DecidableEq, Repr

/-- What a token does to the lists of blocks around it. -/
inductive Role where
  | opens (kind : BranchKind) (param : String)
  | divides
  | closes
  | stands
  deriving DecidableEq, Repr

def Token.role : Token → Role
  | .directive "else" _ => .divides
  | .directive "end" _ => .closes
  | .directive name param =>
    match BranchKind.ofName? name with
    | some kind => .opens kind param
    | none => .stands
  | _ => .stands

/-- How a token that stands for itself becomes a block, and what is in effect after it. -/
abbrev TokenCompiler := Defaults → Spanned → Except PlacedFault (Block × Defaults)

/-- A list of blocks, and the scanner behind it. -/
structure ListRead (s : Scanner) where
  blocks : List Block
  after : Scanner
  left_le : after.left ≤ s.left

/-- The same list, read by a scanner that had more left. -/
def ListRead.since {s₁ s : Scanner} (h : s₁.left ≤ s.left) (r : ListRead s₁) : ListRead s :=
  ⟨r.blocks, r.after, Nat.le_trans r.left_le h⟩

namespace Template

def placed (offset : Nat) {α : Type} : Except ParseFault α → Except PlacedFault α
  | .ok a => .ok a
  | .error fault => .error ⟨fault, offset⟩

theorem left_push_of_step {s s₁ : Scanner} {t : Spanned} (h : s.step = (.ok (some t), s₁)) :
    (s₁.push t).left ≤ s.left := by
  have := Scanner.left_push s₁ t
  have := Scanner.left_of_step h
  omega

/-- Reads a list up to its end, where `before` are its blocks so far, the last one first. `opened`
is where the directive stands that opened the branch around it. -/
def readList (compile : TokenCompiler) (part : Part) (opened : Nat) (d : Defaults)
    (before : List Block) (s : Scanner) : Except PlacedFault (ListRead s) :=
  match h : s.step with
  | (.error e, _) => .error ⟨.scan e, e.offset⟩
  | (.ok none, _) =>
    match part with
    | .whole => .ok ⟨Layout.kept before.reverse, s, Nat.le_refl _⟩
    | _ => .error ⟨.missingEnd, opened⟩
  | (.ok (some t), s₁) =>
    have hleft := Nat.le_of_lt (Scanner.left_of_step h)
    match t.token.role with
    | .divides =>
      match part with
      | .main => .ok ⟨Layout.kept before.reverse, s₁, hleft⟩
      | _ => .error ⟨.elseOutside, t.start⟩
    | .closes =>
      match part with
      | .whole => .error ⟨.endOutside, t.start⟩
      -- The end is put back for the other part, which is empty.
      | .main => .ok ⟨Layout.kept before.reverse, s₁.push t, left_push_of_step h⟩
      | .otherwise => .ok ⟨Layout.kept before.reverse, s₁, hleft⟩
    | .opens kind param => do
      let path ← placed t.start (Block.branchPath kind param)
      let main ← readList compile .main t.start d [] s₁
      let other ← readList compile .otherwise t.start d [] main.after
      let block := Block.branch kind path main.blocks other.blocks
      let rest ← readList compile part opened d (block :: before) other.after
      .ok (rest.since (Nat.le_trans other.left_le (Nat.le_trans main.left_le hleft)))
    | .stands => do
      let (block, d) ← compile d t
      let rest ← readList compile part opened d (block :: before) s₁
      .ok (rest.since hleft)
termination_by s.left
decreasing_by
  all_goals have := Scanner.left_of_step h
  · exact this
  · have := main.left_le
    omega
  · have := main.left_le
    have := other.left_le
    omega
  · exact this

/-- The blocks of a whole text. -/
def readWhole (compile : TokenCompiler) (d : Defaults) (s : Scanner) :
    Except PlacedFault (List Block) :=
  (readList compile .whole 0 d [] s).map (·.blocks)

def compileToken (ctx : TemplateContext) : TokenCompiler := fun d t =>
  placed t.start (Block.ofToken ctx d t.token)

/-- A token of a text in which only the bodies of here-documents are template text. -/
def compileInverted (ctx : TemplateContext) : TokenCompiler := fun d t =>
  match t.token with
  | .hereDocument escape none _ _ body bodyStart => do
    let escape ← placed t.start (d.style ctx escape)
    let body := Scanner.ofCursor ⟨bodyStart, body.toList⟩
    let blocks ← readWhole (compileToken ctx) { d with escape } body
    .ok (.nested blocks, d)
  | .hereDocument .. => .error ⟨.valueInInverted, t.start⟩
  | _ => compileToken ctx d t

/-- The blocks of a prepared text. -/
def readPrepared (ctx : TemplateContext) (p : Prepared) : Except PlacedFault (List Block) := do
  let d ← placed 0 (Defaults.initial ctx p.settings)
  let c : Cursor := ⟨0, p.text⟩
  if p.settings.inverted then readWhole (compileInverted ctx) d (.ofKinds [.hereDocument] c)
  else readWhole (compileToken ctx) d (.ofCursor c)

/-- Compiles a template text. Errors stand where they are in the text as given. -/
def ofText (ctx : TemplateContext) (text : String) : Except ParseError Template :=
  let fail (fault : ParseFault) (offset : Nat) : ParseError :=
    ⟨ctx.id.shown, fault, Position.ofOffset text offset⟩
  match Prepared.ofText text with
  | .error (fault, offset) => .error (fail (.preamble fault) offset)
  | .ok p =>
    match readPrepared ctx p with
    | .ok blocks => .ok ⟨ctx.id.shown, blocks⟩
    | .error e => .error (fail e.fault (p.writtenOffset e.offset))

end Template

end TextTemplate
