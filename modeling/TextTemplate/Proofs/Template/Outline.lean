import TextTemplate.Proofs.Template.Stack

/-! The blocks of a template together with the tokens that they were read from. -/

namespace TextTemplate

/-- A block and what it was read from. -/
inductive Node where
  | leaf (token : Spanned) (block : Block)
  /-- A branch, with the tokens that open, divide and close it. -/
  | branch (kind : BranchKind) (path : DataPath) (opening : Spanned) (main : List Node)
      (divider : Option Spanned) (otherwise : List Node) (closing : Spanned)

namespace Node

mutual

def tokens : Node → List Spanned
  | leaf token _ => [token]
  | branch _ _ opening main divider otherwise closing =>
    opening :: (tokensAll main ++ (divider.toList ++ (tokensAll otherwise ++ [closing])))

def tokensAll : List Node → List Spanned
  | [] => []
  | n :: rest => tokens n ++ tokensAll rest

end

mutual

def block : Node → Block
  | leaf _ block => block
  | branch kind path _ main _ otherwise _ =>
    .branch kind path (Layout.kept (blockAll main)) (Layout.kept (blockAll otherwise))

def blockAll : List Node → List Block
  | [] => []
  | n :: rest => block n :: blockAll rest

end

/-- The blocks of a list of nodes, without their layout. -/
def blocks (nodes : List Node) : List Block := Layout.kept (blockAll nodes)

theorem tokensAll_append (xs ys : List Node) :
    tokensAll (xs ++ ys) = tokensAll xs ++ tokensAll ys := by
  induction xs with
  | nil => rfl
  | cons n rest ih => simp [tokensAll, ih]

theorem blockAll_append (xs ys : List Node) :
    blockAll (xs ++ ys) = blockAll xs ++ blockAll ys := by
  induction xs with
  | nil => rfl
  | cons n rest ih => simp [blockAll, ih]

end Node

/-- A branch whose end is not reached yet, and what was read before it and in it. -/
structure OpenNode where
  kind : BranchKind
  path : DataPath
  opening : Spanned
  /-- The settings in effect around the branch. -/
  outer : Defaults
  before : List Node
  /-- The first part and the token that divides it from the other, once that was read. -/
  main : Option (List Node × Spanned)

namespace OpenNode

def frame (b : OpenNode) : OpenBranch :=
  ⟨b.kind, b.path, b.opening.start, b.outer, (Node.blockAll b.before).reverse,
    b.main.map fun m => Node.blocks m.1⟩

/-- The branch as a node, if its last list is this one. -/
def closed (b : OpenNode) (last : List Node) (closing : Spanned) : Node :=
  match b.main with
  | some (main, divider) => .branch b.kind b.path b.opening main (some divider) last closing
  | none => .branch b.kind b.path b.opening last none [] closing

def tokens (b : OpenNode) : List Spanned :=
  Node.tokensAll b.before ++
    b.opening :: b.main.elim [] fun m => Node.tokensAll m.1 ++ [m.2]

theorem tokens_closed (b : OpenNode) (last : List Node) (closing : Spanned) :
    Node.tokensAll b.before ++ (b.closed last closing).tokens =
      b.tokens ++ (Node.tokensAll last ++ [closing]) := by
  obtain ⟨kind, path, opening, outer, before, main⟩ := b
  rcases main with _ | ⟨main, divider⟩ <;>
    simp [closed, tokens, Node.tokens, Node.tokensAll]

theorem block_closed (b : OpenNode) (last : List Node) (closing : Spanned) :
    (b.closed last closing).block = b.frame.closed (Node.blocks last) := by
  obtain ⟨kind, path, opening, outer, before, main⟩ := b
  rcases main with _ | ⟨main, divider⟩ <;> rfl

end OpenNode

/-- What was read so far: the open branches, the innermost first, and the nodes of the innermost
list. -/
structure Draft where
  opened : List OpenNode
  defaults : Defaults
  nodes : List Node

namespace Draft

/-- The tokens that were read. -/
def tokens (z : Draft) : List Spanned :=
  z.opened.reverse.flatMap (·.tokens) ++ Node.tokensAll z.nodes

/-- The draft as the run on the stack has it, where tokens are forgotten. -/
def reading (z : Draft) : Reading :=
  ⟨z.opened.map (·.frame), z.defaults, (Node.blockAll z.nodes).reverse⟩

/-- All that one token can do to a draft. -/
inductive Step (compile : TokenCompiler) (t : Spanned) : Draft → Draft → Prop
  | stands {opened : List OpenNode} {d d' : Defaults} {nodes : List Node} {b : Block}
      (role : t.token.role = .stands) (block : compile d t = .ok (b, d')) :
      Step compile t ⟨opened, d, nodes⟩ ⟨opened, d', nodes ++ [.leaf t b]⟩
  | opens {opened : List OpenNode} {d : Defaults} {nodes : List Node} {kind : BranchKind}
      {param : String} {path : DataPath} (role : t.token.role = .opens kind param)
      (named : Block.branchPath kind param = .ok path) :
      Step compile t ⟨opened, d, nodes⟩ ⟨⟨kind, path, t, d, nodes, none⟩ :: opened, d, []⟩
  | divides {b : OpenNode} {outer : List OpenNode} {d : Defaults} {nodes : List Node}
      (role : t.token.role = .divides) (undivided : b.main = none) :
      Step compile t ⟨b :: outer, d, nodes⟩
        ⟨{ b with main := some (nodes, t) } :: outer, b.outer, []⟩
  | closes {b : OpenNode} {outer : List OpenNode} {d : Defaults} {nodes : List Node}
      (role : t.token.role = .closes) :
      Step compile t ⟨b :: outer, d, nodes⟩ ⟨outer, b.outer, b.before ++ [b.closed nodes t]⟩

variable {compile : TokenCompiler} {t : Spanned} {z z' : Draft}

theorem Step.tokens_eq (h : Step compile t z z') : z'.tokens = z.tokens ++ [t] := by
  cases h with
  | stands => simp [tokens, Node.tokensAll_append, Node.tokensAll, Node.tokens]
  | opens => simp [tokens, OpenNode.tokens, Node.tokensAll]
  | divides _ undivided => simp [tokens, OpenNode.tokens, undivided, Node.tokensAll]
  | @closes b _ _ nodes =>
    have hclosed := b.tokens_closed nodes t
    simp only [tokens, Node.tokensAll_append, Node.tokensAll, List.append_nil, hclosed]
    simp

/-- A token that the run on the stack takes is a step of the draft. -/
theorem step_of_token {r : Reading} (h : z.reading.token compile t = .ok r) :
    ∃ z', Step compile t z z' ∧ z'.reading = r := by
  obtain ⟨opened, d, nodes⟩ := z
  simp only [Reading.token, reading] at h
  cases hrole : t.token.role with
  | divides =>
    cases opened with
    | nil => simp [hrole] at h
    | cons b outer =>
      cases hmain : b.main with
      | some m => simp [hrole, OpenNode.frame, hmain] at h
      | none =>
        simp only [hrole, List.map_cons, OpenNode.frame, hmain, Option.map_none,
          Option.isSome_none, Bool.false_eq_true, ↓reduceIte, Except.ok.injEq] at h
        refine ⟨_, .divides hrole hmain, ?_⟩
        simp [← h, reading, Reading.divided, OpenNode.frame, Reading.list, Node.blocks,
          Node.blockAll]
  | closes =>
    cases opened with
    | nil => simp [hrole] at h
    | cons b outer =>
      simp only [hrole, List.map_cons, Except.ok.injEq] at h
      refine ⟨_, .closes hrole, ?_⟩
      simp [← h, reading, Reading.left, Reading.list, Node.blockAll_append, Node.blockAll,
        b.block_closed, Node.blocks]
      simp [OpenNode.frame]
  | opens kind param =>
    cases hpath : Block.branchPath kind param with
    | error fault => simp [hrole, hpath, Template.placed, Except.map] at h
    | ok path =>
      simp only [hrole, hpath, Template.placed, Except.map, Except.ok.injEq] at h
      refine ⟨_, .opens hrole hpath, ?_⟩
      simp [← h, reading, Reading.openBranch, OpenNode.frame, Node.blockAll]
  | stands =>
    cases hblock : compile d t with
    | error fault => simp [hrole, hblock, Except.map] at h
    | ok result =>
      obtain ⟨b, d'⟩ := result
      simp only [hrole, hblock, Except.map, Except.ok.injEq] at h
      refine ⟨_, .stands hrole hblock, ?_⟩
      simp [← h, reading, Reading.add, Node.blockAll_append, Node.blockAll, Node.block]

/-- A run that succeeds comes to a draft with no branch open, whose tokens are those that were
given. What every step keeps holds of that draft. -/
theorem of_run {kept : Draft → Prop} {e : Option ScanError} {ts : List Spanned}
    {blocks : List Block} (hstep : ∀ t z z', Step compile t z z' → kept z → kept z') (hz : kept z)
    (hrun : z.reading.run compile e ts = .ok blocks) :
    e = none ∧ ∃ d nodes, kept ⟨[], d, nodes⟩ ∧ Node.tokensAll nodes = z.tokens ++ ts ∧
      blocks = Node.blocks nodes := by
  induction ts generalizing z with
  | nil =>
    obtain ⟨opened, d, nodes⟩ := z
    cases e with
    | some e => simp [Reading.run] at hrun
    | none =>
      cases opened with
      | cons b outer => simp [Reading.run, Reading.finish, reading] at hrun
      | nil =>
        simp only [Reading.run, Reading.finish, reading, List.map_nil, Reading.list,
          List.reverse_reverse, Except.ok.injEq] at hrun
        exact ⟨rfl, d, nodes, hz, by simp [tokens], hrun.symm⟩
  | cons t ts ih =>
    simp only [Reading.run] at hrun
    cases htoken : z.reading.token compile t with
    | error fault => simp [htoken] at hrun
    | ok r =>
      rw [htoken] at hrun
      obtain ⟨z', hz', rfl⟩ := step_of_token htoken
      obtain ⟨he, d, nodes, hkept, htokens, hblocks⟩ := ih (hstep t z z' hz' hz) hrun
      refine ⟨he, d, nodes, hkept, ?_, hblocks⟩
      rw [htokens, hz'.tokens_eq, List.append_assoc, List.singleton_append]

end Draft

end TextTemplate
