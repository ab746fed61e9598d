import TextTemplate.Template.Block

/-! Line breaks and indentation between directives only lay a template out. They are left out of the
output unless they stand next to a value. -/

namespace TextTemplate.Layout

/-- Takes layout out of blocks that follow `before`, from the last one on. It stays next to a value:
before it as written, or after it as what is left. -/
def elideAfter (before : Option Block) : List Block → List Block × Nat
  | [] => ([], 0)
  | b :: rest =>
    let (kept, removed) := elideAfter (some b) rest
    let besideValue := before.any Block.isValueProducing || kept.head?.any Block.isValueProducing
    if b.isLayout && !besideValue then (kept, removed + 1) else (b :: kept, removed)

/-- The blocks without the layout that is next to no value, and how many blocks that took out. -/
def elide (blocks : List Block) : List Block × Nat := elideAfter none blocks

/-- The blocks that are left. -/
def kept (blocks : List Block) : List Block := (elide blocks).1

theorem elideAfter_of_no_layout (before : Option Block) {blocks : List Block}
    (h : ∀ b ∈ blocks, b.isLayout = false) : elideAfter before blocks = (blocks, 0) := by
  induction blocks generalizing before with
  | nil => rfl
  | cons b rest ih =>
    obtain ⟨hb, hrest⟩ := List.forall_mem_cons.1 h
    simp [elideAfter, ih _ hrest, hb]

theorem kept_of_no_layout {blocks : List Block} (h : ∀ b ∈ blocks, b.isLayout = false) :
    kept blocks = blocks := by
  rw [kept, elide, elideAfter_of_no_layout none h]

/-- Of what precedes a list, it only matters whether it is a value. -/
theorem elideAfter_congr {before before' : Option Block} (blocks : List Block)
    (h : before.any Block.isValueProducing = before'.any Block.isValueProducing) :
    elideAfter before blocks = elideAfter before' blocks := by
  cases blocks with
  | nil => rfl
  | cons b rest => simp only [elideAfter, h]

/-- A block that produces no value keeps no layout that follows it. -/
theorem elideAfter_some {b : Block} (hb : b.isValueProducing = false) (blocks : List Block) :
    elideAfter (some b) blocks = elideAfter none blocks :=
  elideAfter_congr blocks hb

theorem elideAfter_append_fst (before : Option Block) (xs : List Block) {b : Block}
    (ys : List Block) (hlayout : b.isLayout = false) (hvalue : b.isValueProducing = false) :
    (elideAfter before (xs ++ b :: ys)).1 = (elideAfter before xs).1 ++ b :: kept ys := by
  induction xs generalizing before with
  | nil => simp [elideAfter, hlayout, elideAfter_some hvalue, kept, elide]
  | cons x xs ih =>
    have hbeside : ((elideAfter (some x) xs).1 ++ b :: kept ys).head?.any Block.isValueProducing =
        (elideAfter (some x) xs).1.head?.any Block.isValueProducing := by
      cases (elideAfter (some x) xs).1 with
      | nil => exact hvalue
      | cons => rfl
    simp only [List.cons_append, elideAfter, ih, hbeside]
    split <;> rfl

/-- Layout is left out on either side of a block that produces no value as if the block were not
there, and the block stays if it is no layout itself. -/
theorem kept_append (xs : List Block) {b : Block} (ys : List Block) (hlayout : b.isLayout = false)
    (hvalue : b.isValueProducing = false) : kept (xs ++ b :: ys) = kept xs ++ b :: kept ys :=
  elideAfter_append_fst none xs ys hlayout hvalue

theorem elideAfter_of_no_value {before : Option Block} {blocks : List Block}
    (hbefore : before.any Block.isValueProducing = false)
    (h : ∀ b ∈ blocks, b.isValueProducing = false) :
    (elideAfter before blocks).1 = blocks.filter (!·.isLayout) := by
  induction blocks generalizing before with
  | nil => rfl
  | cons b rest ih =>
    obtain ⟨hb, hrest⟩ := List.forall_mem_cons.1 h
    have hkept : (elideAfter (some b) rest).1 = rest.filter (!·.isLayout) := ih hb hrest
    have hbeside : (rest.filter (!·.isLayout)).head?.any Block.isValueProducing = false := by
      cases hfilter : rest.filter (!·.isLayout) with
      | nil => rfl
      | cons c cs => exact hrest c (List.mem_filter.1 (hfilter ▸ List.mem_cons_self)).1
    simp only [elideAfter, hbefore, hkept, hbeside, List.filter_cons]
    cases b.isLayout <;> rfl

/-- Where no block produces a value, all layout is left out. -/
theorem kept_of_no_value {blocks : List Block} (h : ∀ b ∈ blocks, b.isValueProducing = false) :
    kept blocks = blocks.filter (!·.isLayout) :=
  elideAfter_of_no_value rfl h

end TextTemplate.Layout
