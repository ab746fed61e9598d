import TextTemplate.Template.Layout

/-! Layout is taken out from the last block on, and what follows a block then is what is left of the
list. The outcome is the same as if every block were judged at once, in the list as written. -/

namespace TextTemplate.Layout

/-- A value stands right before or right after the place `i`. -/
def besideValue (blocks : List Block) (i : Nat) : Bool :=
  (0 < i && blocks[i - 1]?.any Block.isValueProducing) || blocks[i + 1]?.any Block.isValueProducing

/-- The blocks that are no layout or stand beside a value, each of them judged in the whole list. -/
def spared (blocks : List Block) : List Block :=
  (blocks.zipIdx.filter fun entry => !entry.1.isLayout || besideValue blocks entry.2).map (·.1)

theorem isValueProducing_of_isLayout {b : Block} (h : b.isLayout = true) :
    b.isValueProducing = false := by
  unfold Block.isLayout at h
  split at h
  · rfl
  · cases h

section
variable (before : Option Block) (b : Block) (rest : List Block)

/-- What is left next to layout is a value just if what was written next to it is one: only layout
with no value behind it is gone. -/
theorem head?_elideAfter (hb : b.isLayout = true) :
    (elideAfter (some b) rest).1.head?.any Block.isValueProducing =
      rest.head?.any Block.isValueProducing := by
  cases rest with
  | nil => rfl
  | cons c rest =>
    simp only [elideAfter, Option.any_some, isValueProducing_of_isLayout hb, Bool.false_or]
    split
    · rename_i hgone
      simp only [Bool.and_eq_true, Bool.not_eq_true'] at hgone
      rw [hgone.2, List.head?_cons, Option.any_some, isValueProducing_of_isLayout hgone.1]
    · rfl

/-- One step of the pass, with the decision told by the neighbours as written. -/
theorem elideAfter_cons :
    elideAfter before (b :: rest) =
      let (kept, removed) := elideAfter (some b) rest
      if !b.isLayout || (before.any Block.isValueProducing ||
          rest.head?.any Block.isValueProducing) then (b :: kept, removed)
      else (kept, removed + 1) := by
  cases hb : b.isLayout with
  | false => simp [elideAfter, hb]
  | true =>
    simp only [elideAfter, hb, head?_elideAfter b rest hb]
    cases before.any Block.isValueProducing <;> cases rest.head?.any Block.isValueProducing <;> rfl

end

theorem besideValue_append (before : List Block) (b : Block) (rest : List Block) :
    besideValue (before ++ b :: rest) before.length =
      (before.getLast?.any Block.isValueProducing || rest.head?.any Block.isValueProducing) := by
  have hafter : (before ++ b :: rest)[before.length + 1]? = rest.head? := by
    rw [List.getElem?_append_right (Nat.le_add_right ..), Nat.add_sub_cancel_left,
      List.getElem?_cons_succ, List.head?_eq_getElem?]
  rw [besideValue, hafter]
  congr 1
  cases hlength : before.length with
  | zero => simp [List.length_eq_zero_iff.1 hlength]
  | succ n =>
    have hbefore : (before ++ b :: rest)[n]? = before.getLast? := by
      rw [List.getElem?_append_left (by omega), List.getLast?_eq_getElem?, hlength]
      rfl
    simp [hbefore]

/-- The pass over the end of a list leaves what the whole list spares there. -/
theorem elideAfter_eq_spared (before blocks : List Block) :
    (elideAfter before.getLast? blocks).1 =
      ((blocks.zipIdx before.length).filter fun entry =>
        !entry.1.isLayout || besideValue (before ++ blocks) entry.2).map (·.1) := by
  induction blocks generalizing before with
  | nil => rfl
  | cons b rest ih =>
    have hrest := ih (before ++ [b])
    rw [List.getLast?_concat, List.length_append, List.append_assoc] at hrest
    rw [elideAfter_cons, List.zipIdx_cons, List.filter_cons]
    simp only [besideValue_append]
    split
    · exact congrArg (b :: ·) hrest
    · exact hrest

theorem elideAfter_length (before : Option Block) (blocks : List Block) :
    (elideAfter before blocks).2 + (elideAfter before blocks).1.length = blocks.length := by
  induction blocks generalizing before with
  | nil => rfl
  | cons b rest ih =>
    have hrest := ih (some b)
    simp only [elideAfter]
    split <;> simp only [List.length_cons] <;> omega

/-- What the pass has left, it leaves. -/
theorem elideAfter_elideAfter (before : Option Block) (blocks : List Block) :
    elideAfter before (elideAfter before blocks).1 = ((elideAfter before blocks).1, 0) := by
  induction blocks generalizing before with
  | nil => rfl
  | cons b rest ih =>
    have hrest := ih (some b)
    simp only [elideAfter]
    split
    · rename_i hgone
      simp only [Bool.and_eq_true, Bool.not_eq_true', Bool.or_eq_false_iff] at hgone
      have hbefore : before.any Block.isValueProducing = (some b).any Block.isValueProducing := by
        rw [hgone.2.1, Option.any_some, isValueProducing_of_isLayout hgone.1]
      rw [elideAfter_congr _ hbefore]
      exact hrest
    · rename_i hstays
      simp only [elideAfter, hrest, if_neg hstays]

/-- The pass leaves the blocks that are no layout or stand beside a value in the list as written,
says how many others there were, and finds nothing more to take out. -/
theorem elide_simultaneous (blocks : List Block) :
    (elide blocks).1 = spared blocks ∧
    (elide blocks).2 + (spared blocks).length = blocks.length ∧
    elide (spared blocks) = (spared blocks, 0) := by
  have hspared : (elide blocks).1 = spared blocks := elideAfter_eq_spared [] blocks
  rw [← hspared]
  exact ⟨rfl, elideAfter_length none blocks, elideAfter_elideAfter none blocks⟩

/-- Of two pieces of layout before a value, the nearer one stays. -/
example :
    let layout : Block := .text "\n" false
    spared [.set [], layout, layout, .comment true] = [.set [], layout, .comment true] := by
  rfl

end TextTemplate.Layout
