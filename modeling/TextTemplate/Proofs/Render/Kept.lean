import TextTemplate.Proofs.Render.Paired

/-! Writing a template is writing the blocks that have no parts, in an order and in scopes that the
data decide. A property of writing that this keeps is therefore decided by those blocks. -/

namespace TextTemplate

namespace Render
variable {m : Type → Type} [Monad m] {P : RenderM m Unit → Prop}

/-- A property that writing has if what it is put together from has it. -/
structure Kept (P : RenderM m Unit → Prop) : Prop where
  pure : P (pure ())
  seq : ∀ {x y}, P x → P y → P (do x; y)
  data : ∀ {f : Data → RenderM m Unit}, (∀ d, P (f d)) → P (do let d ← data; f d)
  inScope : ∀ {enter x}, P x → P (inScope enter x)

/-- All that a block without parts may write, or lead to, has the property. -/
structure Brings (P : RenderM m Unit → Prop) (included : Handle TemplateId → RenderM m Unit)
    (leaf : Block) : Prop where
  text : ∀ s, leaf.text? = some s → P (write s)
  value : ∀ style, leaf.escape? = some style → ∀ text, P (write (style.apply text))
  inclusion : ∀ h, leaf.handle? = some h → P (included h)

namespace Kept
variable (h : Kept P) {ctx : RenderContext m} {included : Handle TemplateId → RenderM m Unit}
include h

/-- A property is a relation that looks at one side only. -/
theorem paired : Paired Eq fun x (_ : RenderM m Unit) => P x where
  pure := h.pure
  seq := h.seq
  data hf := h.data fun d => hf d d rfl
  inScope _ hx := h.inScope hx

theorem blocks (hcall : ∀ function out parameters, P (call ctx function out parameters))
    (bs : List Block) (hleaves : ∀ leaf ∈ Block.leavesAll bs, Brings P included leaf) :
    P (Render.blocks ctx included bs) := by
  have hbrings : ∀ leaf ∈ Block.leavesAll bs,
      BringsBoth (fun x (_ : RenderM m Unit) => P x) included included leaf := fun leaf hleaf =>
    ⟨(hleaves leaf hleaf).text, (hleaves leaf hleaf).value, (hleaves leaf hleaf).inclusion⟩
  exact h.paired.blocks ctx ctx unseen_eq hcall bs hbrings

end Kept

end Render

end TextTemplate
