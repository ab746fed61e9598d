import TextTemplate.Proofs.Template.Leaves
import TextTemplate.Render.Basic

/-! Two ways of writing the same blocks. They may include different templates, call different
functions and start from different data, as long as no block sees the difference between the data. A
relation between the two that is kept by what writing is put together from is decided by the blocks
that have no parts. -/

namespace TextTemplate

namespace Render

/-- No block sees a difference between data that are related. -/
structure Unseen (R : Data → Data → Prop) : Prop where
  value : ∀ {d d'}, R d d' → ∀ path, (d.get path).isNull = (d'.get path).isNull ∧
    d.store.text (d.get path) = d'.store.text (d'.get path)
  typed : ∀ {d d'}, R d d' → ∀ path (format : Format),
    format.write? d.store.text (d.get path) = format.write? d'.store.text (d'.get path)
  condition : ∀ {d d'}, R d d' → ∀ path,
    (d.get? path).any Value.isTruthy = (d'.get? path).any Value.isTruthy
  missing : ∀ {d d'}, R d d' → ∀ path, d.get? path = none → d'.get? path = none
  /-- What is opened or gone through at a path keeps the data related. -/
  found : ∀ {d d'}, R d d' → ∀ path v, d.get? path = some v → ∃ v', d'.get? path = some v' ∧
    (∀ {e e'}, R e e' → R (e.child v) (e'.child v')) ∧
    (d.store.sequence v).length d.store = (d'.store.sequence v').length d'.store ∧
    ∀ i size {e e'}, R e e' →
      R (e.turn (((d.store.sequence v).item? e.store i).getD .null) i size)
        (e'.turn (((d'.store.sequence v').item? e'.store i).getD .null) i size)

theorem unseen_eq : Unseen Eq where
  value := by rintro d _ rfl path; exact ⟨rfl, rfl⟩
  typed := by rintro d _ rfl path format; rfl
  condition := by rintro d _ rfl path; rfl
  missing := by rintro d _ rfl path h; exact h
  found := by
    rintro d _ rfl path v h
    refine ⟨v, h, ?_, rfl, ?_⟩
    · rintro e _ rfl
      rfl
    · rintro i size e _ rfl
      rfl

variable {m m' : Type → Type} [Monad m] [Monad m'] {R : Data → Data → Prop}
  {P : RenderM m Unit → RenderM m' Unit → Prop}

/-- A value is written unless it is null, and else the fallback. -/
theorem block_value (ctx : RenderContext m) (included : Handle TemplateId → RenderM m Unit)
    (path : DataPath) (escape : EscapeStyle) (fallback : Option String) :
    block ctx included (.value path escape fallback) = (do
      let d ← data
      writeEscaped escape
        (if (d.get path).isNull then fallback else some (d.store.text (d.get path)))) := by
  rw [block]
  congr 1
  funext d
  cases d.get path <;> rfl

/-- A relation between two ways of writing that holds if it holds of what they are put together
from. -/
structure Paired (R : Data → Data → Prop) (P : RenderM m Unit → RenderM m' Unit → Prop) :
    Prop where
  pure : P (pure ()) (pure ())
  seq : ∀ {x y x' y'}, P x x' → P y y' → P (do x; y) (do x'; y')
  data : ∀ {f : Data → RenderM m Unit} {f' : Data → RenderM m' Unit},
    (∀ d d', R d d' → P (f d) (f' d')) →
    P (do let d ← data; f d) (do let d ← data; f' d)
  inScope : ∀ {enter enter' x x'}, (∀ {d d'}, R d d' → R (enter d) (enter' d')) → P x x' →
    P (inScope enter x) (inScope enter' x')

/-- All that a block without parts may write, or lead to, is related. -/
structure BringsBoth (P : RenderM m Unit → RenderM m' Unit → Prop)
    (included : Handle TemplateId → RenderM m Unit)
    (included' : Handle TemplateId → RenderM m' Unit) (leaf : Block) : Prop where
  text : ∀ s, leaf.text? = some s → P (write s) (write s)
  value : ∀ style, leaf.escape? = some style → ∀ text,
    P (write (style.apply text)) (write (style.apply text))
  inclusion : ∀ h, leaf.handle? = some h → P (included h) (included' h)

namespace Paired
variable (h : Paired R P)
include h

theorem writeEscaped {escape : EscapeStyle}
    (hwrite : ∀ text, P (write (escape.apply text)) (write (escape.apply text)))
    (text : Option String) : P (writeEscaped escape text) (writeEscaped escape text) := by
  unfold Render.writeEscaped
  split
  · exact h.pure
  · exact h.pure
  · exact hwrite _

theorem forTurns {body : Nat → RenderM m Unit} {body' : Nat → RenderM m' Unit}
    (hbody : ∀ i, P (body i) (body' i)) (count first : Nat) :
    P (forTurns body count first) (forTurns body' count first) := by
  induction count generalizing first with
  | zero => exact h.pure
  | succ count ih => exact h.seq (hbody first) (ih (first + 1))

theorem branch (hR : Unseen R) {main otherwise : RenderM m Unit}
    {main' otherwise' : RenderM m' Unit} (hmain : P main main')
    (hotherwise : P otherwise otherwise') (kind : BranchKind)
    (path : DataPath) :
    P (branch kind path main otherwise) (branch kind path main' otherwise') := by
  refine h.data fun d d' hd => ?_
  cases kind with
  | condition =>
    dsimp only
    rw [hR.condition hd path]
    split
    · exact hmain
    · exact hotherwise
  | use =>
    cases hget : d.get? path with
    | none =>
      rw [hR.missing hd path hget]
      exact hotherwise
    | some v =>
      obtain ⟨v', hget', hchild, -, -⟩ := hR.found hd path v hget
      rw [hget']
      exact h.inScope hchild hmain
  | loop =>
    cases hget : d.get? path with
    | none =>
      rw [hR.missing hd path hget]
      exact hotherwise
    | some v =>
      obtain ⟨v', hget', -, hlength, hturn⟩ := hR.found hd path v hget
      rw [hget']
      dsimp only
      rw [hlength]
      split
      · exact hotherwise
      · exact h.forTurns (fun i => h.inScope (hturn i _) hmain) _ 0

variable (ctx : RenderContext m) (ctx' : RenderContext m')
  {included : Handle TemplateId → RenderM m Unit} {included' : Handle TemplateId → RenderM m' Unit}

mutual

theorem block (hR : Unseen R) (hcall : ∀ function out parameters,
      P (call ctx function out parameters) (call ctx' function out parameters))
    (b : Block) (hleaves : ∀ leaf ∈ b.leaves, BringsBoth P included included' leaf) :
    P (Render.block ctx included b) (Render.block ctx' included' b) := by
  cases b with
  | text s required => exact (hleaves _ (List.mem_singleton_self _)).text s rfl
  | value path escape fallback =>
    have hvalue := (hleaves _ (List.mem_singleton_self _)).value escape rfl
    rw [block_value, block_value]
    refine h.data fun d d' hd => ?_
    obtain ⟨hnull, htext⟩ := hR.value hd path
    rw [hnull, htext]
    exact h.writeEscaped hvalue _
  | typed path escape format =>
    have hvalue := (hleaves _ (List.mem_singleton_self _)).value escape rfl
    refine h.data fun d d' hd => ?_
    rw [hR.typed hd path format]
    exact h.writeEscaped hvalue _
  | apply function out parameters => exact hcall function out parameters
  | branch kind path main otherwise =>
    rw [Block.leaves] at hleaves
    have hmain := blocks hR hcall main fun leaf hleaf => hleaves leaf (List.mem_append_left _ hleaf)
    have hotherwise := blocks hR hcall otherwise fun leaf hleaf =>
      hleaves leaf (List.mem_append_right _ hleaf)
    exact h.branch hR hmain hotherwise kind path
  | inclusion handle | resource handle =>
    exact (hleaves _ (List.mem_singleton_self _)).inclusion handle rfl
  | set | comment => exact h.pure
  | nested bs =>
    rw [Block.leaves] at hleaves
    exact blocks hR hcall bs hleaves

theorem blocks (hR : Unseen R) (hcall : ∀ function out parameters,
      P (call ctx function out parameters) (call ctx' function out parameters))
    (bs : List Block)
    (hleaves : ∀ leaf ∈ Block.leavesAll bs, BringsBoth P included included' leaf) :
    P (Render.blocks ctx included bs) (Render.blocks ctx' included' bs) := by
  cases bs with
  | nil => exact h.pure
  | cons b rest =>
    rw [Block.leavesAll] at hleaves
    have hfirst := block hR hcall b fun leaf hleaf => hleaves leaf (List.mem_append_left _ hleaf)
    have hrest := blocks hR hcall rest fun leaf hleaf =>
      hleaves leaf (List.mem_append_right _ hleaf)
    exact h.seq hfirst hrest

end

end Paired

end Render

end TextTemplate
