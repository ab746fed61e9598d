import Mathlib
import TextTemplate.Proofs.Render.Kept
import TextTemplate.Proofs.Render.Outcome

/-! Values that are written as markup bring none of its delimiters into the output, wherever they
come from: data, fallbacks, formats, functions, or templates that are included. -/

namespace TextTemplate

/-- The styles by which text is written as markup. -/
def EscapeStyle.IsMarkup (s : EscapeStyle) : Prop := ∃ strict, s.escaper = .markup strict

theorem EscapeStyle.IsMarkup.not_mem_apply {s : EscapeStyle} (h : s.IsMarkup) {c : Char}
    (hc : c ∈ Escape.Markup.delimiters) (text : String) : c ∉ (s.apply text).toList := by
  obtain ⟨strict, hstrict⟩ := h
  rw [apply, hstrict, String.toList_ofList]
  exact Escape.Markup.not_mem_escape hc strict _

/-- The block does not have the character as text, and writes every value as markup. -/
structure Block.Spares (c : Char) (b : Block) : Prop where
  text : ∀ s, b.text? = some s → c ∉ s.toList
  value : ∀ style, b.escape? = some style → style.IsMarkup

/-- All blocks of the template spare the character. -/
def Template.Spares (c : Char) (t : Template) : Prop := ∀ leaf ∈ t.leaves, leaf.Spares c

namespace RenderContext
variable {σ : Type} (ctx : RenderContext (StateM σ))

/-- What may be remembered later, after any number of templates was looked for. -/
def Leads : σ → σ → Prop := Relation.ReflTransGen fun w w' => ∃ h, ((ctx.load h).run w).2 = w'

/-- A handle of the one template may lead to the other, now or later. -/
def Includes (w : σ) (t t' : Template) : Prop :=
  ∃ h ∈ t.handles, ∃ w', ctx.Leads w w' ∧ ((ctx.load h).run w').1 = .ok t'

end RenderContext

namespace Render
variable {σ : Type} {c : Char} {Known : σ → Prop} {x y : RenderM (StateM σ) Unit}

/-- Whatever is written, and whether or not that fails in between, has no such character. What is
remembered meanwhile stays within what is known. -/
def Avoids (c : Char) (Known : σ → Prop) (x : RenderM (StateM σ) Unit) : Prop :=
  ∀ s w, Known w → Known (outcome x s w).2 ∧ ∃ written : String,
    (outcome x s w).1.2.sink.text = s.sink.text ++ written ∧ c ∉ written.toList

/-- Nothing is written, and nothing else is remembered. -/
theorem avoids_of_silent (h : ∀ s w, (outcome x s w).1.2.sink = s.sink ∧ (outcome x s w).2 = w) :
    Avoids c Known x := by
  intro s w hw
  obtain ⟨hsink, hsame⟩ := h s w
  rw [hsink, hsame]
  exact ⟨hw, "", (String.append_empty).symm, List.not_mem_nil⟩

theorem kept_avoids : Kept (Avoids c Known) where
  pure := avoids_of_silent fun _ _ => ⟨rfl, rfl⟩
  seq := by
    intro x y hx hy s w hw
    obtain ⟨hknown, first, hfirst, hcfirst⟩ := hx s w hw
    rw [outcome_bind]
    rcases hresult : outcome x s w with ⟨⟨result, s'⟩, w'⟩
    rw [hresult] at hknown hfirst
    cases result with
    | error e => exact ⟨hknown, first, hfirst, hcfirst⟩
    | ok _ =>
      obtain ⟨hknown', second, hsecond, hcsecond⟩ := hy s' w' hknown
      refine ⟨hknown', first ++ second, ?_, ?_⟩
      · rw [← String.append_assoc, ← hfirst]
        exact hsecond
      · rw [String.toList_append, List.mem_append, not_or]
        exact ⟨hcfirst, hcsecond⟩
  data := by
    intro f hf s w hw
    rw [outcome_bind, outcome_data]
    exact hf s.data s w hw
  inScope := by
    intro enter x hx s w hw
    rw [outcome_inScope]
    exact hx { s with data := enter s.data } w hw

theorem avoids_write {text : String} (h : c ∉ text.toList) : Avoids c Known (write text) := by
  intro s w hw
  rw [outcome_write]
  unfold Sink.write?
  split
  · next sink hsink =>
    split at hsink
    · cases hsink
      exact ⟨hw, text, rfl, h⟩
    · cases hsink
  · exact ⟨hw, "", (String.append_empty).symm, List.not_mem_nil⟩

theorem avoids_call (ctx : RenderContext (StateM σ)) (path : DataPath) (out : Option DataPath)
    (parameters : List Parameter) : Avoids c Known (call ctx path out parameters) := by
  refine avoids_of_silent fun s w => ?_
  obtain ⟨r, d, hcall⟩ := outcome_call s ctx path out parameters
  rw [hcall]
  exact ⟨rfl, rfl⟩

theorem brings_of_spares (hc : c ∈ Escape.Markup.delimiters) {leaf : Block}
    (h : leaf.Spares c) {included : Handle TemplateId → RenderM (StateM σ) Unit}
    (hincluded : ∀ handle, leaf.handle? = some handle → Avoids c Known (included handle)) :
    Brings (Avoids c Known) included leaf where
  text s hs := avoids_write (h.text s hs)
  value style hstyle text := avoids_write ((h.value style hstyle).not_mem_apply hc text)
  inclusion := hincluded

variable {ctx : RenderContext (StateM σ)} {w : σ}

/-- Nor is such a character written by what is included, however deep that goes. -/
theorem avoids_blocks (hc : c ∈ Escape.Markup.delimiters) (room : Nat) {t : Template}
    (h : ∀ t', Relation.ReflTransGen (ctx.Includes w) t t' → t'.Spares c) :
    Avoids c (ctx.Leads w) (blocks ctx (included ctx room) t.blocks) := by
  induction room generalizing t with
  | zero =>
    refine kept_avoids.blocks (avoids_call ctx) t.blocks fun leaf hleaf => ?_
    refine brings_of_spares hc (h t .refl leaf hleaf) fun _ _ => ?_
    exact avoids_of_silent fun _ _ => ⟨rfl, rfl⟩
  | succ room ih =>
    refine kept_avoids.blocks (avoids_call ctx) t.blocks fun leaf hleaf => ?_
    refine brings_of_spares hc (h t .refl leaf hleaf) fun handle hhandle s w' hw' => ?_
    rw [outcome_included]
    rcases hload : (ctx.load handle).run w' with ⟨result, later⟩
    have hlater : ctx.Leads w later := hw'.tail ⟨handle, by rw [hload]⟩
    cases result with
    | error e => exact ⟨hlater, "", (String.append_empty).symm, List.not_mem_nil⟩
    | ok t' =>
      have hmem : handle ∈ t.handles := List.mem_filterMap.2 ⟨leaf, hleaf, hhandle⟩
      have hincludes : ctx.Includes w t t' := ⟨handle, hmem, w', hw', by rw [hload]⟩
      exact ih (fun t'' hreach => h t'' (.head hincludes hreach)) s later hlater

/-- No delimiter of markup comes into the output, if the template and all that it includes write
every value as markup and have no such delimiter as text. This holds for every data, and also when
writing fails in between. -/
theorem markup_not_injected (ctx : RenderContext (StateM σ)) (w : σ)
    (hc : c ∈ Escape.Markup.delimiters) {t : Template}
    (h : ∀ t', Relation.ReflTransGen (ctx.Includes w) t t' → t'.Spares c) (d : Data) (sink : Sink) :
    ∃ written : String,
      (outcome (template ctx t) ⟨d, sink⟩ w).1.2.sink.text = sink.text ++ written ∧
        c ∉ written.toList :=
  (avoids_blocks hc ctx.limit h ⟨d, sink⟩ w .refl).2

/-- A page that writes a value from data, and includes a part that writes a fallback. -/
theorem markup_not_injected_by_part :
    let part : Template :=
      ⟨"part", [.value ⟨["y"]⟩ ⟨"html_strict", .markup true⟩ (some "<i>")]⟩
    let page : Template := ⟨"page", [.value ⟨["x"]⟩ ⟨"html", .markup false⟩ none,
      .inclusion ⟨.message "bundle" "part" .root "html", none⟩]⟩
    let ctx : RenderContext (StateM Unit) := ⟨fun _ => pure (.ok part), fun _ => none, [], 1⟩
    let d := Data.ofValue .empty (.map [("x", .text "<b>")])
    (∀ t', Relation.ReflTransGen (ctx.Includes ()) page t' → t'.Spares '<') ∧
      (outcome (template ctx page) ⟨d, .empty⟩ ()).1.2.sink.text = "&lt;b&gt;&lt;i&gt;" ∧
      ∃ written : String,
        (outcome (template ctx page) ⟨d, .empty⟩ ()).1.2.sink.text = "" ++ written ∧
          '<' ∉ written.toList := by
  intro part page ctx d
  have hpart : part.Spares '<' := by
    intro leaf hleaf
    rw [List.mem_singleton.1 hleaf]
    refine ⟨nofun, fun style hstyle => ?_⟩
    cases hstyle
    exact ⟨true, rfl⟩
  have hpage : page.Spares '<' := by
    intro leaf hleaf
    rcases List.mem_cons.1 hleaf with rfl | hrest
    · refine ⟨nofun, fun style hstyle => ?_⟩
      cases hstyle
      exact ⟨false, rfl⟩
    · rw [List.mem_singleton.1 hrest]
      exact ⟨nofun, nofun⟩
  have hall : ∀ t', Relation.ReflTransGen (ctx.Includes ()) page t' → t'.Spares '<' := by
    intro t' hreach
    cases hreach with
    | refl => exact hpage
    | tail _ hlast =>
      obtain ⟨_, _, _, _, hload⟩ := hlast
      cases hload
      exact hpart
  refine ⟨hall, ?_, markup_not_injected ctx () (by decide) hall d .empty⟩
  cbv

end Render

end TextTemplate
