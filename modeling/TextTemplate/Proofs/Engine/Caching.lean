import TextTemplate.Engine.Basic
import TextTemplate.Proofs.Render.Kept
import TextTemplate.Proofs.Render.Outcome

/-! Where texts never change, it does not show what an engine remembers. What is remembered for an
id, or by a handle, is always what would be made anew; so whatever was asked before, and however far
it got, the next answer is that of a new engine. -/

namespace TextTemplate

namespace Memo
variable {κ α ε : Type} [DecidableEq κ] {memo : Memo κ α} {make : κ → Except ε α}

/-- All that is remembered is what would be made anew. -/
structure Faithful (memo : Memo κ α) (make : κ → Except ε α) : Prop where
  made : ∀ key a, memo.get? key = some a → make key = .ok a
  followed : ∀ h a, memo.followed? h = some a → make h.key = .ok a

theorem faithful_empty (make : κ → Except ε α) : Faithful empty make := ⟨nofun, nofun⟩

theorem Faithful.reserve (h : memo.Faithful make) (key : κ) : (memo.reserve key).Faithful make :=
  ⟨fun other a ha => h.made other a (by simpa using ha),
    fun hd a ha => h.followed hd a (by simpa using ha)⟩

theorem Faithful.fill (h : memo.Faithful make) {key : κ} {a : α} (hkey : key ∈ memo.keys)
    (ha : make key = .ok a) : (memo.fill key a).Faithful make := by
  refine ⟨fun other b hb => ?_, h.followed⟩
  rw [get?_fill memo hkey] at hb
  split at hb
  · next heq =>
    cases hb
    rw [← heq, ha]
  · exact h.made other b hb

theorem Faithful.keep (h : memo.Faithful make) {hd : Handle κ} {a : α}
    (ha : make hd.key = .ok a) : (memo.keep hd a).Faithful make := by
  constructor
  · intro key b hb
    rw [get?_keep] at hb
    exact h.made key b hb
  · intro other b hb
    rw [followed?_keep] at hb
    split at hb
    · next heq =>
      cases hb
      rw [← heq.2, ha]
    · exact h.followed other b hb

/-- What is loaded is what would be made anew, and it is true to remember it. -/
theorem Faithful.load (h : memo.Faithful make) (key : κ) :
    ∃ memo', memo'.Faithful make ∧
      Id.run (memo.load key (pure (make key))) = (make key, memo') := by
  have hreserved := h.reserve key
  simp only [Memo.load]
  cases hget : (memo.reserve key).get? key with
  | some a => exact ⟨memo.reserve key, hreserved, by rw [hreserved.made key a hget]; rfl⟩
  | none =>
    cases hmake : make key with
    | error e => exact ⟨memo.reserve key, hreserved, rfl⟩
    | ok a => exact ⟨_, hreserved.fill (memo.mem_reserve key) hmake, rfl⟩

/-- So it is with what a handle leads to. -/
theorem Faithful.follow (h : memo.Faithful make) (hd : Handle κ) :
    ∃ memo', memo'.Faithful make ∧
      Id.run (memo.follow hd (pure (make hd.key))) = (make hd.key, memo') := by
  unfold Memo.follow
  cases hget : memo.followed? hd with
  | some a => exact ⟨memo, h, by rw [h.followed hd a hget]; rfl⟩
  | none =>
    obtain ⟨memo', hfaithful, hload⟩ := h.load hd.key
    simp only [Id.run_bind, hload]
    cases hmake : make hd.key with
    | error e => exact ⟨memo', hfaithful, rfl⟩
    | ok a => exact ⟨memo'.keep hd a, hfaithful.keep hmake, rfl⟩

end Memo

/-- What an engine can be asked. -/
inductive Question where
  | source (path : String) (l : Locale)
  | message (bundle key : String) (l : Locale)
  /-- The whole output of a template, for the data given. -/
  | output (path : String) (l : Locale) (d : Data)

inductive Answer where
  | template (answer : Except TemplateError Template)
  | output (answer : Except RenderError String)

namespace Engine

def ask {m : Type → Type} [Monad m] (e : Engine m) : Question → EngineM m Answer
  | .source path l => return .template (← e.source path l)
  | .message bundle key l => return .template (← e.message bundle key l)
  | .output path l d => return .output (← e.renderToText path l d)

/-- One question after the other, with what is remembered in between. -/
def askAll {m : Type → Type} [Monad m] (e : Engine m) (questions : List Question) :
    EngineM m (List Answer) := questions.mapM e.ask

/-- The answer of an engine that has not been asked anything before. -/
def askNew (e : Engine Id) (q : Question) : Answer := ((e.ask q).run .empty).1

variable {α β : Type} {e : Engine Id}

/-- The answer is the same whatever is remembered, and what is remembered afterwards is true too. -/
def Steady (e : Engine Id) (x : EngineM Id α) (a : α) : Prop :=
  ∀ memo : Memo TemplateId Template, memo.Faithful e.make →
    ∃ memo' : Memo TemplateId Template, memo'.Faithful e.make ∧ x.run memo = (a, memo')

namespace Steady

theorem pure (a : α) : Steady e (pure a) a := fun memo h => ⟨memo, h, rfl⟩

theorem bind {x : EngineM Id α} {f : α → EngineM Id β} {a : α} {b : β} (hx : Steady e x a)
    (hf : Steady e (f a) b) : Steady e (x >>= f) b := by
  intro memo h
  obtain ⟨middle, hmiddle, hfirst⟩ := hx memo h
  obtain ⟨memo', hmemo', hsecond⟩ := hf middle hmiddle
  refine ⟨memo', hmemo', ?_⟩
  rw [StateT.run_bind, hfirst]
  exact hsecond

/-- Asked with nothing remembered, the answer is the same. -/
theorem run_empty {x : EngineM Id α} {a : α} (h : Steady e x a) : (x.run .empty).1 = a := by
  obtain ⟨memo', _, hrun⟩ := h .empty (Memo.faithful_empty _)
  rw [hrun]

end Steady

theorem steady_compile (e : Engine Id) (id : TemplateId) : Steady e (e.compile id) (e.make id) :=
  fun _ h => h.load id

theorem steady_follow (e : Engine Id) (h : Handle TemplateId) :
    Steady e (e.follow h) (e.make h.key) := fun _ hfaithful => hfaithful.follow h

theorem steady_source (e : Engine Id) (path : String) (l : Locale) :
    ∃ a, Steady e (e.source path l) a := by
  unfold source
  cases e.sourceId path l with
  | error fault => exact ⟨_, .pure _⟩
  | ok id => exact ⟨_, steady_compile e id⟩

end Engine

namespace Render
variable {e : Engine Id}

/-- Writing ends the same and leaves the same whatever is remembered. -/
def Steady (e : Engine Id) (x : RenderM (EngineM Id) Unit) : Prop :=
  ∀ s, ∃ r, ∀ memo : Memo TemplateId Template, memo.Faithful e.make →
    ∃ memo' : Memo TemplateId Template, memo'.Faithful e.make ∧ outcome x s memo = (r, memo')

theorem steady_of_outcome {x : RenderM (EngineM Id) Unit}
    (h : ∀ s, ∃ r, ∀ memo, outcome x s memo = (r, memo)) : Steady e x := by
  intro s
  obtain ⟨r, hr⟩ := h s
  exact ⟨r, fun memo hfaithful => ⟨memo, hfaithful, hr memo⟩⟩

theorem kept_steady (e : Engine Id) : Kept (Steady e) where
  pure := steady_of_outcome fun s => ⟨(.ok (), s), fun _ => rfl⟩
  seq := by
    intro x y hx hy s
    obtain ⟨⟨result, s'⟩, hfirst⟩ := hx s
    cases result with
    | error fault =>
      refine ⟨(.error fault, s'), fun memo hfaithful => ?_⟩
      obtain ⟨memo', hfaithful', hrun⟩ := hfirst memo hfaithful
      refine ⟨memo', hfaithful', ?_⟩
      rw [outcome_bind, hrun]
    | ok u =>
      obtain ⟨r, hsecond⟩ := hy s'
      refine ⟨r, fun memo hfaithful => ?_⟩
      obtain ⟨middle, hmiddle, hrun⟩ := hfirst memo hfaithful
      obtain ⟨memo', hfaithful', hrun'⟩ := hsecond middle hmiddle
      refine ⟨memo', hfaithful', ?_⟩
      rw [outcome_bind, hrun]
      exact hrun'
  data := by
    intro f hf s
    exact hf s.data s
  inScope := by
    intro enter x hx s
    obtain ⟨⟨result, s'⟩, hbody⟩ := hx { s with data := enter s.data }
    refine ⟨(result, { s' with data := { s'.data with scope := s.data.scope } }), ?_⟩
    intro memo hfaithful
    obtain ⟨memo', hfaithful', hrun⟩ := hbody memo hfaithful
    refine ⟨memo', hfaithful', ?_⟩
    rw [outcome_inScope, hrun]

theorem steady_write (text : String) : Steady e (write text) := by
  refine steady_of_outcome fun s => ?_
  simp only [outcome_write]
  cases s.sink.write? text with
  | none => exact ⟨_, fun _ => rfl⟩
  | some sink => exact ⟨_, fun _ => rfl⟩

theorem steady_call (ctx : RenderContext (EngineM Id)) (path : DataPath) (out : Option DataPath)
    (parameters : List Parameter) : Steady e (call ctx path out parameters) := by
  refine steady_of_outcome fun s => ?_
  obtain ⟨r, d, hcall⟩ := outcome_call s ctx path out parameters
  exact ⟨(r, { s with data := d }), hcall⟩

theorem steady_blocks (ctx : RenderContext (EngineM Id))
    {included : Handle TemplateId → RenderM (EngineM Id) Unit} (bs : List Block)
    (hincluded : ∀ h, Steady e (included h)) : Steady e (blocks ctx included bs) := by
  refine (kept_steady e).blocks (steady_call ctx) bs fun leaf _ => ?_
  exact ⟨fun s _ => steady_write s, fun _ _ _ => steady_write _, fun h _ => hincluded h⟩

/-- A handle leads to the same template whether or not that was compiled before. -/
theorem steady_included (room : Nat) (h : Handle TemplateId) :
    Steady e (included e.context room h) := by
  induction room generalizing h with
  | zero => exact steady_of_outcome fun s => ⟨_, fun _ => rfl⟩
  | succ room ih =>
    intro s
    have hload := Engine.steady_follow e h
    cases hmake : e.make h.key with
    | error fault =>
      refine ⟨(.error (.template fault), s), fun memo hfaithful => ?_⟩
      obtain ⟨memo', hfaithful', hrun⟩ := hload memo hfaithful
      refine ⟨memo', hfaithful', ?_⟩
      rw [hmake] at hrun
      change (e.context.load h).run memo = _ at hrun
      rw [outcome_included, hrun]
    | ok t =>
      obtain ⟨r, hbody⟩ := steady_blocks e.context t.blocks ih s
      refine ⟨r, fun memo hfaithful => ?_⟩
      obtain ⟨middle, hmiddle, hrun⟩ := hload memo hfaithful
      obtain ⟨memo', hfaithful', hrun'⟩ := hbody middle hmiddle
      refine ⟨memo', hfaithful', ?_⟩
      rw [hmake] at hrun
      change (e.context.load h).run memo = _ at hrun
      rw [outcome_included, hrun]
      exact hrun'

end Render

namespace Engine
variable (e : Engine Id)

theorem steady_render (t : Template) (d : Data) (sink : Sink) :
    ∃ r, Steady e (e.render t d sink) r :=
  Render.steady_blocks e.context t.blocks (Render.steady_included _) ⟨d, sink⟩

theorem steady_renderToText (path : String) (l : Locale) (d : Data) :
    ∃ a, Steady e (e.renderToText path l d) a := by
  obtain ⟨found, hfound⟩ := steady_source e path l
  cases found with
  | error fault => exact ⟨_, hfound.bind (.pure _)⟩
  | ok t =>
    obtain ⟨⟨result, after⟩, hrender⟩ := steady_render e t d .empty
    exact ⟨_, hfound.bind (hrender.bind (.pure _))⟩

theorem steady_ask (q : Question) : Steady e (e.ask q) (e.askNew q) := by
  have hanswer : ∃ a, Steady e (e.ask q) a := by
    cases q with
    | source path l =>
      obtain ⟨a, ha⟩ := steady_source e path l
      exact ⟨_, ha.bind (.pure _)⟩
    | message bundle key l => exact ⟨_, (steady_compile e _).bind (.pure _)⟩
    | output path l d =>
      obtain ⟨a, ha⟩ := steady_renderToText e path l d
      exact ⟨_, ha.bind (.pure _)⟩
  obtain ⟨a, ha⟩ := hanswer
  rwa [askNew, ha.run_empty]

theorem steady_askAll (questions : List Question) :
    Steady e (e.askAll questions) (questions.map e.askNew) := by
  unfold askAll
  induction questions with
  | nil => exact .pure []
  | cons q rest ih =>
    rw [List.mapM_cons, List.map_cons]
    exact (steady_ask e q).bind (ih.bind (.pure _))

/-- Each answer of an engine, whatever it was asked before, is the answer of a new engine that was
asked nothing else. -/
theorem caching_invisible (questions : List Question) :
    ((e.askAll questions).run .empty).1 = questions.map e.askNew :=
  (steady_askAll e questions).run_empty

end Engine

end TextTemplate
