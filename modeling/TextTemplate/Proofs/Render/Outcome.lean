import TextTemplate.Render.Basic

/-! How each step of writing ends, and what it leaves behind: the data and the output, and what the
provider of templates remembers. -/

namespace TextTemplate

/-- A write that succeeds adds its text to the output. -/
theorem Sink.eq_of_write? {sink after : Sink} {text : String}
    (h : sink.write? text = some after) : after = ⟨sink.text ++ text, sink.limit⟩ := by
  unfold write? at h
  split at h
  · cases h
    rfl
  · cases h

namespace Render
variable {σ α β : Type}

/-- How writing ends, what there is then, and what is remembered. -/
def outcome (x : RenderM (StateM σ) α) (s : RenderState) (w : σ) :
    (Except RenderError α × RenderState) × σ := (x.run.run s).run w

variable (s : RenderState) (w : σ)

/-- After a failure nothing more is done. -/
theorem outcome_bind (x : RenderM (StateM σ) α) (f : α → RenderM (StateM σ) β) :
    outcome (x >>= f) s w =
      match outcome x s w with
      | ((.ok a, s'), w') => outcome (f a) s' w'
      | ((.error e, s'), w') => ((.error e, s'), w') := by
  rcases h : outcome x s w with ⟨⟨result, s'⟩, w'⟩
  have hx : x s w = ((result, s'), w') := h
  change (match x s w with
    | ((r, s'), w') => outcome (ExceptT.mk (ExceptT.bindCont f r)) s' w') = _
  rw [hx]
  cases result <;> rfl

@[simp] theorem outcome_get :
    outcome (get : RenderM (StateM σ) RenderState) s w = ((.ok s, s), w) := rfl

@[simp] theorem outcome_set (s' : RenderState) :
    outcome (set s' : RenderM (StateM σ) PUnit) s w = ((.ok ⟨⟩, s'), w) := rfl

@[simp] theorem outcome_throw (e : RenderError) :
    outcome (throw e : RenderM (StateM σ) α) s w = ((.error e, s), w) := rfl

@[simp] theorem outcome_except (r : Except RenderError α) :
    outcome (liftM r : RenderM (StateM σ) α) s w = ((r, s), w) := by cases r <;> rfl

@[simp] theorem outcome_lift (x : StateM σ α) :
    outcome (liftM x : RenderM (StateM σ) α) s w = ((.ok (x.run w).1, s), (x.run w).2) := rfl

@[simp] theorem outcome_data :
    outcome (data : RenderM (StateM σ) Data) s w = ((.ok s.data, s), w) := rfl

theorem outcome_write (text : String) :
    outcome (write text) s w =
      match s.sink.write? text with
      | some sink => ((.ok (), { s with sink }), w)
      | none => ((.error .write, s), w) := by
  simp only [write, outcome_bind, outcome_get]
  cases s.sink.write? text <;> rfl

theorem outcome_inScope (enter : Data → Data) (x : RenderM (StateM σ) Unit) :
    outcome (inScope enter x) s w =
      match outcome x { s with data := enter s.data } w with
      | ((r, s'), w') =>
        ((r, { s' with data := { s'.data with scope := s.data.scope } }), w') := rfl

/-- What a call comes to, and the data after it. -/
def called (found : Except RenderError Function) (d : Data) (path : DataPath)
    (out : Option DataPath) (parameters : List Parameter) : Except RenderError Unit × Data :=
  match found with
  | .error e => (.error e, d)
  | .ok f =>
    match (f (parameters.map (·.bind d))).run.run d with
    | (.error e, after) => (.error (.function path.text e), after)
    | (.ok v, after) => (.ok (), out.elim after fun target => after.put target v)

theorem outcome_call_eq (ctx : RenderContext (StateM σ)) (path : DataPath) (out : Option DataPath)
    (parameters : List Parameter) :
    outcome (call ctx path out parameters) s w =
      match called (findFunction ctx s.data path) s.data path out parameters with
      | (r, d) => ((r, { s with data := d }), w) := by
  cases hf : findFunction ctx s.data path with
  | error e => simp only [call, called, outcome_bind, outcome_get, outcome_except, hf]
  | ok f =>
    rcases hcall : (f (parameters.map (·.bind s.data))).run.run s.data with ⟨result, d⟩
    cases result with
    | error e =>
      simp only [call, called, outcome_bind, outcome_get, outcome_except, hf, hcall, outcome_set,
        outcome_throw]
    | ok v =>
      cases out <;>
        simp only [call, called, outcome_bind, outcome_get, outcome_except, hf, hcall, outcome_set,
          Option.elim]

/-- A call may change the data and nothing else, and does the same whatever is remembered. -/
theorem outcome_call (ctx : RenderContext (StateM σ)) (path : DataPath) (out : Option DataPath)
    (parameters : List Parameter) :
    ∃ r d, ∀ w, outcome (call ctx path out parameters) s w = ((r, { s with data := d }), w) :=
  ⟨_, _, fun w => outcome_call_eq s w ctx path out parameters⟩

/-- Another template is found first, as the provider then remembers, and then written. -/
theorem outcome_included (ctx : RenderContext (StateM σ)) (room : Nat) (h : Handle TemplateId) :
    outcome (included ctx (room + 1) h) s w =
      match (ctx.load h).run w with
      | (.ok t, w') => outcome (blocks ctx (included ctx room) t.blocks) s w'
      | (.error e, w') => ((.error (.template e), s), w') := by
  simp only [included, outcome_bind, outcome_lift]
  rcases (ctx.load h).run w with ⟨result, w'⟩
  cases result <;> rfl

end Render

end TextTemplate
