import TextTemplate.Proofs.Render.Kept
import TextTemplate.Proofs.Render.Outcome

/-! The limit on how deep templates are included only cuts writing off. To say where, writing is
watched: each time it comes to another template, that is noted before anything else is done, and the
limit is asked only then. -/

namespace TextTemplate

/-- The context with another limit. -/
def RenderContext.within {m : Type → Type} (ctx : RenderContext m) (limit : Nat) :
    RenderContext m := { ctx with limit }

@[simp] theorem RenderContext.load_within {m : Type → Type} (ctx : RenderContext m) (limit : Nat)
    (h : Handle TemplateId) : (ctx.within limit).load h = ctx.load h := rfl

/-- An arrival at another template: how it is found, how many included templates are in progress,
and what was written up to then. -/
structure Arrival where
  handle : Handle TemplateId
  nesting : Nat
  text : String

namespace Render
variable {σ : Type}

/-- A computation that notes arrivals beside what the provider remembers. -/
abbrev WatchM (σ : Type) := StateM (σ × List Arrival)

/-- The same provider, watched. -/
def watching (ctx : RenderContext (StateM σ)) : RenderContext (WatchM σ) :=
  { ctx with load := fun h (w, seen) => let (r, w) := ctx.load h w; (r, (w, seen)) }

def note (h : Handle TemplateId) (nesting : Nat) : RenderM (WatchM σ) Unit := fun s (w, seen) =>
  ((.ok (), s), (w, seen ++ [⟨h, nesting, s.sink.text⟩]))

/-- Writes an included template as `included` does, and notes the arrival first. -/
def watched (ctx : RenderContext (StateM σ)) :
    Nat → Nat → Handle TemplateId → RenderM (WatchM σ) Unit
  | nesting, 0, h => do
    note h nesting
    throw (.tooDeep h.key ctx.limit)
  | nesting, room + 1, h => do
    note h nesting
    match ← ((watching ctx).load h : WatchM σ _) with
    | .error e => throw (.template e)
    | .ok t => blocks (watching ctx) (watched ctx (nesting + 1) room) t.blocks

/-- Writes a template, watched. -/
def watch (ctx : RenderContext (StateM σ)) (t : Template) : RenderM (WatchM σ) Unit :=
  blocks (watching ctx) (watched ctx 0 ctx.limit) t.blocks

/-- Where writing a template arrives at other templates, in order. -/
def arrivals (ctx : RenderContext (StateM σ)) (t : Template) (s : RenderState) (w : σ) :
    List Arrival := (outcome (watch ctx t) s (w, [])).2.2

section
variable (s : RenderState) (w : σ) (seen : List Arrival)

@[simp] theorem outcome_note (h : Handle TemplateId) (nesting : Nat) :
    outcome (note h nesting) s (w, seen) =
      ((.ok (), s), (w, seen ++ [⟨h, nesting, s.sink.text⟩])) := rfl

theorem outcome_watched_zero (ctx : RenderContext (StateM σ)) (nesting : Nat)
    (h : Handle TemplateId) :
    outcome (watched ctx nesting 0 h) s (w, seen) =
      ((.error (.tooDeep h.key ctx.limit), s), (w, seen ++ [⟨h, nesting, s.sink.text⟩])) := by
  simp only [watched, outcome_bind, outcome_note, outcome_throw]

theorem outcome_watched (ctx : RenderContext (StateM σ)) (nesting room : Nat)
    (h : Handle TemplateId) :
    outcome (watched ctx nesting (room + 1) h) s (w, seen) =
      match (ctx.load h).run w with
      | (.ok t, w') =>
        outcome (blocks (watching ctx) (watched ctx (nesting + 1) room) t.blocks) s
          (w', seen ++ [⟨h, nesting, s.sink.text⟩])
      | (.error e, w') =>
        ((.error (.template e), s), (w', seen ++ [⟨h, nesting, s.sink.text⟩])) := by
  have hload : ((watching ctx).load h : WatchM σ _).run (w, seen ++ [⟨h, nesting, s.sink.text⟩]) =
      (((ctx.load h).run w).1, (((ctx.load h).run w).2, seen ++ [⟨h, nesting, s.sink.text⟩])) := rfl
  simp only [watched, outcome_bind, outcome_note, outcome_lift, hload]
  rcases (ctx.load h).run w with ⟨result, w'⟩
  cases result <;> rfl

end

/-- Writing adds to the output, and watching it to what was noted. -/
structure Adds (s : RenderState) (seen : List Arrival) (s' : RenderState) (seen' : List Arrival) :
    Prop where
  text : ∃ text, s'.sink.text = s.sink.text ++ text
  seen : ∃ more, seen' = seen ++ more

theorem Adds.refl (s : RenderState) (seen : List Arrival) : Adds s seen s seen :=
  ⟨⟨"", String.append_empty.symm⟩, ⟨[], (List.append_nil _).symm⟩⟩

theorem Adds.trans {s s' s'' : RenderState} {seen seen' seen'' : List Arrival}
    (h : Adds s seen s' seen') (h' : Adds s' seen' s'' seen'') : Adds s seen s'' seen'' := by
  obtain ⟨⟨text, htext⟩, ⟨more, hseen⟩⟩ := h
  obtain ⟨⟨text', htext'⟩, ⟨more', hseen'⟩⟩ := h'
  refine ⟨⟨text ++ text', ?_⟩, ⟨more ++ more', ?_⟩⟩
  · rw [htext', htext, String.append_assoc]
  · rw [hseen', hseen, List.append_assoc]

/-- The second way of writing is the first one watched. -/
def Watches (x : RenderM (StateM σ) Unit) (x' : RenderM (WatchM σ) Unit) : Prop :=
  ∀ s w seen, ∃ r s' w' seen', outcome x s w = ((r, s'), w') ∧
    outcome x' s (w, seen) = ((r, s'), (w', seen')) ∧ Adds s seen s' seen'

theorem paired_watches : Paired Eq (Watches (σ := σ)) where
  pure s w seen := ⟨_, _, _, _, rfl, rfl, .refl s seen⟩
  seq hx hy s w seen := by
    obtain ⟨r, s', w', seen', hleft, hright, hadds⟩ := hx s w seen
    rw [outcome_bind, outcome_bind, hleft, hright]
    cases r with
    | error e => exact ⟨_, _, _, _, rfl, rfl, hadds⟩
    | ok u =>
      obtain ⟨r', s'', w'', seen'', hleft', hright', hadds'⟩ := hy s' w' seen'
      exact ⟨_, _, _, _, hleft', hright', hadds.trans hadds'⟩
  data hf s w seen := by
    rw [outcome_bind, outcome_bind, outcome_data, outcome_data]
    exact hf s.data s.data rfl s w seen
  inScope {enter enter' x x'} henter hx s w seen := by
    obtain rfl : enter = enter' := funext fun d => henter rfl
    obtain ⟨r, s', w', seen', hleft, hright, hadds⟩ := hx { s with data := enter s.data } w seen
    rw [outcome_inScope, outcome_inScope, hleft, hright]
    exact ⟨_, _, _, _, rfl, rfl, hadds.text, hadds.seen⟩

theorem watches_write (text : String) : Watches (σ := σ) (write text) (write text) := by
  intro s w seen
  rw [outcome_write, outcome_write]
  cases hwrite : s.sink.write? text with
  | none => exact ⟨_, _, _, _, rfl, rfl, .refl s seen⟩
  | some sink =>
    refine ⟨_, _, _, _, rfl, rfl, ⟨text, ?_⟩, ⟨[], (List.append_nil _).symm⟩⟩
    rw [Sink.eq_of_write? hwrite]

variable (ctx : RenderContext (StateM σ))

theorem watches_call (path : DataPath) (out : Option DataPath) (parameters : List Parameter) :
    Watches (call ctx path out parameters) (call (watching ctx) path out parameters) := by
  intro s w seen
  rw [outcome_call_eq, outcome_call_eq]
  exact ⟨_, _, _, _, rfl, rfl, (Adds.refl s seen).text, (Adds.refl s seen).seen⟩

theorem watches_blocks {included : Handle TemplateId → RenderM (StateM σ) Unit}
    {watched : Handle TemplateId → RenderM (WatchM σ) Unit}
    (h : ∀ handle, Watches (included handle) (watched handle)) (bs : List Block) :
    Watches (blocks ctx included bs) (blocks (watching ctx) watched bs) :=
  paired_watches.blocks _ _ unseen_eq (watches_call ctx) bs fun _ _ =>
    ⟨fun _ _ => watches_write _, fun _ _ _ => watches_write _, fun handle _ => h handle⟩

/-- The arrival is noted before anything else. -/
theorem outcome_included_watched (nesting room : Nat) (h : Handle TemplateId) (s : RenderState)
    (w : σ) (seen : List Arrival) :
    ∃ r s' w' seen', outcome (included ctx room h) s w = ((r, s'), w') ∧
      outcome (watched ctx nesting room h) s (w, seen) = ((r, s'), (w', seen')) ∧
      Adds s (seen ++ [⟨h, nesting, s.sink.text⟩]) s' seen' := by
  induction room generalizing nesting h s w seen with
  | zero =>
    rw [outcome_watched_zero]
    exact ⟨_, _, _, _, rfl, rfl, .refl s _⟩
  | succ room ih =>
    rw [outcome_included, outcome_watched]
    rcases (ctx.load h).run w with ⟨result, w'⟩
    cases result with
    | error e => exact ⟨_, _, _, _, rfl, rfl, .refl s _⟩
    | ok t =>
      refine watches_blocks ctx (fun handle s w seen => ?_) t.blocks s w' _
      obtain ⟨r, s', w', seen', hleft, hright, hadds⟩ := ih (nesting + 1) handle s w seen
      exact ⟨_, _, _, _, hleft, hright, .trans ⟨(Adds.refl s seen).text, ⟨_, rfl⟩⟩ hadds⟩

theorem watches_included (nesting room : Nat) (h : Handle TemplateId) :
    Watches (included ctx room h) (watched ctx nesting room h) := by
  intro s w seen
  obtain ⟨r, s', w', seen', hleft, hright, hadds⟩ :=
    outcome_included_watched ctx nesting room h s w seen
  exact ⟨_, _, _, _, hleft, hright, .trans ⟨(Adds.refl s seen).text, ⟨_, rfl⟩⟩ hadds⟩

/-- What writing from a state on comes to under a limit, beside what it comes to when it is watched
under a greater one. -/
inductive Cut (limit : Nat) (start : RenderState) (seen : List Arrival) :
    (Except RenderError Unit × RenderState) × σ →
      (Except RenderError Unit × RenderState) × σ × List Arrival → Prop where
  /-- No arrival is too deep, and both come to the same. -/
  | never {r : Except RenderError Unit} {s : RenderState} {w : σ} {more : List Arrival}
    (hresult : ∀ id n, r ≠ .error (.tooDeep id n))
    (hmore : more.find? (·.nesting == limit) = none)
    (htext : ∃ text, s.sink.text = start.sink.text ++ text) :
    Cut limit start seen ((r, s), w) ((r, s), (w, seen ++ more))
  /-- The one ends at the first arrival that is too deep, and the other goes on there. -/
  | short {r : Except RenderError Unit} {s s' : RenderState} {w w' : σ} {more : List Arrival}
    {a : Arrival} (hmore : more.find? (·.nesting == limit) = some a)
    (htext : ∃ text, s.sink.text = start.sink.text ++ text) (harrival : a.text = s.sink.text)
    (hafter : ∃ text, s'.sink.text = s.sink.text ++ text) :
    Cut limit start seen ((.error (.tooDeep a.handle.key limit), s), w)
      ((r, s'), (w', seen ++ more))

section
variable {limit : Nat} {start s : RenderState} {seen before : List Arrival} {w : σ}
  {left : (Except RenderError Unit × RenderState) × σ}
  {right : (Except RenderError Unit × RenderState) × σ × List Arrival}

theorem Cut.adds (h : Cut limit start seen left right) :
    Adds start seen right.1.2 right.2.2 := by
  cases h with
  | never hresult hmore htext => exact ⟨htext, ⟨_, rfl⟩⟩
  | short hmore htext harrival hafter =>
    obtain ⟨text, htext⟩ := htext
    obtain ⟨rest, hafter⟩ := hafter
    exact ⟨⟨text ++ rest, by rw [hafter, htext, String.append_assoc]⟩, ⟨_, rfl⟩⟩

/-- What was written and noted before a cut, without coming too deep. -/
theorem Cut.after (h : Cut limit s (seen ++ before) left right)
    (hbefore : before.find? (·.nesting == limit) = none)
    (hs : ∃ text, s.sink.text = start.sink.text ++ text) : Cut limit start seen left right := by
  obtain ⟨first, hs⟩ := hs
  have hlonger : ∀ {s' : RenderState}, (∃ text, s'.sink.text = s.sink.text ++ text) →
      ∃ text, s'.sink.text = start.sink.text ++ text := by
    rintro s' ⟨text, htext⟩
    exact ⟨first ++ text, by rw [htext, hs, String.append_assoc]⟩
  cases h with
  | never hresult hmore htext =>
    rw [List.append_assoc]
    exact .never hresult (by rw [List.find?_append, hbefore, Option.none_or, hmore]) (hlonger htext)
  | short hmore htext harrival hafter =>
    rw [List.append_assoc]
    exact .short (by rw [List.find?_append, hbefore, Option.none_or, hmore]) (hlonger htext)
      harrival hafter

end

/-- The first way of writing is the second one, cut off at a limit. -/
def Cuts (limit : Nat) (x : RenderM (StateM σ) Unit) (x' : RenderM (WatchM σ) Unit) : Prop :=
  ∀ s w seen, Cut limit s seen (outcome x s w) (outcome x' s (w, seen))

/-- What comes to the same without arriving anywhere is not cut. -/
theorem Cut.of_same {limit : Nat} {start s : RenderState} {seen : List Arrival} {w : σ}
    {r : Except RenderError Unit} (hresult : ∀ id n, r ≠ .error (.tooDeep id n))
    (htext : ∃ text, s.sink.text = start.sink.text ++ text) :
    Cut limit start seen ((r, s), w) ((r, s), (w, seen)) := by
  have hcut : Cut limit start seen ((r, s), w) ((r, s), (w, seen ++ [])) :=
    .never hresult List.find?_nil htext
  rwa [List.append_nil] at hcut

theorem paired_cuts (limit : Nat) : Paired Eq (Cuts (σ := σ) limit) where
  pure s w seen := .of_same nofun (Adds.refl s seen).text
  seq {x y x' y'} hx hy s w seen := by
    have hcut := hx s w seen
    rw [outcome_bind, outcome_bind]
    generalize outcome x s w = left at hcut
    generalize outcome x' s (w, seen) = right at hcut
    cases hcut with
    | @never r s' w' more hresult hmore htext =>
      cases r with
      | error e => exact .never hresult hmore htext
      | ok u => exact (hy s' w' (seen ++ more)).after hmore htext
    | @short r s' s'' w' w'' more a hmore htext harrival hafter =>
      cases r with
      | error e => exact .short hmore htext harrival hafter
      | ok u =>
        -- The watched way goes on, and only adds to both.
        obtain ⟨⟨rest, hrest⟩, later, hlater⟩ := (hy s'' w'' (seen ++ more)).adds
        obtain ⟨text, hafter⟩ := hafter
        have hend : outcome y' s'' (w'', seen ++ more) =
          (((outcome y' s'' (w'', seen ++ more)).1.1, (outcome y' s'' (w'', seen ++ more)).1.2),
            ((outcome y' s'' (w'', seen ++ more)).2.1, seen ++ (more ++ later))) := by
          rw [← List.append_assoc, ← hlater]
        dsimp only
        rw [hend]
        refine .short ?_ htext harrival ⟨text ++ rest, ?_⟩
        · rw [List.find?_append, hmore, Option.some_or]
        · rw [hrest, hafter, String.append_assoc]
  data hf s w seen := by
    rw [outcome_bind, outcome_bind, outcome_data, outcome_data]
    exact hf s.data s.data rfl s w seen
  inScope {enter enter' x x'} henter hx s w seen := by
    obtain rfl : enter = enter' := funext fun d => henter rfl
    have hcut := hx { s with data := enter s.data } w seen
    rw [outcome_inScope, outcome_inScope]
    generalize outcome x { s with data := enter s.data } w = left at hcut
    generalize outcome x' { s with data := enter s.data } (w, seen) = right at hcut
    cases hcut with
    | never hresult hmore htext => exact .never hresult hmore htext
    | short hmore htext harrival hafter => exact .short hmore htext harrival hafter

variable (limit : Nat)

theorem cuts_write (text : String) : Cuts (σ := σ) limit (write text) (write text) := by
  intro s w seen
  rw [outcome_write, outcome_write]
  cases hwrite : s.sink.write? text with
  | none => exact .of_same nofun (Adds.refl s seen).text
  | some sink => exact .of_same nofun ⟨text, by rw [Sink.eq_of_write? hwrite]⟩

theorem not_tooDeep_of_called {found : Except RenderError Function} {d : Data} {path : DataPath}
    {out : Option DataPath} {parameters : List Parameter}
    (h : ∀ id n, found ≠ .error (.tooDeep id n)) (id : TemplateId) (n : Nat) :
    (called found d path out parameters).1 ≠ .error (.tooDeep id n) := by
  unfold called
  split
  · next e => exact fun heq => h id n (congrArg Except.error (Except.error.inj heq))
  · split <;> nofun

theorem cuts_call (other : Nat) (path : DataPath) (out : Option DataPath)
    (parameters : List Parameter) :
    Cuts limit (call (ctx.within limit) path out parameters)
      (call (watching (ctx.within other)) path out parameters) := by
  intro s w seen
  rw [outcome_call_eq, outcome_call_eq]
  refine .of_same (not_tooDeep_of_called fun id n => ?_) (Adds.refl s seen).text
  unfold findFunction
  dsimp only
  split <;> nofun

theorem cuts_blocks (other : Nat) {included : Handle TemplateId → RenderM (StateM σ) Unit}
    {watched : Handle TemplateId → RenderM (WatchM σ) Unit}
    (h : ∀ handle, Cuts limit (included handle) (watched handle)) (bs : List Block) :
    Cuts limit (blocks (ctx.within limit) included bs)
      (blocks (watching (ctx.within other)) watched bs) :=
  (paired_cuts limit).blocks _ _ unseen_eq (cuts_call ctx limit other) bs fun _ _ =>
    ⟨fun _ _ => cuts_write limit _, fun _ _ _ => cuts_write limit _, fun handle _ => h handle⟩

/-- With as many templates in progress as leave the smaller limit `room`, the greater one leaves
more room, or as much. -/
theorem cuts_included (extra nesting room : Nat) (hroom : nesting + room = limit)
    (h : Handle TemplateId) :
    Cuts limit (included (ctx.within limit) room h)
      (watched (ctx.within (limit + extra)) nesting (room + extra) h) := by
  induction room generalizing nesting h with
  | zero =>
    intro s w seen
    obtain ⟨r, s', w', seen', -, hwatched, ⟨htext, later, rfl⟩⟩ :=
      outcome_included_watched (ctx.within (limit + extra)) nesting (0 + extra) h s w seen
    rw [hwatched, List.append_assoc]
    refine .short (a := ⟨h, nesting, s.sink.text⟩) ?_ (Adds.refl s seen).text rfl htext
    rw [List.singleton_append, List.find?_cons_of_pos]
    exact beq_of_eq hroom
  | succ room ih =>
    intro s w seen
    have hnot : [(⟨h, nesting, s.sink.text⟩ : Arrival)].find? (·.nesting == limit) = none :=
      List.find?_eq_none.2 fun a ha => by
        have hnesting : a.nesting = nesting := by rw [List.mem_singleton.1 ha]
        rw [beq_iff_eq]
        omega
    rw [Nat.succ_add, outcome_included, outcome_watched]
    simp only [RenderContext.load_within]
    rcases (ctx.load h).run w with ⟨result, w'⟩
    cases result with
    | error e =>
      exact .never (fun id n h => by cases h) hnot (Adds.refl s seen).text
    | ok t =>
      have hcuts := cuts_blocks ctx limit (limit + extra)
        (ih (nesting + 1) (by omega)) t.blocks s w' (seen ++ [⟨h, nesting, s.sink.text⟩])
      exact hcuts.after hnot (Adds.refl s seen).text

/-- A greater limit changes nothing but where writing ends. Unless it ends because the limit was
exceeded, writing under the smaller limit comes to the same as under the greater one: the same
result, data and output. And the limit is exceeded if and only if writing arrives at another
template while as many are in progress; it ends at the first such arrival, and what was written up
to there is where the output under the greater limit begins. -/
theorem limit_only_cuts (ctx : RenderContext (StateM σ)) (t : Template) (s : RenderState) (w : σ)
    {limit greater : Nat} (h : limit ≤ greater) :
    let cut := outcome (template (ctx.within limit) t) s w
    let full := outcome (template (ctx.within greater) t) s w
    let tooDeep := (arrivals (ctx.within greater) t s w).find? (·.nesting == limit)
    ((∀ id n, cut.1.1 ≠ .error (.tooDeep id n)) → full = cut) ∧
      ((∃ id n, cut.1.1 = .error (.tooDeep id n)) ↔ tooDeep.isSome) ∧
      ∀ id n, cut.1.1 = .error (.tooDeep id n) → n = limit ∧
        ∃ a text, tooDeep = some a ∧ a.handle.key = id ∧ cut.1.2.sink.text = a.text ∧
          full.1.2.sink.text = a.text ++ text := by
  obtain ⟨extra, rfl⟩ := Nat.exists_eq_add_of_le h
  intro cut full tooDeep
  have hcut : Cut limit s [] cut (outcome (watch (ctx.within (limit + extra)) t) s (w, [])) :=
    cuts_blocks ctx limit _ (cuts_included ctx limit extra 0 limit (Nat.zero_add _)) t.blocks s w []
  have hwatches : Watches (template (ctx.within (limit + extra)) t)
      (watch (ctx.within (limit + extra)) t) :=
    watches_blocks _ (watches_included _ 0 _) t.blocks
  obtain ⟨r, s', w', seen, hfull, hwatched, -⟩ := hwatches s w []
  have htooDeep : tooDeep = seen.find? (·.nesting == limit) := by
    simp only [tooDeep, arrivals, hwatched]
  rw [hwatched] at hcut
  rw [htooDeep, show full = ((r, s'), w') from hfull]
  clear_value cut
  cases hcut with
  | never hresult hmore htext =>
    refine ⟨fun _ => rfl, ⟨fun ⟨id, n, hr⟩ => absurd hr (hresult id n), fun hsome => ?_⟩,
      fun id n hr => absurd hr (hresult id n)⟩
    rw [List.nil_append, hmore] at hsome
    cases hsome
  | @short _ s₁ _ _ _ more a hmore htext harrival hafter =>
    refine ⟨fun hnot => absurd rfl (hnot _ _), ⟨fun _ => ?_, fun _ => ⟨_, _, rfl⟩⟩,
      fun id n hr => ?_⟩
    · rw [List.nil_append, hmore]
      rfl
    · cases hr
      obtain ⟨text, hafter⟩ := hafter
      exact ⟨rfl, a, text, hmore, rfl, harrival.symm, by rw [hafter, harrival]⟩

/-- A template that includes itself is written once more for each level that the limit allows. -/
theorem limit_only_cuts_self_inclusion :
    let id : TemplateId := .source ⟨[], "a"⟩ .root none "raw"
    let t : Template := ⟨"a", [.text "x" false, .inclusion ⟨id, none⟩]⟩
    let ctx : RenderContext (StateM Unit) := ⟨fun _ => pure (.ok t), fun _ => none, [], 0⟩
    let cut := outcome (template (ctx.within 1) t) ⟨.empty, .empty⟩ ()
    let full := outcome (template (ctx.within 2) t) ⟨.empty, .empty⟩ ()
    1 ≤ 2 ∧ cut.1.1 = .error (.tooDeep id 1) ∧ cut.1.2.sink.text = "xx" ∧
      ∃ text, full.1.2.sink.text = "xx" ++ text := by
  intro id t ctx cut full
  have hcut : cut.1.1 = .error (.tooDeep id 1) := rfl
  have htext : cut.1.2.sink.text = "xx" := rfl
  obtain ⟨-, -, hdeep⟩ :=
    limit_only_cuts ctx t ⟨.empty, .empty⟩ () (show 1 ≤ 2 by decide)
  obtain ⟨-, a, text, -, -, harrival, hfull⟩ := hdeep id 1 hcut
  exact ⟨by decide, hcut, htext, text, by rw [← htext, harrival]; exact hfull⟩

end Render

end TextTemplate
