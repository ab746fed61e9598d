import Mathlib
import TextTemplate.Proofs.Data.Renumber
import TextTemplate.Proofs.Engine.Caching

/-! Data without overlays are isolated from what is written through the scopes inside them. A loop
over such data therefore writes each turn as if it were the only one: the overlays that earlier
turns made only raise the numbers of those that it makes itself. -/

namespace TextTemplate

/-- All functions that templates can call know data only by what they are given. -/
structure RenderContext.Confined {m : Type → Type} (ctx : RenderContext m) : Prop where
  carried : ∀ ref f, ctx.carried ref = some f → f.Confined
  functions : ∀ name f, ctx.functions.get? name = some f → f.Confined

/-- Where the provider knows no more than `Known` says, it finds the same templates whatever it
remembers, and goes on so. -/
def RenderContext.Finds {σ : Type} (ctx : RenderContext (StateM σ)) (Known : σ → Prop)
    (find : Handle TemplateId → Except TemplateError Template) : Prop :=
  ∀ h w, Known w → ((ctx.load h).run w).1 = find h ∧ Known ((ctx.load h).run w).2

namespace Render
variable {σ : Type} {k : Nat}

/-- No block sees how the overlays are numbered. -/
theorem unseen_above (k : Nat) : Unseen (Data.Above k) where
  value h path := by
    rw [h.get path]
    exact ⟨(Value.isNull_renumber _).symm, (h.store.text _).symm⟩
  typed h path format := by
    rw [h.get path]
    exact (Format.write?_renumber format (h.store.text _)).symm
  condition h path := by
    rw [h.get? path, Option.any_map]
    simp only [Value.isTruthy_renumber]
  missing h path hnone := by
    rw [h.get? path, hnone]
    rfl
  found h path v hv := by
    refine ⟨v.renumber k, by rw [h.get? path, hv]; rfl, fun he => he.child v, ?_, ?_⟩
    · rw [h.store.sequence v, h.store.length]
    · intro i size e e' he
      rw [h.store.sequence v, he.store.item?]
      have hturn := fun item => he.turn item i size
      cases (Store.sequence _ v).item? e.store i with
      | none => exact hturn .null
      | some item => exact hturn item

/-- What comes of writing from two states on, where the second has more overlays and may have less
room for output: the same, unless the room does not suffice. -/
inductive Repeat (Known : σ → Prop) (k : Nat) (s s' : RenderState) :
    (Except RenderError Unit × RenderState) × σ → (Except RenderError Unit × RenderState) × σ →
      Prop where
  | same {r : Except RenderError Unit} {t t' : RenderState} {w w' : σ} {text : String}
    (hw : Known w) (hw' : Known w') (hdata : Data.Above k t.data t'.data)
    (hsink : t.sink = ⟨s.sink.text ++ text, none⟩)
    (hsink' : t'.sink = ⟨s'.sink.text ++ text, s'.sink.limit⟩) :
    Repeat Known k s s' ((r, t), w) ((r, t'), w')
  | full {left : (Except RenderError Unit × RenderState) × σ} {t' : RenderState} {w' : σ}
    (hlimit : s'.sink.limit ≠ none) :
    Repeat Known k s s' left ((.error .write, t'), w')

/-- The second way of writing repeats what the first one does in data with fewer overlays. -/
def Repeats (Known : σ → Prop) (k : Nat) (x x' : RenderM (StateM σ) Unit) : Prop :=
  ∀ s s' w w', Known w → Known w' → Data.Above k s.data s'.data → s.sink.limit = none →
    Repeat Known k s s' (outcome x s w) (outcome x' s' w')

variable {Known : σ → Prop}

theorem Repeat.of_silent {s s' : RenderState} {d d' : Data} {w w' : σ}
    {r : Except RenderError Unit} (hw : Known w) (hw' : Known w') (hdata : Data.Above k d d')
    (hlimit : s.sink.limit = none) :
    Repeat Known k s s' ((r, { s with data := d }), w) ((r, { s' with data := d' }), w') := by
  have hsink : s.sink = ⟨s.sink.text ++ "", none⟩ := by rw [String.append_empty, ← hlimit]
  have hsink' : s'.sink = ⟨s'.sink.text ++ "", s'.sink.limit⟩ := by rw [String.append_empty]
  exact .same hw hw' hdata hsink hsink'

theorem paired_repeats (Known : σ → Prop) (k : Nat) :
    Paired (Data.Above k) (Repeats Known k) where
  pure s s' w w' hw hw' hdata hlimit := .of_silent hw hw' hdata hlimit
  seq {x y x' y'} hx hy s s' w w' hw hw' hdata hlimit := by
    have hfirst := hx s s' w w' hw hw' hdata hlimit
    rw [outcome_bind, outcome_bind]
    generalize outcome x s w = left at hfirst
    generalize outcome x' s' w' = right at hfirst
    cases hfirst with
    | full hfull => exact .full hfull
    | @same r t t' v v' text hv hv' hdata hsink hsink' =>
      cases r with
      | error e => exact .same hv hv' hdata hsink hsink'
      | ok u =>
        have hsecond := hy t t' v v' hv hv' hdata (by rw [hsink])
        dsimp only
        generalize outcome y t v = left at hsecond ⊢
        generalize outcome y' t' v' = right at hsecond ⊢
        cases hsecond with
        | full hfull => exact .full (by rwa [hsink'] at hfull)
        | @same _ t₂ t₂' _ _ text' hv hv' hdata hsecond hsecond' =>
          have hboth : t₂.sink = ⟨s.sink.text ++ (text ++ text'), none⟩ := by
            rw [hsecond, hsink, String.append_assoc]
          have hboth' : t₂'.sink = ⟨s'.sink.text ++ (text ++ text'), s'.sink.limit⟩ := by
            rw [hsecond', hsink', String.append_assoc]
          exact .same hv hv' hdata hboth hboth'
  data hf s s' w w' hw hw' hdata hlimit := by
    rw [outcome_bind, outcome_bind, outcome_data, outcome_data]
    exact hf s.data s'.data hdata s s' w w' hw hw' hdata hlimit
  inScope {enter enter' x x'} henter hx s s' w w' hw hw' hdata hlimit := by
    have hinside := hx { s with data := enter s.data } { s' with data := enter' s'.data } w w' hw
      hw' (henter hdata) hlimit
    rw [outcome_inScope, outcome_inScope]
    generalize outcome x { s with data := enter s.data } w = left at hinside
    generalize outcome x' { s' with data := enter' s'.data } w' = right at hinside
    cases hinside with
    | full hfull => exact .full hfull
    | same hv hv' hafter hsink hsink' =>
      exact .same hv hv' ⟨hafter.store, hdata.scope⟩ hsink hsink'

theorem repeats_write (text : String) : Repeats Known k (write text) (write text) := by
  intro s s' w w' hw hw' hdata hlimit
  have hwrite : s.sink.write? text = some ⟨s.sink.text ++ text, none⟩ := by
    rw [Sink.write?, hlimit]
    rfl
  rw [outcome_write, outcome_write, hwrite]
  cases hwrite' : s'.sink.write? text with
  | none =>
    refine .full fun hnone => ?_
    rw [Sink.write?, hnone] at hwrite'
    cases hwrite'
  | some sink => exact .same hw hw' hdata rfl (Sink.eq_of_write? hwrite')

/-- The function at a path is the same, and one that knows data only by what it is given. -/
theorem eq_some_of_match {found : Option Function} {f : Function} {e : RenderError}
    (h : (match found with | some f => Except.ok f | none => .error e) = .ok f) :
    found = some f := by
  cases found with
  | none => cases h
  | some g => exact congrArg some (Except.ok.inj h)

theorem findFunction_above {ctx : RenderContext (StateM σ)} (hctx : ctx.Confined) {d d' : Data}
    (h : Data.Above k d d') (path : DataPath) :
    findFunction ctx d' path = findFunction ctx d path ∧
      ∀ f, findFunction ctx d path = .ok f → f.Confined := by
  constructor
  · unfold findFunction
    rw [h.get? path]
    cases d.get? path with
    | none => rfl
    | some v => cases v <;> rfl
  · intro f hf
    unfold findFunction at hf
    have hfound := eq_some_of_match hf
    cases hv : d.get? path with
    | none =>
      rw [hv] at hfound
      exact hctx.functions _ f hfound
    | some v =>
      rw [hv] at hfound
      cases v with
      | null => exact hctx.functions _ f hfound
      | function ref => exact hctx.carried ref f hfound
      | _ => cases hfound

theorem called_above {found : Except RenderError Function}
    (hfound : ∀ f, found = .ok f → f.Confined) {d d' : Data} (h : Data.Above k d d')
    (path : DataPath) (out : Option DataPath) (parameters : List Parameter) :
    (called found d' path out parameters).1 = (called found d path out parameters).1 ∧
      Data.Above k (called found d path out parameters).2
        (called found d' path out parameters).2 := by
  cases found with
  | error e => exact ⟨rfl, h⟩
  | ok f =>
    have hargs : parameters.map (·.bind d') =
        (parameters.map (·.bind d)).map (Argument.renumber k) := by
      rw [List.map_map]
      exact List.map_congr_left fun parameter _ => h.bind parameter
    obtain ⟨hresult, hafter⟩ := hfound f rfl h (parameters.map (·.bind d))
    rw [← hargs] at hresult hafter
    unfold called
    dsimp only
    generalize (f (parameters.map (·.bind d))).run.run d = left at hresult hafter
    generalize (f (parameters.map (·.bind d'))).run.run d' = right at hresult hafter
    obtain ⟨result, after⟩ := left
    obtain ⟨result', after'⟩ := right
    cases result with
    | error e =>
      cases hresult
      exact ⟨rfl, hafter⟩
    | ok v =>
      cases hresult
      cases out with
      | none => exact ⟨rfl, hafter⟩
      | some target => exact ⟨rfl, hafter.put target v⟩

section
variable {ctx : RenderContext (StateM σ)} (hctx : ctx.Confined)
include hctx

theorem repeats_call (path : DataPath) (out : Option DataPath) (parameters : List Parameter) :
    Repeats Known k (call ctx path out parameters) (call ctx path out parameters) := by
  intro s s' w w' hw hw' hdata hlimit
  obtain ⟨hfound, hconfined⟩ := findFunction_above hctx hdata path
  obtain ⟨hresult, hafter⟩ := called_above hconfined hdata path out parameters
  rw [outcome_call_eq, outcome_call_eq, hfound]
  dsimp only
  rw [hresult]
  exact .of_silent hw hw' hafter hlimit

theorem repeats_blocks {included : Handle TemplateId → RenderM (StateM σ) Unit}
    (h : ∀ handle, Repeats Known k (included handle) (included handle)) (bs : List Block) :
    Repeats Known k (blocks ctx included bs) (blocks ctx included bs) :=
  (paired_repeats Known k).blocks ctx ctx (unseen_above k) (repeats_call hctx) bs fun _ _ =>
    ⟨fun _ _ => repeats_write _, fun _ _ _ => repeats_write _, fun handle _ => h handle⟩

theorem repeats_included {find : Handle TemplateId → Except TemplateError Template}
    (hfinds : ctx.Finds Known find) (room : Nat) (h : Handle TemplateId) :
    Repeats Known k (included ctx room h) (included ctx room h) := by
  induction room generalizing h with
  | zero => exact fun s s' w w' hw hw' hdata hlimit => .of_silent hw hw' hdata hlimit
  | succ room ih =>
    intro s s' w w' hw hw' hdata hlimit
    obtain ⟨hfound, hknown⟩ := hfinds h w hw
    obtain ⟨hfound', hknown'⟩ := hfinds h w' hw'
    rw [outcome_included, outcome_included]
    generalize (ctx.load h).run w = left at hfound hknown
    generalize (ctx.load h).run w' = right at hfound' hknown'
    obtain ⟨result, v⟩ := left
    obtain ⟨result', v'⟩ := right
    obtain rfl : result = find h := hfound
    obtain rfl : result' = find h := hfound'
    cases find h with
    | error e => exact .of_silent hknown hknown' hdata hlimit
    | ok t => exact repeats_blocks hctx ih t.blocks s s' v v' hknown hknown' hdata hlimit

end

section
variable {ctx : RenderContext (StateM σ)} {included : Handle TemplateId → RenderM (StateM σ) Unit}
  {d : Data} {v : Value}

/-- Enters the scope of one turn of a loop over a value found in `d`. -/
def enterTurn (d : Data) (v : Value) (i : Nat) (e : Data) : Data :=
  let q := d.store.sequence v
  e.turn ((q.item? e.store i).getD .null) i (q.length d.store)

theorem sequence_of_reach (hv : v.reach = 0) (st st' : Store) : st'.sequence v = st.sequence v := by
  cases v with
  | scope s =>
    have hrank : s.rank ≤ 0 := Nat.le_trans (Scope.rank_le_reach s) (Nat.le_of_eq hv)
    have hagree : ∀ id < 0, st'.overlay? id = st.overlay? id := fun id hid => absurd hid (by simp)
    rw [Store.sequence, Store.sequence, Store.isIndexed_of_agree hagree hrank,
      Store.members_of_agree hagree hrank]
  | _ => rfl

/-- Where there are no overlays, a turn shows the same in every store. -/
theorem above_enterTurn (hd : d.scope.reach = 0) (hv : v.reach = 0) (i : Nat) {e : Data}
    (he : e.scope = d.scope) :
    Data.Above e.store.size (enterTurn ⟨.empty, d.scope⟩ v i ⟨.empty, d.scope⟩)
      (enterTurn d v i e) := by
  obtain ⟨st, s⟩ := e
  obtain rfl : s = d.scope := he
  have habove : Data.Above st.size ⟨.empty, d.scope⟩ ⟨st, d.scope⟩ := Data.above_of_reach hd st
  have hsequence : ∀ st' : Store, st'.sequence v =
      (Store.empty.sequence v).renumber st'.size := fun st' => by
    rw [← (Store.above_empty st').sequence v, Value.renumber_eq_self v fun hpos => by omega]
  have hlength : (d.store.sequence v).length d.store =
      (Store.empty.sequence v).length .empty := by
    rw [hsequence d.store, (Store.above_empty d.store).length]
  have hitem : (d.store.sequence v).item? st i =
      ((Store.empty.sequence v).item? .empty i).map (Value.renumber st.size) := by
    rw [sequence_of_reach hv st d.store, hsequence st, (Store.above_empty st).item?]
  have hturn := fun item => habove.turn item i ((Store.empty.sequence v).length .empty)
  unfold enterTurn
  dsimp only
  rw [hlength, hitem]
  cases (Store.empty.sequence v).item? .empty i with
  | none => exact hturn .null
  | some item => exact hturn item

/-- In a store with whatever overlays there are, a turn writes what it writes alone, unless the room
for output does not suffice. -/
theorem turn_repeats {main : List Block}
    (h : ∀ k, Repeats Known k (blocks ctx included main) (blocks ctx included main))
    (hd : d.scope.reach = 0) (hv : v.reach = 0) {w w' : σ} (hw : Known w) (hw' : Known w') (i : Nat)
    {s : RenderState} (hs : s.data.scope = d.scope) :
    ∃ r t t' wt wt',
      outcome (blocks ctx included main) ⟨enterTurn d v i d, .empty⟩ w' = ((r, t'), wt') ∧
      (outcome (blocks ctx included main) ⟨enterTurn d v i s.data, s.sink⟩ w = ((r, t), wt) ∧
          Known wt ∧ t.sink = ⟨s.sink.text ++ t'.sink.text, s.sink.limit⟩ ∨
        outcome (blocks ctx included main) ⟨enterTurn d v i s.data, s.sink⟩ w =
            ((.error .write, t), wt) ∧ s.sink.limit ≠ none) := by
  -- Both are compared with the turn in a store without overlays.
  let bare : RenderState := ⟨enterTurn ⟨.empty, d.scope⟩ v i ⟨.empty, d.scope⟩, .empty⟩
  have hinside := h _ bare ⟨enterTurn d v i s.data, s.sink⟩ w w hw hw
    (above_enterTurn hd hv i hs) rfl
  have halone := h _ bare ⟨enterTurn d v i d, .empty⟩ w w' hw hw'
    (above_enterTurn hd hv i rfl) rfl
  generalize outcome (blocks ctx included main) bare w = left at hinside halone
  generalize outcome (blocks ctx included main) ⟨enterTurn d v i s.data, s.sink⟩ w = inside at *
  generalize outcome (blocks ctx included main) ⟨enterTurn d v i d, .empty⟩ w' = right at *
  cases halone with
  | full hfull => exact absurd rfl hfull
  | @same r _ t' _ wt' text _ _ _ hsink htext =>
    cases hinside with
    | full hfull => exact ⟨_, _, _, _, _, rfl, .inr ⟨rfl, hfull⟩⟩
    | @same _ _ t _ wt text' _ hwt _ hsink' htext' =>
      refine ⟨_, _, _, _, _, rfl, .inl ⟨rfl, hwt, ?_⟩⟩
      have htexts := congrArg Sink.text (hsink.symm.trans hsink')
      simp only [bare, Sink.empty, String.empty_append] at htexts
      subst htexts
      rw [htext, htext']
      simp only [Sink.empty, String.empty_append]

/-- The first turn, and then the others where it succeeds. -/
theorem outcome_forTurns_succ (enter : Nat → Data → Data) (x : RenderM (StateM σ) Unit)
    (count first : Nat) (s : RenderState) (w : σ) :
    outcome (forTurns (fun i => inScope (enter i) x) (count + 1) first) s w =
      match outcome x { s with data := enter first s.data } w with
      | ((.ok (), t), wt) => outcome (forTurns (fun i => inScope (enter i) x) count (first + 1))
          { t with data := { t.data with scope := s.data.scope } } wt
      | ((.error e, t), wt) =>
        ((.error e, { t with data := { t.data with scope := s.data.scope } }), wt) := by
  rw [forTurns, outcome_bind, outcome_inScope]
  rcases outcome x { s with data := enter first s.data } w with ⟨⟨r, t⟩, wt⟩
  cases r <;> rfl

/-- Turns after one another write what each of them writes alone. -/
theorem turns_repeat {main : List Block}
    (h : ∀ k, Repeats Known k (blocks ctx included main) (blocks ctx included main))
    (hd : d.scope.reach = 0) (hv : v.reach = 0) {w w' : σ} (hw : Known w) (hw' : Known w')
    (count first : Nat) {s : RenderState} (hs : s.data.scope = d.scope) :
    let all := outcome (forTurns (fun i => inScope (enterTurn d v i) (blocks ctx included main))
      count first) s w
    let alone i := outcome (blocks ctx included main) ⟨enterTurn d v i d, .empty⟩ w'
    (all.1.1 = .ok () → (∀ i ∈ List.range' first count, (alone i).1.1 = .ok ()) ∧
      all.1.2.sink.text = s.sink.text ++
        String.join ((List.range' first count).map fun i => (alone i).1.2.sink.text)) ∧
    (s.sink.limit = none → (∀ i ∈ List.range' first count, (alone i).1.1 = .ok ()) →
      all.1.1 = .ok ()) := by
  intro all alone
  induction count generalizing first s w with
  | zero =>
    refine ⟨fun _ => ⟨nofun, ?_⟩, fun _ _ => rfl⟩
    exact String.append_empty.symm
  | succ count ih =>
    obtain ⟨r, t, t', wt, wt', halone, hturn⟩ := turn_repeats h hd hv hw hw' first hs
    have hfirst : alone first = ((r, t'), wt') := halone
    have hall := outcome_forTurns_succ (enterTurn d v) (blocks ctx included main) count first s w
    rw [List.range'_succ, List.map_cons, String.join_cons, show all = _ from hall]
    rcases hturn with ⟨hinside, hknown, hsink⟩ | ⟨hinside, hlimit⟩
    · rw [hinside, hfirst]
      cases r with
      | error e =>
        refine ⟨nofun, fun _ hrest => ?_⟩
        have hnot := hrest first List.mem_cons_self
        rw [hfirst] at hnot
        exact hnot
      | ok u =>
        obtain ⟨hthere, hback⟩ := ih hknown (first + 1)
          (s := { t with data := { t.data with scope := s.data.scope } }) hs
        refine ⟨fun hok => ?_, fun hnone hrest => ?_⟩
        · obtain ⟨hrest, htext⟩ := hthere hok
          refine ⟨fun i hi => ?_, ?_⟩
          · rcases List.mem_cons.1 hi with rfl | hmem
            · rw [hfirst]
            · exact hrest i hmem
          · rw [htext]
            dsimp only
            rw [hsink, String.append_assoc]
        · exact hback (by rw [hsink]; exact hnone) fun i hi =>
            hrest i (List.mem_cons_of_mem _ hi)
    · rw [hinside]
      exact ⟨nofun, fun hnone => absurd hnone hlimit⟩

end

/-- Each turn of a loop gives back the scope in which the loop stands. -/
theorem scope_forTurns (enter : Nat → Data → Data) (x : RenderM (StateM σ) Unit)
    (count first : Nat) (s : RenderState) (w : σ) :
    (outcome (forTurns (fun i => inScope (enter i) x) count first) s w).1.2.data.scope =
      s.data.scope := by
  induction count generalizing first s w with
  | zero => rfl
  | succ count ih =>
    rw [outcome_forTurns_succ]
    rcases outcome x { s with data := enter first s.data } w with ⟨⟨r, s'⟩, w'⟩
    cases r with
    | error e => rfl
    | ok u => exact ih (first + 1) _ w'

/-- A loop is its turns after one another, as many as there are items. -/
theorem outcome_loop (ctx : RenderContext (StateM σ))
    (included : Handle TemplateId → RenderM (StateM σ) Unit) (path : DataPath) (main : List Block)
    (s : RenderState) (w : σ) :
    outcome (block ctx included (.branch .loop path main [])) s w =
      outcome (forTurns
        (fun i => inScope (enterTurn s.data (s.data.get path) i) (blocks ctx included main))
        ((s.data.store.sequence (s.data.get path)).length s.data.store) 0) s w := by
  rw [block, branch, outcome_bind, outcome_data, Data.get]
  dsimp only
  cases hget : s.data.get? path with
  | none => rfl
  | some v =>
    dsimp only
    split
    · next hzero =>
      rw [Option.getD_some, hzero]
      rfl
    · rfl

end Render

/-- An engine whose texts never change finds the same templates whatever it remembers. -/
theorem Engine.finds (e : Engine Id) :
    e.context.Finds (fun memo => memo.Faithful e.make) fun h => e.make h.key := by
  intro h memo hfaithful
  obtain ⟨memo', hfaithful', hrun⟩ := steady_follow e h memo hfaithful
  change ((e.follow h).run memo).1 = _ ∧ ((e.follow h).run memo).2.Faithful e.make
  rw [hrun]
  exact ⟨rfl, hfaithful'⟩

namespace Data

/-- Data without overlays, as they are until they are written to, are isolated from the scopes
inside them. Whatever a program does with the scopes that it comes by from them, they answer as
before. A loop over them leaves them unchanged too, even if it fails, when all functions know data
only by what they are given; and unless it fails, it writes after one another what each turn writes
alone. With room for any output it fails only if some turn does alone. -/
theorem isolated {d : Data} (hd : d.scope.reach = 0) :
    (∀ w, Relation.ReflTransGen Session.Step ⟨d.store, [d.scope]⟩ w →
      Unchanged d (w.data d.scope)) ∧
    ∀ {σ : Type} {Known : σ → Prop} {ctx : RenderContext (StateM σ)}
      {find : Handle TemplateId → Except TemplateError Template}, ctx.Confined →
      ctx.Finds Known find →
      ∀ (path : DataPath) (main : List Block) (sink : Sink) (w : σ), Known w →
      let included := Render.included ctx ctx.limit
      let loop :=
        Render.outcome (Render.block ctx included (.branch .loop path main [])) ⟨d, sink⟩ w
      let q := d.store.sequence (d.get path)
      let size := q.length d.store
      let alone i := Render.outcome (Render.blocks ctx included main)
        ⟨d.turn ((q.item? d.store i).getD .null) i size, .empty⟩ w
      Unchanged d loop.1.2.data ∧
        (loop.1.1 = .ok () → (∀ i < size, (alone i).1.1 = .ok ()) ∧
          loop.1.2.sink.text =
            sink.text ++ String.join ((List.range size).map fun i => (alone i).1.2.sink.text)) ∧
        (sink.limit = none → (∀ i < size, (alone i).1.1 = .ok ()) → loop.1.1 = .ok ()) := by
  refine ⟨fun w _ => unchanged_of_reach hd w.store, ?_⟩
  intro σ Known ctx find hctx hfinds path main sink w hw included loop q size alone
  have hreach : (d.get path).reach = 0 := by
    have hbare : Sound ⟨.empty, d.scope⟩ := ⟨Store.sound_empty, Nat.le_of_eq hd⟩
    have hget : Data.get ⟨.empty, d.scope⟩ path = d.get path :=
      congrArg (·.getD .null) ((unchanged_of_reach hd .empty).get? path)
    exact Nat.le_zero.1 (hget ▸ hbare.reach_get path)
  have hloop : loop = Render.outcome (Render.forTurns (fun i =>
      Render.inScope (Render.enterTurn d (d.get path) i) (Render.blocks ctx included main)) size 0)
      ⟨d, sink⟩ w := Render.outcome_loop ctx included path main ⟨d, sink⟩ w
  have hrepeats : ∀ k, Render.Repeats Known k (Render.blocks ctx included main)
      (Render.blocks ctx included main) := fun k =>
    Render.repeats_blocks hctx (Render.repeats_included hctx hfinds ctx.limit) main
  obtain ⟨hthere, hback⟩ := Render.turns_repeat hrepeats hd hreach hw hw size 0
    (s := ⟨d, sink⟩) rfl
  have hrange : ∀ {P : Nat → Prop}, (∀ i ∈ List.range' 0 size, P i) ↔ ∀ i < size, P i := by
    simp [List.mem_range']
  rw [hrange] at hback
  rw [hrange, ← List.range_eq_range'] at hthere
  rw [hloop]
  refine ⟨?_, hthere, hback⟩
  have hscope := Render.scope_forTurns (Render.enterTurn d (d.get path))
    (Render.blocks ctx included main) size 0 ⟨d, sink⟩ w
  generalize (Render.outcome (Render.forTurns _ size 0) ⟨d, sink⟩ w).1.2.data = after at hscope ⊢
  obtain ⟨st, s⟩ := after
  obtain rfl : s = d.scope := hscope
  exact unchanged_of_reach hd st

/-- Each turn of a loop that stores a value and writes it finds nothing of what the others stored.
-/
theorem isolated_stored_in_turns :
    let d := Data.ofValue .empty (.map [("p", .list [.text "a", .text "b"])])
    let e : Engine Id := .new ⟨fun _ _ => pure (.ok none)⟩ (fun _ => none) .standard
    let main : List Block := [.value ⟨["u"]⟩ .none (some "-"),
      .apply ⟨["concat"]⟩ (some ⟨["u"]⟩) [.datum ⟨["value"]⟩, .datum ⟨["value"]⟩],
      .value ⟨["u"]⟩ .none none]
    let loop := Render.outcome (Render.block e.context (Render.included e.context e.context.limit)
      (.branch .loop ⟨["p"]⟩ main [])) ⟨d, .empty⟩ .empty
    d.scope.reach = 0 ∧ e.context.Confined ∧ loop.1.1 = .ok () ∧
      loop.1.2.sink.text = "-aa-bb" ∧ loop.1.2.data.get? ⟨["u"]⟩ = d.get? ⟨["u"]⟩ := by
  intro d e main loop
  have hd : d.scope.reach = 0 := rfl
  have hctx : e.context.Confined := ⟨nofun, fun _ _ => Function.confined_builtins _⟩
  obtain ⟨hunchanged, hthere, hback⟩ := (isolated hd).2 hctx e.finds ⟨["p"]⟩ main .empty .empty
    (Memo.faithful_empty _)
  have hok : loop.1.1 = .ok () := by
    simp only [loop, main, e, d]
    cbv
  have htext : loop.1.2.sink.text = "-aa-bb" := by
    simp only [loop, main, e, d]
    cbv
  exact ⟨hd, hctx, hok, htext, hunchanged.get? ⟨["u"]⟩⟩

end Data

end TextTemplate
