import TextTemplate.Proofs.Scan.Fresh
import TextTemplate.Proofs.Scan.Tiling

/-! A token that is put back and read again makes no difference to what is read besides, and a
scanner that has failed stays where it is. -/

namespace TextTemplate

/-- The answers to a run of calls without those that only give a token back. A call that puts a
token back has no answer, and the next answer gives the token back. -/
def withoutReturns {α : Type} : List (Option α) → List α
  | [] | [none] => []
  | none :: _ :: answers => withoutReturns answers
  | some a :: answers => a :: withoutReturns answers

namespace Scanner

/-- The token read last once a step is taken, where `last` was before. -/
def lastAfterStep (s : Scanner) (last : Option Spanned) : Option Spanned :=
  match s.step.1 with
  | .ok (some t) => some t
  | _ => last

/-- The calls put back only the token read last, which is `last` before them, and not while another
one is put back. -/
def PutsBackLast (s : Scanner) (last : Option Spanned) : List ScanCall → Prop
  | [] => True
  | .step :: calls => s.step.2.PutsBackLast (s.lastAfterStep last) calls
  | .push t :: calls => s.pushed = none ∧ last = some t ∧ (s.push t).PutsBackLast last calls

variable {s : Scanner} {last : Option Spanned} {calls : List ScanCall} {t : Spanned}
  {e : ScanError}

theorem run_push_step (hp : s.pushed = none) (t : Spanned) (calls : List ScanCall) :
    s.run (.push t :: .step :: calls) =
      (none :: some (.ok (some t)) :: (s.run calls).1, (s.run calls).2) := by
  simp only [run, call, step_push hp]

theorem run_append (s : Scanner) (before after : List ScanCall) :
    s.run (before ++ after) =
      ((s.run before).1 ++ ((s.run before).2.run after).1, ((s.run before).2.run after).2) := by
  induction before generalizing s with
  | nil => rfl
  | cons call before ih => simp only [List.cons_append, run, ih]

theorem pushed_step (hp : s.pushed = none) : s.step.2.pushed = none := by
  obtain ⟨t, hput, _⟩ | ⟨_, _, hstep⟩ | ⟨e, _, _, hstep⟩ | ⟨t, d, hd, _, _, _, hstep⟩ := s.step_cases
  · rw [hp] at hput
    cases hput
  all_goals simpa [hstep] using hp

theorem offset_le_step (s : Scanner) : s.here.offset ≤ s.step.2.here.offset := by
  obtain ⟨t, _, hstep⟩ | ⟨_, _, hstep⟩ | ⟨e, _, _, hstep⟩ | ⟨t, d, hd, _, _, _, hstep⟩ := s.step_cases
  case inr.inr.inr =>
    rw [hstep]
    exact hd.offset_le
  all_goals simp [hstep]

/-- After an error the scanner is where it was, and fails again in the same way. -/
theorem step_of_stuck (hp : s.pushed = none) (he : s.step.1 = .error e) :
    s.step.2.here = s.here ∧ s.step.2.step.1 = .error e := by
  obtain ⟨t, hput, _⟩ | ⟨_, _, hstep⟩ | ⟨e', _, _, hstep⟩ | ⟨t, d, hd, _, _, _, hstep⟩ := s.step_cases
  · rw [hp] at hput
    cases hput
  case inr.inr.inl =>
    have hfresh : s.step.2.fresh = s.fresh := by rw [hstep, fresh_refreshed]
    have hagain := congrArg Prod.fst (step_fresh s.step.2)
    rw [hfresh, step_fresh s, he] at hagain
    exact ⟨by rw [hstep]; rfl, hagain.symm⟩
  all_goals
    rw [hstep] at he
    cases he

/-- Calls of a scanner with nothing put back that are steps and pairs, each of a push and the step
that gives the token back. After the last call a token may still be put back. -/
inductive Interleaved : Scanner → Option Spanned → List ScanCall → Prop
  | done {s : Scanner} {last : Option Spanned} (unpushed : s.pushed = none) : Interleaved s last []
  | waiting {s : Scanner} {t : Spanned} (unpushed : s.pushed = none) :
      Interleaved s (some t) [.push t]
  | step {s : Scanner} {last : Option Spanned} {calls : List ScanCall} (unpushed : s.pushed = none)
      (rest : Interleaved s.step.2 (s.lastAfterStep last) calls) :
      Interleaved s last (.step :: calls)
  | again {s : Scanner} {t : Spanned} {calls : List ScanCall} (unpushed : s.pushed = none)
      (rest : Interleaved s (some t) calls) : Interleaved s (some t) (.push t :: .step :: calls)

theorem PutsBackLast.interleaved (hp : s.pushed = none) (h : s.PutsBackLast last calls) :
    Interleaved s last calls := by
  induction hn : calls.length using Nat.strongRecOn generalizing s last calls with
  | ind n ih =>
    subst hn
    cases calls with
    | nil => exact .done hp
    | cons call calls =>
      cases call with
      | step => exact .step hp (ih _ (by simp) (pushed_step hp) h rfl)
      | push t =>
        obtain ⟨_, rfl, h⟩ := h
        cases calls with
        | nil => exact .waiting hp
        | cons call calls =>
          cases call with
          | push u => exact absurd h.1 (by simp [push])
          | step =>
            simp only [PutsBackLast, lastAfterStep, step_push hp] at h
            exact .again hp (ih _ (by simp only [List.length_cons]; omega) hp h rfl)

namespace Interleaved

/-- What is read besides is what the same number of steps reads without interruption. -/
theorem run_steps (h : Interleaved s last calls) :
    (s.run (.replicate (withoutReturns (s.run calls).1).length .step)).1 =
      (withoutReturns (s.run calls).1).map some := by
  induction h with
  | done | waiting => rfl
  | step hp _ ih =>
    simp only [run, call, withoutReturns, List.length_cons, List.replicate_succ, List.map_cons, ih]
  | again hp _ ih =>
    rw [run_push_step hp, withoutReturns]
    exact ih

/-- Once it has failed, a scanner gives nothing but the error besides, and never moves. -/
theorem stuck (h : Interleaved s last calls) (he : s.step.1 = .error e) :
    (∀ a ∈ withoutReturns (s.run calls).1, a = .error e) ∧ (s.run calls).2.here = s.here := by
  induction h with
  | done | waiting => exact ⟨by simp [run, call, withoutReturns], rfl⟩
  | step hp _ ih =>
    obtain ⟨hhere, hagain⟩ := step_of_stuck hp he
    obtain ⟨hall, hend⟩ := ih hagain
    exact ⟨List.forall_mem_cons.2 ⟨he, hall⟩, hend.trans hhere⟩
  | again hp _ ih =>
    rw [run_push_step hp, withoutReturns]
    exact ih he

/-- After an error there is nothing but this error besides, and the scanner ends where it stands. -/
theorem after_error (h : Interleaved s last calls)
    {earlier later : List (Option (Except ScanError (Option Spanned)))}
    (he : (s.run calls).1 = earlier ++ some (.error e) :: later) :
    (∀ a ∈ withoutReturns later, a = .error e) ∧ (s.run calls).2.here.offset = e.offset := by
  induction h generalizing earlier with
  | done => simp [run] at he
  | waiting => cases earlier <;> simp [run, call] at he
  | @step s _ _ hp rest ih =>
    cases earlier with
    | nil =>
      obtain ⟨hfirst, rfl⟩ := List.cons.inj he
      have hfails := Option.some.inj hfirst
      obtain ⟨hhere, hagain⟩ := step_of_stuck hp hfails
      obtain ⟨hall, hend⟩ := rest.stuck hagain
      have hstep : s.step = (.error e, s.step.2) := by rw [← hfails]
      have hoffset := offset_of_error hstep
      exact ⟨hall, by rw [run, call, hend, hhere, hoffset]⟩
    | cons a earlier => exact ih (List.cons.inj he).2
  | again hp rest ih =>
    rw [run_push_step hp] at he ⊢
    cases earlier with
    | nil => cases he
    | cons a earlier =>
      cases earlier with
      | nil => simp at he
      | cons b earlier => exact ih (List.cons.inj (List.cons.inj he).2).2

/-- No token reaches beyond the place where the scanner is in the end. -/
theorem stop_le (h : Interleaved s last calls) (hlast : ∀ t ∈ last, t.stop ≤ s.here.offset) :
    s.here.offset ≤ (s.run calls).2.here.offset ∧
    ∀ t, some (.ok (some t)) ∈ (s.run calls).1 → t.stop ≤ (s.run calls).2.here.offset := by
  induction h with
  | done | waiting => exact ⟨Nat.le_refl _, by simp [run, call]⟩
  | @step s last _ hp _ ih =>
    have hmoves := offset_le_step s
    have hread (t : Spanned) (ht : s.step.1 = .ok (some t)) : t.stop ≤ s.step.2.here.offset := by
      have hstep : s.step = (.ok (some t), s.step.2) := by rw [← ht]
      exact Nat.le_of_eq (covers_of_step hp hstep).1.stop
    have hlast' : ∀ t ∈ s.lastAfterStep last, t.stop ≤ s.step.2.here.offset := by
      intro t ht
      unfold lastAfterStep at ht
      split at ht
      · rename_i u hu
        cases ht
        exact hread _ hu
      · exact Nat.le_trans (hlast t ht) hmoves
    obtain ⟨hreaches, hrest⟩ := ih hlast'
    refine ⟨Nat.le_trans hmoves hreaches, fun t ht => ?_⟩
    rcases List.mem_cons.1 ht with ht | ht
    · exact Nat.le_trans (hread t (Option.some.inj ht).symm) hreaches
    · exact hrest t ht
  | @again s t _ hp _ ih =>
    obtain ⟨hreaches, hrest⟩ := ih hlast
    rw [run_push_step hp]
    refine ⟨hreaches, fun u hu => ?_⟩
    simp only [List.mem_cons, Option.some.injEq, Except.ok.injEq, reduceCtorEq, false_or] at hu
    rcases hu with rfl | hu
    · exact Nat.le_trans (hlast u rfl) hreaches
    · exact hrest u hu

end Interleaved

/-- However steps are mixed with putting back the token read last, what is read besides is what the
same number of steps reads without interruption, and each token put back is given again. After an
error every answer besides is that error, and no token, before it or after it, reaches beyond its
place. -/
theorem put_back_neutral (kinds : List MarkKind) (c : Cursor) (calls : List ScanCall)
    (h : (ofKinds kinds c).PutsBackLast none calls) :
    let s := ofKinds kinds c
    let answers := (s.run calls).1
    let read := withoutReturns answers
    (s.run (.replicate read.length .step)).1 = read.map some ∧
    (∀ before t after, calls = before ++ .push t :: .step :: after →
      ∃ later, answers = (s.run before).1 ++ none :: some (.ok (some t)) :: later) ∧
    ∀ marker offset earlier later,
      answers = earlier ++ some (.error (.neverClosed marker offset)) :: later →
        (∀ a ∈ withoutReturns later, a = .error (.neverClosed marker offset)) ∧
        ∀ t, some (.ok (some t)) ∈ answers → t.stop ≤ offset := by
  intro s answers read
  have hinterleaved : Interleaved s none calls := h.interleaved rfl
  refine ⟨hinterleaved.run_steps, ?_, ?_⟩
  · rintro before t after rfl
    simp only [answers, run_append, run, call, step_of_pushed (s := (s.run before).2.push t) rfl]
    exact ⟨_, rfl⟩
  · intro marker offset earlier later he
    obtain ⟨hlater, hend⟩ := hinterleaved.after_error he
    refine ⟨hlater, fun t ht => ?_⟩
    have hstop := (hinterleaved.stop_le (by simp)).2 t ht
    rwa [hend] at hstop

/-- A text token is put back twice, the second time after the error behind it. -/
theorem put_back_neutral_after_error :
    let t : Spanned := ⟨.text "a", 0, 1⟩
    let s := ofKinds MarkKind.all (Cursor.start "a\x7b>>E\x7db")
    let calls : List ScanCall := [.step, .push t, .step, .step, .push t, .step, .step]
    let e : Except ScanError (Option Spanned) := .error (.neverClosed "E" 1)
    s.PutsBackLast none calls ∧
    (s.run calls).1 =
      [some (.ok (some t)), none, some (.ok (some t)), some e, none, some (.ok (some t)), some e] ∧
    (s.run [.step, .step, .step]).1 = [some (.ok (some t)), some e, some e] := by
  intro t s calls e
  have hlast : s.PutsBackLast none calls := ⟨rfl, rfl, rfl, rfl, trivial⟩
  have hanswers : (s.run calls).1 =
      [some (.ok (some t)), none, some (.ok (some t)), some e, none, some (.ok (some t)),
        some e] := by
    decide +kernel
  obtain ⟨hsteps, _⟩ := put_back_neutral MarkKind.all (Cursor.start "a\x7b>>E\x7db") calls hlast
  refine ⟨hlast, hanswers, ?_⟩
  rw [hanswers] at hsteps
  exact hsteps

end Scanner

end TextTemplate
