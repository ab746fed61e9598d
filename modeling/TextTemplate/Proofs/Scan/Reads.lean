import TextTemplate.Scan.Scanner

/-! What a scanner gives when it is asked for one token after the other. -/

namespace TextTemplate

/-- The scanner gives these tokens, and then the error, or the end if there is none. -/
inductive Reads : Scanner → List Spanned → Option ScanError → Prop
  | ended {s s' : Scanner} (step : s.step = (.ok none, s')) : Reads s [] none
  | failed {s s' : Scanner} {e : ScanError} (step : s.step = (.error e, s')) : Reads s [] (some e)
  | token {s s' : Scanner} {t : Spanned} {ts : List Spanned} {e : Option ScanError}
      (step : s.step = (.ok (some t), s')) (rest : Reads s' ts e) : Reads s (t :: ts) e

namespace Reads
variable {s s' : Scanner} {t : Spanned} {ts ts' : List Spanned} {e e' : Option ScanError}

/-- Every scanner comes to an end, whose tokens are those of `tokens`. -/
theorem of_tokens (s : Scanner) : Reads s s.tokens.1 s.tokens.2 := by
  fun_induction Scanner.tokens s with
  | case1 s e s' h => exact .failed h
  | case2 s s' h => exact .ended h
  | case3 s t s' h ts e hts ih =>
    rw [hts] at ih
    exact .token h ih

theorem of_tokens_eq (h : s.tokens = (ts, e)) : Reads s ts e := by
  have hreads := of_tokens s
  rw [h] at hreads
  exact hreads

theorem unique (h : Reads s ts e) (h' : Reads s ts' e') : ts = ts' ∧ e = e' := by
  induction h generalizing ts' with
  | ended step => cases h' <;> simp_all
  | failed step => cases h' <;> simp_all
  | token step _ ih =>
    cases h' with
    | ended step' => simp_all
    | failed step' => simp_all
    | token step' rest' =>
      rw [step] at step'
      cases step'
      obtain ⟨rfl, rfl⟩ := ih rest'
      exact ⟨rfl, rfl⟩

theorem eq_tokens (h : Reads s ts e) : s.tokens = (ts, e) := by
  obtain ⟨rfl, rfl⟩ := h.unique (of_tokens s)
  rfl

/-- A token that is put back is read again, and then what would have been read without it. -/
theorem push (t : Spanned) (hp : s.pushed = none) (h : Reads s ts e) :
    Reads (s.push t) (t :: ts) e :=
  .token (Scanner.step_push hp t) h

end Reads

theorem Scanner.pushed_of_step {s s' : Scanner} {t : Spanned} (h : s.step = (.ok (some t), s')) :
    s'.pushed = none := by
  obtain ⟨_, rfl⟩ | ⟨hp, _, d, hd, _, rfl⟩ := step_eq_some h
  · rfl
  · rw [goTo_pushed, refreshed_pushed, hp]

end TextTemplate
