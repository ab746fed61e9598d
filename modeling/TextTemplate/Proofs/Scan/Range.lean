import TextTemplate.Proofs.Scan.Shift
import TextTemplate.Proofs.Scan.Tiling

/-! Scanning a range of a text is scanning the text of the range by itself: what stands before the
range only moves what is read further on, and what stands behind it is never looked at. -/

namespace TextTemplate

def ScanCall.shift (n : Nat) : ScanCall → ScanCall
  | .step => .step
  | .push t => .push (t.shift n)

/-- What a step gives, as far further on as the text stands. -/
def shiftAnswer (n : Nat) (answer : Except ScanError (Option Spanned)) :
    Except ScanError (Option Spanned) :=
  (answer.map (·.map (·.shift n))).mapError (·.shift n)

namespace FreshScanner

/-- The scanner of the same text, `n` bytes further on. -/
def shift (n : Nat) (s : FreshScanner) : FreshScanner :=
  ⟨s.kinds, s.here.shift n, s.pushed.map (·.shift n)⟩

variable (n : Nat)

theorem step_shift (s : FreshScanner) :
    (s.shift n).step = (shiftAnswer n s.step.1, s.step.2.shift n) := by
  obtain ⟨kinds, here, pushed⟩ := s
  cases pushed with
  | some t => rfl
  | none =>
    simp only [step, shift, Option.map_none, Cursor.shift_rest, Token.ofPlace_earliest?_shift]
    split
    · rfl
    · cases Token.ofPlace here (MarkKind.earliest? kinds here) <;> rfl

theorem call_shift (s : FreshScanner) (call : ScanCall) :
    (s.shift n).call (call.shift n) =
      ((s.call call).1.map (shiftAnswer n), (s.call call).2.shift n) := by
  cases call with
  | step => simp only [ScanCall.shift, call, step_shift, Option.map_some]
  | push t => rfl

/-- Further on, the same calls are answered alike. -/
theorem run_shift (s : FreshScanner) (calls : List ScanCall) :
    (s.shift n).run (calls.map (·.shift n)) =
      ((s.run calls).1.map (·.map (shiftAnswer n)), (s.run calls).2.shift n) := by
  induction calls generalizing s with
  | nil => rfl
  | cons call calls ih => simp only [List.map_cons, run, call_shift, ih]

end FreshScanner

namespace Scanner

/-- A scanner that stands at `start` in the text up to `stop`, and has not looked for anything yet,
answers as one of the text of the range alone: tokens, bodies of here-documents and errors stand
as far further on as the range begins. -/
theorem within_reads_alike {text : String} {start stop : Nat} (ordered : start ≤ stop)
    (starts : Text.IsBoundary text.toList start) (stops : Text.IsBoundary text.toList stop) :
    let range := Text.slice text.toList start stop
    let alone := ofText (String.ofList range)
    (∃ h, within text start stop =
      (ofText (String.ofList (Text.slice text.toList 0 stop))).goTo ⟨start, range⟩ h) ∧
    (∀ calls : List ScanCall, ((within text start stop).run (calls.map (·.shift start))).1 =
      (alone.run calls).1.map (·.map (shiftAnswer start))) ∧
    (within text start stop).tokens =
      (alone.tokens.1.map (·.shift start), alone.tokens.2.map (·.shift start)) := by
  obtain ⟨before, middle, after, htext, rfl, rfl⟩ := starts.between ordered stops
  have hrange := Text.slice_append before middle after
  have hupTo := Text.slice_append [] (before ++ middle) after
  simp only [Text.utf8Length, Nat.zero_add, List.nil_append, Text.utf8Length_append,
    List.append_assoc] at hupTo
  simp only [within_eq htext, htext, hrange, hupTo]
  refine ⟨⟨⟨before, ?_, ?_⟩, rfl⟩, fun calls => ?_, ?_⟩
  · simp [ofText, ofCursor, ofKinds, Cursor.start]
  · simp [ofText, ofCursor, ofKinds, Cursor.start]
  · have hfresh : (ofCursor ⟨Text.utf8Length before, middle⟩).fresh =
        (ofText (String.ofList middle)).fresh.shift (Text.utf8Length before) := by
      simp [ofText, ofCursor, fresh_ofKinds, FreshScanner.ofKinds, FreshScanner.shift, Cursor.shift,
        Cursor.start]
    have hrun := (ofText (String.ofList middle)).fresh.run_shift (Text.utf8Length before) calls
    rw [← hfresh, run_fresh, run_fresh] at hrun
    exact congrArg Prod.fst hrun
  · have hhere : (ofCursor ⟨Text.utf8Length before, middle⟩).here =
        (ofText (String.ofList middle)).here.shift (Text.utf8Length before) := by
      simp [ofText, ofCursor, ofKinds, Cursor.start, Cursor.shift]
    have hreads : Reads (ofCursor ⟨Text.utf8Length before, middle⟩) _ _ :=
      (Reads.of_tokens (ofText (String.ofList middle))).shift rfl rfl rfl hhere
    exact hreads.eq_tokens

/-- A range between brackets, with a here-document in it that is closed only behind the range. -/
theorem within_reads_alike_unclosed :
    let text := "[é\x7bv\x7d\x7b>>E\x7dn\x7bE\x7d]"
    Text.IsBoundary text.toList 1 ∧ Text.IsBoundary text.toList 12 ∧
    ((within text 1 12).run [.step, .step, .step]).1 =
      [some (.ok (some ⟨.text "é", 1, 3⟩)), some (.ok (some ⟨.value none "v" none, 3, 6⟩)),
        some (.error (.neverClosed "E" 6))] := by
  intro text
  have hstart : Text.IsBoundary text.toList 1 :=
    ⟨"[".toList, "é\x7bv\x7d\x7b>>E\x7dn\x7bE\x7d]".toList, by decide, by decide⟩
  have hstop : Text.IsBoundary text.toList 12 :=
    ⟨"[é\x7bv\x7d\x7b>>E\x7dn".toList, "\x7bE\x7d]".toList, by decide, by decide⟩
  obtain ⟨_, hrun, _⟩ := within_reads_alike (by decide) hstart hstop
  refine ⟨hstart, hstop, (hrun [.step, .step, .step]).trans ?_⟩
  decide +kernel

end Scanner

end TextTemplate
