import Mathlib.Data.List.Chain
import TextTemplate.Proofs.Scan.Fresh
import TextTemplate.Proofs.Scan.Reads

/-! The tokens of a text lie side by side: every byte belongs to exactly one of them, and text that
no mark takes is one token. -/

namespace TextTemplate

/-- The spans follow each other from one byte up to another, and none is empty. -/
def Tiles (start : Nat) : List Spanned → Nat → Prop
  | [], stop => start = stop
  | t :: ts, stop => t.start = start ∧ t.start < t.stop ∧ Tiles t.stop ts stop

theorem Tiles.length_le {start stop : Nat} {ts : List Spanned} (h : Tiles start ts stop) :
    start + ts.length ≤ stop := by
  induction ts generalizing start with
  | nil => exact Nat.le_of_eq h
  | cons t ts ih =>
    obtain ⟨rfl, hlt, hrest⟩ := h
    have := ih hrest
    simp only [List.length_cons]
    omega

def Token.isText : Token → Bool
  | .text _ => true
  | _ => false

namespace Text

/-- A byte of a text at which a character begins, or the text ends. -/
def IsBoundary (cs : List Char) (n : Nat) : Prop :=
  ∃ before after, cs = before ++ after ∧ utf8Length before = n

/-- What stands between two bytes of a text at which characters begin. -/
theorem IsBoundary.between {cs : List Char} {start stop : Nat} (ordered : start ≤ stop)
    (starts : IsBoundary cs start) (stops : IsBoundary cs stop) :
    ∃ before middle after, cs = before ++ (middle ++ after) ∧ start = utf8Length before ∧
      stop = utf8Length before + utf8Length middle := by
  obtain ⟨a, b, hab, rfl⟩ := starts
  obtain ⟨c, d, hcd, rfl⟩ := stops
  obtain ⟨m, rfl, rfl⟩ := append_of_utf8Length_le (hab.symm.trans hcd) ordered
  exact ⟨a, m, d, hab, rfl, utf8Length_append a m⟩

/-- The characters of a text from one byte up to another. -/
def slice (cs : List Char) (start stop : Nat) : List Char :=
  (splitBytes (stop - start) (splitBytes start cs).2).1

theorem slice_append (before middle after : List Char) :
    slice (before ++ (middle ++ after)) (utf8Length before)
      (utf8Length before + utf8Length middle) = middle := by
  simp only [slice, splitBytes_append, Nat.add_sub_cancel_left]

end Text

theorem Token.ofMark_error {o : Occurrence} {e : ScanError} (h : ofMark o = .error e) :
    e.offset = o.start.offset := by
  unfold ofMark at h
  split at h
  case h_5 =>
    simp only at h
    split at h
    · cases h
      rfl
    · cases h
  all_goals cases h

/-- A token that begins with a mark is no text. -/
theorem Token.ofMark_not_text {o : Occurrence} {t : Token} {d : Cursor}
    (h : ofMark o = .ok (t, d)) : t.isText = false := by
  unfold ofMark at h
  split at h
  case h_5 =>
    simp only at h
    split at h
    · cases h
    · cases h
      rfl
  all_goals
    cases h
    rfl

/-- The mark that counts from a place on also counts from where it stands. -/
theorem IsNext.of_start {kinds : List MarkKind} {c : Cursor} {o : Occurrence}
    (h : IsNext kinds c o) : IsNext kinds o.start o where
  ahead := .refl _
  least d hd hlt := by
    have := hd.offset_le
    omega
  prior := h.prior

namespace Scanner

/-- The byte that ends what the scanner reads. -/
def finish (s : Scanner) : Nat := s.here.offset + Text.utf8Length s.here.rest

/-- A mark stands where the scanner is. -/
def AtMark (s : Scanner) : Prop :=
  ∃ o, MarkKind.earliest? s.kinds s.here = some o ∧ o.start = s.here

/-- What a token says of the stretch of text that was gone through for it. -/
structure Covers (s : Scanner) (t : Spanned) (s' : Scanner) : Prop where
  leads : s.here.Leads s'.here
  start : t.start = s.here.offset
  stop : t.stop = s'.here.offset
  source : ∀ x, t.token = .text x → s.here.rest = x.toList ++ s'.here.rest
  maximal : t.token.isText = true → s'.here.rest = [] ∨ s'.AtMark
  atMark : s.AtMark → t.token.isText = false

theorem covers_of_place {s : Scanner} {t : Spanned} {d : Cursor} (hd : s.refreshed.here.Leads d)
    (hplace : Token.ofPlace s.here (MarkKind.earliest? s.kinds s.here) = .ok (t, d)) :
    Covers s t (s.refreshed.goTo d hd) := by
  cases hnext : MarkKind.earliest? s.kinds s.here with
  | none =>
    rw [hnext] at hplace
    cases hplace
    exact {
      leads := hd
      start := rfl
      stop := rfl
      source := fun x hx => by
        cases hx
        simp [Cursor.moveTo]
      maximal := fun _ => .inl rfl
      atMark := fun ⟨o, ho, _⟩ => by
        rw [hnext] at ho
        cases ho }
  | some o =>
    have hmark := earliest?_eq_some_iff.1 hnext
    simp only [hnext, Token.ofPlace] at hplace
    split at hplace
    · rename_i hbefore
      cases hplace
      exact {
        leads := hd
        start := rfl
        stop := rfl
        source := fun x hx => by
          cases hx
          simpa using Cursor.upTo_of_leads hmark.ahead
        maximal := fun _ => .inr ⟨o, by
          simpa using earliest?_eq_some_iff.2 hmark.of_start, rfl⟩
        atMark := fun ⟨o', ho', hstart⟩ => by
          rw [hnext] at ho'
          cases ho'
          rw [hstart] at hbefore
          omega }
    · rename_i hhere
      cases htoken : Token.ofMark o with
      | error e => simp [htoken, Except.map] at hplace
      | ok r =>
        obtain ⟨token, stop⟩ := r
        simp only [htoken, Except.map, Except.ok.injEq, Prod.mk.injEq] at hplace
        obtain ⟨rfl, rfl⟩ := hplace
        have hnot := Token.ofMark_not_text htoken
        exact {
          leads := hd
          start := by rw [hmark.ahead.eq_of_offset_le (by omega)]
          stop := rfl
          source := fun x hx => by
            simp only at hx
            rw [hx] at hnot
            cases hnot
          maximal := fun h => by simp [hnot] at h
          atMark := fun _ => hnot }

theorem covers_of_step {s s' : Scanner} {t : Spanned} (hp : s.pushed = none)
    (h : s.step = (.ok (some t), s')) : Covers s t s' ∧ t.start < t.stop ∧ s'.pushed = none := by
  obtain ⟨_, d, hd, hplace, rfl⟩ := step_eq_some_of_unpushed hp h
  have hcovers := covers_of_place hd hplace
  have hshorter := left_of_step h
  rw [hcovers.start, hcovers.stop]
  refine ⟨hcovers, hcovers.leads.offset_lt ?_, by simpa using hp⟩
  simpa [left, hp] using hshorter

theorem Covers.finish {s s' : Scanner} {t : Spanned} (h : Covers s t s') :
    s'.finish = s.finish := by
  obtain ⟨passed, hrest, hoffset⟩ := h.leads
  simp only [Scanner.finish, hrest, hoffset, Text.utf8Length_append]
  omega

/-- An error is reported where the scanner is. -/
theorem offset_of_error {s s' : Scanner} {e : ScanError} (h : s.step = (.error e, s')) :
    e.offset = s.here.offset := by
  obtain ⟨_, hplace⟩ := step_eq_error h
  cases hnext : MarkKind.earliest? s.kinds s.here with
  | none =>
    rw [hnext] at hplace
    cases hplace
  | some o =>
    have hahead := (earliest?_eq_some_iff.1 hnext).ahead
    simp only [hnext, Token.ofPlace] at hplace
    split at hplace
    · cases hplace
    · cases htoken : Token.ofMark o with
      | ok r => simp [htoken, Except.map] at hplace
      | error e' =>
        simp only [htoken, Except.map, Except.error.injEq] at hplace
        subst hplace
        rw [Token.ofMark_error htoken, hahead.eq_of_offset_le (by omega)]

end Scanner

namespace Reads
variable {s : Scanner} {ts : List Spanned} {e : Option ScanError}

/-- The spans tile the text up to the error, or to its end. -/
theorem tiles (h : Reads s ts e) (hp : s.pushed = none) :
    ∃ stop ≤ s.finish, Tiles s.here.offset ts stop ∧ (e = none → stop = s.finish) ∧
      ∀ x, e = some x → x.offset = stop := by
  induction h with
  | @ended s s' step =>
    obtain ⟨_, hs⟩ := Scanner.step_eq_none step
    have hfinish : s.here.offset = s.finish := by simp [Scanner.finish, hs, Text.utf8Length]
    exact ⟨s.here.offset, Nat.le_of_eq hfinish, rfl, fun _ => hfinish, by simp⟩
  | @failed s s' e step =>
    refine ⟨s.here.offset, Nat.le_add_right _ _, rfl, by simp, fun x hx => ?_⟩
    cases hx
    exact Scanner.offset_of_error step
  | token step rest ih =>
    obtain ⟨hcovers, hproper, hp'⟩ := Scanner.covers_of_step hp step
    obtain ⟨stop, hle, htiles, hend, herror⟩ := ih hp'
    rw [hcovers.finish] at hle hend
    exact ⟨stop, hle, ⟨hcovers.start, hproper, hcovers.stop ▸ htiles⟩, hend, herror⟩

/-- A text token holds what stands in its span, where `before` and `after` are the text around what
the scanner reads. -/
theorem text_eq_slice (h : Reads s ts e) (hp : s.pushed = none) (before after : List Char)
    (hbefore : Text.utf8Length before = s.here.offset) :
    ∀ t ∈ ts, ∀ x, t.token = .text x →
      x.toList = Text.slice (before ++ (s.here.rest ++ after)) t.start t.stop := by
  induction h generalizing before with
  | ended | failed => simp
  | @token s s' t ts e step rest ih =>
    obtain ⟨hcovers, _, hp'⟩ := Scanner.covers_of_step hp step
    obtain ⟨passed, hrest, hoffset⟩ := hcovers.leads
    intro u hu x hx
    rcases List.mem_cons.1 hu with rfl | hu
    · have hpassed : x.toList = passed := by
        have hsource := hcovers.source x hx
        rw [hrest] at hsource
        exact (List.append_cancel_right hsource).symm
      rw [hcovers.start, hcovers.stop, hoffset, hrest, ← hbefore, hpassed, List.append_assoc,
        Text.slice_append]
    · have hnext := ih hp' (before ++ passed) (by rw [Text.utf8Length_append, hbefore, hoffset])
      rw [hnext u hu x hx, hrest]
      simp only [List.append_assoc]

/-- Text that is one stretch is one token. -/
theorem no_adjacent_texts (h : Reads s ts e) (hp : s.pushed = none) :
    ts.IsChain (fun a b => ¬ (a.token.isText = true ∧ b.token.isText = true)) ∧
    (s.AtMark → ∀ t ∈ ts.head?, t.token.isText = false) := by
  induction h with
  | ended | failed => exact ⟨.nil, by simp⟩
  | @token s s' t ts e step rest ih =>
    obtain ⟨hcovers, _, hp'⟩ := Scanner.covers_of_step hp step
    obtain ⟨hchain, hhead⟩ := ih hp'
    refine ⟨List.isChain_cons.2 ⟨fun u hu => ?_, hchain⟩, fun hmark => ?_⟩
    · rintro ⟨ht, hu'⟩
      rcases hcovers.maximal ht with hend | hmark
      · obtain ⟨rfl, _⟩ := rest.unique (.ended (Scanner.step_of_end hp' hend))
        cases hu
      · rw [hhead hmark u hu] at hu'
        cases hu'
    · simpa using hcovers.atMark hmark

end Reads

/-- The scanners of a text, each with the range of bytes that it reads. -/
inductive Scanner.Of (text : String) : Scanner → Nat → Nat → Prop
  | ofText : Of text (.ofText text) 0 (Text.utf8Length text.toList)
  | inverted : Of text (.inverted text) 0 (Text.utf8Length text.toList)
  | within {start stop : Nat} (ordered : start ≤ stop)
      (starts : Text.IsBoundary text.toList start) (stops : Text.IsBoundary text.toList stop) :
      Of text (.within text start stop) start stop

theorem Scanner.within_eq {text : String} {before middle after : List Char}
    (h : text.toList = before ++ (middle ++ after)) :
    within text (Text.utf8Length before) (Text.utf8Length before + Text.utf8Length middle) =
      ofCursor ⟨Text.utf8Length before, middle⟩ := by
  simp only [within, h, Text.splitBytes_append, Nat.add_sub_cancel_left]

/-- A scanner of a text begins at the first byte of its range and has the bytes of the range to
read. -/
theorem Scanner.Of.spec {text : String} {s : Scanner} {start stop : Nat}
    (h : Of text s start stop) :
    s.pushed = none ∧ s.here.offset = start ∧ s.finish = stop ∧
    ∃ before after, text.toList = before ++ (s.here.rest ++ after) ∧
      Text.utf8Length before = start := by
  cases h with
  | ofText | inverted =>
    refine ⟨rfl, rfl, Nat.zero_add _, [], [], ?_, rfl⟩
    rw [List.append_nil]
    rfl
  | within ordered starts stops =>
    obtain ⟨before, middle, after, htext, rfl, rfl⟩ := starts.between ordered stops
    rw [within_eq htext]
    exact ⟨rfl, rfl, rfl, before, after, htext, rfl⟩

/-- Tokens, and the error that may end them, lie side by side in a range of bytes of a text. -/
structure Tiled (text : String) (start stop : Nat) (ts : List Spanned) (e : Option ScanError) :
    Prop where
  /-- There is at most one token for each byte. -/
  bounded : ts.length ≤ stop - start
  /-- Only a here-document that is never closed keeps the tokens from reaching the end. -/
  tiles : ∃ reached ≤ stop, Tiles start ts reached ∧ (e = none → reached = stop) ∧
    ∀ x, e = some x → ∃ marker, x = .neverClosed marker reached
  verbatim : ∀ t ∈ ts, ∀ x, t.token = .text x →
    x.toList = Text.slice text.toList t.start t.stop
  maximal : ts.IsChain fun a b => ¬ (a.token.isText = true ∧ b.token.isText = true)

/-- Reading a text, or a range of it, comes to an end or to an error after finitely many tokens that
tile what was read. -/
theorem reads_tiled {text : String} {s : Scanner} {start stop : Nat}
    (h : Scanner.Of text s start stop) : ∃ ts e, Reads s ts e ∧ Tiled text start stop ts e := by
  obtain ⟨hp, rfl, rfl, before, after, htext, hbefore⟩ := h.spec
  have hreads := Reads.of_tokens s
  obtain ⟨reached, hle, htiles, hend, herror⟩ := hreads.tiles hp
  refine ⟨_, _, hreads, ?_, ⟨reached, hle, htiles, hend, fun x hx => ?_⟩, ?_,
    (hreads.no_adjacent_texts hp).1⟩
  · have := htiles.length_le
    omega
  · obtain ⟨marker, offset⟩ := x
    cases herror _ hx
    exact ⟨marker, rfl⟩
  · rw [htext]
    exact hreads.text_eq_slice hp before after hbefore

/-- A range with a here-document in it, between brackets that it leaves out. -/
theorem reads_tiled_within_brackets :
    Scanner.Of "[é{>>E}{E}]" (.within "[é{>>E}{E}]" 1 11) 1 11 ∧
    ∃ ts e, Reads (.within "[é{>>E}{E}]" 1 11) ts e ∧ Tiled "[é{>>E}{E}]" 1 11 ts e := by
  have hof : Scanner.Of "[é{>>E}{E}]" (.within "[é{>>E}{E}]" 1 11) 1 11 :=
    .within (by decide) ⟨"[".toList, "é{>>E}{E}]".toList, by decide, by decide⟩
      ⟨"[é{>>E}{E}".toList, "]".toList, by decide, by decide⟩
  exact ⟨hof, reads_tiled hof⟩

end TextTemplate
