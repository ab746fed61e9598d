import Mathlib.Data.List.DropRight
import TextTemplate.Proofs.Scan.Tiling
import TextTemplate.Proofs.Template.Prepared
import TextTemplate.Proofs.Template.Stack

/-! Errors are reported with the line and the column at which what is wrong begins in the text as
written. -/

namespace TextTemplate

namespace Position

/-- The position behind a beginning of a text: its line feeds are counted, and the characters behind
the last of them. -/
def behind (before : List Char) : Position :=
  ⟨1 + before.count '\n', 1 + (before.rtakeWhile (· ≠ '\n')).length⟩

/-- The order in which positions stand in a text. -/
def Before (p q : Position) : Prop := p.line < q.line ∨ p.line = q.line ∧ p.column < q.column

theorem behind_concat (before : List Char) (c : Char) :
    behind (before ++ [c]) =
      if c = '\n' then ⟨(behind before).line + 1, 1⟩
      else ⟨(behind before).line, (behind before).column + 1⟩ := by
  by_cases hc : c = '\n' <;> simp [behind, hc, Nat.add_assoc]

/-- Going on from a position that is behind `passed`, one comes to the position behind all. -/
theorem advance_append (passed before after : List Char) (bytes : Nat) :
    advance (behind passed) bytes (Text.utf8Length before) (before ++ after) =
      behind (passed ++ before) := by
  induction before generalizing passed bytes with
  | nil => cases after <;> simp [advance, Text.utf8Length]
  | cons c before ih =>
    have hpos := c.utf8Size_pos
    have hrest : Text.utf8Length (c :: before) - c.utf8Size = Text.utf8Length before := by
      rw [Text.utf8Length, Nat.add_sub_cancel_left]
    have hnext := ih (passed ++ [c])
    rw [behind_concat, List.append_assoc, List.singleton_append] at hnext
    rw [List.cons_append, advance, if_neg (by rw [Text.utf8Length]; omega),
      if_neg (by rw [Text.utf8Length]; omega), hrest]
    split at hnext <;> rename_i hc
    · rw [if_pos hc, hnext]
    · rw [if_neg hc, hnext]

/-- The position of a byte at which a character begins is the one behind all that precedes it. -/
theorem ofOffset_append {text : String} {before after : List Char}
    (h : text.toList = before ++ after) :
    ofOffset text (Text.utf8Length before) = behind before := by
  rw [ofOffset, h]
  exact advance_append [] before after 0

theorem Before.trans {p q r : Position} (hpq : p.Before q) (hqr : q.Before r) : p.Before r := by
  unfold Before at *
  omega

theorem behind_before_append (before : List Char) {more : List Char} (h : more ≠ []) :
    (behind before).Before (behind (before ++ more)) := by
  induction more using List.reverseRecOn with
  | nil => exact absurd rfl h
  | append_singleton more c ih =>
    have hlast : (behind (before ++ more)).Before (behind (before ++ (more ++ [c]))) := by
      rw [← List.append_assoc, behind_concat]
      split <;> simp [Before]
    cases more with
    | nil => simpa using hlast
    | cons x more => exact (ih (List.cons_ne_nil x more)).trans hlast

/-- Further on in a text, positions are greater. -/
theorem ofOffset_before {text : String} {m n : Nat} (hm : Text.IsBoundary text.toList m)
    (hn : Text.IsBoundary text.toList n) (h : m < n) :
    (ofOffset text m).Before (ofOffset text n) := by
  obtain ⟨before, more, after, htext, rfl, rfl⟩ := hm.between (Nat.le_of_lt h) hn
  have hstop : text.toList = (before ++ more) ++ after := by rw [htext, List.append_assoc]
  rw [← Text.utf8Length_append, ofOffset_append htext, ofOffset_append hstop]
  refine behind_before_append before fun hnil => ?_
  simp [hnil, Text.utf8Length] at h

end Position

/-! ### What begins where -/

/-- At this byte begins a token that the scanner gives, or a here-document that is never closed. -/
def Scanner.Meets (s : Scanner) (n : Nat) : Prop :=
  (∃ t ∈ s.tokens.1, t.start = n) ∨ ∃ e ∈ s.tokens.2, e.offset = n

/-- Where a token or a here-document begins, a character of the text does. -/
theorem Reads.leads_start {s : Scanner} {ts : List Spanned} {e : Option ScanError}
    (h : Reads s ts e) (hp : s.pushed = none) {n : Nat}
    (hn : (∃ t ∈ ts, t.start = n) ∨ ∃ x ∈ e, x.offset = n) :
    ∃ d, s.here.Leads d ∧ d.rest ≠ [] ∧ d.offset = n := by
  induction h with
  | ended => simp at hn
  | @failed s s' e step =>
    refine ⟨s.here, .refl _, Scanner.rest_ne_nil_of_step_error step, ?_⟩
    rw [← Scanner.offset_of_error step]
    simpa using hn
  | @token s s' t ts e step rest ih =>
    obtain ⟨hcovers, _, hp'⟩ := Scanner.covers_of_step hp step
    have hlater (hlater : (∃ u ∈ ts, u.start = n) ∨ ∃ x ∈ e, x.offset = n) :
        ∃ d, s.here.Leads d ∧ d.rest ≠ [] ∧ d.offset = n := by
      obtain ⟨d, hd, hrest⟩ := ih hp' hlater
      exact ⟨d, hcovers.leads.trans hd, hrest⟩
    rcases hn with ⟨u, hu, rfl⟩ | herror
    · rcases List.mem_cons.1 hu with rfl | hu
      · have hsome := (Scanner.step_eq_some_of_unpushed hp step).1
        exact ⟨s.here, .refl _, hsome, hcovers.start.symm⟩
      · exact hlater (.inl ⟨u, hu, rfl⟩)
    · exact hlater (.inr herror)

/-- The body of a here-document stands where its token says. -/
theorem Token.ofMark_body {o : Occurrence} {escape path kind styles : Option String}
    {body : String} {bodyStart : Nat} {d : Cursor}
    (h : ofMark o = .ok (.hereDocument escape path kind styles body bodyStart, d)) :
    ∃ begun tail, o.stop.Leads begun ∧ begun.offset = bodyStart ∧
      begun.rest = body.toList ++ tail := by
  unfold ofMark at h
  split at h
  case h_5 =>
    obtain ⟨lead, hlead⟩ := Text.skipLineBreak_eq_append o.stop.rest
    simp only at h
    split at h
    · cases h
    · rename_i body' rest hsplit
      cases h
      obtain ⟨taken, htaken⟩ := splitTerminator?_eq_append hsplit
      refine ⟨_, taken ++ rest, Cursor.leads_moveTo lead hlead, rfl, ?_⟩
      rw [htaken, String.toList_ofList]
  all_goals cases h

theorem Token.ofPlace_body {kinds : List MarkKind} {c d : Cursor} {t : Spanned}
    {escape path kind styles : Option String} {body : String} {bodyStart : Nat}
    (h : ofPlace c (MarkKind.earliest? kinds c) = .ok (t, d))
    (ht : t.token = .hereDocument escape path kind styles body bodyStart) :
    ∃ begun tail, c.Leads begun ∧ begun.offset = bodyStart ∧ begun.rest = body.toList ++ tail := by
  cases hnext : MarkKind.earliest? kinds c with
  | none =>
    rw [hnext] at h
    cases h
    cases ht
  | some o =>
    obtain ⟨k, _, hfind⟩ := MarkKind.earliest?_eq_some hnext
    obtain ⟨hahead, hat⟩ := MarkKind.find?_eq_some hfind
    obtain ⟨_, hstop, _⟩ := MarkKind.at?_eq_some hat
    simp only [hnext, ofPlace] at h
    split at h
    · cases h
      cases ht
    · cases hmark : ofMark o with
      | error e => simp [hmark, Except.map] at h
      | ok r =>
        rw [hmark] at h
        cases h
        obtain ⟨token, stop⟩ := r
        simp only at ht
        rw [ht] at hmark
        obtain ⟨begun, tail, hbegun, hbody⟩ := ofMark_body hmark
        exact ⟨begun, tail, hahead.trans (hstop.trans hbegun), hbody⟩

theorem Reads.leads_body {s : Scanner} {ts : List Spanned} {e : Option ScanError}
    (h : Reads s ts e) (hp : s.pushed = none) {t : Spanned} (hmem : t ∈ ts)
    {escape path kind styles : Option String} {body : String} {bodyStart : Nat}
    (ht : t.token = .hereDocument escape path kind styles body bodyStart) :
    ∃ begun tail, s.here.Leads begun ∧ begun.offset = bodyStart ∧
      begun.rest = body.toList ++ tail := by
  induction h with
  | ended | failed => cases hmem
  | @token s s' u ts e step rest ih =>
    obtain ⟨hcovers, _, hp'⟩ := Scanner.covers_of_step hp step
    rcases List.mem_cons.1 hmem with rfl | hmem
    · obtain ⟨_, d, _, hplace, _⟩ := Scanner.step_eq_some_of_unpushed hp step
      exact Token.ofPlace_body hplace ht
    · obtain ⟨begun, tail, hbegun, hbody⟩ := ih hp' hmem
      exact ⟨begun, tail, hcovers.leads.trans hbegun, hbody⟩

namespace Prepared

/-- The scanner of a prepared text. -/
def scanner (p : Prepared) : Scanner :=
  if p.settings.inverted then .ofKinds [.hereDocument] ⟨0, p.text⟩ else .ofCursor ⟨0, p.text⟩

/-- At this byte of a prepared text something begins that is read by itself: a token of the text, or
of the body of a here-document where these are template text, or a here-document that is never
closed. -/
inductive Begins (p : Prepared) (n : Nat) : Prop
  | outer (meets : p.scanner.Meets n)
  | inner {t : Spanned} {escape kind styles : Option String} {body : String} {bodyStart : Nat}
      (inverted : p.settings.inverted = true) (mem : t ∈ p.scanner.tokens.1)
      (token : t.token = .hereDocument escape none kind styles body bodyStart)
      (meets : (Scanner.ofCursor ⟨bodyStart, body.toList⟩).Meets n)

theorem here_scanner (p : Prepared) : p.scanner.here = ⟨0, p.text⟩ ∧ p.scanner.pushed = none := by
  unfold scanner
  split <;> exact ⟨rfl, rfl⟩

theorem Begins.boundary {p : Prepared} {n : Nat} (h : p.Begins n) :
    ∃ a b, p.text = a ++ b ∧ b ≠ [] ∧ Text.utf8Length a = n := by
  obtain ⟨hhere, hp⟩ := p.here_scanner
  have hreads := Reads.of_tokens p.scanner
  cases h with
  | outer meets =>
    obtain ⟨d, ⟨a, ha, hn⟩, hrest, rfl⟩ := hreads.leads_start hp meets
    rw [hhere] at ha hn
    exact ⟨a, d.rest, ha, hrest, by simpa using hn.symm⟩
  | inner inverted mem token meets =>
    obtain ⟨begun, tail, ⟨a, ha, hbegun⟩, rfl, hbody⟩ := hreads.leads_body hp mem token
    obtain ⟨d, ⟨b, hb, hn⟩, hrest, rfl⟩ := (Reads.of_tokens _).leads_start rfl meets
    rw [hhere] at ha hbegun
    simp only [Scanner.ofCursor, Scanner.ofKinds] at ha hb hn
    refine ⟨a ++ b, d.rest ++ tail, ?_, by simp [hrest], ?_⟩
    · rw [ha, hbody, hb]
      simp
    · rw [hn, hbegun, Text.utf8Length_append, Nat.zero_add]

end Prepared

/-! ### Where faults stand -/

namespace Reading
variable {compile : TokenCompiler} {r r' : Reading} {t : Spanned} {f : PlacedFault}

theorem offset_of_token_error (h : r.token compile t = .error f) :
    t.start = f.offset ∨ ∃ d, compile d t = .error f := by
  unfold token at h
  split at h
  · split at h <;> cases h
    exact .inl rfl
  · cases h
    exact .inl rfl
  · cases h
  · cases h
    exact .inl rfl
  · exact .inl (Template.offset_of_placed_error (Template.map_eq_error_iff.1 h))
  · exact .inr ⟨_, Template.map_eq_error_iff.1 h⟩

/-- A branch that is open was open before the token, or begins with it. -/
theorem offset_of_opened (h : r.token compile t = .ok r') :
    ∀ b ∈ r'.opened, b.offset = t.start ∨ ∃ b' ∈ r.opened, b'.offset = b.offset := by
  have hkept {outer : List OpenBranch} {b : OpenBranch} (hopened : r.opened = b :: outer) :
      ∀ b' ∈ outer, ∃ b'' ∈ r.opened, b''.offset = b'.offset := fun b' hb' =>
    ⟨b', by rw [hopened]; exact List.mem_cons_of_mem b hb', rfl⟩
  unfold token at h
  split at h
  · rename_i b outer _ hopened
    split at h <;> cases h
    intro b' hb'
    rcases List.mem_cons.1 hb' with rfl | hb'
    · exact .inr ⟨b, by rw [hopened]; exact List.mem_cons_self, rfl⟩
    · exact .inr (hkept hopened b' hb')
  · cases h
  · rename_i b outer _ hopened
    cases h
    exact fun b' hb' => .inr (hkept hopened b' hb')
  · cases h
  · unfold Except.map at h
    split at h <;> cases h
    intro b hb
    rcases List.mem_cons.1 hb with rfl | hb
    · exact .inl rfl
    · exact .inr ⟨b, hb, rfl⟩
  · unfold Except.map at h
    split at h <;> cases h
    exact fun b hb => .inr ⟨b, hb, rfl⟩

/-- Reading token by token fails at a token, at the beginning of a branch that is open, where the
scan fails, or with the fault of a token by itself. -/
theorem offset_of_run_error {e : Option ScanError} {ts : List Spanned}
    (h : r.run compile e ts = .error f) :
    (∃ t ∈ ts, t.start = f.offset) ∨ (∃ b ∈ r.opened, b.offset = f.offset) ∨
    (∃ x ∈ e, x.offset = f.offset) ∨ ∃ t ∈ ts, ∃ d, compile d t = .error f := by
  induction ts generalizing r with
  | nil =>
    cases e with
    | some x =>
      cases h
      exact .inr (.inr (.inl ⟨x, rfl, rfl⟩))
    | none =>
      simp only [run, finish] at h
      split at h
      · cases h
      · rename_i b outer hopened
        cases h
        exact .inr (.inl ⟨b, by rw [hopened]; exact List.mem_cons_self, rfl⟩)
  | cons t ts ih =>
    simp only [run] at h
    split at h
    · rename_i fault htoken
      cases h
      rcases offset_of_token_error htoken with hstart | hcompile
      · exact .inl ⟨t, List.mem_cons_self, hstart⟩
      · exact .inr (.inr (.inr ⟨t, List.mem_cons_self, hcompile⟩))
    · rename_i r' htoken
      rcases ih h with ⟨u, hu, hoffset⟩ | ⟨b, hb, hoffset⟩ | hscan | ⟨u, hu, hcompile⟩
      · exact .inl ⟨u, List.mem_cons_of_mem t hu, hoffset⟩
      · rcases offset_of_opened htoken b hb with hstart | ⟨b', hb', hsame⟩
        · exact .inl ⟨t, List.mem_cons_self, hstart.symm.trans hoffset⟩
        · exact .inr (.inl ⟨b', hb', hsame.trans hoffset⟩)
      · exact .inr (.inr (.inl hscan))
      · exact .inr (.inr (.inr ⟨u, List.mem_cons_of_mem t hu, hcompile⟩))

end Reading

namespace Template
variable {ctx : TemplateContext} {f : PlacedFault}

theorem offset_of_readWhole_error {compile : TokenCompiler} {d : Defaults} {s : Scanner}
    (h : readWhole compile d s = .error f) :
    s.Meets f.offset ∨ ∃ t ∈ s.tokens.1, ∃ d, compile d t = .error f := by
  rw [Reading.readWhole_eq_run (Reads.of_tokens s)] at h
  rcases Reading.offset_of_run_error h with htoken | ⟨b, hb, _⟩ | hscan | hcompile
  · exact .inl (.inl htoken)
  · cases hb
  · exact .inl (.inr hscan)
  · exact .inr hcompile

theorem meets_of_readWhole_error {d : Defaults} {s : Scanner}
    (h : readWhole (compileToken ctx) d s = .error f) : s.Meets f.offset := by
  rcases offset_of_readWhole_error h with hmeets | ⟨t, ht, d', hcompile⟩
  · exact hmeets
  · exact .inl ⟨t, ht, offset_of_placed_error hcompile⟩

/-- A token of a text in which only here-documents are template text fails where it begins, or in
its body. -/
theorem offset_of_compileInverted_error {d : Defaults} {t : Spanned}
    (h : compileInverted ctx d t = .error f) :
    t.start = f.offset ∨ ∃ escape kind styles body bodyStart,
      t.token = .hereDocument escape none kind styles body bodyStart ∧
      (Scanner.ofCursor ⟨bodyStart, body.toList⟩).Meets f.offset := by
  unfold compileInverted at h
  split at h
  · rename_i escape kind styles body bodyStart htoken
    rcases bind_eq_error_iff.1 h with hstyle | ⟨style, _, h⟩
    · exact .inl (offset_of_placed_error hstyle)
    · rcases bind_eq_error_iff.1 h with hbody | ⟨blocks, _, h⟩
      · exact .inr ⟨escape, kind, styles, body, bodyStart, htoken, meets_of_readWhole_error hbody⟩
      · cases h
  · cases h
    exact .inl rfl
  · exact .inl (offset_of_placed_error h)

/-- A fault stands where something begins that is read by itself, but for settings of the whole text
that do not hold: this fault stands at the beginning of the text. -/
theorem begins_of_readPrepared_error {p : Prepared} (h : readPrepared ctx p = .error f) :
    (∃ fault, Defaults.initial ctx p.settings = .error fault ∧ f = ⟨fault, 0⟩) ∨
    p.Begins f.offset := by
  rcases bind_eq_error_iff.1 h with hinitial | ⟨d, _, h⟩
  · exact .inl (placed_eq_error_iff.1 hinitial)
  · right
    simp only at h
    split at h
    · rename_i hinverted
      have hscanner : p.scanner = .ofKinds [.hereDocument] ⟨0, p.text⟩ := if_pos hinverted
      rw [← hscanner] at h
      rcases offset_of_readWhole_error h with hmeets | ⟨t, ht, d', hcompile⟩
      · exact .outer hmeets
      · rcases offset_of_compileInverted_error hcompile with hstart | ⟨_, _, _, _, _, htoken, hmeets⟩
        · exact .outer (.inl ⟨t, ht, hstart⟩)
        · exact .inner hinverted ht htoken hmeets
    · rename_i hplain
      have hscanner : p.scanner = .ofCursor ⟨0, p.text⟩ := if_neg hplain
      rw [← hscanner] at h
      exact .outer (meets_of_readWhole_error h)

end Template

/-- The error of a text stands where `rest` begins, behind `before`: with the preamble that cannot be
applied; with what begins there once the preamble is cut out; or, if the settings of the whole text
do not hold, with the first character that is left. -/
inductive ParseError.StandsAt (ctx : TemplateContext) (text : String) (before rest : List Char)
    (e : ParseError) : Prop
  | preamble {fault : PreambleFault} {param tail : List Char}
      (failed : Prepared.ofText text = .error (fault, Text.utf8Length before))
      (blamed : e.fault = .preamble fault) (parameter : Preamble.IsParameter param)
      (stands : rest = Preamble.written false param ++ tail)
      (first : Preamble.NoneIn before text.toList)
  | read {p : Prepared} {a b : List Char} (prepared : Prepared.ofText text = .ok p)
      (failed : Template.readPrepared ctx p = .error ⟨e.fault, Text.utf8Length a⟩)
      (left : p.text = a ++ b) (begins : p.Begins (Text.utf8Length a)) (more : b ≠ [])
      (offset : Text.utf8Length before = p.writtenOffset (Text.utf8Length a))
      (same : rest.head? = b.head?)
  | settings {p : Prepared} (prepared : Prepared.ofText text = .ok p)
      (failed : Defaults.initial ctx p.settings = .error e.fault)
      (offset : Text.utf8Length before = p.writtenOffset 0)
      (same : rest.head? = p.text.head?)

namespace Template

/-- Every error stands behind a beginning of the text, and has the position behind it. -/
theorem exists_standsAt {ctx : TemplateContext} {text : String} {e : ParseError}
    (h : ofText ctx text = .error e) :
    ∃ before rest, text.toList = before ++ rest ∧ e.position = Position.behind before ∧
      e.StandsAt ctx text before rest := by
  simp only [ofText] at h
  split at h
  · rename_i fault n hprepared
    cases h
    obtain ⟨before, param, rest, htext, hparam, hfirst, rfl⟩ := Prepared.ofText_eq_error hprepared
    exact ⟨before, _, htext, Position.ofOffset_append htext,
      .preamble hprepared rfl hparam rfl hfirst⟩
  · rename_i p hprepared
    split at h
    · cases h
    · rename_i f hread
      cases h
      obtain ⟨before, cut, after, hleft, htext, hcut⟩ := Prepared.ofText_eq_ok hprepared
      -- The place of the fault in what is left, and that place in the text as written.
      have hplace {a b : List Char} (hab : p.text = a ++ b) :
          ∃ a' b', text.toList = a' ++ b' ∧
            Text.utf8Length a' = p.writtenOffset (Text.utf8Length a) ∧ b'.head? = b.head? := by
        rw [hleft.whole_eq]
        exact Prepared.writtenOffset_boundary hcut (htext.symm.trans hab)
      rcases begins_of_readPrepared_error hread with ⟨fault, hfault, rfl⟩ | hbegins
      · obtain ⟨a', b', hwhole, hoffset, hhead⟩ := hplace (List.nil_append p.text).symm
        refine ⟨a', b', hwhole, ?_, .settings hprepared hfault hoffset hhead⟩
        rw [← Position.ofOffset_append hwhole, hoffset]
        rfl
      · obtain ⟨a, b, hab, hmore, hn⟩ := hbegins.boundary
        obtain ⟨a', b', hwhole, hoffset, hhead⟩ := hplace hab
        refine ⟨a', b', hwhole, ?_,
          .read hprepared (by rw [hread, hn]) hab (hn ▸ hbegins) hmore hoffset hhead⟩
        rw [← Position.ofOffset_append hwhole, hoffset, hn]

/-- A text is read without its first preamble and the line break behind it, or without the mark of a
preamble that is to be ignored; the bytes that are left keep their order and are those at their
places in the text as written. Positions count line feeds and the characters behind the last of them,
and grow along the text. So every error is reported with the line and the column in the text as
written of the first character of what it is about. -/
theorem errors_stand_where_written (text : String) :
    (∀ p, Prepared.ofText text = .ok p →
      (∃ before cut after, Preamble.LeftOut text.toList before cut after ∧
        text.toList = before ++ (cut ++ after) ∧ p.text = before ++ after ∧
        p.cut =
          if cut = [] then none else some ⟨Text.utf8Length before, Text.utf8Length cut⟩) ∧
      (∀ m n, m < n → p.writtenOffset m < p.writtenOffset n) ∧
      ∀ i, text.toUTF8.data[p.writtenOffset i]? = (String.ofList p.text).toUTF8.data[i]? ∧
        ∀ c ∈ p.cut, p.writtenOffset i < c.start ∨ c.start + c.size ≤ p.writtenOffset i) ∧
    (∀ before after, text.toList = before ++ after →
      Position.ofOffset text (Text.utf8Length before) = Position.behind before) ∧
    (∀ m n, Text.IsBoundary text.toList m → Text.IsBoundary text.toList n → m < n →
      (Position.ofOffset text m).Before (Position.ofOffset text n)) ∧
    ∀ ctx e, ofText ctx text = .error e →
      ∃ before rest, text.toList = before ++ rest ∧ e.position = Position.behind before ∧
        e.StandsAt ctx text before rest := by
  refine ⟨fun p hp => ?_, fun before after h => Position.ofOffset_append h,
    fun m n hm hn h => Position.ofOffset_before hm hn h, fun ctx e h => exists_standsAt h⟩
  obtain ⟨before, cut, after, hleft, htext, hcut⟩ := Prepared.ofText_eq_ok hp
  refine ⟨⟨before, cut, after, hleft, hleft.whole_eq, htext, hcut⟩,
    fun m n h => p.writtenOffset_lt h, fun i => ⟨?_, Prepared.writtenOffset_not_cut hcut i⟩⟩
  have hbytes : (Text.bytes (before ++ (cut ++ after)))[p.writtenOffset i]? =
      (Text.bytes (before ++ after))[i]? := Prepared.bytes_writtenOffset hcut i
  rw [← hleft.whole_eq, ← htext, ← String.toList_ofList (l := p.text), Text.bytes_toList,
    Text.bytes_toList, Array.getElem?_toList, Array.getElem?_toList] at hbytes
  exact hbytes

/-- Behind a preamble with its line break, an error stands in the line in which it was written. -/
theorem errors_stand_where_written_behind_preamble :
    let ctx : TemplateContext := ⟨.source ⟨[], "t"⟩ .root none "none", .standard, ".txt"⟩
    let text := "é\n[global escape=none]\r\n\nx[end]"
    let p : Prepared := ⟨"é\n\nx[end]".toList, ⟨false, none, some "none"⟩, some ⟨3, 22⟩⟩
    let e : ParseError := ⟨ctx.id.shown, .endOutside, ⟨4, 2⟩⟩
    Prepared.ofText text = .ok p ∧ ofText ctx text = .error e ∧
    (∀ m n, m < n → p.writtenOffset m < p.writtenOffset n) ∧
    ∃ before rest, text.toList = before ++ rest ∧ e.position = Position.behind before ∧
      e.StandsAt ctx text before rest := by
  intro ctx text p e
  have hparts : (Preamble.find? "é\n[global escape=none]\r\n\nx[end]".toList).map
      (fun found => (found.before, found.ignored, found.param, found.opened, found.after)) =
      some (['é', '\n'], false, "escape=none".toList, "[global escape=none]\r\n\nx[end]".toList,
        "\nx[end]".toList) := by
    decide +kernel
  obtain ⟨⟨_, _, _, _, _⟩, hfound, hfields⟩ := Option.map_eq_some_iff.1 hparts
  cases hfields
  have hparameter : Preamble.ofParameter "escape=none".toList = .ok ⟨false, none, some "none"⟩ := by
    decide +kernel
  have hprepared : Prepared.ofText text = .ok p := Prepared.ofText_of_found hfound rfl hparameter
  have hplain : EscapeTable.standard.find? "none" = some .none :=
    EscapeTable.find?_builtin (by decide)
  have hinitial : Defaults.initial ctx p.settings = .ok ⟨none, .none⟩ := by
    simp only [Defaults.initial, TemplateContext.style, ctx, p, TemplateId.source, hplain]
    rfl
  have hscan : Reads (.ofCursor ⟨0, "é\n\nx[end]".toList⟩)
      [⟨.text "é\n\nx", 0, 5⟩, ⟨.directive "end" "", 5, 10⟩] none :=
    .of_tokens_eq (by decide +kernel)
  have hread : readPrepared ctx p = .error ⟨.endOutside, 5⟩ := by
    rw [readPrepared, hinitial]
    show readWhole (compileToken ctx) ⟨none, .none⟩ (.ofCursor ⟨0, "é\n\nx[end]".toList⟩) = _
    rw [Reading.readWhole_eq_run hscan]
    rfl
  have hposition : Position.ofOffset text (p.writtenOffset 5) = ⟨4, 2⟩ := by decide +kernel
  have herror : ofText ctx text = .error e := by
    simp only [ofText, hprepared, hread, hposition]
    rfl
  obtain ⟨hleft, _, _, hstands⟩ := errors_stand_where_written text
  exact ⟨hprepared, herror, (hleft p hprepared).2.1, hstands ctx e herror⟩

end Template

end TextTemplate
