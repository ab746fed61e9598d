import TextTemplate.Scan.Occurrence
import TextTemplate.Text.Line

/-! The tokens of a template text. A here-document is one token: its head, its body as written, and
its terminator. -/

namespace TextTemplate

/-- A part of a template text. -/
inductive Token where
  | text (s : String)
  | comment (ofValue : Bool)
  | value (escape : Option String) (path : String) (rest : Option String)
  | hereDocument (escape path kind styles : Option String) (body : String) (bodyStart : Nat)
  | resource (first : String) (second : Option String)
  | directive (name param : String)
  deriving DecidableEq, Repr

/-- A token and the bytes it takes. -/
structure Spanned where
  token : Token
  start : Nat
  stop : Nat
  deriving DecidableEq, Repr

inductive ScanError where
  | neverClosed (marker : String) (offset : Nat)
  deriving DecidableEq, Repr

namespace ScanError

def message : ScanError → String
  | neverClosed marker _ => "here-document `" ++ marker ++ "` is never closed"

def offset : ScanError → Nat
  | neverClosed _ offset => offset

end ScanError

namespace Token

/-- The rest after the terminator of a here-document, if the text begins with one: the marker in
braces, with blanks around it or not. -/
def readTerminator? (marker : List Char) : List Char → Option (List Char)
  | '{' :: cs =>
    (Text.dropLead? marker (Text.trimStart cs)).bind fun cs =>
      Text.dropLead? ['}'] (Text.trimStart cs)
  | _ => none

/-- The body of a here-document, and the rest after its terminator. -/
def splitTerminator? (marker : List Char) : List Char → Option (List Char × List Char)
  | [] => none
  | c :: cs =>
    match readTerminator? marker (c :: cs) with
    | some rest => some ([], rest)
    | none => (splitTerminator? marker cs).map fun (body, rest) => (c :: body, rest)

/-- The token that a mark begins, and the place behind it. -/
def ofMark (o : Occurrence) : Except ScanError (Token × Cursor) :=
  match o.mark with
  | .comment ofValue => .ok (comment ofValue, o.stop)
  | .value escape path rest => .ok (value escape path rest, o.stop)
  | .resource first second => .ok (resource first second, o.stop)
  | .directive name param => .ok (directive name param, o.stop)
  | .hereDocument escape path kind styles marker =>
    let begun := o.stop.moveTo (Text.skipLineBreak o.stop.rest)
    match splitTerminator? marker.toList begun.rest with
    | none => .error (.neverClosed marker o.start.offset)
    | some (body, rest) =>
      .ok (hereDocument escape path kind styles (String.ofList body) begun.offset,
        begun.moveTo rest)

/-- The token at a place that is not the end, where `earliest` is the next mark from there on: the
text before it, the mark itself, or all the text that is left. -/
def ofPlace (c : Cursor) (earliest : Option Occurrence) : Except ScanError (Spanned × Cursor) :=
  match earliest with
  | none =>
    let stop := c.moveTo []
    .ok (⟨text (String.ofList c.rest), c.offset, stop.offset⟩, stop)
  | some o =>
    if c.offset < o.start.offset then
      let before := String.ofList (c.upTo o.start.offset)
      .ok (⟨text before, c.offset, o.start.offset⟩, o.start)
    else (ofMark o).map fun (token, stop) => (⟨token, o.start.offset, stop.offset⟩, stop)

theorem ofPlace_none (n : Nat) (cs : List Char) :
    ofPlace ⟨n, cs⟩ none =
      .ok (⟨text (String.ofList cs), n, n + Text.utf8Length cs⟩, ⟨n + Text.utf8Length cs, []⟩) := by
  have hstop := Cursor.moveTo_append n cs []
  rw [List.append_nil] at hstop
  simp only [ofPlace, hstop]

theorem ofPlace_before {cs : List Char} (n : Nat) (rest : List Char) (stop : Cursor) (m : Mark)
    (h : cs ≠ []) :
    ofPlace ⟨n, cs ++ rest⟩ (some ⟨⟨n + Text.utf8Length cs, rest⟩, stop, m⟩) =
      .ok (⟨text (String.ofList cs), n, n + Text.utf8Length cs⟩,
        ⟨n + Text.utf8Length cs, rest⟩) := by
  have hlt : n < n + Text.utf8Length cs := Nat.lt_add_of_pos_right (Text.utf8Length_pos h)
  simp only [ofPlace, hlt, ↓reduceIte, Cursor.upTo, Nat.add_sub_cancel_left, Text.splitBytes_append]

theorem readTerminator?_eq_append {marker cs rest : List Char}
    (h : readTerminator? marker cs = some rest) : ∃ taken, cs = taken ++ rest := by
  unfold readTerminator? at h
  split at h
  · rename_i cs
    obtain ⟨ds, hmarker, hclosing⟩ := Option.bind_eq_some_iff.1 h
    obtain ⟨a, _, ha⟩ := Text.trimStart_eq_append cs
    obtain ⟨b, _, hb⟩ := Text.trimStart_eq_append ds
    rw [Text.dropLead?_eq_some.1 hmarker] at ha
    rw [Text.dropLead?_eq_some.1 hclosing] at hb
    refine ⟨'{' :: a ++ (marker ++ (b ++ ['}'])), ?_⟩
    rw [ha, hb]
    simp
  · cases h

theorem splitTerminator?_eq_append {marker cs body rest : List Char}
    (h : splitTerminator? marker cs = some (body, rest)) :
    ∃ taken, cs = body ++ (taken ++ rest) := by
  induction cs generalizing body with
  | nil => cases h
  | cons c cs ih =>
    simp only [splitTerminator?] at h
    split at h
    · rename_i hread
      cases h
      exact readTerminator?_eq_append hread
    · obtain ⟨⟨body', rest'⟩, hsplit, heq⟩ := Option.map_eq_some_iff.1 h
      cases heq
      obtain ⟨taken, rfl⟩ := ih hsplit
      exact ⟨taken, rfl⟩

/-- A token goes on from where its mark ends. -/
theorem ofMark_leads {o : Occurrence} {t : Token} {d : Cursor} (h : ofMark o = .ok (t, d)) :
    o.stop.Leads d := by
  unfold ofMark at h
  split at h
  case h_5 =>
    obtain ⟨lead, hlead⟩ := Text.skipLineBreak_eq_append o.stop.rest
    simp only at h
    split at h
    · cases h
    · rename_i body rest hsplit
      cases h
      obtain ⟨taken, htaken⟩ := splitTerminator?_eq_append hsplit
      refine (Cursor.leads_moveTo lead hlead).trans (Cursor.leads_moveTo (body ++ taken) ?_)
      rw [htaken, List.append_assoc]
  all_goals
    cases h
    exact .refl _

/-- A token takes some of the text. -/
theorem ofPlace_leads {c d : Cursor} {earliest : Option Occurrence} {t : Spanned}
    (hfound : ∀ o, earliest = some o → ∃ k : MarkKind, k.find? c = some o) (hc : c.rest ≠ [])
    (h : ofPlace c earliest = .ok (t, d)) : c.Leads d ∧ d.rest.length < c.rest.length := by
  cases earliest with
  | none =>
    cases h
    exact ⟨Cursor.leads_moveTo c.rest (List.append_nil _).symm, List.length_pos_iff.2 hc⟩
  | some o =>
    obtain ⟨k, hk⟩ := hfound o rfl
    obtain ⟨hstart, hat⟩ := MarkKind.find?_eq_some hk
    obtain ⟨_, hstop, hlt⟩ := MarkKind.at?_eq_some hat
    simp only [ofPlace] at h
    split at h
    · rename_i hbefore
      cases h
      exact ⟨hstart, hstart.length_lt hbefore⟩
    · cases hmark : ofMark o with
      | error e => simp [hmark, Except.map] at h
      | ok r =>
        rw [hmark] at h
        cases h
        have hd := ofMark_leads hmark
        have := hstart.length_le
        have := hd.length_le
        exact ⟨hstart.trans (hstop.trans hd), by omega⟩

end Token

end TextTemplate
