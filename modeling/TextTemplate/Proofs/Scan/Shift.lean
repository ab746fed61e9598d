import TextTemplate.Proofs.Scan.Reads

/-! Where a text stands makes no difference to what is read there: further on, the same tokens are
read, as far further on, and the same error. -/

namespace TextTemplate

namespace Cursor

/-- The same text, `n` bytes further on. -/
def shift (n : Nat) (c : Cursor) : Cursor := ⟨c.offset + n, c.rest⟩

variable (n : Nat) (c : Cursor)

@[simp] theorem shift_offset : (c.shift n).offset = c.offset + n := rfl

@[simp] theorem shift_rest : (c.shift n).rest = c.rest := rfl

@[simp] theorem moveTo_shift (rest : List Char) :
    (c.shift n).moveTo rest = (c.moveTo rest).shift n := by
  simp only [moveTo, shift, Nat.add_right_comm]

@[simp] theorem upTo_shift (stop : Nat) : (c.shift n).upTo (stop + n) = c.upTo stop := by
  simp only [upTo, shift, Nat.add_sub_add_right]

end Cursor

namespace Occurrence

def shift (n : Nat) (o : Occurrence) : Occurrence := ⟨o.start.shift n, o.stop.shift n, o.mark⟩

variable (n : Nat)

@[simp] theorem shift_start (o : Occurrence) : (o.shift n).start = o.start.shift n := rfl

theorem earlier_shift (a b : Option Occurrence) :
    earlier (a.map (shift n)) (b.map (shift n)) = (earlier a b).map (shift n) := by
  cases a with
  | none => cases b <;> rfl
  | some a =>
    cases b with
    | none => rfl
    | some b =>
      simp only [earlier, Option.map_some, shift_start, Cursor.shift_offset,
        Nat.add_lt_add_iff_right]
      split <;> rfl

theorem first_shift (os : List (Option Occurrence)) :
    first (os.map (Option.map (shift n))) = (first os).map (shift n) := by
  induction os with
  | nil => rfl
  | cons o os ih => simp only [List.map_cons, first, ih, earlier_shift]

end Occurrence

namespace MarkKind
variable (k : MarkKind) (n : Nat)

theorem at?_shift (c : Cursor) : k.at? (c.shift n) = (k.at? c).map (·.shift n) := by
  simp only [at?, Cursor.shift_rest, Option.map_map]
  congr 1
  funext r
  simp [Occurrence.shift]

theorem find?_shift (c : Cursor) : k.find? (c.shift n) = (k.find? c).map (·.shift n) := by
  obtain ⟨m, cs⟩ := c
  induction cs generalizing m with
  | nil => rfl
  | cons x cs ih =>
    have hrest := ih (m + x.utf8Size)
    have hhere := k.at?_shift n ⟨m, x :: cs⟩
    simp only [Cursor.shift] at hrest hhere ⊢
    rw [find?_cons, find?_cons, hhere, Nat.add_right_comm, hrest, Option.map_or]

theorem earliest?_shift (kinds : List MarkKind) (c : Cursor) :
    earliest? kinds (c.shift n) = (earliest? kinds c).map (·.shift n) := by
  rw [earliest?, earliest?, ← Occurrence.first_shift, List.map_map]
  simp only [find?_shift, Function.comp_def]

end MarkKind

def ScanError.shift (n : Nat) : ScanError → ScanError
  | neverClosed marker offset => neverClosed marker (offset + n)

namespace Token

def shift (n : Nat) : Token → Token
  | hereDocument escape path kind styles body bodyStart =>
    hereDocument escape path kind styles body (bodyStart + n)
  | t => t

end Token

def Spanned.shift (n : Nat) (t : Spanned) : Spanned := ⟨t.token.shift n, t.start + n, t.stop + n⟩

@[simp] theorem Spanned.shift_token (n : Nat) (t : Spanned) :
    (t.shift n).token = t.token.shift n := rfl

@[simp] theorem Spanned.shift_start (n : Nat) (t : Spanned) : (t.shift n).start = t.start + n := rfl

namespace Token

theorem ofMark_shift (n : Nat) (o : Occurrence) :
    ofMark (o.shift n) =
      ((ofMark o).map fun (t, d) => (t.shift n, d.shift n)).mapError (·.shift n) := by
  obtain ⟨start, stop, mark⟩ := o
  cases mark with
  | hereDocument escape path kind styles marker =>
    simp only [ofMark, Occurrence.shift, Cursor.shift_rest, Cursor.moveTo_shift]
    cases splitTerminator? marker.toList (stop.moveTo (Text.skipLineBreak stop.rest)).rest <;> rfl
  | comment | value | resource | directive => rfl

theorem ofPlace_shift (n : Nat) (c : Cursor) (earliest : Option Occurrence) :
    ofPlace (c.shift n) (earliest.map (·.shift n)) =
      ((ofPlace c earliest).map fun (t, d) => (t.shift n, d.shift n)).mapError (·.shift n) := by
  cases earliest with
  | none =>
    simp only [ofPlace, Option.map_none, Cursor.moveTo_shift, Cursor.shift_rest]
    rfl
  | some o =>
    simp only [ofPlace, Option.map_some, Occurrence.shift_start, Cursor.shift_offset,
      Nat.add_lt_add_iff_right, Cursor.upTo_shift, ofMark_shift]
    split
    · rfl
    · cases ofMark o <;> rfl

theorem ofPlace_earliest?_shift (n : Nat) (kinds : List MarkKind) (c : Cursor) :
    ofPlace (c.shift n) (MarkKind.earliest? kinds (c.shift n)) =
      ((ofPlace c (MarkKind.earliest? kinds c)).map fun (t, d) => (t.shift n, d.shift n)).mapError
        (·.shift n) := by
  rw [MarkKind.earliest?_shift, ofPlace_shift]

end Token

/-- A scanner of the same text further on reads the same tokens, as far further on. -/
theorem Reads.shift {n : Nat} {s s' : Scanner} {ts : List Spanned} {e : Option ScanError}
    (h : Reads s ts e) (hpushed : s.pushed = none) (hpushed' : s'.pushed = none)
    (hkinds : s'.kinds = s.kinds) (hhere : s'.here = s.here.shift n) :
    Reads s' (ts.map (·.shift n)) (e.map (·.shift n)) := by
  induction h generalizing s' with
  | ended step =>
    obtain ⟨_, hend⟩ := Scanner.step_eq_none step
    exact .ended (Scanner.step_of_end hpushed' (by rw [hhere, Cursor.shift_rest, hend]))
  | @failed s _ e step =>
    have hsome : s.here.rest ≠ [] := Scanner.rest_ne_nil_of_step_error step
    have hfails : Token.ofPlace s'.here (MarkKind.earliest? s'.kinds s'.here) =
        .error (e.shift n) := by
      rw [hhere, hkinds, Token.ofPlace_earliest?_shift, (Scanner.step_eq_error step).2]
      rfl
    exact .failed (Scanner.step_of_error hpushed' (by rwa [hhere]) hfails)
  | @token s s₁ t ts e step rest ih =>
    obtain ⟨hsome, d, hd, hgoes, rfl⟩ := Scanner.step_eq_some_of_unpushed hpushed step
    have hgoes' : Token.ofPlace s'.here (MarkKind.earliest? s'.kinds s'.here) =
        .ok (t.shift n, d.shift n) := by
      rw [hhere, hkinds, Token.ofPlace_earliest?_shift, hgoes]
      rfl
    obtain ⟨hd', hstep⟩ := Scanner.step_of_ok hpushed' (by rwa [hhere]) hgoes'
    exact .token hstep (ih (by simp [hpushed]) (by simp [hpushed']) (by simp [hkinds]) rfl)

end TextTemplate
