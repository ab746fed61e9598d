import Mathlib.Data.List.DropRight
import TextTemplate.Escape.LogLine
import TextTemplate.Text.Split

/-! Entries of a log stand in lines of their own. No text can pass for entries that it is not:
wherever its output goes on in another line, the line before is marked and the next one is led. -/

namespace TextTemplate.Escape.LogForm
variable {f : LogForm} {c : Char} {cs ds mark out rest : List Char} {k : Nat}

/-! ### Line by line -/

/-- The characters that end a line for one reader or another. -/
def lineEnds : List Char := ['\n', '\r', '\u0085', '\u2028', '\u2029']

theorem isLineBreak_eq (c : Char) : isLineBreak c = lineEnds.contains c := by
  have hcode (d : Char) : (c.toNat == d.toNat) = (c == d) := by
    rw [Bool.eq_iff_iff, beq_iff_eq, beq_iff_eq, Char.toNat_inj]
  simp only [isLineBreak, lineEnds, List.contains_cons, List.contains_nil, Bool.or_false,
    Bool.or_assoc, ← hcode]
  rfl

/-- Whether a character can stand within a line of a log. -/
def fits (c : Char) : Bool := !(lineEnds.contains c || c == '\t' || isForbidden c)

/-- How many line breaks a text has. CR LF is one. -/
def lineBreaks : List Char → Nat
  | [] => 0
  | '\r' :: '\n' :: rest => lineBreaks rest + 1
  | c :: rest => if lineEnds.contains c then lineBreaks rest + 1 else lineBreaks rest

/-- The line break is the one that a text has before `rest`: it is no half of CR LF. -/
inductive IsBreak (rest : List Char) : List Char → Prop where
  | pair : IsBreak rest ['\r', '\n']
  | single {c : Char} : lineEnds.contains c = true →
    (∀ after, c = '\r' → rest ≠ '\n' :: after) → IsBreak rest [c]

/-- A text is read a line break or another character at a time. -/
theorem text_induction {motive : List Char → Prop} (nil : motive [])
    (lineBreak : ∀ mark rest, IsBreak rest mark → motive rest → motive (mark ++ rest))
    (char : ∀ c rest, lineEnds.contains c = false → motive rest → motive (c :: rest))
    (cs : List Char) : motive cs := by
  fun_induction lineBreaks cs with
  | case1 => exact nil
  | case2 rest ih => exact lineBreak _ rest .pair ih
  | case3 c rest hpair hbreak ih => exact lineBreak [c] rest (.single hbreak hpair) ih
  | case4 c rest _ hbreak ih => exact char c rest (Bool.eq_false_iff.2 hbreak) ih

theorem IsBreak.append (h : IsBreak rest mark) (hnext : out.head? ≠ some '\n') :
    IsBreak (rest ++ out) mark := by
  cases h with
  | pair => exact .pair
  | single hbreak hpair =>
    refine .single hbreak fun after hreturn hafter => ?_
    cases rest with
    | nil => exact hnext (List.head?_eq_some_iff.2 ⟨after, hafter⟩)
    | cons d rest =>
      obtain ⟨rfl, _⟩ := List.cons.inj hafter
      exact hpair rest hreturn rfl

theorem lineBreaks_break (h : IsBreak rest mark) :
    lineBreaks (mark ++ rest) = lineBreaks rest + 1 := by
  cases h with
  | pair => rfl
  | single hbreak hpair =>
    rw [List.singleton_append, lineBreaks, if_pos hbreak]
    exact hpair

theorem lineBreaks_char (h : lineEnds.contains c = false) (rest : List Char) :
    lineBreaks (c :: rest) = lineBreaks rest := by
  rw [lineBreaks, h, if_neg Bool.false_ne_true]
  rintro _ rfl
  cases h

theorem escapeFrom_break (f : LogForm) (k : Nat) (h : IsBreak rest mark) :
    f.escapeFrom k (mark ++ rest) =
      f.marker ++ '\n' :: (f.lead ++ f.escapeFrom f.lead.length rest) := by
  cases h with
  | pair => simp [escapeFrom]
  | single hbreak hpair =>
    rw [List.singleton_append, escapeFrom, isLineBreak_eq, if_pos hbreak]
    · simp
    · exact hpair

/-- What a character that breaks no line becomes in column `k`. -/
def charText (k : Nat) (c : Char) : List Char :=
  if c = '\t' then List.replicate (tabStop - k % tabStop) ' '
  else [if isForbidden c then '\ufffd' else c]

theorem escapeFrom_char (f : LogForm) (k : Nat) (h : lineEnds.contains c = false)
    (rest : List Char) : f.escapeFrom k (c :: rest) =
      charText k c ++ f.escapeFrom (k + (charText k c).length) rest := by
  rw [escapeFrom, isLineBreak_eq, h, if_neg Bool.false_ne_true, charText]
  · split
    · rw [List.length_replicate]
    · rfl
  · rintro _ rfl
    cases h

theorem fits_charText (k : Nat) (h : lineEnds.contains c = false) :
    ∀ d ∈ charText k c, fits d = true := by
  intro d hd
  rw [charText] at hd
  split at hd
  · rw [List.eq_of_mem_replicate hd]
    rfl
  · next htab =>
    rw [List.mem_singleton.1 hd]
    split
    · rfl
    · next hforbidden =>
      rw [fits, h]
      simp [htab, hforbidden]

theorem ne_lineFeed_of_fits (h : ∀ c ∈ cs, fits c = true) : ∀ c ∈ cs, c ≠ '\n' := by
  rintro c hc rfl
  cases h _ hc

/-- What goes between two lines fits into them. -/
def Fits (f : LogForm) : Prop := ∀ c ∈ f.marker ++ f.lead, fits c = true

theorem Fits.marker (h : f.Fits) : ∀ c ∈ f.marker, fits c = true :=
  fun c hc => h c (List.mem_append_left f.lead hc)

theorem Fits.lead (h : f.Fits) : ∀ c ∈ f.lead, fits c = true :=
  fun c hc => h c (List.mem_append_right f.marker hc)

/-- Nothing but line feeds stands between lines, and nothing in them that does not fit. -/
theorem escapeFrom_fits (hf : f.Fits) (k : Nat) (cs : List Char) :
    ∀ c ∈ f.escapeFrom k cs, c = '\n' ∨ fits c = true := by
  induction cs using text_induction generalizing k with
  | nil => exact nofun
  | lineBreak mark rest hmark ih =>
    rw [escapeFrom_break f k hmark, List.forall_mem_append, List.forall_mem_cons,
      List.forall_mem_append]
    exact ⟨fun c hc => .inr (hf.marker c hc), .inl rfl, fun c hc => .inr (hf.lead c hc), ih _⟩
  | char c rest hc ih =>
    rw [escapeFrom_char f k hc, List.forall_mem_append]
    exact ⟨fun d hd => .inr (fits_charText k hc d hd), ih _⟩

/-- Text that fits is kept. -/
theorem escapeFrom_eq_self (k : Nat) (h : ∀ c ∈ cs, fits c = true) : f.escapeFrom k cs = cs := by
  induction cs generalizing k with
  | nil => rfl
  | cons c cs ih =>
    obtain ⟨hc, hcs⟩ := List.forall_mem_cons.1 h
    simp only [fits, Bool.not_eq_true', Bool.or_eq_false_iff, beq_eq_false_iff_ne] at hc
    obtain ⟨⟨hbreak, htab⟩, hforbidden⟩ := hc
    rw [escapeFrom_char f k hbreak, ih _ hcs, charText, if_neg htab, hforbidden]
    rfl

/-! ### Marked and led -/

/-- The lines of a text with so many breaks: each that goes on is marked, and each that does not
begin the text is led. -/
structure Framed (f : LogForm) (breaks : Nat) (lines : List (List Char)) : Prop where
  count : lines.length = breaks + 1
  marked : ∀ line ∈ lines.dropLast, f.marker <:+ line
  led : ∀ line ∈ lines.tail, f.lead <+: line

/-- The lines of a log. -/
def lines (out : List Char) : List (List Char) := Text.pieces (· == '\n') out

theorem framed_singleton (f : LogForm) (line : List Char) : f.Framed 0 [line] where
  count := rfl
  marked := nofun
  led := nofun

/-- A longer first line keeps its end. -/
theorem Framed.append_head {breaks : Nat} {line : List Char} {others : List (List Char)}
    (h : f.Framed breaks (line :: others)) (cs : List Char) :
    f.Framed breaks ((cs ++ line) :: others) where
  count := h.count
  marked := by
    cases others with
    | nil => exact nofun
    | cons next others =>
      have hmarked := h.marked
      rw [List.dropLast_cons_cons, List.forall_mem_cons] at hmarked ⊢
      exact ⟨hmarked.1.trans (List.suffix_append cs line), hmarked.2⟩
  led := h.led

theorem Framed.cons {breaks : Nat} {line : List Char} {others : List (List Char)}
    (h : f.Framed breaks (line :: others)) (hline : f.lead <+: line) :
    f.Framed (breaks + 1) (f.marker :: line :: others) where
  count := congrArg (· + 1) h.count
  marked := List.forall_mem_cons.2 ⟨List.suffix_rfl, h.marked⟩
  led := List.forall_mem_cons.2 ⟨hline, h.led⟩

theorem framed_lines (hf : f.Fits) (k : Nat) (cs : List Char) :
    f.Framed (lineBreaks cs) (lines (f.escapeFrom k cs)) := by
  have hwithin {ds : List Char} (hds : ∀ d ∈ ds, fits d = true) :
      ∀ d ∈ ds, (d == '\n') = false := by
    intro d hd
    exact beq_eq_false_iff_ne.2 (ne_lineFeed_of_fits hds d hd)
  induction cs using text_induction generalizing k with
  | nil => exact framed_singleton f []
  | lineBreak mark rest hmark ih =>
    rw [escapeFrom_break f k hmark, lineBreaks_break hmark, lines,
      Text.pieces_append _ (hwithin hf.marker) rfl]
    obtain ⟨line, others, hrest, hled⟩ := Text.exists_pieces_append
      (f.escapeFrom f.lead.length rest) (hwithin hf.lead)
    have hframed := ih f.lead.length
    rw [lines, hrest] at hframed
    rw [hled]
    exact (hframed.append_head f.lead).cons (List.prefix_append f.lead line)
  | char c rest hc ih =>
    rw [escapeFrom_char f k hc, lineBreaks_char hc, lines]
    obtain ⟨line, others, hrest, hline⟩ := Text.exists_pieces_append
      (f.escapeFrom (k + (charText k c).length) rest) (hwithin (fits_charText k hc))
    have hframed := ih (k + (charText k c).length)
    rw [lines, hrest] at hframed
    rw [hline]
    exact hframed.append_head (charText k c)

/-! ### Columns -/

/-- How far the last line of an output goes. -/
def column (out : List Char) : Nat := (out.rtakeWhile (· != '\n')).length

theorem column_append (h : ∀ c ∈ cs, fits c = true) (out : List Char) :
    column (out ++ cs) = column out + cs.length := by
  have hreverse : ∀ c ∈ cs.reverse, (c != '\n') = true := by
    intro c hc
    exact bne_iff_ne.2 (ne_lineFeed_of_fits h c (List.mem_reverse.1 hc))
  rw [column, List.rtakeWhile, List.reverse_append, List.takeWhile_append_of_pos hreverse]
  rw [List.reverse_append, List.reverse_reverse, List.length_append]
  rfl

theorem column_lineFeed (h : ∀ c ∈ cs, fits c = true) (out : List Char) :
    column (out ++ '\n' :: cs) = cs.length := by
  have hstart : column (out ++ ['\n']) = 0 := by
    rw [column, List.rtakeWhile_concat_neg]
    · rfl
    · simp
  rw [← List.singleton_append, ← List.append_assoc, column_append h, hstart, Nat.zero_add]

/-- The column that escaping counts is the one that the output stands in. -/
theorem escapeFrom_append (hf : f.Fits) (hnext : rest.head? ≠ some '\n') (out : List Char)
    (hk : column out = k) : f.escapeFrom k (cs ++ rest) =
      f.escapeFrom k cs ++ f.escapeFrom (column (out ++ f.escapeFrom k cs)) rest := by
  induction cs using text_induction generalizing k out with
  | nil => simp [escapeFrom, hk]
  | lineBreak mark cs hmark ih =>
    have hcolumn : column (out ++ (f.marker ++ '\n' :: f.lead)) = f.lead.length := by
      rw [← List.append_assoc, column_lineFeed hf.lead]
    rw [List.append_assoc, escapeFrom_break f k (hmark.append hnext), escapeFrom_break f k hmark,
      ih _ hcolumn]
    simp
  | char c cs hc ih =>
    have hcolumn : column (out ++ charText k c) = k + (charText k c).length := by
      rw [column_append (fits_charText k hc), hk]
    rw [List.cons_append, escapeFrom_char f k hc, escapeFrom_char f k hc, ih _ hcolumn]
    simp

theorem escape_append (hf : f.Fits) (hnext : rest.head? ≠ some '\n') :
    f.escape (cs ++ rest) = f.escape cs ++ f.escapeFrom (column (f.escape cs)) rest :=
  escapeFrom_append hf hnext [] rfl

/-- A tab reaches the next tab stop of the line that its output stands in. -/
theorem escape_tab (hf : f.Fits) (before after : List Char) :
    ∃ width, 1 ≤ width ∧ width ≤ 8 ∧
      f.escape (before ++ ['\t']) = f.escape before ++ List.replicate width ' ' ∧
      column (f.escape (before ++ ['\t'])) = column (f.escape before) + width ∧
      8 ∣ column (f.escape (before ++ ['\t'])) ∧
      f.escape (before ++ ['\t']) <+: f.escape (before ++ '\t' :: after) := by
  let width := 8 - column (f.escape before) % 8
  have hafter (rest : List Char) : f.escape (before ++ '\t' :: rest) =
      f.escape before ++ (List.replicate width ' ' ++
        f.escapeFrom (column (f.escape before) + width) rest) := by
    have htab := escapeFrom_char f (column (f.escape before)) (c := '\t') rfl rest
    rw [charText, if_pos rfl, List.length_replicate] at htab
    rw [escape_append hf (by simp), htab]
    rfl
  have htabbed : f.escape (before ++ ['\t']) = f.escape before ++ List.replicate width ' ' := by
    rw [hafter, escapeFrom, List.append_nil]
  have hcolumn : column (f.escape (before ++ ['\t'])) = column (f.escape before) + width := by
    rw [htabbed, column_append, List.length_replicate]
    intro c hc
    rw [List.eq_of_mem_replicate hc]
    rfl
  refine ⟨width, by omega, by omega, htabbed, hcolumn, ?_, ?_⟩
  · omega
  · rw [htabbed, hafter, ← List.append_assoc]
    exact List.prefix_append _ _

/-- A text in a log is one entry. Its output has as many lines as the text, each but the last marked
and each but the first led, and holds nothing else that could move or end a line; its tabs reach the
tab stops of those lines, and a text that fits into a line is kept. -/
theorem entry_not_forged (f : LogForm) (hf : f.Fits) (cs : List Char) :
    (∀ c ∈ f.escape cs, c = '\n' ∨ fits c = true) ∧
    f.Framed (lineBreaks cs) (lines (f.escape cs)) ∧
    (∀ before after, cs = before ++ '\t' :: after → ∃ width, 1 ≤ width ∧ width ≤ 8 ∧
      f.escape (before ++ ['\t']) = f.escape before ++ List.replicate width ' ' ∧
      column (f.escape (before ++ ['\t'])) = column (f.escape before) + width ∧
      8 ∣ column (f.escape (before ++ ['\t'])) ∧
      f.escape (before ++ ['\t']) <+: f.escape cs) ∧
    ((∀ c ∈ cs, fits c = true) → f.escape cs = cs) := by
  refine ⟨escapeFrom_fits hf 0 cs, framed_lines hf 0 cs, ?_, escapeFrom_eq_self 0⟩
  rintro before after rfl
  exact escape_tab hf before after

/-- An entry of two lines, whose tab stands after what leads the second, and one that is kept. -/
theorem entry_not_forged_after_tab :
    LogForm.standard.Fits ∧
    lines (LogForm.standard.escape "a\r\n\tb\x1b".toList) =
      ["a↵".toList, "        b\ufffd".toList] ∧
    LogForm.standard.Framed 1 ["a↵".toList, "        b\ufffd".toList] ∧
    (∃ width, 1 ≤ width ∧ width ≤ 8 ∧
      LogForm.standard.escape "a\r\n\t".toList =
        LogForm.standard.escape "a\r\n".toList ++ List.replicate width ' ') ∧
    (∀ c ∈ "ok (200)".toList, fits c = true) ∧
    LogForm.standard.escape "ok (200)".toList = "ok (200)".toList := by
  have hfits : LogForm.standard.Fits := by
    simp [Fits, LogForm.standard, fits, lineEnds, isForbidden]
  have hkept : ("ok (200)".toList.all fits) = true := by rfl
  obtain ⟨_, hframed, htab, _⟩ := entry_not_forged .standard hfits "a\r\n\tb\x1b".toList
  obtain ⟨_, _, _, hself⟩ := entry_not_forged .standard hfits "ok (200)".toList
  obtain ⟨width, hleast, hmost, hwidth, _⟩ := htab "a\r\n".toList "b\x1b".toList rfl
  refine ⟨hfits, rfl, hframed, ⟨width, hleast, hmost, hwidth⟩, ?_, ?_⟩
  · exact List.all_eq_true.1 hkept
  · exact hself (List.all_eq_true.1 hkept)

end TextTemplate.Escape.LogForm
