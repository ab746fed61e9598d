import TextTemplate.Parameter.Setting
import TextTemplate.Proofs.Parameter.Written

/-! Lists of settings that are written out are read back, whatever their values hold and however
they are set apart. -/

namespace TextTemplate

namespace ParameterToken

/-! ### Where tokens stand -/

theorem readQuoted_eq_append {cs text rest : List Char} (h : readQuoted cs = some (text, rest)) :
    cs = doubled text ++ '\'' :: rest := by
  fun_induction readQuoted cs generalizing text rest with
  | case1 => cases h
  | case2 r ih =>
    obtain ⟨⟨text', rest'⟩, hr, heq⟩ := Option.map_eq_some_iff.1 h
    cases heq
    rw [ih hr, doubled_cons]
    rfl
  | case3 r =>
    cases h
    rfl
  | case4 c r _ hne ih =>
    obtain ⟨⟨text', rest'⟩, hr, heq⟩ := Option.map_eq_some_iff.1 h
    cases heq
    rw [ih hr, doubled_cons, if_neg hne]
    rfl

/-- A token takes the text that it is written as. -/
theorem read_eq_append {c : Char} {cs rest : List Char} {t : ParameterToken}
    (h : read c cs = some (t, rest)) : c :: cs = t.written ++ rest := by
  unfold read at h
  iterate 4
    split at h
    · rename_i hc
      cases h
      rw [hc]
      rfl
  split at h
  · rename_i hc
    obtain ⟨⟨text, rest'⟩, hr, heq⟩ := Option.map_eq_some_iff.1 h
    cases heq
    rw [hc, readQuoted_eq_append hr]
    simp [written, inQuotes]
  · split at h
    · cases h
      simp [written]
    · cases h

/-- The tokens stand in the text, which begins at the byte `n`, one behind the other: each takes the
bytes that it is written with, and all that is left between them, before and behind is blank. -/
def Spaced (n : Nat) (cs : List Char) : List PlacedToken → Prop
  | [] => ∀ c ∈ cs, isGap c = true
  | t :: ts => ∃ gap rest, cs = gap ++ (t.token.written ++ rest) ∧ (∀ c ∈ gap, isGap c = true) ∧
      t.start = n + Text.utf8Length gap ∧ t.stop = t.start + Text.utf8Length t.token.written ∧
      t.start < t.stop ∧ Spaced t.stop rest ts

theorem Spaced.gap {n : Nat} {c : Char} {cs : List Char} {ts : List PlacedToken}
    (hc : isGap c = true) (h : Spaced (n + c.utf8Size) cs ts) : Spaced n (c :: cs) ts := by
  cases ts with
  | nil => exact List.forall_mem_cons.2 ⟨hc, h⟩
  | cons t ts =>
    obtain ⟨gap, rest, rfl, hgap, hstart, htoken⟩ := h
    refine ⟨c :: gap, rest, rfl, List.forall_mem_cons.2 ⟨hc, hgap⟩, ?_, htoken⟩
    rw [hstart, Text.utf8Length, Nat.add_assoc]

/-- Whatever the text, its tokens stand in it as they are written. -/
theorem spaced_readAll {c : Cursor} {ts : List PlacedToken} (h : readAll c = .ok ts) :
    Spaced c.offset c.rest ts := by
  fun_induction readAll c generalizing ts with
  | case1 c hc =>
    cases h
    simp [Spaced, hc]
  | case2 c first cs hc hgap ih =>
    rw [hc]
    exact (ih h).gap hgap
  | case3 => cases h
  | case4 c first cs hc _ t rest hread stop =>
    rename_i ih
    obtain ⟨n, _⟩ := c
    obtain rfl : _ = first :: cs := hc
    have hsplit := read_eq_append hread
    have hstop : stop = ⟨n + Text.utf8Length t.written, rest⟩ := by
      simp only [stop, hsplit, Cursor.moveTo_append]
    have htaken : 0 < Text.utf8Length t.written := by
      refine Text.utf8Length_pos fun hnil => ?_
      have hshorter := read_length hread
      rw [hnil, List.nil_append] at hsplit
      rw [← hsplit, List.length_cons] at hshorter
      omega
    cases hmore : readAll stop with
    | error stray =>
      rw [hmore] at h
      cases h
    | ok more =>
      rw [hmore] at h
      cases h
      have hrest := ih hmore
      rw [hstop] at hrest ⊢
      exact ⟨[], rest, hsplit, by simp, rfl, rfl, Nat.lt_add_of_pos_right htaken, hrest⟩

/-! ### What stands between settings -/

/-- Commas, blanks or both, or nothing. -/
def IsSeparator (cs : List Char) : Prop := ∀ c ∈ cs, isGap c = true ∨ c = ','

theorem spells_gap {gap cs : List Char} {ts : List ParameterToken}
    (hgap : ∀ c ∈ gap, isGap c = true) (h : Spells cs ts) : Spells (gap ++ cs) ts := by
  induction gap with
  | nil => exact h
  | cons c gap ih =>
    obtain ⟨hc, hgap⟩ := List.forall_mem_cons.1 hgap
    exact .gap hc (ih hgap)

theorem spells_separator {sep cs : List Char} {ts : List ParameterToken} (hsep : IsSeparator sep)
    (h : Spells cs ts) : Spells (sep ++ cs) (.replicate (sep.count ',') comma ++ ts) := by
  induction sep with
  | nil => exact h
  | cons c sep ih =>
    obtain ⟨hc, hmore⟩ := List.forall_mem_cons.1 hsep
    by_cases hcomma : c = ','
    · subst hcomma
      rw [List.count_cons_self, List.replicate_succ]
      exact .token (t := comma) trivial trivial (ih hmore)
    · rw [List.count_cons_of_ne hcomma]
      exact .gap (hc.resolve_right hcomma) (ih hmore)

/-- A blank or a comma ends every token. -/
theorem endsBefore_separator (t : ParameterToken) {cs : List Char}
    (h : ∀ c ∈ cs.head?, isGap c = true ∨ c = ',') : t.EndsBefore cs := by
  cases cs with
  | nil => cases t <;> simp [EndsBefore]
  | cons c cs =>
    have hseparates := h c rfl
    simp only [isGap, Bool.or_eq_true, beq_iff_eq] at hseparates
    rcases hseparates with (((rfl | rfl) | rfl) | rfl) | rfl <;>
      exact t.endsBefore_cons cs (by decide) (by decide)

end ParameterToken

open ParameterToken (Spells IsSeparator)

theorem Setting.ofTokens_replicate_comma (n : Nat) (ts : List ParameterToken) :
    ofTokens (.replicate n .comma ++ ts) = ofTokens ts := by
  induction n with
  | zero => rfl
  | succ n ih => rw [List.replicate_succ, List.cons_append, ofTokens, ih]

/-! ### Settings and lists of them -/

/-- A setting and the way it is written. -/
structure WrittenSetting extends Setting where
  legible : (ParameterToken.word key).Legible
  /-- The blanks before the equals sign. -/
  before : List Char
  /-- The blanks behind the equals sign. -/
  behind : List Char
  blank : ∀ c ∈ before ++ behind, ParameterToken.isGap c = true
  /-- Whether the value stands without quotes, as only a word may. -/
  bare : Bool
  bare_legible : bare = true → (ParameterToken.word value).Legible

namespace WrittenSetting
variable (s : WrittenSetting)

def valueToken : ParameterToken := if s.bare then .word s.value else .quoted s.value

/-- The setting as it stands in a text. -/
def written : List Char :=
  s.key.toList ++ (s.before ++ '=' :: (s.behind ++ s.valueToken.written))

def tokens : List ParameterToken := [.word s.key, .equals, s.valueToken]

theorem legible_valueToken : s.valueToken.Legible := by
  unfold valueToken
  split
  · rename_i hbare
    exact s.bare_legible hbare
  · trivial

theorem spells_written {cs : List Char} {ts : List ParameterToken}
    (hends : ∀ c ∈ cs.head?, ParameterToken.isGap c = true ∨ c = ',') (h : Spells cs ts) :
    Spells (s.written ++ cs) (s.tokens ++ ts) := by
  obtain ⟨hbefore, hbehind⟩ := List.forall_mem_append.1 s.blank
  have hvalue := Spells.token s.legible_valueToken (s.valueToken.endsBefore_separator hends) h
  have hequals := Spells.token (t := .equals) trivial trivial
    (ParameterToken.spells_gap hbehind hvalue)
  have hkey : (ParameterToken.word s.key).EndsBefore
      (s.before ++ '=' :: (s.behind ++ (s.valueToken.written ++ cs))) := by
    cases hgap : s.before with
    | nil => rfl
    | cons c gap =>
      rw [hgap] at hbefore
      refine ParameterToken.endsBefore_separator _ fun d hd => ?_
      cases hd
      exact .inl (hbefore c List.mem_cons_self)
  have hall := Spells.token s.legible hkey (ParameterToken.spells_gap hbefore hequals)
  simpa [written, tokens, ParameterToken.written] using hall

theorem ofTokens_tokens (ts : List ParameterToken) :
    Setting.ofTokens (s.tokens ++ ts) = (Setting.ofTokens ts).map (s.toSetting :: ·) := by
  cases hbare : s.bare <;> simp [tokens, valueToken, hbare, Setting.ofTokens]

end WrittenSetting

/-- A list of settings as it may be written: with commas, blanks or both between the settings, and
before the first and behind the last one or not. -/
structure SettingList where
  lead : List Char
  /-- The settings, each with what stands behind it. -/
  items : List (WrittenSetting × List Char)
  lead_separates : IsSeparator lead
  separates : ∀ item ∈ items, IsSeparator item.2
  apart : ∀ item ∈ items.dropLast, item.2 ≠ []

namespace SettingList

def text (l : SettingList) : String :=
  String.ofList (l.lead ++ l.items.flatMap fun item => item.1.written ++ item.2)

def settings (l : SettingList) : List Setting := l.items.map (·.1.toSetting)

/-- The tokens of a list; every comma is one. -/
def tokens (l : SettingList) : List ParameterToken :=
  .replicate (l.lead.count ',') .comma ++
    l.items.flatMap fun item => item.1.tokens ++ .replicate (item.2.count ',') .comma

theorem spells_items {items : List (WrittenSetting × List Char)}
    (hsep : ∀ item ∈ items, IsSeparator item.2) (hapart : ∀ item ∈ items.dropLast, item.2 ≠ []) :
    Spells (items.flatMap fun item => item.1.written ++ item.2)
      (items.flatMap fun item => item.1.tokens ++ .replicate (item.2.count ',') .comma) := by
  induction items with
  | nil => exact .nil
  | cons item items ih =>
    obtain ⟨hitem, hsep⟩ := List.forall_mem_cons.1 hsep
    have hmore := ih hsep fun next hnext => by
      cases items with
      | nil => cases hnext
      | cons => exact hapart next (List.mem_cons_of_mem item hnext)
    simp only [List.flatMap_cons, List.append_assoc]
    refine item.1.spells_written (fun c hc => ?_) (ParameterToken.spells_separator hitem hmore)
    -- Where nothing stands behind a setting, it is the last one and the text ends.
    cases hbehind : item.2 with
    | nil =>
      cases items with
      | nil => simp [hbehind] at hc
      | cons next items => exact absurd hbehind (hapart item (by simp))
    | cons d sep =>
      rw [hbehind] at hc hitem
      cases hc
      exact hitem c List.mem_cons_self

theorem spells_text (l : SettingList) : Spells l.text.toList l.tokens := by
  rw [text, String.toList_ofList]
  exact ParameterToken.spells_separator l.lead_separates (spells_items l.separates l.apart)

theorem ofTokens_tokens (l : SettingList) : Setting.ofTokens l.tokens = .ok l.settings := by
  rw [tokens, Setting.ofTokens_replicate_comma, settings]
  induction l.items with
  | nil => rfl
  | cons item items ih =>
    simp only [List.flatMap_cons, List.append_assoc, WrittenSetting.ofTokens_tokens,
      Setting.ofTokens_replicate_comma, ih, List.map_cons, Except.map]

/-- A list that is written out falls into its tokens, which stand in it one behind the other with
only blanks between them, and is read back as the settings in their order, also those whose name
comes again. -/
theorem settings_read_back (l : SettingList) :
    (∃ placed, ParameterToken.ofText l.text = .ok placed ∧ placed.map (·.token) = l.tokens ∧
      ParameterToken.Spaced 0 l.text.toList placed) ∧
    Setting.ofText l.text = .ok l.settings := by
  obtain ⟨placed, hread, htokens⟩ := l.spells_text.readAll 0
  have htext : ParameterToken.ofText l.text = .ok placed := hread
  refine ⟨⟨placed, htext, htokens, ParameterToken.spaced_readAll hread⟩, ?_⟩
  rw [Setting.ofText, htext]
  simp only [htokens, ofTokens_tokens]

/-- Every list of settings whose names are words can be written, whatever the values are. -/
theorem exists_settings_eq {ss : List Setting}
    (h : ∀ s ∈ ss, (ParameterToken.word s.key).Legible) : ∃ l : SettingList, l.settings = ss := by
  let quote (s : Setting) (hs : (ParameterToken.word s.key).Legible) : WrittenSetting :=
    ⟨s, hs, [], [], by simp, false, nofun⟩
  let items := ss.pmap (fun s hs => (quote s hs, [','])) h
  have hcomma : ∀ item ∈ items, item.2 = [','] := by
    intro item hitem
    obtain ⟨s, hs, rfl⟩ := List.mem_pmap.1 hitem
    rfl
  refine ⟨⟨[], items, by simp [IsSeparator], fun item hitem => ?_, fun item hitem => ?_⟩, ?_⟩
  · simp [IsSeparator, hcomma item hitem]
  · simp [hcomma item ((List.dropLast_sublist items).mem hitem)]
  · rw [settings, List.map_pmap]
    exact List.pmap_eq_self.2 fun s hs => rfl

/-- A name that comes twice, with a value that is all quotes and signs. -/
example :
    let quoted : WrittenSetting :=
      ⟨⟨"k", "'', ="⟩, ⟨rfl, rfl⟩, [' '], ['\n'], by simp; decide, false, nofun⟩
    let bare : WrittenSetting :=
      ⟨⟨"k", "v"⟩, ⟨rfl, rfl⟩, [], [], by simp, true, fun _ => ⟨rfl, rfl⟩⟩
    let l : SettingList := ⟨[','], [(quoted, [' ', ',']), (bare, [])], by simp [IsSeparator],
      by simp [IsSeparator, ParameterToken.isGap], by simp⟩
    l.text = ",k =\n''''', =' ,k=v" := by
  decide

end SettingList

end TextTemplate
