import Mathlib.Data.List.Induction
import TextTemplate.Source.Storage

/-! Tags of locales, and the texts found for them. A tag may be spelled in many ways, and its locale
has one tag of its own. A text is looked for under the locale and then under the shorter and shorter
prefixes of its parts; the first answer there is counts. -/

namespace TextTemplate

namespace Locale

/-! ### Spellings of a tag -/

/-- The place between `a` and `b` is at the edge of a part: nothing of a part stands before it, or
nothing behind it. -/
def AtEdge (a b : List Char) : Prop :=
  a = [] ∨ b = [] ∨ a.getLast?.any isSeparator = true ∨ b.head?.any isSeparator = true

/-- Two spellings of a tag: a separator may be any other, and at the edges of parts there may be
blanks, and further separators with nothing between them. -/
inductive Respelled : List Char → List Char → Prop where
  | refl (cs : List Char) : Respelled cs cs
  | symm {as bs : List Char} : Respelled as bs → Respelled bs as
  | trans {as bs cs : List Char} : Respelled as bs → Respelled bs cs → Respelled as cs
  | separator {c d : Char} (a b : List Char) : isSeparator c = true → isSeparator d = true →
      Respelled (a ++ c :: b) (a ++ d :: b)
  | added {c : Char} {a b : List Char} : AtEdge a b → isSeparator c = true ∨ Text.isBlank c = true →
      Respelled (a ++ c :: b) (a ++ b)

/-- The parts of a tag as they are spelled. -/
def spelledParts (cs : List Char) : List (List Char) :=
  ((Text.pieces isSeparator cs).map Text.trim).filter (· ≠ [])

theorem parts_ofText (tag : String) :
    (ofText tag).parts =
      (spelledParts tag.toList).zipIdx.map fun (part, i) => normalPart i (String.ofList part) := rfl

theorem exists_last_piece (cs : List Char) : (∀ x ∈ cs, isSeparator x = false) ∨
    ∃ b d w, cs = b ++ d :: w ∧ isSeparator d = true ∧ ∀ x ∈ w, isSeparator x = false := by
  induction cs with
  | nil => exact .inl nofun
  | cons x cs ih =>
    rcases ih with hnone | ⟨b, d, w, rfl, hd, hw⟩
    · by_cases hx : isSeparator x = true
      · exact .inr ⟨[], x, cs, rfl, hx, hnone⟩
      · exact .inl (List.forall_mem_cons.2 ⟨Bool.eq_false_iff.2 hx, hnone⟩)
    · exact .inr ⟨x :: b, d, w, rfl, hd, hw⟩

section
variable {c : Char}

theorem spelledParts_nil : spelledParts [] = [] := rfl

theorem spelledParts_append (a b : List Char) (hc : isSeparator c = true) :
    spelledParts (a ++ c :: b) = spelledParts a ++ spelledParts b := by
  rw [spelledParts, Text.pieces_append_cons a b hc, List.map_append, List.filter_append]
  rfl

theorem spelledParts_cons_blank (b : List Char) (hc : Text.isBlank c = true)
    (hsep : isSeparator c = false) : spelledParts (c :: b) = spelledParts b := by
  obtain ⟨w, ws, hw⟩ := List.exists_cons_of_ne_nil (Text.pieces_ne_nil isSeparator b)
  have hpieces : Text.pieces isSeparator (c :: b) = (c :: w) :: ws := by
    simp [Text.pieces, hsep, hw]
  rw [spelledParts, spelledParts, hpieces, hw, List.map_cons, List.map_cons,
    Text.trim_cons_blank w hc]

theorem spelledParts_of_no_separator {cs : List Char} (h : ∀ x ∈ cs, isSeparator x = false) :
    spelledParts cs = [Text.trim cs].filter (· ≠ []) := by
  rw [spelledParts, Text.pieces_eq_singleton h]
  rfl

theorem trim_concat_blank (cs : List Char) (hc : Text.isBlank c = true) :
    Text.trim (cs ++ [c]) = Text.trim cs := by
  have hend (ds : List Char) : Text.trimEnd (ds ++ [c]) = Text.trimEnd ds := by
    simp [Text.trimEnd, hc]
  rw [Text.trim, Text.trim, Text.trimStart, Text.trimStart, List.dropWhile_append]
  split
  · next hempty => simp [List.isEmpty_iff.1 hempty, hc]
  · exact hend _

theorem spelledParts_concat_blank (a : List Char) (hc : Text.isBlank c = true)
    (hsep : isSeparator c = false) : spelledParts (a ++ [c]) = spelledParts a := by
  have hpiece (w : List Char) (hw : ∀ x ∈ w, isSeparator x = false) :
      spelledParts (w ++ [c]) = spelledParts w := by
    have hconcat : ∀ x ∈ w ++ [c], isSeparator x = false := by
      simpa [or_imp, forall_and] using ⟨hw, hsep⟩
    rw [spelledParts_of_no_separator hconcat, spelledParts_of_no_separator hw,
      trim_concat_blank w hc]
  rcases exists_last_piece a with hnone | ⟨b, d, w, rfl, hd, hw⟩
  · exact hpiece a hnone
  · rw [List.append_assoc, List.cons_append, spelledParts_append b _ hd,
      spelledParts_append b _ hd, hpiece w hw]

end

/-- At the edge of a part the parts on both sides stay whole. -/
theorem AtEdge.spelledParts_eq {a b : List Char} (h : AtEdge a b) :
    spelledParts (a ++ b) = spelledParts a ++ spelledParts b := by
  rcases h with rfl | rfl | hlast | hhead
  · rfl
  · rw [List.append_nil, spelledParts_nil, List.append_nil]
  · obtain ⟨d, hd, hsep⟩ := (Option.any_eq_true _ _).1 hlast
    obtain ⟨a, rfl⟩ := List.getLast?_eq_some_iff.1 hd
    rw [List.append_assoc, List.singleton_append, spelledParts_append a b hsep,
      spelledParts_append a [] hsep, spelledParts_nil, List.append_nil]
  · cases b with
    | nil => simp at hhead
    | cons d b =>
      have hsep : isSeparator d = true := hhead
      have hb := spelledParts_append [] b hsep
      rw [spelledParts_append a b hsep, ← List.nil_append (d :: b), hb]
      rfl

theorem Respelled.spelledParts_eq {as bs : List Char} (h : Respelled as bs) :
    spelledParts as = spelledParts bs := by
  induction h with
  | refl => rfl
  | symm _ ih => exact ih.symm
  | trans _ _ ih ih' => exact ih.trans ih'
  | separator a b hc hd => rw [spelledParts_append a b hc, spelledParts_append a b hd]
  | @added c a b hedge hc =>
    rw [hedge.spelledParts_eq]
    by_cases hsep : isSeparator c = true
    · exact spelledParts_append a b hsep
    · replace hc := hc.resolve_left hsep
      replace hsep := Bool.eq_false_iff.2 hsep
      have hbefore (hedge : AtEdge a (c :: b)) :
          spelledParts (a ++ c :: b) = spelledParts a ++ spelledParts b := by
        rw [hedge.spelledParts_eq, spelledParts_cons_blank b hc hsep]
      have hbehind (hedge : AtEdge (a ++ [c]) b) :
          spelledParts (a ++ c :: b) = spelledParts a ++ spelledParts b := by
        rw [← List.singleton_append, ← List.append_assoc, hedge.spelledParts_eq,
          spelledParts_concat_blank a hc hsep]
      rcases hedge with hnil | hnil | hlast | hhead
      · exact hbefore (.inl hnil)
      · exact hbehind (.inr (.inl hnil))
      · exact hbefore (.inr (.inr (.inl hlast)))
      · exact hbehind (.inr (.inr (.inr hhead)))

theorem Respelled.ofText_eq {tag other : String} (h : Respelled other.toList tag.toList) :
    ofText other = ofText tag := by
  have hparts : (ofText other).parts = (ofText tag).parts := by
    rw [parts_ofText, parts_ofText, h.spelledParts_eq]
  exact congrArg Locale.mk hparts

/-- A word of a tag: something, without separators in it and blanks at its ends. -/
structure IsWord (w : List Char) : Prop where
  ne_nil : w ≠ []
  trimmed : Text.trim w = w
  unseparated : ∀ c ∈ w, isSeparator c = false

theorem isWord_of_mem_spelledParts {cs w : List Char} (h : w ∈ spelledParts cs) : IsWord w := by
  obtain ⟨hmem, hne⟩ := List.mem_filter.1 h
  obtain ⟨v, hv, rfl⟩ := List.mem_map.1 hmem
  exact ⟨by simpa using hne, Text.trim_trim v, fun c hc =>
    Text.eq_false_of_mem_pieces hv (Text.mem_of_mem_trim hc)⟩

namespace Respelled
variable {as bs lead trail : List Char}

/-- What is respelled in front of a separator. -/
theorem append {cs : List Char} (h : Respelled as bs) (hcs : cs.head?.any isSeparator = true) :
    Respelled (as ++ cs) (bs ++ cs) := by
  induction h with
  | refl as => exact .refl _
  | symm _ ih => exact ih.symm
  | trans _ _ ih ih' => exact ih.trans ih'
  | separator a b hc hd =>
    rw [List.append_assoc, List.append_assoc]
    exact .separator a (b ++ cs) hc hd
  | @added c a b hedge hc =>
    rw [List.append_assoc, List.append_assoc]
    refine .added ?_ hc
    rcases hedge with hnil | rfl | hlast | hhead
    · exact .inl hnil
    · exact .inr (.inr (.inr hcs))
    · exact .inr (.inr (.inl hlast))
    · cases b with
      | nil => exact .inr (.inr (.inr hcs))
      | cons => exact .inr (.inr (.inr hhead))

/-- Blanks at the beginning of a part do not count. -/
theorem of_lead {a : List Char} (b : List Char) (ha : a = [] ∨ a.getLast?.any isSeparator = true)
    (hlead : ∀ c ∈ lead, Text.isBlank c = true) : Respelled (a ++ (lead ++ b)) (a ++ b) := by
  have hedge (cs : List Char) : AtEdge a cs := ha.imp id fun h => .inr (.inl h)
  induction lead with
  | nil => exact .refl _
  | cons c lead ih =>
    obtain ⟨hc, hrest⟩ := List.forall_mem_cons.1 hlead
    exact (Respelled.added (hedge _) (.inr hc)).trans (ih hrest)

/-- Nor do blanks at the end of a tag. -/
theorem of_trail (a : List Char) (htrail : ∀ c ∈ trail, Text.isBlank c = true) :
    Respelled (a ++ trail) a := by
  induction trail using List.reverseRecOn with
  | nil =>
    rw [List.append_nil]
    exact .refl a
  | append_singleton trail c ih =>
    have hc := htrail c (List.mem_append_right trail List.mem_cons_self)
    have hadded : Respelled (a ++ trail ++ [c]) (a ++ trail ++ []) :=
      .added (.inr (.inl rfl)) (.inr hc)
    rw [List.append_nil, List.append_assoc] at hadded
    exact hadded.trans (ih fun x hx => htrail x (List.mem_append_left [c] hx))

theorem trimmed {a : List Char} (w : List Char) (ha : a = [] ∨ a.getLast?.any isSeparator = true) :
    Respelled (a ++ w) (a ++ Text.trim w) := by
  obtain ⟨lead, hlead, hw⟩ := Text.trimStart_eq_append w
  obtain ⟨trail, htrail, hstart⟩ := Text.trimEnd_eq_append (Text.trimStart w)
  have hfirst : Respelled (a ++ w) (a ++ Text.trimStart w) := by
    have hdropped := of_lead (Text.trimStart w) ha hlead
    rwa [← hw] at hdropped
  have hsecond : Respelled (a ++ Text.trimStart w) (a ++ Text.trim w) := by
    have hdropped := of_trail (a ++ Text.trimEnd (Text.trimStart w)) htrail
    rwa [List.append_assoc, ← hstart] at hdropped
  exact hfirst.trans hsecond

end Respelled

theorem joined_concat {ws : List (List Char)} (w : List Char) (hws : ws ≠ []) :
    Text.joined ['_'] (ws ++ [w]) = Text.joined ['_'] ws ++ '_' :: w := by
  induction ws with
  | nil => exact absurd rfl hws
  | cons v ws ih =>
    cases ws with
    | nil => simp [Text.joined]
    | cons u ws =>
      have hmore := ih (List.cons_ne_nil u ws)
      simp only [Text.joined, List.cons_append, List.intercalate_cons_cons] at hmore ⊢
      rw [hmore]
      simp

/-- An underscore counts only between two words. -/
theorem respelled_concat (ws : List (List Char)) (w : List Char) :
    Respelled (Text.joined ['_'] ws ++ '_' :: w)
      (Text.joined ['_'] (ws ++ [w].filter (· ≠ []))) := by
  by_cases hempty : w = []
  · have hdropped : Respelled (Text.joined ['_'] ws ++ '_' :: []) (Text.joined ['_'] ws ++ []) :=
      .added (.inr (.inl rfl)) (.inl rfl)
    simpa [hempty] using hdropped
  · by_cases hfirst : ws = []
    · have hdropped : Respelled ([] ++ '_' :: w) ([] ++ w) := .added (.inl rfl) (.inl rfl)
      simpa [hempty, hfirst, Text.joined] using hdropped
    · have hsame := Respelled.refl (Text.joined ['_'] (ws ++ [w]))
      rw [joined_concat w hfirst] at hsame
      simpa [hempty, joined_concat w hfirst] using hsame

/-- Every tag is a spelling of its words, parted by underscores. -/
theorem respelled_joined (cs : List Char) :
    Respelled cs (Text.joined ['_'] (spelledParts cs)) := by
  induction hn : cs.length using Nat.strongRecOn generalizing cs with
  | ind n ih =>
    rcases exists_last_piece cs with hnone | ⟨b, d, w, rfl, hd, hw⟩
    · have htrimmed := Respelled.trimmed (a := []) cs (.inl rfl)
      rw [spelledParts_of_no_separator hnone]
      by_cases hempty : Text.trim cs = [] <;> simpa [hempty, Text.joined] using htrimmed
    · have hlast : (b ++ ['_']).getLast?.any isSeparator = true := by
        rw [List.getLast?_concat]
        rfl
      have htrimmed : Respelled (b ++ d :: w) (b ++ '_' :: Text.trim w) := by
        have hbehind := Respelled.trimmed w (.inr hlast)
        rw [List.append_assoc, List.append_assoc] at hbehind
        exact (Respelled.separator b w hd rfl).trans hbehind
      have hbefore := ih b.length (by simp [← hn]) b rfl
      rw [spelledParts_append b w hd, spelledParts_of_no_separator hw]
      exact (htrimmed.trans (hbefore.append rfl)).trans (respelled_concat _ _)

/-! ### The tag of a locale -/

/-- A locale whose parts are as reading a tag leaves them. -/
def IsNormal (l : Locale) : Prop :=
  ∀ i p, l.parts[i]? = some p → p.toList ≠ [] ∧ Text.trim p.toList = p.toList ∧
    (∀ c ∈ p.toList, isSeparator c = false) ∧ normalPart i p = p

/-- Whether a character stands in small letters or capitals makes no difference to where parts begin
and end, and each of the two is settled. -/
theorem case_alike (c : Char) :
    (isSeparator c.toLower = isSeparator c ∧ Text.isBlank c.toLower = Text.isBlank c ∧
      c.toLower.toLower = c.toLower) ∧
    isSeparator c.toUpper = isSeparator c ∧ Text.isBlank c.toUpper = Text.isBlank c ∧
      c.toUpper.toUpper = c.toUpper := by
  by_cases hascii : c.toNat < 0x80
  · have hall : ∀ n < 0x80, let c := Char.ofNat n
        (isSeparator c.toLower = isSeparator c ∧ Text.isBlank c.toLower = Text.isBlank c ∧
          c.toLower.toLower = c.toLower) ∧
        isSeparator c.toUpper = isSeparator c ∧ Text.isBlank c.toUpper = Text.isBlank c ∧
          c.toUpper.toUpper = c.toUpper := by
      decide +kernel
    have hc := hall c.toNat hascii
    rwa [Char.ofNat_toNat] at hc
  · have hlarge {d : Char} (hd : d.toNat < 0x80) : ¬ c.val ≤ d.val := by
      intro hle
      exact hascii (Nat.lt_of_le_of_lt (UInt32.le_iff_toNat_le.1 hle) hd)
    have hlower : c.toLower = c := dif_neg fun h => hlarge (d := 'Z') (by decide) h.2
    have hupper : c.toUpper = c := dif_neg fun h => hlarge (d := 'z') (by decide) h.2
    rw [hlower, hupper, hlower, hupper]
    simp

theorem toList_normalPart (i : Nat) (p : String) :
    ∃ f : Char → Char, (normalPart i p).toList = p.toList.map f ∧
      ∀ c, isSeparator (f c) = isSeparator c ∧ Text.isBlank (f c) = Text.isBlank c := by
  unfold normalPart
  by_cases hfirst : i = 0
  · exact ⟨Char.toLower, by simp [hfirst], fun c => ⟨(case_alike c).1.1, (case_alike c).1.2.1⟩⟩
  · by_cases hregion : i = 1 ∧ p.utf8ByteSize = 2
    · exact ⟨Char.toUpper, by simp [hregion], fun c => ⟨(case_alike c).2.1, (case_alike c).2.2.1⟩⟩
    · exact ⟨id, by simp [hfirst, hregion], fun c => ⟨rfl, rfl⟩⟩

theorem normalPart_normalPart (i : Nat) (p : String) :
    normalPart i (normalPart i p) = normalPart i p := by
  unfold normalPart
  by_cases hfirst : i = 0
  · simp [hfirst, ← String.toList_inj, fun c => (case_alike c).1.2.2]
  · by_cases hregion : i = 1 ∧ p.utf8ByteSize = 2
    · simp [hregion, ← String.toList_inj, fun c => (case_alike c).2.2.2]
    · simp [hfirst, hregion]

theorem isNormal_ofText (tag : String) : (ofText tag).IsNormal := by
  intro i p hp
  rw [parts_ofText] at hp
  simp only [List.getElem?_map, List.getElem?_zipIdx, Option.map_map, Option.map_eq_some_iff,
    Function.comp_apply] at hp
  obtain ⟨w, hw, rfl⟩ := hp
  rw [Nat.zero_add]
  have hword := isWord_of_mem_spelledParts (List.mem_of_getElem? hw)
  obtain ⟨f, hf, halike⟩ := toList_normalPart i (String.ofList w)
  rw [String.toList_ofList] at hf
  refine ⟨?_, ?_, ?_, normalPart_normalPart _ _⟩
  · rw [hf]
    simpa using hword.ne_nil
  · obtain ⟨hhead, hlast⟩ := Text.trim_eq_self_iff.1 hword.trimmed
    rw [hf, Text.trim_eq_self_iff, List.head?_map, List.getLast?_map, Option.any_map,
      Option.any_map]
    simp only [(halike _).2]
    exact ⟨hhead, hlast⟩
  · intro c hc
    rw [hf] at hc
    obtain ⟨d, hd, rfl⟩ := List.mem_map.1 hc
    rw [(halike d).1]
    exact hword.unseparated d hd

theorem toList_tag (l : Locale) :
    l.tag.toList = Text.joined ['_'] (l.parts.map String.toList) := by
  rw [tag, String.toList_intercalate, Text.joined]
  rfl

namespace IsNormal
variable {l : Locale} (h : l.IsNormal)
include h

theorem of_mem {p : String} (hp : p ∈ l.parts) : p.toList ≠ [] ∧ Text.trim p.toList = p.toList ∧
    ∀ c ∈ p.toList, isSeparator c = false := by
  obtain ⟨i, hi⟩ := List.mem_iff_getElem?.1 hp
  obtain ⟨hne, htrim, hsep, -⟩ := h i p hi
  exact ⟨hne, htrim, hsep⟩

theorem take (n : Nat) : IsNormal ⟨l.parts.take n⟩ := by
  intro i p hp
  rw [List.getElem?_take] at hp
  split at hp
  · exact h i p hp
  · cases hp

theorem spelledParts_tag : spelledParts l.tag.toList = l.parts.map String.toList := by
  rw [toList_tag]
  by_cases hroot : l.parts = []
  · rw [hroot]
    rfl
  · have hseparated : ∀ w ∈ l.parts.map String.toList, ∀ c ∈ w, isSeparator c = false := by
      intro w hw
      obtain ⟨p, hp, rfl⟩ := List.mem_map.1 hw
      exact (h.of_mem hp).2.2
    have htrimmed : (l.parts.map String.toList).map Text.trim = l.parts.map String.toList := by
      rw [List.map_map]
      exact List.map_congr_left fun p hp => (h.of_mem hp).2.1
    rw [spelledParts, Text.pieces_joined rfl hseparated (by simpa using hroot), htrimmed]
    apply List.filter_eq_self.2
    intro w hw
    obtain ⟨p, hp, rfl⟩ := List.mem_map.1 hw
    simpa using (h.of_mem hp).1

/-- The tag of a locale that was read is read as the same locale. -/
theorem ofText_tag : ofText l.tag = l := by
  have hparts : (ofText l.tag).parts = l.parts := by
    rw [parts_ofText, h.spelledParts_tag]
    apply List.ext_getElem?
    intro i
    simp only [List.getElem?_map, List.getElem?_zipIdx, Option.map_map, Nat.zero_add]
    cases hp : l.parts[i]? with
    | none => rfl
    | some p =>
      have hnormal := (h i p hp).2.2.2
      simpa using hnormal
  exact congrArg Locale.mk hparts

end IsNormal

/-! ### Less specific locales -/

/-- A tag cut at its last underscore; nothing is left of one part. -/
def shortened (tag : List Char) : List Char :=
  ((tag.reverse.dropWhile (· ≠ '_')).drop 1).reverse

theorem length_shortened_lt {tag : List Char} (h : tag ≠ []) :
    (shortened tag).length < tag.length := by
  have hsuffix := (List.dropWhile_suffix (· ≠ '_') (l := tag.reverse)).length_le
  have htag := List.length_pos_iff.2 h
  simp only [shortened, List.length_reverse, List.length_drop] at hsuffix ⊢
  omega

/-- A tag and what is left of it, cut again and again until nothing is left. -/
def shortenings (tag : List Char) : List (List Char) :=
  if tag = [] then [[]] else tag :: shortenings (shortened tag)
termination_by tag.length
decreasing_by exact length_shortened_lt ‹_›

/-- Cutting a tag takes away its last part. -/
theorem shortened_joined {w : List Char} (ws : List (List Char)) (hw : '_' ∉ w) :
    shortened (Text.joined ['_'] (ws ++ [w])) = Text.joined ['_'] ws := by
  have hpart : ∀ c ∈ w.reverse, decide (c ≠ '_') = true := by
    intro c hc
    rw [decide_eq_true_eq]
    rintro rfl
    exact hw (List.mem_reverse.1 hc)
  by_cases hws : ws = []
  · have hall := Text.dropWhile_append hpart (b := []) rfl
    rw [List.append_nil] at hall
    rw [hws, shortened, List.nil_append, Text.joined, List.intercalate_singleton, hall]
    rfl
  · have hcut : (List.reverse (Text.joined ['_'] (ws ++ [w]))).dropWhile (· ≠ '_') =
        '_' :: (Text.joined ['_'] ws).reverse := by
      rw [joined_concat w hws, List.reverse_append, List.reverse_cons, List.append_assoc]
      exact Text.dropWhile_append hpart rfl
    rw [shortened, hcut, List.drop_one, List.tail_cons, List.reverse_reverse]

/-- What stands in for a locale is the locale, and what stands in for it without its last part. -/
theorem fallbacks_concat (ps : List String) (p : String) :
    fallbacks ⟨ps ++ [p]⟩ = ⟨ps ++ [p]⟩ :: fallbacks ⟨ps⟩ := by
  have hwhole : (ps ++ [p]).take (ps.length + 1) = ps ++ [p] :=
    List.take_of_length_le (by simp)
  simp only [fallbacks, List.length_append, List.length_singleton]
  rw [List.range_succ, List.reverse_append, List.reverse_singleton, List.singleton_append,
    List.map_cons, hwhole]
  congr 1
  apply List.map_congr_left
  intro n hn
  have hn := List.mem_range.1 (List.mem_reverse.1 hn)
  rw [List.take_append_of_le_length (Nat.le_of_lt_succ hn)]

theorem mem_fallbacks {l l' : Locale} : l' ∈ l.fallbacks ↔ l'.parts <+: l.parts := by
  simp only [fallbacks, List.mem_map, List.mem_reverse, List.mem_range]
  constructor
  · rintro ⟨n, -, rfl⟩
    exact List.take_prefix n l.parts
  · intro h
    refine ⟨l'.parts.length, Nat.lt_succ_of_le h.length_le, ?_⟩
    rw [← List.prefix_iff_eq_take.1 h]

theorem fallbacks_shorter (l : Locale) :
    l.fallbacks.Pairwise fun a b => b.parts.length < a.parts.length := by
  obtain ⟨ps⟩ := l
  induction ps using List.reverseRecOn with
  | nil => exact List.pairwise_singleton _ root
  | append_singleton ps p ih =>
    rw [fallbacks_concat, List.pairwise_cons]
    refine ⟨fun l' hl' => ?_, ih⟩
    have hlength := (mem_fallbacks.1 hl').length_le
    simp only [List.length_append, List.length_singleton] at hlength ⊢
    omega

theorem getLast?_fallbacks (l : Locale) : l.fallbacks.getLast? = some root := by
  obtain ⟨ps⟩ := l
  induction ps using List.reverseRecOn with
  | nil => rfl
  | append_singleton ps p ih => rw [fallbacks_concat, List.getLast?_cons, ih]; rfl

/-- The tags of what stands in for a locale are its own tag, cut again and again. -/
theorem IsNormal.tags_fallbacks {l : Locale} (h : l.IsNormal) :
    l.fallbacks.map (·.tag.toList) = shortenings l.tag.toList := by
  obtain ⟨ps⟩ := l
  induction ps using List.reverseRecOn with
  | nil =>
    have hroot : (tag ⟨[]⟩).toList = [] := rfl
    rw [shortenings, if_pos hroot]
    rfl
  | append_singleton ps p ih =>
    obtain ⟨hne, -, hsep⟩ := h.of_mem (p := p) (List.mem_append_right ps List.mem_cons_self)
    have hshorter : IsNormal ⟨ps⟩ := by
      have htake := h.take ps.length
      rwa [List.take_left] at htake
    have htag : (tag ⟨ps ++ [p]⟩).toList =
        Text.joined ['_'] (ps.map String.toList ++ [p.toList]) := by
      rw [toList_tag, List.map_append]
      rfl
    have hunderscore : '_' ∉ p.toList := by
      intro hmem
      exact absurd (hsep _ hmem) (by decide)
    have hnonempty : (tag ⟨ps ++ [p]⟩).toList ≠ [] := by
      rw [htag]
      by_cases hps : ps = []
      · simpa [hps, Text.joined] using hne
      · rw [joined_concat p.toList (by simpa using hps)]
        exact List.append_ne_nil_of_right_ne_nil _ (List.cons_ne_nil _ _)
    rw [fallbacks_concat, List.map_cons, shortenings, if_neg hnonempty, htag,
      shortened_joined _ hunderscore, ih hshorter, toList_tag]

theorem IsNormal.nodup_tags {l : Locale} (h : l.IsNormal) : (l.fallbacks.map tag).Nodup := by
  have hnormal : ∀ l' ∈ l.fallbacks, ofText l'.tag = l' := by
    intro l' hl'
    have htake := h.take l'.parts.length
    rw [← List.prefix_iff_eq_take.1 (mem_fallbacks.1 hl')] at htake
    exact htake.ofText_tag
  rw [List.Nodup, List.pairwise_map]
  apply l.fallbacks_shorter.imp_of_mem
  intro a b ha hb hlt htag
  rw [← hnormal a ha, ← hnormal b hb, htag] at hlt
  exact Nat.lt_irrefl _ hlt

end Locale

/-! ### The search -/

namespace Storage
variable {World : Type}

/-- What a storage says about a name, asked for it in one locale after the other. Every question may
change the world that it answers from. -/
def said (s : Storage (StateM World)) (name : TextName) :
    List Locale → World → List (Locale × Except StorageError (Option String))
  | [], _ => []
  | l :: rest, w =>
    (l, ((s.fetch name l).run w).1) :: said s name rest ((s.fetch name l).run w).2

/-- The answer of a search. -/
def answer (s : Storage (StateM World)) (name : TextName) (l : Locale) (w : World) :
    Except StorageError (Option String) := ((s.find name l).run w).1

section
variable (s : Storage (StateM World)) (name : TextName)

theorem locales_said (ls : List Locale) (w : World) : (s.said name ls w).map (·.1) = ls := by
  induction ls generalizing w with
  | nil => rfl
  | cons l rest ih => rw [said, List.map_cons, ih]

theorem findIn_cons (l : Locale) (rest : List Locale) (w : World) :
    ((s.findIn name (l :: rest)).run w).1 =
      match ((s.fetch name l).run w).1 with
      | .ok none => ((s.findIn name rest).run ((s.fetch name l).run w).2).1
      | decided => decided := by
  obtain ⟨decided, w', hfetch⟩ : ∃ decided w', (s.fetch name l).run w = (decided, w') :=
    ⟨_, _, rfl⟩
  rw [findIn, StateT.run_bind, hfetch]
  cases decided with
  | error e => rfl
  | ok text => cases text <;> rfl

/-- The first answer but for there being no text decides the search. -/
theorem findIn_cases (ls : List Locale) (w : World) :
    ((∀ e ∈ s.said name ls w, e.2 = .ok none) ∧ ((s.findIn name ls).run w).1 = .ok none) ∨
    ∃ before l decided after, s.said name ls w = before ++ (l, decided) :: after ∧
      (∀ e ∈ before, e.2 = .ok none) ∧ decided ≠ .ok none ∧
      ((s.findIn name ls).run w).1 = decided := by
  induction ls generalizing w with
  | nil => exact .inl ⟨nofun, rfl⟩
  | cons l rest ih =>
    rw [said, findIn_cons]
    split
    · next hnone =>
      rcases ih ((s.fetch name l).run w).2 with ⟨hall, hresult⟩ | ⟨before, l', decided, after, h⟩
      · exact .inl ⟨List.forall_mem_cons.2 ⟨hnone, hall⟩, hresult⟩
      · obtain ⟨hsaid, hbefore, hdecided, hresult⟩ := h
        refine .inr ⟨(l, ((s.fetch name l).run w).1) :: before, l', decided, after, ?_, ?_,
          hdecided, hresult⟩
        · rw [hsaid, List.cons_append]
        · exact List.forall_mem_cons.2 ⟨hnone, hbefore⟩
    · next hdecided =>
      exact .inr ⟨[], l, _, _, rfl, List.forall_mem_nil _, hdecided, rfl⟩

end

section
variable (s : Storage (StateM World)) (name : TextName) (l : Locale) (w : World)

/-- A search ends without a text if it is told so everywhere, or else with the first other answer:
those before it stand under longer prefixes, and those behind it under shorter ones. -/
theorem answer_cases :
    ((∀ e ∈ s.said name l.fallbacks w, e.2 = .ok none) ∧ s.answer name l w = .ok none) ∨
    ∃ l' decided, (l', decided) ∈ s.said name l.fallbacks w ∧ decided ≠ .ok none ∧
      s.answer name l w = decided ∧
      ∀ e ∈ s.said name l.fallbacks w, e = (l', decided) ∨
        l'.parts.length < e.1.parts.length ∧ e.2 = .ok none ∨
        e.1.parts.length < l'.parts.length := by
  rcases s.findIn_cases name l.fallbacks w with hnone | ⟨before, l', decided, after, hcases⟩
  · exact .inl hnone
  · obtain ⟨hsaid, hbefore, hdecided, hresult⟩ := hcases
    have hshorter := l.fallbacks_shorter
    rw [← s.locales_said name l.fallbacks w, List.pairwise_map, hsaid, List.pairwise_append,
      List.pairwise_cons] at hshorter
    obtain ⟨-, ⟨hafter, -⟩, hacross⟩ := hshorter
    refine .inr ⟨l', decided, ?_, hdecided, hresult, fun e he => ?_⟩
    · rw [hsaid]
      exact List.mem_append_right before List.mem_cons_self
    · rw [hsaid] at he
      rcases List.mem_append.1 he with he | he
      · exact .inr (.inl ⟨hacross e he _ List.mem_cons_self, hbefore e he⟩)
      · rcases List.mem_cons.1 he with rfl | he
        · exact .inl rfl
        · exact .inr (.inr (hafter e he))

theorem answer_eq_none_iff :
    s.answer name l w = .ok none ↔ ∀ e ∈ s.said name l.fallbacks w, e.2 = .ok none := by
  rcases s.answer_cases name l w with ⟨hall, hresult⟩ | ⟨l', decided, hmem, hdecided, hresult, -⟩
  · exact ⟨fun _ => hall, fun _ => hresult⟩
  · rw [hresult]
    exact ⟨fun h => absurd h hdecided, fun h => h _ hmem⟩

/-- An answer that is not that there is no text is the one for the longest prefix that has one. -/
theorem answer_eq_iff {decided : Except StorageError (Option String)} (h : decided ≠ .ok none) :
    s.answer name l w = decided ↔ ∃ l', (l', decided) ∈ s.said name l.fallbacks w ∧
      ∀ e ∈ s.said name l.fallbacks w, l'.parts.length < e.1.parts.length → e.2 = .ok none := by
  rcases s.answer_cases name l w with ⟨hall, hresult⟩ | ⟨l', first, hmem, hfirst, hresult, hothers⟩
  · rw [hresult]
    constructor
    · intro heq
      exact absurd heq.symm h
    · rintro ⟨l'', hmem, -⟩
      exact absurd (hall _ hmem) h
  · rw [hresult]
    constructor
    · rintro rfl
      refine ⟨l', hmem, fun e he hlonger => ?_⟩
      rcases hothers e he with rfl | ⟨-, hnone⟩ | hshorter
      · exact absurd hlonger (Nat.lt_irrefl _)
      · exact hnone
      · exact absurd hlonger (Nat.lt_asymm hshorter)
    · rintro ⟨l'', hmem'', hlongest⟩
      rcases hothers _ hmem'' with heq | ⟨-, hnone⟩ | hshorter
      · exact (congrArg Prod.snd heq).symm
      · exact absurd hnone h
      · exact absurd (hlongest _ hmem hshorter) hfirst

/-- A search fails if the storage does for a longer prefix than any that has a text. -/
theorem answer_eq_error_iff :
    (∃ fault, s.answer name l w = .error fault) ↔
      ∃ l' fault, (l', .error fault) ∈ s.said name l.fallbacks w ∧
        ∀ l'' text, (l'', .ok (some text)) ∈ s.said name l.fallbacks w →
          l''.parts.length < l'.parts.length := by
  rcases s.answer_cases name l w with ⟨hall, hresult⟩ | ⟨l', first, hmem, hfirst, hresult, hothers⟩
  · rw [hresult]
    constructor
    · rintro ⟨fault, hfault⟩
      cases hfault
    · rintro ⟨l'', fault, hmem, -⟩
      cases hall _ hmem
  · rw [hresult]
    constructor
    · rintro ⟨fault, rfl⟩
      refine ⟨l', fault, hmem, fun l'' text htext => ?_⟩
      rcases hothers _ htext with heq | ⟨-, hnone⟩ | hshorter
      · cases heq
      · cases hnone
      · exact hshorter
    · rintro ⟨l'', fault, hfault, hlonger⟩
      cases first with
      | error fault => exact ⟨fault, rfl⟩
      | ok text =>
        cases text with
        | none => exact absurd rfl hfirst
        | some text =>
          have hlt := hlonger l' text hmem
          rcases hothers _ hfault with heq | ⟨-, hnone⟩ | hshorter
          · cases heq
          · cases hnone
          · exact absurd hlt (Nat.lt_asymm hshorter)

end

end Storage

namespace Locale

/-- A text is looked up by the longest prefix. A tag is a spelling of some words; its locale has
these words as its parts, with the language in small letters and a region of two letters in
capitals. The locale has a tag that is read as the same locale, and every other spelling of the tag
gives it too. What stands in for it are the prefixes of its parts, the longest first and the root
last, each once: their tags are its own, cut again and again. Whatever the storage, the text found
is the one for the longest of them that has a text; there is none if none has one; and the search
fails if the storage does before a text is found. -/
theorem lookup_by_longest_prefix (tag : String) :
    (∃ words, (∀ w ∈ words, IsWord w) ∧ Respelled tag.toList (Text.joined ['_'] words) ∧
      (ofText tag).parts = words.zipIdx.map fun (w, i) => normalPart i (String.ofList w)) ∧
    ofText (ofText tag).tag = ofText tag ∧
    (∀ other : String, Respelled other.toList tag.toList → ofText other = ofText tag) ∧
    (∀ l, l ∈ (ofText tag).fallbacks ↔ l.parts <+: (ofText tag).parts) ∧
    (ofText tag).fallbacks.Pairwise (fun a b => b.parts.length < a.parts.length) ∧
    (ofText tag).fallbacks.getLast? = some root ∧
    ((ofText tag).fallbacks.map Locale.tag).Nodup ∧
    (ofText tag).fallbacks.map (·.tag.toList) = shortenings (ofText tag).tag.toList ∧
    ∀ (World : Type) (s : Storage (StateM World)) (name : TextName) (w : World),
      let said := s.said name (ofText tag).fallbacks w
      (∀ text, s.answer name (ofText tag) w = .ok (some text) ↔
        ∃ l, (l, .ok (some text)) ∈ said ∧
          ∀ e ∈ said, l.parts.length < e.1.parts.length → e.2 = .ok none) ∧
      (s.answer name (ofText tag) w = .ok none ↔ ∀ e ∈ said, e.2 = .ok none) ∧
      ((∃ fault, s.answer name (ofText tag) w = .error fault) ↔
        ∃ l fault, (l, .error fault) ∈ said ∧
          ∀ l' text, (l', .ok (some text)) ∈ said → l'.parts.length < l.parts.length) := by
  have hnormal := isNormal_ofText tag
  refine ⟨⟨_, fun _ => isWord_of_mem_spelledParts, respelled_joined tag.toList, parts_ofText tag⟩,
    hnormal.ofText_tag, fun other h => h.ofText_eq, fun l => mem_fallbacks, fallbacks_shorter _,
    getLast?_fallbacks _, hnormal.nodup_tags, hnormal.tags_fallbacks, ?_⟩
  intro World s name w
  exact ⟨fun text => s.answer_eq_iff name _ w nofun, s.answer_eq_none_iff name _ w,
    s.answer_eq_error_iff name _ w⟩

/-- A storage that answers for a region, for a language and for the root. The text for the language
is found although the root has one as well, and although the storage fails for the root; where there
is no text at all none is found; a failure for the language keeps that of the root from being
found. -/
theorem lookup_by_longest_prefix_regional (name : TextName) :
    let l := ofText " FR-_ca"
    let told (region language all : Except StorageError (Option String)) :
        Storage (StateM Unit) :=
      ⟨fun _ l => pure (match l.parts with | [] => all | [_] => language | _ => region)⟩
    let lost : Except StorageError (Option String) := .error ⟨"lost"⟩
    l.parts = ["fr", "CA"] ∧
      (told (.ok none) (.ok (some "salut")) (.ok (some "hello"))).answer name l () =
        .ok (some "salut") ∧
      (told (.ok none) (.ok (some "salut")) lost).answer name l () = .ok (some "salut") ∧
      (told (.ok none) (.ok none) (.ok none)).answer name l () = .ok none ∧
      ∃ fault, (told (.ok none) lost (.ok (some "hello"))).answer name l () = .error fault := by
  intro l told lost
  have hparts : l.parts = ["fr", "CA"] := by decide +kernel
  have hsaid (region language all : Except StorageError (Option String)) :
      (told region language all).said name l.fallbacks () =
        [(⟨["fr", "CA"]⟩, region), (⟨["fr"]⟩, language), (⟨[]⟩, all)] := by
    rw [fallbacks, hparts]
    rfl
  obtain ⟨-, -, -, -, -, -, -, -, hfind⟩ := lookup_by_longest_prefix " FR-_ca"
  have hlanguage (all : Except StorageError (Option String)) :
      (told (.ok none) (.ok (some "salut")) all).answer name l () = .ok (some "salut") := by
    refine ((hfind Unit _ name ()).1 "salut").2 ⟨⟨["fr"]⟩, ?_, ?_⟩ <;> rw [hsaid]
    · simp
    · simp
  refine ⟨hparts, hlanguage _, hlanguage lost, (hfind Unit _ name ()).2.1.2 ?_,
    (hfind Unit _ name ()).2.2.2 ⟨⟨["fr"]⟩, ⟨"lost"⟩, ?_, ?_⟩⟩ <;> rw [hsaid]
  · simp
  · simp [lost]
  · simp [lost]

end Locale

end TextTemplate
