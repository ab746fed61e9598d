import TextTemplate.Engine.Error

/-! What cleaning makes of a path. Segments are trimmed, dropped and left one after the other, and
only then the suffix is cut from the last one. Up to there all segments are clean; what is left of
the last one need not be. -/

namespace TextTemplate.SourcePath

/-- A segment of a clean path: it is not empty, has no blanks around it and no slashes in it, and
does not stand for the directory it is in or for the one above. -/
structure IsSegment (cs : List Char) : Prop where
  ne_nil : cs ≠ []
  trim : Text.trim cs = cs
  slash : ∀ c ∈ cs, isSlash c = false
  ne_dot : cs ≠ ['.']
  ne_dots : cs ≠ ['.', '.']

/-- A slash, and clean segments with slashes between them. -/
def IsClean (text : String) : Prop :=
  ∃ segments : List String, segments ≠ [] ∧ text = "/" ++ "/".intercalate segments ∧
    ∀ s ∈ segments, IsSegment s.toList

/-- The paths that come of cleaning a text, or of a target as seen from some path. -/
def Given (suffix : String) (p : SourcePath) : Prop :=
  (∃ raw, clean raw suffix = .ok p) ∨ ∃ base target, resolve base target suffix = .ok p

/-! ### Segments -/

theorem isSegment_enter {above : List (List Char)} {segment : List Char}
    (habove : ∀ w ∈ above, IsSegment w) (hslash : ∀ c ∈ segment, isSlash c = false) :
    ∀ w ∈ enter above segment, IsSegment w := by
  unfold enter
  split
  · exact habove
  · exact habove
  · exact fun w hw => habove w (List.mem_of_mem_tail hw)
  · next hnil hdot hdots =>
    have htrimmed : ∀ c ∈ Text.trim segment, isSlash c = false :=
      fun c hc => hslash c (Text.mem_of_mem_trim hc)
    exact List.forall_mem_cons.2
      ⟨⟨hnil, Text.trim_trim segment, htrimmed, hdot, hdots⟩, habove⟩

theorem isSegment_foldl_enter {segments above : List (List Char)}
    (habove : ∀ w ∈ above, IsSegment w)
    (hslash : ∀ w ∈ segments, ∀ c ∈ w, isSlash c = false) :
    ∀ w ∈ segments.foldl enter above, IsSegment w := by
  induction segments generalizing above with
  | nil => exact habove
  | cons segment rest ih =>
    rw [List.forall_mem_cons] at hslash
    exact ih (isSegment_enter habove hslash.1) hslash.2

/-- A clean segment is entered as it is. -/
theorem enter_of_isSegment {segment : List Char} (h : IsSegment segment)
    (above : List (List Char)) : enter above segment = segment :: above := by
  unfold enter
  rw [h.trim]
  split
  · exact absurd rfl h.ne_nil
  · exact absurd rfl h.ne_dot
  · exact absurd rfl h.ne_dots
  · rfl

theorem foldl_enter_of_isSegment {segments : List (List Char)} (above : List (List Char))
    (h : ∀ w ∈ segments, IsSegment w) :
    segments.foldl enter above = segments.reverse ++ above := by
  induction segments generalizing above with
  | nil => rfl
  | cons segment rest ih =>
    rw [List.forall_mem_cons] at h
    rw [List.foldl_cons, enter_of_isSegment h.1, ih _ h.2]
    simp

/-- A name either stays, or is something before the suffix. -/
theorem dropSuffix_cases (suffix name : List Char) :
    dropSuffix suffix name = name ∨
      suffix ≠ [] ∧ dropSuffix suffix name ≠ [] ∧ name = dropSuffix suffix name ++ suffix := by
  unfold dropSuffix
  split
  · next h =>
    obtain ⟨hsuffix, hlength, hends⟩ := h
    obtain ⟨kept, rfl⟩ := List.isSuffixOf_iff_suffix.1 hends
    have hkept : (kept ++ suffix).take ((kept ++ suffix).length - suffix.length) = kept := by
      simp
    rw [hkept]
    refine .inr ⟨hsuffix, ?_, rfl⟩
    rintro rfl
    simp at hlength
  · exact .inl rfl

/-! ### Paths -/

theorem clean_eq_ok_iff {raw suffix : String} {p : SourcePath} :
    clean raw suffix = .ok p ↔ clean? raw suffix = some p := by
  unfold clean
  split <;> simp [*]

theorem resolve_eq_ok_iff {base p : SourcePath} {target suffix : String} :
    base.resolve target suffix = .ok p ↔ clean? (base.sought target) suffix = some p := by
  unfold resolve resolve?
  split <;> simp [*]

theorem given_iff {suffix : String} {p : SourcePath} :
    Given suffix p ↔ ∃ raw, clean? raw suffix = some p := by
  simp only [Given, clean_eq_ok_iff, resolve_eq_ok_iff]
  exact ⟨fun h => h.elim id fun ⟨base, target, h⟩ => ⟨_, h⟩, .inl⟩

/-- Without a suffix to cut, all segments are clean. -/
theorem isSegment_of_clean? {raw : String} {p : SourcePath} (h : clean? raw "" = some p) :
    ∀ s ∈ p.segments, IsSegment s.toList := by
  unfold clean? at h
  have hsegments : ∀ w ∈ (Text.pieces isSlash raw.toList).foldl enter [], IsSegment w :=
    isSegment_foldl_enter (List.forall_mem_nil _)
      fun w hw c hc => Text.eq_false_of_mem_pieces hw hc
  cases hentered : (Text.pieces isSlash raw.toList).foldl enter [] with
  | nil => simp [hentered] at h
  | cons name above =>
    rw [hentered] at h hsegments
    cases h
    simpa [segments, dropSuffix, or_imp, forall_and, and_comm] using hsegments

/-- Cutting a suffix leaves the directories as they are. -/
theorem clean?_eq_some {raw suffix : String} {p : SourcePath} (h : clean? raw suffix = some p) :
    ∃ q, clean? raw "" = some q ∧ q.directories = p.directories ∧
      p.name = String.ofList (dropSuffix suffix.toList q.name.toList) := by
  unfold clean? at h ⊢
  cases hentered : (Text.pieces isSlash raw.toList).foldl enter [] with
  | nil => simp [hentered] at h
  | cons name above =>
    rw [hentered] at h
    cases h
    exact ⟨_, rfl, rfl, by simp [dropSuffix]⟩

section
variable {p : SourcePath}

theorem toList_text (segments : List String) :
    ("/" ++ "/".intercalate segments).toList =
      '/' :: Text.joined ['/'] (segments.map (·.toList)) := by
  rw [String.toList_append, String.toList_intercalate, Text.joined]
  rfl

/-- A text is a path in one way only. -/
theorem pieces_text {segments : List String} (hsegments : segments ≠ [])
    (hslash : ∀ s ∈ segments, ∀ c ∈ s.toList, isSlash c = false) :
    Text.pieces isSlash ("/" ++ "/".intercalate segments).toList =
      [] :: segments.map (·.toList) := by
  rw [toList_text, Text.pieces, if_pos (by decide), Text.pieces_joined (by decide)]
  · simpa using hslash
  · simpa using hsegments

theorem segments_ne_nil (p : SourcePath) : p.segments ≠ [] := by simp [segments]

theorem isClean_text_iff (hslash : ∀ s ∈ p.segments, ∀ c ∈ s.toList, isSlash c = false) :
    IsClean p.text ↔ ∀ s ∈ p.segments, IsSegment s.toList := by
  constructor
  · rintro ⟨segments, hne, htext, hclean⟩
    have hpieces := pieces_text p.segments_ne_nil hslash
    rw [← relative, ← text, htext, pieces_text hne fun s hs => (hclean s hs).slash,
      List.cons.injEq, List.map_inj_right fun _ _ => String.toList_inj.1] at hpieces
    rwa [← hpieces.2]
  · exact fun h => ⟨p.segments, p.segments_ne_nil, rfl, h⟩

/-- A path of clean segments is cleaned to itself. -/
theorem clean?_text (h : ∀ s ∈ p.segments, IsSegment s.toList) : clean? p.text "" = some p := by
  have hsegments : ∀ w ∈ p.segments.map (·.toList), IsSegment w := by simpa using h
  have hpieces := pieces_text p.segments_ne_nil fun s hs => (h s hs).slash
  have hentered : (Text.pieces isSlash p.text.toList).foldl enter [] =
      (p.segments.map (·.toList)).reverse := by
    rw [text, relative, hpieces, List.foldl_cons]
    exact (foldl_enter_of_isSegment [] hsegments).trans (List.append_nil _)
  unfold clean?
  rw [hentered]
  simp [segments, dropSuffix, Function.comp_def]

end

/-- What is given is a clean path with its name as it was, or with the suffix cut from it. -/
theorem Given.exists_whole {suffix : String} {p : SourcePath} (h : Given suffix p) :
    ∃ q, Given "" q ∧ (∀ s ∈ q.segments, IsSegment s.toList) ∧ q.directories = p.directories ∧
      (p.name = q.name ∨ suffix ≠ "" ∧ p.name ≠ "" ∧ q.name = p.name ++ suffix) := by
  obtain ⟨raw, hraw⟩ := given_iff.1 h
  obtain ⟨q, hq, hdirectories, hname⟩ := clean?_eq_some hraw
  refine ⟨q, given_iff.2 ⟨raw, hq⟩, isSegment_of_clean? hq, hdirectories, ?_⟩
  simp only [← String.toList_inj, ne_eq, String.toList_append, hname, String.toList_ofList]
  exact dropSuffix_cases suffix.toList q.name.toList

/-- Cutting a suffix from a clean segment leaves something without slashes that starts with no
blank. -/
theorem name_of_whole {name whole suffix : String} (hwhole : IsSegment whole.toList)
    (h : name = whole ∨ suffix ≠ "" ∧ name ≠ "" ∧ whole = name ++ suffix) :
    name ≠ "" ∧ (∀ c ∈ name.toList, isSlash c = false) ∧
      name.toList.head?.any Text.isBlank = false := by
  have hends := Text.trim_eq_self_iff.1 hwhole.trim
  rcases h with rfl | ⟨-, hne, rfl⟩
  · exact ⟨mt String.toList_eq_nil_iff.2 hwhole.ne_nil, hwhole.slash, hends.1⟩
  · have hleads : name.toList <+: (name ++ suffix).toList := by
      rw [String.toList_append]
      exact List.prefix_append _ _
    exact ⟨hne, fun c hc => hwhole.slash c (hleads.subset hc),
      Text.head?_any_of_isPrefixOf hleads hends.1⟩

/-- What may be wrong with a name that has no slashes and starts with no blank. -/
theorem isSegment_iff {name : String} (hne : name ≠ "")
    (hslash : ∀ c ∈ name.toList, isSlash c = false)
    (hhead : name.toList.head?.any Text.isBlank = false) :
    IsSegment name.toList ↔
      name ≠ "." ∧ name ≠ ".." ∧ name.toList.getLast?.any Text.isBlank = false := by
  have hdot : name.toList = ['.'] ↔ name = "." := by simp [← String.toList_inj]
  have hdots : name.toList = ['.', '.'] ↔ name = ".." := by simp [← String.toList_inj]
  constructor
  · intro h
    exact ⟨mt hdot.2 h.ne_dot, mt hdots.2 h.ne_dots, (Text.trim_eq_self_iff.1 h.trim).2⟩
  · rintro ⟨hone, htwo, hlast⟩
    exact ⟨mt String.toList_eq_nil_iff.1 hne, Text.trim_eq_self_iff.2 ⟨hhead, hlast⟩, hslash,
      mt hdot.1 hone, mt hdots.1 htwo⟩

/-- What is given for a path has clean directories and a name without slashes that does not start
with a blank. It is a clean path, which cleaning again leaves as it is, unless the name is nothing
but dots that lead elsewhere or ends in a blank; and then a suffix was cut from a clean one. -/
theorem Given.isClean_iff {suffix : String} {p : SourcePath} (h : Given suffix p) :
    (∀ d ∈ p.directories, IsSegment d.toList) ∧
      (p.name ≠ "" ∧ (∀ c ∈ p.name.toList, isSlash c = false) ∧
        p.name.toList.head?.any Text.isBlank = false) ∧
      (IsClean p.text ↔
        p.name ≠ "." ∧ p.name ≠ ".." ∧ p.name.toList.getLast?.any Text.isBlank = false) ∧
      (IsClean p.text ↔ clean p.text "" = .ok p) ∧
      (IsClean p.text ∨ suffix ≠ "" ∧ ∃ q, Given "" q ∧ IsClean q.text ∧
        q.directories = p.directories ∧ q.name = p.name ++ suffix) := by
  obtain ⟨q, hq, hsound, hdirectories, hcut⟩ := h.exists_whole
  have hwhole : IsClean q.text := ⟨q.segments, q.segments_ne_nil, rfl, hsound⟩
  obtain ⟨hclean, hqname⟩ : (∀ d ∈ p.directories, IsSegment d.toList) ∧
      IsSegment q.name.toList := by
    simpa [segments, or_imp, forall_and, hdirectories] using hsound
  obtain ⟨hne, hslash, hhead⟩ := name_of_whole hqname hcut
  have hsegments : (∀ s ∈ p.segments, IsSegment s.toList) ↔ IsSegment p.name.toList := by
    simpa [segments, or_imp, forall_and] using fun _ => hclean
  have htext : IsClean p.text ↔ IsSegment p.name.toList := by
    refine (isClean_text_iff ?_).trans hsegments
    simpa [segments, or_imp, forall_and] using ⟨fun d hd => (hclean d hd).slash, hslash⟩
  refine ⟨hclean, ⟨hne, hslash, hhead⟩, htext.trans (isSegment_iff hne hslash hhead), ?_, ?_⟩
  · rw [clean_eq_ok_iff]
    refine ⟨fun h => clean?_text (hsegments.2 (htext.1 h)), fun h => ?_⟩
    exact ⟨p.segments, p.segments_ne_nil, rfl, isSegment_of_clean? h⟩
  · rcases hcut with heq | ⟨hsuffix, -, heq⟩
    · exact .inl (htext.2 (heq ▸ hqname))
    · exact .inr ⟨hsuffix, q, hq, hwhole, hdirectories, heq⟩

theorem Given.isClean_iff_in_directory :
    Given ".stencil" ⟨["mail"], "welcome"⟩ ∧ IsClean (text ⟨["mail"], "welcome"⟩) := by
  have h : Given ".stencil" ⟨["mail"], "welcome"⟩ :=
    .inr ⟨⟨["mail"], "page"⟩, "./welcome.stencil", rfl⟩
  exact ⟨h, h.isClean_iff.2.2.1.2 ⟨by decide, by decide, by decide⟩⟩

/-- The name is not a dot before the suffix is cut, and is one after that. -/
theorem clean_leaves_dot :
    clean "mail/..stencil" ".stencil" = .ok ⟨["mail"], "."⟩ ∧
      ¬ IsClean (text ⟨["mail"], "."⟩) ∧
      clean (text ⟨["mail"], "."⟩) "" = .ok ⟨[], "mail"⟩ := by
  refine ⟨rfl, fun h => ?_, rfl⟩
  have hslash : ∀ s ∈ segments ⟨["mail"], "."⟩, ∀ c ∈ s.toList, isSlash c = false := by
    simp [segments, isSlash]
  have hsegments := (isClean_text_iff hslash).1 h
  exact (hsegments "." (by simp [segments])).ne_dot rfl

end TextTemplate.SourcePath
