import TextTemplate.Proofs.Source.Clean

/-! Paths put together. Cleaning reads a text from left to right and keeps nothing but the segments
that it stands in, so a text in front may be cleaned first, and going back and forth leaves no
trace. -/

namespace TextTemplate.SourcePath

/-- Where one stands behind a text, innermost segment first, having stood in `above` before it. -/
def walk (above : List (List Char)) (cs : List Char) : List (List Char) :=
  (Text.pieces isSlash cs).foldl enter above

/-- A segment that leads into a directory. -/
structure IsPlain (segment : String) : Prop where
  slash : ∀ c ∈ segment.toList, isSlash c = false
  ne_nil : Text.trim segment.toList ≠ []
  ne_dot : Text.trim segment.toList ≠ ['.']
  ne_dots : Text.trim segment.toList ≠ ['.', '.']

/-- The first character that is no blank is not a slash. -/
def IsRelative (target : String) : Prop := (Text.trimStart target.toList).head? ≠ some '/'

/-- So many steps to the directory above. -/
def ups (n : Nat) : String := String.join (List.replicate n "../")

/-! ### Where a text leads -/

/-- A slash ends the way before it, and another begins there. -/
theorem walk_append (above : List (List Char)) (a b : List Char) :
    walk above (a ++ '/' :: b) = walk (walk above a) b := by
  rw [walk, Text.pieces_append_cons a b (by decide), List.foldl_append]
  rfl

theorem walk_segment_append {segment : List Char} (h : ∀ c ∈ segment, isSlash c = false)
    (above : List (List Char)) (cs : List Char) :
    walk above (segment ++ '/' :: cs) = walk (enter above segment) cs := by
  have hsegment : walk above segment = enter above segment := by
    rw [walk, Text.pieces_eq_singleton h]
    rfl
  rw [walk_append, hsegment]

theorem walk_directories {directories : List (List Char)}
    (h : ∀ d ∈ directories, IsSegment d) (above : List (List Char)) (cs : List Char) :
    walk above ((directories.map (· ++ ['/'])).flatten ++ cs) =
      walk (directories.reverse ++ above) cs := by
  induction directories generalizing above with
  | nil => rfl
  | cons d rest ih =>
    obtain ⟨hd, hrest⟩ := List.forall_mem_cons.1 h
    rw [List.map_cons, List.flatten_cons, List.append_assoc, List.append_assoc,
      List.singleton_append, walk_segment_append hd.slash, enter_of_isSegment hd, ih hrest,
      List.reverse_cons, List.append_assoc, List.singleton_append]

/-- Each step up leaves one segment, if there is one. -/
theorem walk_ups (n : Nat) (above : List (List Char)) (cs : List Char) :
    walk above ((ups n).toList ++ cs) = walk (above.drop n) cs := by
  induction n generalizing above with
  | zero => rfl
  | succ n ih =>
    have hups : (ups (n + 1)).toList ++ cs = ['.', '.'] ++ '/' :: ((ups n).toList ++ cs) := by
      rw [ups, List.replicate_succ, String.join_cons, String.toList_append]
      rfl
    have hdots : ∀ c ∈ ['.', '.'], isSlash c = false := by simp [isSlash]
    rw [hups, walk_segment_append hdots, ih, ← List.drop_tail]
    rfl

/-! ### Cleaning -/

/-- A path depends on nothing but where its text leads. -/
theorem clean?_congr {a b : String} (h : walk [] a.toList = walk [] b.toList) (suffix : String) :
    clean? a suffix = clean? b suffix := by
  unfold clean?
  rw [← walk, ← walk, h]

theorem walk_of_clean?_eq_none {raw suffix : String} (h : clean? raw suffix = none) :
    walk [] raw.toList = [] := by
  unfold clean? at h
  rw [← walk] at h
  split at h
  · assumption
  · cases h

/-- The text of a clean path leads where the text led that it was made from. -/
theorem walk_text {raw : String} {p : SourcePath} (h : clean? raw "" = some p) :
    walk [] p.text.toList = walk [] raw.toList := by
  have hclean := isSegment_of_clean? h
  have hsegments : ∀ w ∈ p.segments.map (·.toList), IsSegment w := by simpa using hclean
  have hpieces := pieces_text p.segments_ne_nil fun s hs => (hclean s hs).slash
  have htext : walk [] p.text.toList = (p.segments.map (·.toList)).reverse := by
    rw [walk, text, relative, hpieces, List.foldl_cons]
    exact (foldl_enter_of_isSegment [] hsegments).trans (List.append_nil _)
  unfold clean? at h
  rw [← walk] at h
  split at h
  · cases h
  · next name above hwalk =>
    cases h
    rw [htext, hwalk]
    simp [segments, dropSuffix, Function.comp_def]

theorem toOption_clean (raw suffix : String) : (clean raw suffix).toOption = clean? raw suffix := by
  unfold clean
  split <;> simp [*, Except.toOption]

theorem toOption_resolve (base : SourcePath) (target suffix : String) :
    (base.resolve target suffix).toOption = base.resolve? target suffix := by
  unfold resolve
  split <;> simp [*, Except.toOption]

/-- A text in front of a slash leads where its clean path leads. -/
theorem clean?_joined {x : String} {p : SourcePath} (h : clean? x "" = some p)
    (y suffix : String) : clean? (x ++ "/" ++ y) suffix = clean? (p.text ++ "/" ++ y) suffix := by
  apply clean?_congr
  simp only [String.toList_append, List.append_assoc]
  change walk [] (x.toList ++ '/' :: y.toList) = walk [] (p.text.toList ++ '/' :: y.toList)
  rw [walk_append, walk_append, walk_text h]

/-- A text that names nothing counts for nothing in front of a slash. -/
theorem clean?_joined_of_none {x : String} (h : clean? x "" = none) (y suffix : String) :
    clean? (x ++ "/" ++ y) suffix = clean? y suffix := by
  apply clean?_congr
  simp only [String.toList_append, List.append_assoc]
  change walk [] (x.toList ++ '/' :: y.toList) = walk [] y.toList
  rw [walk_append, walk_of_clean?_eq_none h]

/-! ### Targets seen from a directory -/

/-- What comes after the first character that is neither a blank nor a slash does not matter. -/
theorem isRelative_of_lead {lead : List Char} {c : Char} {rest : List Char} {target : String}
    (htarget : target.toList = lead ++ c :: rest) (hlead : ∀ x ∈ lead, Text.isBlank x = true)
    (hblank : Text.isBlank c = false) (hslash : c ≠ '/') : IsRelative target := by
  rw [IsRelative, htarget, Text.trimStart_append hlead (by simpa using hblank), List.head?_cons]
  simpa using hslash

theorem IsPlain.enter_eq {d : String} (h : IsPlain d) (above : List (List Char)) :
    enter above d.toList = Text.trim d.toList :: above := by
  unfold enter
  split
  · next hnil => exact absurd hnil h.ne_nil
  · next hdot => exact absurd hdot h.ne_dot
  · next hdots => exact absurd hdots h.ne_dots
  · rfl

theorem IsPlain.isRelative {d : String} (h : IsPlain d) (rest : String) :
    IsRelative (d ++ rest) := by
  obtain ⟨lead, hlead, hd⟩ := Text.trimStart_eq_append d.toList
  cases hcore : Text.trimStart d.toList with
  | nil =>
    refine absurd ?_ h.ne_nil
    rw [Text.trim, hcore]
    rfl
  | cons c core =>
    have hblank := Text.head?_trimStart d.toList
    rw [hcore] at hd hblank
    have hc : isSlash c = false := by
      apply h.slash
      rw [hd]
      exact List.mem_append_right _ List.mem_cons_self
    have htarget : (d ++ rest).toList = lead ++ c :: (core ++ rest.toList) := by
      rw [String.toList_append, hd, List.append_assoc, List.cons_append]
    apply isRelative_of_lead htarget hlead (by simpa using hblank)
    rintro rfl
    simp [isSlash] at hc

theorem IsRelative.ups {target : String} (h : IsRelative target) (n : Nat) :
    IsRelative (ups n ++ target) := by
  cases n with
  | zero => simpa [SourcePath.ups] using h
  | succ n =>
    have htarget : (SourcePath.ups (n + 1) ++ target).toList =
        [] ++ '.' :: ("./".toList ++ (SourcePath.ups n ++ target).toList) := by
      rw [SourcePath.ups, List.replicate_succ, String.join_cons]
      simp [SourcePath.ups]
    exact isRelative_of_lead htarget nofun (by decide) (by decide)

section
variable {base : SourcePath} {target : String}

/-- The directory of a path leads to its directories. -/
theorem walk_sought (h : ∀ d ∈ base.directories, IsSegment d.toList)
    (htarget : IsRelative target) :
    walk [] (base.sought target).toList =
      walk (base.directories.map (·.toList)).reverse target.toList := by
  have hsought : base.sought target = base.directory ++ target := by
    unfold sought
    split
    · next heq => exact absurd (by rw [heq]; rfl) htarget
    · rfl
  have hdirectory : base.directory.toList =
      [] ++ '/' :: ((base.directories.map (·.toList)).map (· ++ ['/'])).flatten := by
    rw [directory, String.toList_join, List.flatMap_cons, List.flatMap_map, List.map_map,
      List.flatten_eq_flatMap, List.flatMap_map]
    simp
  have hsegments : ∀ d ∈ base.directories.map (·.toList), IsSegment d := by simpa using h
  have hroot : walk [] [] = [] := rfl
  rw [hsought, String.toList_append, hdirectory, List.append_assoc, List.cons_append, walk_append,
    walk_directories hsegments, hroot, List.append_nil]

/-- A target leads from the directories of the base to the path that it names. -/
theorem resolve?_congr (h : ∀ d ∈ base.directories, IsSegment d.toList) {other : String}
    (htarget : IsRelative target) (hother : IsRelative other)
    (hwalk : ∀ above, walk above other.toList = walk above target.toList) (suffix : String) :
    base.resolve? other suffix = base.resolve? target suffix := by
  apply clean?_congr
  rw [walk_sought h htarget, walk_sought h hother, hwalk]

theorem resolve?_dot (h : ∀ d ∈ base.directories, IsSegment d.toList)
    (htarget : IsRelative target) (suffix : String) :
    base.resolve? ("./" ++ target) suffix = base.resolve? target suffix := by
  have hdot : ("./" ++ target).toList = ['.'] ++ '/' :: target.toList := by simp
  have hlead : ("./" ++ target).toList = [] ++ '.' :: '/' :: target.toList := hdot
  have hother := isRelative_of_lead hlead nofun (by decide) (by decide)
  apply resolve?_congr h htarget hother
  intro above
  rw [hdot, walk_segment_append (by simp [isSlash])]
  rfl

theorem resolve?_back (h : ∀ d ∈ base.directories, IsSegment d.toList)
    (htarget : IsRelative target) {d : String} (hd : IsPlain d) (suffix : String) :
    base.resolve? (d ++ "/../" ++ target) suffix = base.resolve? target suffix := by
  have hback : (d ++ "/../" ++ target).toList =
      d.toList ++ '/' :: (['.', '.'] ++ '/' :: target.toList) := by simp
  have hother : IsRelative (d ++ "/../" ++ target) := by
    rw [String.append_assoc]
    exact hd.isRelative _
  apply resolve?_congr h htarget hother
  intro above
  rw [hback, walk_segment_append hd.slash, walk_segment_append (by simp [isSlash]), hd.enter_eq]
  rfl

theorem resolve?_ups (h : ∀ d ∈ base.directories, IsSegment d.toList)
    (htarget : IsRelative target) {n : Nat} (hn : base.directories.length ≤ n) (suffix : String) :
    base.resolve? (ups n ++ target) suffix = clean? target suffix := by
  apply clean?_congr
  rw [walk_sought h (htarget.ups n), String.toList_append, walk_ups, List.drop_eq_nil_of_le]
  simpa using hn

end

/-- Cleaning is a congruence: a text in front of a slash may be cleaned first, and counts for
nothing if it names nothing. A clean path is cleaned to itself, and from the directory of a base it
makes no difference whether a target stays there first, goes into a directory and back, or goes up
past the top and starts from there. -/
theorem clean_congruent (suffix : String) :
    (∀ x y : String,
      (∀ p, clean x "" = .ok p →
        (clean (x ++ "/" ++ y) suffix).toOption = (clean (p.text ++ "/" ++ y) suffix).toOption) ∧
      ∀ e, clean x "" = .error e →
        (clean (x ++ "/" ++ y) suffix).toOption = (clean y suffix).toOption) ∧
    (∀ raw p, clean raw "" = .ok p → clean p.text "" = .ok p) ∧
    ∀ base target, Given suffix base → IsRelative target →
      (base.resolve ("./" ++ target) suffix).toOption = (base.resolve target suffix).toOption ∧
      (∀ d, IsPlain d →
        (base.resolve (d ++ "/../" ++ target) suffix).toOption =
          (base.resolve target suffix).toOption) ∧
      ∀ n, base.directories.length ≤ n →
        (base.resolve (ups n ++ target) suffix).toOption = (clean target suffix).toOption := by
  simp only [toOption_clean, toOption_resolve, clean_eq_ok_iff]
  refine ⟨fun x y => ⟨?_, ?_⟩, ?_, ?_⟩
  · intro p hp
    exact clean?_joined hp y suffix
  · intro e he
    have hnone : clean? x "" = none := by rw [← toOption_clean, he]; rfl
    exact clean?_joined_of_none hnone y suffix
  · intro raw p hp
    exact clean?_text (isSegment_of_clean? hp)
  · intro base target hbase htarget
    obtain ⟨q, -, hsound, hdirectories, -⟩ := hbase.exists_whole
    have h : ∀ d ∈ base.directories, IsSegment d.toList := by
      intro d hd
      apply hsound
      rw [segments, hdirectories]
      exact List.mem_append_left _ hd
    refine ⟨resolve?_dot h htarget suffix, ?_, ?_⟩
    · intro d hd
      exact resolve?_back h htarget hd suffix
    · intro n hn
      exact resolve?_ups h htarget hn suffix

/-- The text goes back into the base, and the target goes up past the top. -/
theorem clean_congruent_past_the_top :
    clean "a /./b\\" "" = .ok ⟨["a"], "b"⟩ ∧
      (clean "a /./b\\/../../../c" "").toOption = (clean "/a/b/../../../c" "").toOption ∧
      clean "x/.." "" = .error (.unnamed (some "x/..")) ∧
      (clean "x/../c" "").toOption = (clean "c" "").toOption ∧
      (resolve ⟨["a"], "b"⟩ " d /../c" "").toOption = (resolve ⟨["a"], "b"⟩ "c" "").toOption ∧
      (resolve ⟨["a"], "b"⟩ "../../c" "").toOption = (clean "c" "").toOption := by
  have hbase : clean "a /./b\\" "" = .ok ⟨["a"], "b"⟩ := rfl
  have hnone : clean "x/.." "" = .error (.unnamed (some "x/..")) := rfl
  have hplain : IsPlain " d " := by
    constructor
    · simp [isSlash]
    all_goals decide +kernel
  have hrelative : IsRelative "c" := by unfold IsRelative; decide +kernel
  obtain ⟨hjoined, -, hresolved⟩ := clean_congruent ""
  obtain ⟨-, hback, hups⟩ := hresolved ⟨["a"], "b"⟩ "c" (.inl ⟨_, hbase⟩) hrelative
  exact ⟨hbase, (hjoined "a /./b\\" "../../../c").1 _ hbase, hnone,
    (hjoined "x/.." "c").2 _ hnone, hback " d " hplain, hups 2 (by decide)⟩

end TextTemplate.SourcePath
