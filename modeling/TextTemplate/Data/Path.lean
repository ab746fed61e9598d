import TextTemplate.Text.Blank
import TextTemplate.Text.Split

namespace TextTemplate

/-- The way to a value: names and positions, one inside the other. -/
structure DataPath where
  segments : List String
  deriving DecidableEq, Repr

namespace DataPath

/-- Reads a dotted path. Blanks around segments and empty segments do not count. -/
def ofText (s : String) : DataPath :=
  ⟨((Text.pieces (· = '.') s.toList).map Text.trim).filter (· ≠ []) |>.map String.ofList⟩

def text (p : DataPath) : String := ".".intercalate p.segments

/-- Every segment has a character, and all of its characters are of one class. -/
def Over (p : Char → Bool) (path : DataPath) : Prop :=
  path.segments ≠ [] ∧ ∀ s ∈ path.segments, s ≠ "" ∧ s.toList.all p = true

instance (p : Char → Bool) (path : DataPath) : Decidable (path.Over p) :=
  inferInstanceAs (Decidable (_ ∧ _))

theorem toList_text (path : DataPath) :
    path.text.toList = Text.joined ['.'] (path.segments.map (·.toList)) := by
  rw [text, String.toList_intercalate, Text.joined]
  rfl

theorem Over.chars {p : Char → Bool} {path : DataPath} (h : path.Over p) {s : String}
    (hs : s ∈ path.segments) {c : Char} (hc : c ∈ s.toList) : p c = true :=
  List.all_eq_true.1 (h.2 s hs).2 c hc

/-- A path that is written out has no other characters than its segments and the dots. -/
theorem Over.of_mem_text {p : Char → Bool} {path : DataPath} (h : path.Over p) {c : Char}
    (hc : c ∈ path.text.toList) : p c = true ∨ c = '.' := by
  rw [toList_text] at hc
  rcases Text.mem_joined hc with hdot | ⟨w, hw, hcw⟩
  · exact .inr (List.mem_singleton.1 hdot)
  · obtain ⟨s, hs, rfl⟩ := List.mem_map.1 hw
    exact .inl (h.chars hs hcw)

theorem Over.pieces_text {p : Char → Bool} {path : DataPath} (h : path.Over p)
    (hdot : p '.' = false) :
    Text.pieces (· = '.') path.text.toList = path.segments.map (·.toList) := by
  rw [toList_text, Text.pieces_joined (by simp)]
  · intro w hw c hc
    obtain ⟨s, hs, rfl⟩ := List.mem_map.1 hw
    rw [decide_eq_false_iff_not]
    rintro rfl
    simpa [hdot] using h.chars hs hc
  · simpa using h.1

theorem Over.text_ne_nil {p : Char → Bool} {path : DataPath} (h : path.Over p)
    (hdot : p '.' = false) : path.text.toList ≠ [] := by
  intro hempty
  have hpieces := h.pieces_text hdot
  rw [hempty] at hpieces
  cases hsegments : path.segments with
  | nil => exact h.1 hsegments
  | cons s others =>
    simp only [hsegments, Text.pieces, List.map_cons, List.cons.injEq] at hpieces
    have hs : s ∈ path.segments := by simp [hsegments]
    exact (h.2 s hs).1 (String.toList_eq_nil_iff.1 hpieces.1.symm)

/-- A path begins as its first segment does. -/
theorem Over.head_text {p : Char → Bool} {path : DataPath} (h : path.Over p) :
    path.text.toList.head?.any p = true := by
  rw [toList_text]
  cases hsegments : path.segments with
  | nil => exact absurd hsegments h.1
  | cons s others =>
    have hs : s ∈ path.segments := by simp [hsegments]
    cases hchars : s.toList with
    | nil => exact absurd (String.toList_eq_nil_iff.1 hchars) (h.2 s hs).1
    | cons c cs =>
      have hc : p c = true := h.chars hs (by simp [hchars])
      cases others <;> simpa [Text.joined, hchars] using hc

/-- A path that is written out is read back. -/
theorem Over.ofText_text {p : Char → Bool} {path : DataPath} (h : path.Over p)
    (hdot : p '.' = false) (hblank : ∀ c, p c = true → Text.isBlank c = false) :
    ofText path.text = path := by
  have htrim : ∀ s ∈ path.segments, Text.trim s.toList = s.toList := fun s hs =>
    Text.trim_eq_self fun c hc => hblank c (h.chars hs hc)
  have hkept : ∀ s ∈ path.segments, s.toList ≠ [] := fun s hs => by
    simpa using (h.2 s hs).1
  obtain ⟨segments⟩ := path
  simp only [ofText, h.pieces_text hdot, List.map_map, mk.injEq]
  have hmap : segments.map (Text.trim ∘ (·.toList)) = segments.map (·.toList) :=
    List.map_congr_left htrim
  have hfilter : (segments.map (·.toList)).filter (· ≠ []) = segments.map (·.toList) := by
    simpa [List.filter_eq_self] using hkept
  rw [hmap, hfilter, List.map_map]
  simp [Function.comp_def]

end DataPath

end TextTemplate
