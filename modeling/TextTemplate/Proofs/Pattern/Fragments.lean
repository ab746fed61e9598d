import Mathlib
import TextTemplate.Pattern.Fragments
import TextTemplate.Proofs.Pattern.Expansion
import TextTemplate.Proofs.Value.Fields

/-! A table of fragments expands each of them once and remembers the result. What it gives is the
full recursive substitution, and it fails only where there is none. -/

namespace TextTemplate.FragmentTable

open PatternPart Relation

/-- The expansion of the text that a name stands for. -/
def Stands (find : String → Option String) (name : String) (inner : List Char) : Prop :=
  ∃ raw, find name = some raw ∧ Expands find (ofChars raw.toList) inner

/-- Nothing but true expansions is known. -/
def Holds (find : String → Option String) (known : Fields (List Char)) : Prop :=
  ∀ name inner, known.get? name = some inner → Stands find name inner

theorem holds_nil (find : String → Option String) : Holds find [] := nofun

/-- What is behind an error that came up under a name: references lead from there to a name without
a text, or some name leads back to itself. -/
def Explains (find : String → Option String) (name : String) : FragmentError → Prop
  | .unknown other => find other = none ∧ ReflTransGen (Refers find) name other
  | .cycle other => TransGen (Refers find) other other

/-- What expanding a name may give. -/
def Answers (find : String → Option String) (name : String) (known : Fields (List Char)) :
    Except FragmentError (List Char × Fields (List Char)) → Prop
  | .ok (inner, after) => Stands find name inner ∧ Holds find after ∧ after.has name = true ∧
      ∀ other, known.has other = true → after.has other = true
  | .error e => Explains find name e

/-- What substituting in the parts of a text may give. -/
def Substitutes (find : String → Option String) (parts : List PatternPart)
    (known : Fields (List Char)) :
    Except FragmentError (List Char × Fields (List Char)) → Prop
  | .ok (text, after) => Expands find parts text ∧ Holds find after ∧
      ∀ other, known.has other = true → after.has other = true
  | .error e => ∃ name ∈ names parts, Explains find name e

section
variable {find : String → Option String} {known : Fields (List Char)}

theorem substitute_answers (parts : List PatternPart) {expansion : String → Expansion}
    (h : ∀ name ∈ names parts, ∀ known, Holds find known →
      Answers find name known (expansion name known))
    (hknown : Holds find known) :
    Substitutes find parts known (substitute expansion parts known) := by
  induction parts generalizing known with
  | nil => exact ⟨.nil, hknown, fun _ hother => hother⟩
  | cons part rest ih =>
    cases part with
    | char c =>
      have hrest := ih h hknown
      simp only [substitute]
      cases hresult : substitute expansion rest known with
      | error e =>
        rw [hresult] at hrest
        exact hrest
      | ok result =>
        rw [hresult] at hrest
        exact ⟨.char hrest.1, hrest.2⟩
    | reference name =>
      obtain ⟨hname, hnames⟩ := List.forall_mem_cons.1 h
      have hinner := hname known hknown
      simp only [substitute]
      cases hexpansion : expansion (String.ofList name) known with
      | error e =>
        rw [hexpansion] at hinner
        exact ⟨String.ofList name, List.mem_cons_self, hinner⟩
      | ok inner =>
        rw [hexpansion] at hinner
        obtain ⟨⟨raw, hraw, hexpands⟩, hholds, -, hkeeps⟩ := hinner
        have hrest := ih hnames hholds
        simp only [bind, Except.bind]
        cases hresult : substitute expansion rest inner.2 with
        | error e =>
          rw [hresult] at hrest
          obtain ⟨other, hother, hexplains⟩ := hrest
          exact ⟨other, List.mem_cons_of_mem _ hother, hexplains⟩
        | ok result =>
          rw [hresult] at hrest
          exact ⟨.reference hraw hexpands hrest.1, hrest.2.1,
            fun other hother => hrest.2.2 other (hkeeps other hother)⟩

end

/-! ### The depth of the recursion -/

section
variable {texts : Fields String} {room : Nat} {open_ : List String} {name raw : String}
  {known : Fields (List Char)}

/-- The fragments that are being expanded are different ones of the table, and there is room for
the others. -/
structure HasRoom (texts : Fields String) (room : Nat) (open_ : List String) : Prop where
  distinct : open_.Nodup
  subset : open_ ⊆ texts.map (·.1)
  enough : texts.length ≤ room + open_.length

theorem hasRoom_nil (texts : Fields String) {room : Nat} (h : texts.length ≤ room) :
    HasRoom texts room [] := ⟨.nil, List.nil_subset _, h⟩

/-- Another fragment finds room. -/
theorem HasRoom.opened (h : HasRoom texts room open_) (hname : name ∉ open_)
    (hraw : texts.get? name = some raw) :
    ∃ less, room = less + 1 ∧ HasRoom texts less (name :: open_) := by
  have hdistinct : (name :: open_).Nodup := List.nodup_cons.2 ⟨hname, h.distinct⟩
  have hmem : name ∈ texts.map (·.1) := List.mem_map_of_mem (Fields.mem_of_get? hraw)
  have hsubset : name :: open_ ⊆ texts.map (·.1) := List.cons_subset.2 ⟨hmem, h.subset⟩
  have hlength := (hdistinct.subperm hsubset).length_le
  have henough := h.enough
  rw [List.length_cons, List.length_map] at hlength
  refine ⟨room - 1, by omega, hdistinct, hsubset, ?_⟩
  rw [List.length_cons]
  omega

theorem expandName_known {inner : List Char} (h : known.get? name = some inner) :
    expandName texts room open_ name known = .ok (inner, known) := by
  rw [expandName.eq_def]
  simp only [h]

theorem expandName_open (h : known.get? name = none) (hopen : name ∈ open_) :
    expandName texts room open_ name known = .error (.cycle name) := by
  rw [expandName.eq_def]
  simp [h, hopen]

theorem expandName_unknown (h : known.get? name = none) (hopen : name ∉ open_)
    (hraw : texts.get? name = none) :
    expandName texts room open_ name known = .error (.unknown name) := by
  rw [expandName.eq_def]
  simp [h, hopen, hraw]

theorem expandName_raw (h : known.get? name = none) (hopen : name ∉ open_)
    (hraw : texts.get? name = some raw) :
    expandName texts (room + 1) open_ name known =
      (substitute (expandName texts room (name :: open_)) (ofChars raw.toList) known).map
        fun result => (result.1, result.2.set name result.1) := by
  rw [expandName.eq_def]
  simp only [h, List.contains_iff_mem, hopen, hraw, if_false]
  cases substitute (expandName texts room (name :: open_)) (ofChars raw.toList) known <;> rfl

/-- All that expanding a name can do. -/
theorem expandName_cases (h : HasRoom texts room open_) (name : String)
    (known : Fields (List Char)) :
    (∃ inner, known.get? name = some inner ∧
      expandName texts room open_ name known = .ok (inner, known)) ∨
    (known.get? name = none ∧ name ∈ open_ ∧
      expandName texts room open_ name known = .error (.cycle name)) ∨
    (known.get? name = none ∧ name ∉ open_ ∧ texts.get? name = none ∧
      expandName texts room open_ name known = .error (.unknown name)) ∨
    ∃ raw less, known.get? name = none ∧ name ∉ open_ ∧ texts.get? name = some raw ∧
      room = less + 1 ∧ HasRoom texts less (name :: open_) := by
  cases hknown : known.get? name with
  | some inner => exact .inl ⟨inner, rfl, expandName_known hknown⟩
  | none =>
    by_cases hopen : name ∈ open_
    · exact .inr (.inl ⟨rfl, hopen, expandName_open hknown hopen⟩)
    · cases hraw : texts.get? name with
      | none => exact .inr (.inr (.inl ⟨rfl, hopen, rfl, expandName_unknown hknown hopen hraw⟩))
      | some raw =>
        obtain ⟨less, hless, hroom⟩ := h.opened hopen hraw
        exact .inr (.inr (.inr ⟨raw, less, rfl, hopen, rfl, hless, hroom⟩))

/-- More room makes no difference. -/
theorem expandName_succ (h : HasRoom texts room open_) (name : String) :
    expandName texts (room + 1) open_ name = expandName texts room open_ name := by
  induction room using Nat.strongRecOn generalizing open_ name with
  | ind room ih =>
    funext known
    obtain ⟨inner, hknown, heq⟩ | ⟨hknown, hopen, heq⟩ | ⟨hknown, hopen, hraw, heq⟩ |
      ⟨raw, less, hknown, hopen, hraw, rfl, hroom⟩ := expandName_cases h name known
    · rw [heq, expandName_known hknown]
    · rw [heq, expandName_open hknown hopen]
    · rw [heq, expandName_unknown hknown hopen hraw]
    · have hinner : expandName texts (less + 1) (name :: open_) =
          expandName texts less (name :: open_) :=
        funext fun other => ih less (Nat.lt_succ_self less) hroom other
      rw [expandName_raw hknown hopen hraw, expandName_raw hknown hopen hraw, hinner]

theorem expandName_of_le (h : texts.length ≤ room) (name : String) :
    expandName texts room [] name = expandName texts texts.length [] name := by
  induction room, h using Nat.le_induction with
  | base => rfl
  | succ room hroom ih => rw [expandName_succ (hasRoom_nil texts hroom), ih]

/-! ### What is given for a name -/

variable {find : String → Option String}

theorem Explains.of_refers {other : String} {e : FragmentError} (h : Explains find other e)
    (hrefers : Refers find name other) : Explains find name e := by
  cases e with
  | unknown missing => exact ⟨h.1, .head hrefers h.2⟩
  | cycle looping => exact h

theorem Holds.set {inner : List Char} (h : Holds find known) (hinner : Stands find name inner) :
    Holds find (known.set name inner) := by
  intro other text htext
  rw [Fields.get?_set] at htext
  by_cases hsame : name = other
  · rw [if_pos hsame] at htext
    cases htext
    exact hsame ▸ hinner
  · rw [if_neg hsame] at htext
    exact h other text htext

/-- Expanding a name gives its expansion, or an error that says why there is none. The names that
are being expanded all lead to this one. -/
theorem expandName_answers (hfind : ∀ name, texts.get? name = find name)
    (hroom : HasRoom texts room open_) (hopen : ∀ o ∈ open_, TransGen (Refers find) o name)
    (hknown : Holds find known) :
    Answers find name known (expandName texts room open_ name known) := by
  induction room using Nat.strongRecOn generalizing open_ name known with
  | ind room ih =>
    obtain ⟨inner, hinner, heq⟩ | ⟨-, hmem, heq⟩ | ⟨-, -, hraw, heq⟩ |
      ⟨raw, less, hnone, hnew, hraw, rfl, hless⟩ := expandName_cases hroom name known
    · rw [heq]
      refine ⟨hknown name inner hinner, hknown, ?_, fun _ hother => hother⟩
      rw [Fields.has, hinner]
      rfl
    · rw [heq]
      exact hopen name hmem
    · rw [heq]
      exact ⟨hfind name ▸ hraw, .refl⟩
    · have hname : find name = some raw := hfind name ▸ hraw
      have hnames : ∀ other ∈ names (ofChars raw.toList), ∀ known, Holds find known →
          Answers find other known (expandName texts less (name :: open_) other known) := by
        intro other hother known hknown
        have hrefers : Refers find name other := ⟨raw, hname, hother⟩
        apply ih less (Nat.lt_succ_self less) hless _ hknown
        intro o ho
        rcases List.mem_cons.1 ho with rfl | ho
        · exact .single hrefers
        · exact (hopen o ho).tail hrefers
      have hparts := substitute_answers (ofChars raw.toList) hnames hknown
      rw [expandName_raw hnone hnew hraw]
      cases hresult : substitute (expandName texts less (name :: open_)) (ofChars raw.toList)
        known with
      | error e =>
        rw [hresult] at hparts
        obtain ⟨other, hother, hexplains⟩ := hparts
        exact hexplains.of_refers ⟨raw, hname, hother⟩
      | ok result =>
        rw [hresult] at hparts
        obtain ⟨hexpands, hholds, hkeeps⟩ := hparts
        have hstands : Stands find name result.1 := ⟨raw, hname, hexpands⟩
        refine ⟨hstands, hholds.set hstands, ?_, fun other hother => ?_⟩
        · simp [Fields.has_set]
        · simp [Fields.has_set, hkeeps other hother]

theorem expandAll_answers (hfind : ∀ name, texts.get? name = find name)
    (hknown : Holds find known) (all : List String) :
    match expandAll texts all known with
    | .ok after => Holds find after ∧ (∀ name ∈ all, after.has name = true) ∧
        ∀ other, known.has other = true → after.has other = true
    | .error e => ∃ name ∈ all, Explains find name e := by
  induction all generalizing known with
  | nil => exact ⟨hknown, nofun, fun _ hother => hother⟩
  | cons name rest ih =>
    have hname : Answers find name known (expandName texts texts.length [] name known) :=
      expandName_answers hfind (hasRoom_nil texts (Nat.le_refl _)) nofun hknown
    simp only [expandAll, bind, Except.bind]
    cases hresult : expandName texts texts.length [] name known with
    | error e =>
      rw [hresult] at hname
      exact ⟨name, List.mem_cons_self, hname⟩
    | ok result =>
      rw [hresult] at hname
      obtain ⟨-, hholds, hhas, hkeeps⟩ := hname
      have hrest := ih hholds
      simp only
      cases hafter : expandAll texts rest result.2 with
      | error e =>
        rw [hafter] at hrest
        obtain ⟨other, hother, hexplains⟩ := hrest
        exact ⟨other, List.mem_cons_of_mem name hother, hexplains⟩
      | ok after =>
        rw [hafter] at hrest
        obtain ⟨hall, hnames, hstays⟩ := hrest
        exact ⟨hall, List.forall_mem_cons.2 ⟨hstays name hhas, hnames⟩,
          fun other hother => hstays other (hkeeps other hother)⟩

end

/-! ### Tables -/

/-- The text of a name; the last one given counts. -/
def text? (pairs : List (String × String)) (name : String) : Option String :=
  (pairs.reverse.find? (·.1 = name)).map (·.2)

/-- All names that texts refer to have a text, and none leads back to itself. -/
structure IsSound (find : String → Option String) : Prop where
  defined : ∀ name other, Refers find name other → (find other).isSome
  acyclic : ∀ name, ¬ TransGen (Refers find) name name

/-- Nothing can be wrong with a name that has a text. -/
theorem IsSound.not_explains {find : String → Option String} (h : IsSound find) {name : String}
    (hname : (find name).isSome) (e : FragmentError) : ¬ Explains find name e := by
  intro hexplains
  cases e with
  | unknown other =>
    obtain ⟨hmissing, hpath⟩ := hexplains
    have hother : (find other).isSome := by
      rcases hpath.cases_tail with rfl | ⟨last, -, hlast⟩
      · exact hname
      · exact h.defined last other hlast
    rw [hmissing] at hother
    cases hother
  | cycle other => exact h.acyclic other hexplains

theorem get?_ofPairs_eq (pairs : List (String × String)) (name : String) :
    (Fields.ofPairs pairs).get? name = text? pairs name := by
  rw [Fields.get?_ofPairs, text?]
  induction pairs.reverse with
  | nil => rfl
  | cons pair rest ih =>
    by_cases h : pair.1 = name
    · simp [Fields.get?, h]
    · simp [Fields.get?, h, ih]

theorem isSome_text?_iff {pairs : List (String × String)} {name : String} :
    (text? pairs name).isSome ↔ name ∈ pairs.map (·.1) := by
  simp [text?, List.find?_isSome]

section
variable {pairs : List (String × String)} {t : FragmentTable}

/-- A table knows the expansions of all its fragments. -/
theorem ofPairs_eq_ok (h : ofPairs pairs = .ok t) :
    t.texts = Fields.ofPairs pairs ∧ Holds (text? pairs) t.known ∧
      ∀ name, (text? pairs name).isSome → t.known.has name = true := by
  have hall := expandAll_answers (get?_ofPairs_eq pairs) (holds_nil _) (pairs.map (·.1))
  simp only [ofPairs, bind, Except.bind] at h
  split at h
  · cases h
  · next after hafter =>
    cases h
    rw [hafter] at hall
    exact ⟨rfl, hall.1, fun name hname => hall.2.1 name (isSome_text?_iff.1 hname)⟩

/-- There is no table only where a fragment has no expansion. -/
theorem ofPairs_eq_error {e : FragmentError} (h : ofPairs pairs = .error e) :
    ∃ name, (text? pairs name).isSome ∧ Explains (text? pairs) name e := by
  have hall := expandAll_answers (get?_ofPairs_eq pairs) (holds_nil _) (pairs.map (·.1))
  simp only [ofPairs, bind, Except.bind] at h
  split at h
  · next hafter =>
    cases h
    rw [hafter] at hall
    obtain ⟨name, hname, hexplains⟩ := hall
    exact ⟨name, isSome_text?_iff.2 hname, hexplains⟩
  · cases h

theorem isSound_of_ofPairs (h : ofPairs pairs = .ok t) : IsSound (text? pairs) := by
  obtain ⟨-, hholds, hall⟩ := ofPairs_eq_ok h
  have hstands (name raw : String) (hraw : text? pairs name = some raw) :
      ∀ other ∈ references raw, (text? pairs other).isSome ∧
        Acc (Function.swap (Refers (text? pairs))) other := by
    have hhas := hall name (by rw [hraw]; rfl)
    obtain ⟨inner, hinner⟩ := Option.isSome_iff_exists.1 hhas
    obtain ⟨raw', hraw', hexpands⟩ := hholds name inner hinner
    cases hraw.symm.trans hraw'
    exact hexpands.acc
  constructor
  · rintro name other ⟨raw, hraw, hother⟩
    exact (hstands name raw hraw other hother).1
  · intro name
    apply not_transGen_of_acc
    refine Acc.intro _ ?_
    rintro other ⟨raw, hraw, hother⟩
    exact (hstands name raw hraw other hother).2

theorem exists_ofPairs (h : IsSound (text? pairs)) : ∃ t, ofPairs pairs = .ok t := by
  cases htable : ofPairs pairs with
  | ok t => exact ⟨t, rfl⟩
  | error e =>
    obtain ⟨name, hname, hexplains⟩ := ofPairs_eq_error htable
    exact absurd hexplains (h.not_explains hname e)

end

/-! ### Texts -/

section
variable {find : String → Option String} {texts : Fields String} {known : Fields (List Char)}

theorem expandName_of_none (hfind : ∀ name, texts.get? name = find name) {name : String}
    (hknown : Holds find known) (h : find name = none) :
    expandName texts texts.length [] name known = .error (.unknown name) := by
  apply expandName_unknown _ List.not_mem_nil ((hfind name).trans h)
  rw [Option.eq_none_iff_forall_ne_some]
  intro inner hinner
  obtain ⟨raw, hraw, -⟩ := hknown name inner hinner
  rw [h] at hraw
  cases hraw

/-- Every fragment of a sound table has an expansion. -/
theorem expandName_of_isSome (hfind : ∀ name, texts.get? name = find name) {name : String}
    (hsound : IsSound find) (hknown : Holds find known) (h : (find name).isSome) :
    ∃ inner after, expandName texts texts.length [] name known = .ok (inner, after) ∧
      Holds find after := by
  have hanswers : Answers find name known (expandName texts texts.length [] name known) :=
    expandName_answers hfind (hasRoom_nil texts (Nat.le_refl _)) nofun hknown
  cases hresult : expandName texts texts.length [] name known with
  | ok result =>
    rw [hresult] at hanswers
    exact ⟨result.1, result.2, rfl, hanswers.2.1⟩
  | error e =>
    rw [hresult] at hanswers
    exact absurd hanswers (hsound.not_explains h e)

/-- Substituting fails at the first name without a text, and only there. -/
theorem substitute_of_isSound (hfind : ∀ name, texts.get? name = find name)
    (hsound : IsSound find) (hknown : Holds find known) (parts : List PatternPart) :
    match (names parts).find? fun name => (find name).isNone with
    | some name =>
      substitute (expandName texts texts.length []) parts known = .error (.unknown name)
    | none => ∃ text after,
      substitute (expandName texts texts.length []) parts known = .ok (text, after) := by
  induction parts generalizing known with
  | nil => exact ⟨[], known, rfl⟩
  | cons part rest ih =>
    cases part with
    | char c =>
      have hrest := ih hknown
      simp only [names, substitute]
      split at hrest
      · rw [hrest]
        rfl
      · obtain ⟨text, after, hresult⟩ := hrest
        rw [hresult]
        exact ⟨c :: text, after, rfl⟩
    | reference name =>
      simp only [names, substitute]
      cases hname : find (String.ofList name) with
      | none =>
        rw [List.find?_cons_of_pos (by rw [hname]; rfl), expandName_of_none hfind hknown hname]
        rfl
      | some raw =>
        obtain ⟨inner, after, hinner, hholds⟩ :=
          expandName_of_isSome hfind hsound hknown (by rw [hname]; rfl)
        have hrest := ih hholds
        rw [List.find?_cons_of_neg (by rw [hname]; exact Bool.false_ne_true), hinner]
        simp only [bind, Except.bind]
        split at hrest
        · rw [hrest]
        · obtain ⟨text, last, hresult⟩ := hrest
          rw [hresult]
          exact ⟨_, last, rfl⟩

/-- Where all expansions are known, nothing is added. -/
theorem substitute_of_known {room : Nat} {parts : List PatternPart}
    (h : ∀ name ∈ names parts, known.has name = true) {text : List Char}
    {after : Fields (List Char)}
    (hresult : substitute (expandName texts room []) parts known = .ok (text, after)) :
    after = known := by
  induction parts generalizing text with
  | nil =>
    cases hresult
    rfl
  | cons part rest ih =>
    cases part with
    | char c =>
      simp only [substitute] at hresult
      cases hrest : substitute (expandName texts room []) rest known with
      | error e =>
        rw [hrest] at hresult
        cases hresult
      | ok result =>
        rw [hrest] at hresult
        cases hresult
        exact ih h hrest
    | reference name =>
      obtain ⟨hname, hnames⟩ := List.forall_mem_cons.1 h
      obtain ⟨inner, hinner⟩ := Option.isSome_iff_exists.1 hname
      simp only [substitute, expandName_known hinner, bind, Except.bind] at hresult
      cases hrest : substitute (expandName texts room []) rest known with
      | error e =>
        rw [hrest] at hresult
        cases hresult
      | ok result =>
        rw [hrest] at hresult
        cases hresult
        exact ih hnames hrest

end

/-- Expanding a text with what a sound table knows, or with anything else that is true. -/
theorem expand_of_isSound {find : String → Option String} {t : FragmentTable}
    (hfind : ∀ name, t.texts.get? name = find name) (hsound : IsSound find)
    (hknown : Holds find t.known) (text : String) :
    match (references text).find? fun name => (find name).isNone with
    | some name => t.expand text = .error (.unknown name)
    | none => ∃ out after, t.expand text = .ok (out, after) ∧
        Expands find (ofChars text.toList) out.toList ∧
        ((∀ name ∈ references text, t.known.has name = true) → after = t) := by
  have hparts := substitute_of_isSound hfind hsound hknown (ofChars text.toList)
  have hanswers := substitute_answers (ofChars text.toList)
    (fun name _ known hknown =>
      expandName_answers hfind (hasRoom_nil t.texts (Nat.le_refl _)) nofun hknown) hknown
  rw [← references] at hparts
  unfold expand
  split at hparts
  · rw [hparts]
    rfl
  · obtain ⟨chars, known, hresult⟩ := hparts
    rw [hresult] at hanswers ⊢
    refine ⟨String.ofList chars, { t with known }, rfl, by simpa using hanswers.1, fun hall => ?_⟩
    rw [substitute_of_known hall hresult]

/-- A table is made exactly if all names that its fragments refer to have a text and no fragment
leads back to itself, and otherwise such a name is told. The depth to which fragments are expanded
is never more than their number. What the table gives for a text is the full recursive substitution
without a reference left, or the first name without a text; it stays as it is, and would give the
same with less that it knows. -/
theorem ofPairs_expands (pairs : List (String × String)) :
    ((∃ t, ofPairs pairs = .ok t) ↔ IsSound (text? pairs)) ∧
    (∀ e, ofPairs pairs = .error e →
      (∃ name other, e = .unknown other ∧ Refers (text? pairs) name other ∧
        text? pairs other = none) ∨
      ∃ name, e = .cycle name ∧ TransGen (Refers (text? pairs)) name name) ∧
    (∀ room name, (Fields.ofPairs pairs).length ≤ room →
      expandName (Fields.ofPairs pairs) room [] name =
        expandName (Fields.ofPairs pairs) (Fields.ofPairs pairs).length [] name) ∧
    ∀ t, ofPairs pairs = .ok t → ∀ text,
      (∀ name, (references text).find? (fun name => (text? pairs name).isNone) = some name →
        t.expand text = .error (.unknown name)) ∧
      ((∀ name ∈ references text, (text? pairs name).isSome) →
        ∃ out, t.expand text = .ok (out, t) ∧ references out = [] ∧
          ∀ other, Expands (text? pairs) (ofChars text.toList) other ↔ other = out.toList) ∧
      ∀ known, Holds (text? pairs) known →
        (expand ⟨t.texts, known⟩ text).map (·.1) = (t.expand text).map (·.1) := by
  refine ⟨⟨fun ⟨t, ht⟩ => isSound_of_ofPairs ht, exists_ofPairs⟩, ?_, ?_, ?_⟩
  · intro e he
    obtain ⟨name, hname, hexplains⟩ := ofPairs_eq_error he
    cases e with
    | unknown other =>
      obtain ⟨hmissing, hpath⟩ := hexplains
      rcases hpath.cases_tail with rfl | ⟨last, -, hlast⟩
      · rw [hmissing] at hname
        cases hname
      · exact .inl ⟨last, other, rfl, hlast, hmissing⟩
    | cycle other => exact .inr ⟨other, rfl, hexplains⟩
  · intro room name hroom
    exact expandName_of_le hroom name
  · intro t ht text
    have hsound := isSound_of_ofPairs ht
    obtain ⟨htexts, hholds, hall⟩ := ofPairs_eq_ok ht
    have hfind (name : String) : t.texts.get? name = text? pairs name := by
      rw [htexts, get?_ofPairs_eq]
    have hexpand := expand_of_isSound hfind hsound hholds text
    refine ⟨?_, ?_, ?_⟩
    · intro name hfirst
      rwa [hfirst] at hexpand
    · intro hdefined
      have hfirst : ((references text).find? fun name => (text? pairs name).isNone) = none := by
        rw [List.find?_eq_none]
        intro name hname
        simp [Option.isSome_iff_ne_none.1 (hdefined name hname)]
      rw [hfirst] at hexpand
      obtain ⟨out, after, hresult, hexpands, hafter⟩ := hexpand
      cases hafter fun name hname => hall name (hdefined name hname)
      refine ⟨out, hresult, names_ofChars_of_isFree hexpands.isFree, fun other => ?_⟩
      exact ⟨fun hother => hother.unique hexpands, fun hsame => hsame ▸ hexpands⟩
    · intro known hknown
      have hother := expand_of_isSound (t := ⟨t.texts, known⟩) hfind hsound hknown text
      split at hexpand
      · next hfirst =>
        rw [hfirst] at hother
        rw [hexpand, hother]
      · next hfirst =>
        rw [hfirst] at hother
        obtain ⟨out, after, hresult, hexpands, -⟩ := hexpand
        obtain ⟨out', after', hresult', hexpands', -⟩ := hother
        rw [hresult, hresult']
        exact congrArg Except.ok (String.toList_inj.1 (hexpands'.unique hexpands))

/-- `c` uses `b` and `a`, and `b` uses `a`: what they stand for does not depend on the order in
which they are asked for. With `a` as part of `c` and `c` of `b` there is no table. -/
theorem ofPairs_expands_nested :
    (ofPairs [("a", "%{b}"), ("b", "x%{c}"), ("c", "%{a}")] = .error (.cycle "a") ∧
      TransGen (Refers (text? [("a", "%{b}"), ("b", "x%{c}"), ("c", "%{a}")])) "a" "a") ∧
    ∃ t, ofPairs [("a", "x"), ("b", "%{a}y"), ("c", "%{b}%{a}")] = .ok t ∧
      t.expand "%{d}%{a}" = .error (.unknown "d") ∧
      ∃ out, t.expand "^%{c}$" = .ok (out, t) ∧ references out = [] ∧
        (expand ⟨t.texts, []⟩ "^%{c}$").map (·.1) = .ok out := by
  have hcyclic : ofPairs [("a", "%{b}"), ("b", "x%{c}"), ("c", "%{a}")] = .error (.cycle "a") := by
    cbv
  have hmade : ∃ t, ofPairs [("a", "x"), ("b", "%{a}y"), ("c", "%{b}%{a}")] = .ok t := ⟨_, by cbv⟩
  obtain ⟨t, ht⟩ := hmade
  obtain ⟨-, -, -, hexpand⟩ :=
    ofPairs_expands [("a", "x"), ("b", "%{a}y"), ("c", "%{b}%{a}")]
  constructor
  · obtain ⟨-, herror, -⟩ := ofPairs_expands [("a", "%{b}"), ("b", "x%{c}"), ("c", "%{a}")]
    obtain ⟨name, other, hunknown, -⟩ | ⟨name, hcycle, hpath⟩ := herror _ hcyclic
    · cases hunknown
    · cases hcycle
      exact ⟨hcyclic, hpath⟩
  · obtain ⟨hunknown, -, -⟩ := hexpand t ht "%{d}%{a}"
    obtain ⟨-, hdefined, hforgotten⟩ := hexpand t ht "^%{c}$"
    have hreferences : references "^%{c}$" = ["c"] := by cbv
    obtain ⟨out, hresult, hfree, -⟩ := hdefined (by rw [hreferences]; decide)
    refine ⟨t, ht, hunknown "d" (by cbv), out, hresult, hfree, ?_⟩
    rw [hforgotten [] (holds_nil _), hresult]
    rfl

end TextTemplate.FragmentTable
