/-! Maps that remember in which order their names came. -/

namespace TextTemplate

/-- Named things in the order in which the names were first given. -/
abbrev Fields (α : Type) := List (String × α)

namespace Fields

variable {α : Type}

def get? (name : String) : Fields α → Option α
  | [] => none
  | (k, v) :: rest => if k = name then some v else get? name rest

/-- Gives `name` a value: in its place if it has one already, at the end if not. -/
def set (name : String) (v : α) : Fields α → Fields α
  | [] => [(name, v)]
  | (k, w) :: rest => if k = name then (k, v) :: rest else (k, w) :: set name v rest

def has (name : String) (fields : Fields α) : Bool := (fields.get? name).isSome

/-- A repeated name keeps its first place and takes its last value. -/
def ofPairs (pairs : List (String × α)) : Fields α :=
  pairs.foldl (fun fields (k, v) => fields.set k v) []

/-- The entries by name, in the order of the names' characters. -/
def sorted (fields : Fields α) : Fields α :=
  fields.mergeSort fun a b => decide (a.1 ≤ b.1)

/-- The fields of the names, one after the other. A name without a value is passed over. -/
def listed (names : List String) (fields : Fields α) : Fields α :=
  names.filterMap fun name => (fields.get? name).map (name, ·)

/-- What each of the names has, and `missing` for a name without a value. -/
def getAll (names : List String) (missing : α) (fields : Fields α) : List α :=
  names.map fun name => (fields.get? name).getD missing

@[simp] theorem get?_set (name other : String) (v : α) (fields : Fields α) :
    (fields.set name v).get? other = if name = other then some v else fields.get? other := by
  induction fields with
  | nil => simp [set, get?]
  | cons entry rest ih =>
    obtain ⟨k, w⟩ := entry
    by_cases hk : k = name
    · subst hk
      by_cases ho : k = other <;> simp [set, get?, ho]
    · by_cases ho : k = other
      · subst ho
        simp [set, get?, hk, Ne.symm hk]
      · simp [set, get?, hk, ho, ih]

theorem has_set (name other : String) (v : α) (fields : Fields α) :
    (fields.set name v).has other = (name == other || fields.has other) := by
  by_cases h : name = other <;> simp [has, h]

theorem has_iff_mem {name : String} {fields : Fields α} :
    fields.has name = true ↔ name ∈ fields.map (·.1) := by
  induction fields with
  | nil => simp [has, get?]
  | cons entry rest ih =>
    obtain ⟨k, w⟩ := entry
    by_cases hk : k = name
    · simp [has, get?, hk]
    · rw [has] at ih
      simp [has, get?, hk, ih, Ne.symm hk]

/-- Setting a name that is there keeps its place, and another comes last. -/
theorem names_set (name : String) (v : α) (fields : Fields α) :
    (fields.set name v).map (·.1) =
      if fields.has name then fields.map (·.1) else fields.map (·.1) ++ [name] := by
  induction fields with
  | nil => simp [set, has, get?]
  | cons entry rest ih =>
    obtain ⟨k, w⟩ := entry
    by_cases hk : k = name
    · simp [set, has, get?, hk]
    · have hhas : has name ((k, w) :: rest) = has name rest := by simp [has, get?, hk]
      simp only [set, hk, if_false, List.map_cons, ih, hhas]
      split <;> rfl

theorem mem_of_get? {name : String} {v : α} {fields : Fields α}
    (h : fields.get? name = some v) : (name, v) ∈ fields := by
  induction fields with
  | nil => cases h
  | cons entry rest ih =>
    obtain ⟨k, w⟩ := entry
    by_cases hk : k = name
    · simp only [get?, hk, if_true, Option.some.injEq] at h
      rw [hk, h]
      exact List.mem_cons_self
    · simp only [get?, hk, if_false] at h
      exact List.mem_cons_of_mem _ (ih h)

theorem has_of_mem {name : String} {v : α} {fields : Fields α} (h : (name, v) ∈ fields) :
    fields.has name = true := by
  induction fields with
  | nil => cases h
  | cons entry rest ih =>
    obtain ⟨k, w⟩ := entry
    by_cases hk : k = name
    · simp [has, get?, hk]
    · rcases List.mem_cons.1 h with heq | hmem
      · cases heq
        exact absurd rfl hk
      · simpa [has, get?, hk] using ih hmem

theorem map_congr {β : Type} {f g : String → α → β} {fields : Fields α}
    (h : ∀ name v, (name, v) ∈ fields → f name v = g name v) :
    fields.map (fun (k, v) => f k v) = fields.map fun (k, v) => g k v :=
  List.map_congr_left fun entry hentry => h entry.1 entry.2 hentry

theorem get?_append (name : String) (fields others : Fields α) :
    get? name (fields ++ others) = (fields.get? name).or (others.get? name) := by
  induction fields with
  | nil => rfl
  | cons entry rest ih =>
    obtain ⟨k, w⟩ := entry
    by_cases hk : k = name <;> simp [get?, hk, ih]

theorem get?_filter (name : String) (p : String → Bool) (fields : Fields α) :
    get? name (fields.filter fun (k, _) => p k) = if p name then fields.get? name else none := by
  induction fields with
  | nil => simp [get?]
  | cons entry rest ih =>
    obtain ⟨k, w⟩ := entry
    by_cases hk : k = name
    · subst hk
      by_cases hp : p k <;> simp [get?, hp, ih]
    · by_cases hp : p k <;> simp [get?, hp, hk, ih]

theorem has_append (name : String) (fields others : Fields α) :
    has name (fields ++ others) = (fields.has name || others.has name) := by
  simp [has, get?_append, Option.isSome_or]

theorem has_filter (name : String) (p : String → Bool) (fields : Fields α) :
    has name (fields.filter fun (k, _) => p k) = (p name && fields.has name) := by
  rw [has, get?_filter]
  cases p name <;> simp [has]

theorem get?_map {β : Type} (f : α → β) (fields : Fields α) (name : String) :
    get? name (fields.map fun (k, v) => (k, f v)) = (fields.get? name).map f := by
  induction fields with
  | nil => rfl
  | cons field rest ih =>
    obtain ⟨k, v⟩ := field
    by_cases hk : k = name <;> simp [get?, hk, ih]

theorem listed_map {β : Type} (f : α → β) (names : List String) (fields : Fields α) :
    listed names (fields.map fun (k, v) => (k, f v)) =
      (listed names fields).map fun (k, v) => (k, f v) := by
  rw [listed, listed, List.map_filterMap]
  congr 1
  funext name
  rw [get?_map, Option.map_map, Option.map_map]
  rfl

theorem listed_congr {names : List String} {fields others : Fields α}
    (h : ∀ name ∈ names, fields.get? name = others.get? name) :
    listed names fields = listed names others := by
  induction names with
  | nil => rfl
  | cons name rest ih =>
    obtain ⟨hname, hrest⟩ := List.forall_mem_cons.1 h
    rw [listed, List.filterMap_cons, hname, ← listed, ih hrest]
    rfl

theorem getAll_congr {names : List String} {missing : α} {fields others : Fields α}
    (h : ∀ name ∈ names, fields.get? name = others.get? name) :
    getAll names missing fields = getAll names missing others :=
  List.map_congr_left fun name hname => by rw [h name hname]

theorem mem_listed {name : String} {v : α} {names : List String} {fields : Fields α} :
    (name, v) ∈ listed names fields ↔ name ∈ names ∧ fields.get? name = some v := by
  simp only [listed, List.mem_filterMap, Option.map_eq_some_iff, Prod.mk.injEq]
  constructor
  · rintro ⟨_, hmem, _, hget, rfl, rfl⟩
    exact ⟨hmem, hget⟩
  · rintro ⟨hmem, hget⟩
    exact ⟨name, hmem, v, hget, rfl, rfl⟩

theorem names_listed (names : List String) (fields : Fields α) :
    (listed names fields).map (·.1) = names.filter (has · fields) := by
  induction names with
  | nil => rfl
  | cons name rest ih =>
    rw [listed] at ih ⊢
    cases hget : fields.get? name <;> simp [has, hget, ih]

theorem has_listed (name : String) (names : List String) (fields : Fields α) :
    has name (listed names fields) = true ↔ name ∈ names ∧ fields.has name = true := by
  rw [has_iff_mem, names_listed, List.mem_filter]

end Fields

end TextTemplate
