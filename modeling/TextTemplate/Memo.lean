/-! A table of results by key, each made no more than once. Results may refer to others by handles,
which remember by themselves where they led. -/

namespace TextTemplate

/-- A reference to the result for a key. Where it stands tells it apart from others to the same key;
one that stands in no kept result has no place. -/
structure Handle (κ : Type) where
  key : κ
  /-- The key of the result that holds the handle, and which of its handles it is. -/
  place : Option (κ × Nat)
  deriving DecidableEq, Repr

/-- A slot for each key that was asked for, and what handles led to. A slot is empty until something
is made for its key; what failed is not kept. -/
structure Memo (κ α : Type) where
  slots : List (κ × Option α)
  followed : List (Handle κ × α)
  distinct : (slots.map (·.1)).Nodup

namespace Memo

variable {κ α : Type} [DecidableEq κ]

def empty : Memo κ α := ⟨[], [], .nil⟩

def keys (m : Memo κ α) : List κ := m.slots.map (·.1)

/-- What has been made for a key. A slot alone says nothing. -/
def get? (m : Memo κ α) (key : κ) : Option α := (m.slots.find? (·.1 = key)).bind (·.2)

/-- What the handle is known to lead to. -/
def followed? (m : Memo κ α) (h : Handle κ) : Option α :=
  (m.followed.find? (·.1 = h)).map (·.2)

/-- The number of keys for which something has been made. -/
def size (m : Memo κ α) : Nat := m.slots.countP (·.2.isSome)

/-- Gives a key an empty slot, unless it has a slot. -/
def reserve (m : Memo κ α) (key : κ) : Memo κ α :=
  if h : key ∈ m.keys then m
  else ⟨(key, none) :: m.slots, m.followed, List.nodup_cons.2 ⟨h, m.distinct⟩⟩

/-- Puts what was made for a key into its slot. -/
def fill (m : Memo κ α) (key : κ) (a : α) : Memo κ α where
  slots := m.slots.map fun slot => (slot.1, if slot.1 = key then some a else slot.2)
  followed := m.followed
  distinct := by
    rw [List.map_map]
    exact m.distinct

/-- What has been made for the key, or else what `make` gives, which is kept unless it fails. The
key has a slot before `make` is run. -/
def load {μ : Type → Type} [Monad μ] {ε : Type} (m : Memo κ α) (key : κ)
    (make : μ (Except ε α)) : μ (Except ε α × Memo κ α) :=
  let reserved := m.reserve key
  match reserved.get? key with
  | some a => pure (.ok a, reserved)
  | none => do
    match ← make with
    | .ok a => pure (.ok a, reserved.fill key a)
    | .error e => pure (.error e, reserved)

/-- Remembers what a handle led to, if the handle has a place. -/
def keep (m : Memo κ α) (h : Handle κ) (a : α) : Memo κ α :=
  if h.place.isSome then { m with followed := (h, a) :: m.followed } else m

/-- What the handle is known to lead to, or else the result for its key. -/
def follow {μ : Type → Type} [Monad μ] {ε : Type} (m : Memo κ α) (h : Handle κ)
    (make : μ (Except ε α)) : μ (Except ε α × Memo κ α) :=
  match m.followed? h with
  | some a => pure (.ok a, m)
  | none => do
    match ← m.load h.key make with
    | (.ok a, m) => pure (.ok a, m.keep h a)
    | (.error e, m) => pure (.error e, m)

theorem mem_reserve (m : Memo κ α) (key : κ) : key ∈ (m.reserve key).keys := by
  unfold reserve
  split
  · assumption
  · exact List.mem_cons_self

/-- An empty slot is like none. -/
@[simp] theorem get?_reserve (m : Memo κ α) (key other : κ) :
    (m.reserve key).get? other = m.get? other := by
  unfold reserve
  split
  · rfl
  · next hnew =>
    by_cases h : key = other
    · subst h
      have hnone : m.slots.find? (·.1 = key) = none :=
        List.find?_eq_none.2 fun slot hslot heq =>
          hnew (List.mem_map.2 ⟨slot, hslot, of_decide_eq_true heq⟩)
      simp [get?, hnone]
    · simp [get?, h]

theorem get?_fill (m : Memo κ α) {key : κ} (hkey : key ∈ m.keys) (a : α) (other : κ) :
    (m.fill key a).get? other = if key = other then some a else m.get? other := by
  simp only [get?, fill, List.find?_map, Function.comp_def]
  cases hfind : m.slots.find? (·.1 = other) with
  | none =>
    have hne : key ≠ other := by
      rintro rfl
      obtain ⟨slot, hslot, rfl⟩ := List.mem_map.1 hkey
      simpa using List.find?_eq_none.1 hfind slot hslot
    simp [hne]
  | some slot =>
    have hslot : slot.1 = other := by simpa using List.find?_some hfind
    by_cases h : key = other
    · simp [hslot, h]
    · simp [hslot, h, Ne.symm h]

@[simp] theorem followed?_reserve (m : Memo κ α) (key : κ) (h : Handle κ) :
    (m.reserve key).followed? h = m.followed? h := by
  unfold reserve
  split <;> rfl

theorem followed?_keep (m : Memo κ α) (h other : Handle κ) (a : α) :
    (m.keep h a).followed? other =
      if h.place.isSome ∧ h = other then some a else m.followed? other := by
  unfold keep
  split
  · next hplace =>
    by_cases heq : h = other
    · subst heq
      simp [followed?, hplace]
    · simp [followed?, heq]
  · next hplace => rw [if_neg fun hboth => hplace hboth.1]

theorem get?_keep (m : Memo κ α) (h : Handle κ) (a : α) (key : κ) :
    (m.keep h a).get? key = m.get? key := by
  unfold keep
  split <;> rfl

end Memo

end TextTemplate
