import TextTemplate.Document.Json.Basic
import TextTemplate.Proofs.Store.Lookup
import TextTemplate.Proofs.Value.Fields
import TextTemplate.Store.Export
import TextTemplate.Value.Json

/-! Plain documents: giving a member a value, alone and at the end of a path, and documents as
values and back. Objects are decided by what their members are. -/

namespace TextTemplate

namespace Json

/-- The members of an object. Nothing else has any. -/
def members : Json → List (String × Json)
  | object members => members
  | _ => []

/-- The object with one member more, or with another value for one that it has. What is no object
becomes one. -/
def put (j : Json) (name : String) (v : Json) : Json := ofMembers (j.members ++ [(name, v)])

/-- Gives the member at the end of a path a value. Every member on the way that is missing, null or
a scalar becomes a new object. -/
def assign (j v : Json) : List String → Json
  | [] => j
  | [last] => j.put last v
  | name :: rest => j.put name (((j.member? name).getD .null).assign v rest)

mutual

/-- A document as such documents are read: whole numbers have 64 bits, other numbers are finite, and
the members of an object stand in the order of their names, none of them twice. -/
def Proper : Json → Prop
  | null | bool _ | text _ => True
  | int n => Value.leastInt ≤ n ∧ n ≤ Value.greatestInt
  | float x => x.isFinite = true
  | array items => ProperItems items
  | object members => Fields.Increasing members ∧ ProperMembers members

def ProperItems : List Json → Prop
  | [] => True
  | j :: rest => j.Proper ∧ ProperItems rest

def ProperMembers : List (String × Json) → Prop
  | [] => True
  | (_, j) :: rest => j.Proper ∧ ProperMembers rest

end

variable {j : Json} {ms : List (String × Json)} {name : String} {v : Json}

theorem ProperMembers.of_mem (h : ProperMembers ms) (hmem : (name, v) ∈ ms) : v.Proper := by
  induction ms with
  | nil => cases hmem
  | cons m rest ih =>
    obtain ⟨k, w⟩ := m
    rcases List.mem_cons.1 hmem with heq | hrest
    · cases heq
      exact h.1
    · exact ih h.2 hrest

theorem member?_eq_get? (j : Json) (name : String) :
    j.member? name = Fields.get? name j.members := by
  cases j <;> rfl

theorem increasing_ofMembers (ms : List (String × Json)) :
    Fields.Increasing (ofMembers ms).members :=
  (Fields.distinct_ofPairs ms).increasing_sorted

theorem member?_ofMembers (ms : List (String × Json)) (name : String) :
    (ofMembers ms).member? name = Fields.get? name ms.reverse := by
  rw [← Fields.get?_ofPairs]
  exact (Fields.distinct_ofPairs ms).get?_of_perm (Fields.sorted_perm _) name

/-- Where no name is given twice, the first value of a name is the last one. -/
theorem member?_ofMembers_of_distinct (h : Fields.Distinct ms) (name : String) :
    (ofMembers ms).member? name = Fields.get? name ms := by
  rw [member?_ofMembers]
  exact h.get?_of_perm (List.reverse_perm ms) name

/-- An object is decided by what its members are. -/
theorem ofMembers_eq (h : Fields.Increasing ms) {others : List (String × Json)}
    (hget : ∀ name, (ofMembers others).member? name = Fields.get? name ms) :
    ofMembers others = object ms := by
  have hms : (ofMembers others).members = ms := (increasing_ofMembers others).ext h hget
  rw [← hms]
  rfl

theorem ofMembers_ext {others : List (String × Json)}
    (h : ∀ name, (ofMembers ms).member? name = (ofMembers others).member? name) :
    ofMembers ms = ofMembers others :=
  ofMembers_eq (increasing_ofMembers others) h

theorem ofMembers_of_increasing (h : Fields.Increasing ms) : ofMembers ms = object ms :=
  ofMembers_eq h (member?_ofMembers_of_distinct h.distinct)

theorem member?_put (h : Fields.Distinct j.members) (other : String) :
    (j.put name v).member? other = if name = other then some v else j.member? other := by
  have hkept : Fields.get? other j.members.reverse = j.member? other := by
    rw [member?_eq_get?]
    exact h.get?_of_perm (List.reverse_perm _) other
  rw [put, member?_ofMembers, List.reverse_append, List.reverse_singleton, List.singleton_append,
    Fields.get?, hkept]

/-- Only the members that a document has count when a path is followed into it. -/
theorem assign_congr {j' : Json} (h : j.members = j'.members) {names : List String}
    (hne : names ≠ []) (v : Json) : j.assign v names = j'.assign v names := by
  cases names with
  | nil => exact absurd rfl hne
  | cons name rest =>
    cases rest <;> simp only [assign, put, member?_eq_get?, h]

/-- A document that a scope can stand over: its members are proper, and it is not an array. -/
structure Open (j : Json) : Prop where
  increasing : Fields.Increasing j.members
  proper : ∀ name v, j.member? name = some v → v.Proper
  noArray : ∀ items, j ≠ .array items

theorem Open.of_members (h : j.members = []) (harray : ∀ items, j ≠ .array items) : j.Open where
  increasing := by
    rw [h]
    exact List.Pairwise.nil
  proper name v hget := by
    rw [member?_eq_get?, h] at hget
    cases hget
  noArray := harray

theorem Proper.open (h : j.Proper) (harray : ∀ items, j ≠ .array items) : j.Open := by
  cases j with
  | object ms => exact ⟨h.1, fun _ _ hget => h.2.of_mem (Fields.mem_of_get? hget), harray⟩
  | array items => exact absurd rfl (harray items)
  | null | bool | int | float | text => exact .of_members rfl harray

end Json

namespace Value
variable {j : Json} {ms : List (String × Json)} {name : String}

mutual

/-- A proper document is the document of its value. -/
theorem toJson_ofJson {keyText : Value → String} {scopeJson : Scope → Json} (j : Json)
    (h : j.Proper) : (ofJson j).toJson keyText scopeJson = j := by
  cases j with
  | null | bool | text => rfl
  | int n =>
    obtain ⟨hleast, hgreatest⟩ : leastInt ≤ n ∧ n ≤ greatestInt := h
    rw [ofJson, if_pos ⟨hleast, hgreatest⟩, toJson]
    exact congrArg Json.int (Int64.toInt_ofInt_of_le hleast (Int.lt_add_one_of_le hgreatest))
  | float x =>
    rw [ofJson, toJson]
    exact if_pos h
  | array items =>
    rw [ofJson, toJson]
    exact congrArg Json.array (toJsonItems_ofJsonItems items h)
  | object ms =>
    rw [ofJson, toJson, toJsonFields_ofJsonMembers ms h.2]
    exact Json.ofMembers_of_increasing h.1

theorem toJsonItems_ofJsonItems {keyText : Value → String} {scopeJson : Scope → Json}
    (items : List Json) (h : Json.ProperItems items) :
    toJsonItems keyText scopeJson (ofJsonItems items) = items := by
  cases items with
  | nil => rfl
  | cons j rest =>
    rw [ofJsonItems, toJsonItems, toJson_ofJson j h.1, toJsonItems_ofJsonItems rest h.2]

theorem toJsonFields_ofJsonMembers {keyText : Value → String} {scopeJson : Scope → Json}
    (ms : List (String × Json)) (h : Json.ProperMembers ms) :
    toJsonFields keyText scopeJson (ofJsonMembers ms) = ms := by
  cases ms with
  | nil => rfl
  | cons m rest =>
    obtain ⟨k, j⟩ := m
    rw [ofJsonMembers, toJsonFields, toJson_ofJson j h.1, toJsonFields_ofJsonMembers rest h.2]

end

mutual

/-- A document has no scope in it. -/
theorem scopes_ofJson (props : Bool) (j : Json) : (ofJson j).scopes props = [] := by
  cases j with
  | null | bool | float | text => rfl
  | int n =>
    rw [ofJson]
    split <;> rfl
  | array items =>
    rw [ofJson, scopes]
    exact scopesItems_ofJsonItems props items
  | object ms =>
    rw [ofJson, scopes]
    exact scopesFields_ofJsonMembers props ms

theorem scopesItems_ofJsonItems (props : Bool) (items : List Json) :
    scopesItems props (ofJsonItems items) = [] := by
  cases items with
  | nil => rfl
  | cons j rest =>
    rw [ofJsonItems, scopesItems, scopes_ofJson props j, scopesItems_ofJsonItems props rest,
      List.nil_append]

theorem scopesFields_ofJsonMembers (props : Bool) (ms : List (String × Json)) :
    (scopesFields props (ofJsonMembers ms)).flatMap (·.2) = [] := by
  cases ms with
  | nil => rfl
  | cons m rest =>
    obtain ⟨k, j⟩ := m
    rw [ofJsonMembers, scopesFields, List.flatMap_cons, scopes_ofJson props j,
      scopesFields_ofJsonMembers props rest, List.nil_append]

end

mutual

theorem reach_ofJson (j : Json) : (ofJson j).reach = 0 := by
  cases j with
  | null | bool | float | text => rfl
  | int n =>
    rw [ofJson]
    split <;> rfl
  | array items =>
    rw [ofJson, reach]
    exact reachItems_ofJsonItems items
  | object ms =>
    rw [ofJson, reach]
    exact reachFields_ofJsonMembers ms

theorem reachItems_ofJsonItems (items : List Json) : reachItems (ofJsonItems items) = 0 := by
  cases items with
  | nil => rfl
  | cons j rest =>
    rw [ofJsonItems, reachItems, reach_ofJson j, reachItems_ofJsonItems rest, Nat.max_self]

theorem reachFields_ofJsonMembers (ms : List (String × Json)) :
    reachFields (ofJsonMembers ms) = 0 := by
  cases ms with
  | nil => rfl
  | cons m rest =>
    obtain ⟨k, j⟩ := m
    rw [ofJsonMembers, reachFields, reach_ofJson j, reachFields_ofJsonMembers rest, Nat.max_self]

end

theorem ofJson_ne_scope (j : Json) (s : Scope) : ofJson j ≠ .scope s := by
  intro h
  have hscopes := scopes_ofJson true j
  rw [h] at hscopes
  cases hscopes

theorem ofJson_eq_null (h : ofJson j = .null) : j = .null := by
  cases j with
  | null => rfl
  | int n =>
    rw [ofJson] at h
    split at h <;> cases h
  | bool | float | text | array | object => cases h

theorem toScope_ofJson (j : Json) (outer : Scope) :
    (ofJson j).toScope outer = .over (ofJson j) outer := by
  unfold toScope
  split
  · next s hs => exact absurd hs (ofJson_ne_scope j s)
  · rfl

/-- A count is a whole number as documents have them. -/
theorem ofNat_eq_ofJson (n : Nat) : ofNat n = ofJson (.int n) := by
  have hint : Int64.ofNat n = Int64.ofInt n := Int64.ofInt_eq_ofNat.symm
  by_cases h : n < 9223372036854775808
  · have hrange : leastInt ≤ (n : Int) ∧ (n : Int) ≤ greatestInt := by
      unfold leastInt greatestInt
      omega
    rw [ofNat, if_pos h, ofJson, if_pos hrange, hint]
  · have hrange : ¬(leastInt ≤ (n : Int) ∧ (n : Int) ≤ greatestInt) := by
      unfold greatestInt
      omega
    rw [ofNat, if_neg h, ofJson, if_neg hrange]

theorem ofJsonMembers_eq_map (ms : List (String × Json)) :
    ofJsonMembers ms = ms.map fun (k, j) => (k, ofJson j) := by
  induction ms with
  | nil => rfl
  | cons m rest ih => rw [ofJsonMembers, ih, List.map_cons]

theorem mem_ofJsonMembers {v : Value} (h : (name, v) ∈ ofJsonMembers ms) :
    ∃ j, (name, j) ∈ ms ∧ v = ofJson j := by
  rw [ofJsonMembers_eq_map] at h
  obtain ⟨m, hm, heq⟩ := List.mem_map.1 h
  cases heq
  exact ⟨m.2, hm, rfl⟩

theorem distinct_ofJsonMembers (h : Fields.Distinct ms) : Fields.Distinct (ofJsonMembers ms) := by
  rw [ofJsonMembers_eq_map]
  exact h.map ofJson

theorem get?_ofJsonMembers (ms : List (String × Json)) (name : String) :
    Fields.get? name (ofJsonMembers ms) = (Fields.get? name ms).map ofJson := by
  rw [ofJsonMembers_eq_map, Fields.get?_map]

/-- The entries of a document that a scope stands over are its members. -/
theorem members_ofJson (h : ∀ items, j ≠ .array items) :
    (ofJson j).members = ofJsonMembers j.members := by
  cases j with
  | array items => exact absurd rfl (h items)
  | int n =>
    rw [ofJson]
    split <;> rfl
  | null | bool | float | text | object => rfl

/-- A name means the member of that name. Text has a length without having a member. -/
theorem member?_ofJson (h : ∀ items, j ≠ .array items) (hname : isSizeName name = false) :
    (ofJson j).member? name = (j.member? name).map ofJson ∨
      (j.member? name = none ∧ ∃ n : Nat, (ofJson j).member? name = some (ofJson (.int n))) := by
  have hcount (n : Nat) : sizeMember? name n = none := sizeMember?_eq_none_iff.2 hname
  cases j with
  | array items => exact absurd rfl (h items)
  | object ms =>
    left
    rw [ofJson, member?, hcount, Option.or_none, get?_ofJsonMembers]
    rfl
  | text s =>
    have htext : (ofJson (.text s)).member? name =
      if name = "length" then some (ofNat s.length)
      else if name = "isEmpty" then some (.bool (s == "")) else none := rfl
    by_cases hlength : name = "length"
    · exact .inr ⟨rfl, s.length, by rw [htext, if_pos hlength, ofNat_eq_ofJson]⟩
    · have hempty : name ≠ "isEmpty" := by
        rintro rfl
        cases hname
      exact .inl (by rw [htext, if_neg hlength, if_neg hempty]; rfl)
  | int n =>
    left
    rw [ofJson]
    split <;> rfl
  | null | bool | float => exact .inl rfl

end Value

end TextTemplate
