import Mathlib.Data.Finset.Card
import TextTemplate.Memo

/-! Whatever is made for an id is made once. A cache is asked for ids, and handles are asked where
they lead, in any order; each time something has to be made it may come out as it likes. What is
answered is told by the requests before: what counts is the first success. -/

namespace TextTemplate

namespace Memo
variable {κ ε α : Type} [DecidableEq κ]

/-- An attempt that comes out as given, and that counts how often it is run. -/
def counted (outcome : Except ε α) : StateM ℕ (Except ε α) := do
  modify (· + 1)
  return outcome

/-- What is loaded, how often something was made for it, and what is kept. -/
def request (m : Memo κ α) (key : κ) (outcome : Except ε α) : (Except ε α × ℕ) × Memo κ α :=
  let ((result, m'), runs) := Id.run ((m.load key (counted outcome)).run 0)
  ((result, runs), m')

theorem request_of_made {m : Memo κ α} {key : κ} {a : α} (h : m.get? key = some a)
    (outcome : Except ε α) : m.request key outcome = ((.ok a, 0), m.reserve key) := by
  simp [request, load, h]

theorem request_ok {m : Memo κ α} {key : κ} (h : m.get? key = none) (a : α) :
    m.request key (.ok a : Except ε α) = ((.ok a, 1), (m.reserve key).fill key a) := by
  simp [request, load, counted, h]

theorem request_error {m : Memo κ α} {key : κ} (h : m.get? key = none) (e : ε) :
    m.request key (.error e) = ((.error e, 1), m.reserve key) := by
  simp [request, load, counted, h]

/-- A slot that is filled stays as it is, and an empty one takes what comes out. -/
theorem get?_request (m : Memo κ α) (key other : κ) (outcome : Except ε α) :
    (m.request key outcome).2.get? other =
      (m.get? other).or (if key = other then outcome.toOption else none) := by
  cases hkey : m.get? key with
  | some a =>
    rw [request_of_made hkey, get?_reserve]
    split
    · next heq => rw [← heq, hkey, Option.some_or]
    · rw [Option.or_none]
  | none =>
    cases outcome with
    | error e =>
      rw [request_error hkey, get?_reserve]
      split <;> exact (Option.or_none).symm
    | ok a =>
      rw [request_ok hkey, get?_fill _ (m.mem_reserve key), get?_reserve]
      split
      · next heq => rw [← heq, hkey, Option.none_or, Except.toOption]
      · rw [Option.or_none]

@[simp] theorem followed?_request (m : Memo κ α) (key : κ) (outcome : Except ε α)
    (h : Handle κ) : (m.request key outcome).2.followed? h = m.followed? h := by
  cases hkey : m.get? key with
  | some a => rw [request_of_made hkey, followed?_reserve]
  | none =>
    cases outcome with
    | error e => rw [request_error hkey, followed?_reserve]
    | ok a =>
      rw [request_ok hkey, ← followed?_reserve m key h]
      rfl

/-- The same through a handle that stands in a template. -/
def requestThrough (m : Memo κ α) (h : Handle κ) (outcome : Except ε α) :
    (Except ε α × ℕ) × Memo κ α :=
  let ((result, m'), runs) := Id.run ((m.follow h (counted outcome)).run 0)
  ((result, runs), m')

/-- What handles are known to lead to is what is kept for their keys. -/
def InStep (m : Memo κ α) : Prop := ∀ h a, m.followed? h = some a → m.get? h.key = some a

theorem InStep.request {m : Memo κ α} (hm : m.InStep) (key : κ) (outcome : Except ε α) :
    (m.request key outcome).2.InStep := by
  intro h a hfollowed
  rw [followed?_request] at hfollowed
  rw [get?_request, hm h a hfollowed, Option.some_or]

theorem InStep.keep {m : Memo κ α} (hm : m.InStep) {h : Handle κ} {a : α}
    (hkey : m.get? h.key = some a) : (m.keep h a).InStep := by
  intro other b hfollowed
  rw [followed?_keep] at hfollowed
  rw [get?_keep]
  split at hfollowed
  · next heq => rw [← heq.2, hkey, hfollowed]
  · exact hm other b hfollowed

theorem get?_of_request_ok {m m' : Memo κ α} {key : κ} {outcome : Except ε α} {a : α} {runs : ℕ}
    (h : m.request key outcome = ((.ok a, runs), m')) : m'.get? key = some a := by
  have hget := get?_request m key key outcome
  rw [h, if_pos rfl] at hget
  cases hkey : m.get? key with
  | some b =>
    rw [request_of_made hkey] at h
    cases h
    rw [hget, hkey, Option.some_or]
  | none =>
    cases outcome with
    | error e =>
      rw [request_error hkey] at h
      cases h
    | ok b =>
      rw [request_ok hkey] at h
      cases h
      rw [hget, hkey, Option.none_or, Except.toOption]

theorem requestThrough_of_followed {m : Memo κ α} {h : Handle κ} {a : α}
    (hfollowed : m.followed? h = some a) (outcome : Except ε α) :
    m.requestThrough h outcome = ((.ok a, 0), m) := by
  simp [requestThrough, follow, hfollowed]

theorem requestThrough_of_not_followed {m : Memo κ α} {h : Handle κ}
    (hfollowed : m.followed? h = none) (outcome : Except ε α) :
    m.requestThrough h outcome =
      match m.request h.key outcome with
      | ((.ok a, runs), m') => ((.ok a, runs), m'.keep h a)
      | ((.error e, runs), m') => ((.error e, runs), m') := by
  cases hkey : m.get? h.key with
  | some a => simp [requestThrough, follow, hfollowed, request_of_made, load, hkey]
  | none =>
    cases outcome <;>
      simp [requestThrough, follow, hfollowed, request_ok, request_error, load, counted, hkey]

/-- A handle that stands in a template gives what a request for its key gives, and leaves as much
made for every key. -/
theorem InStep.requestThrough {m : Memo κ α} (hm : m.InStep) (h : Handle κ)
    (outcome : Except ε α) :
    (m.requestThrough h outcome).1 = (m.request h.key outcome).1 ∧
      (∀ key, (m.requestThrough h outcome).2.get? key = (m.request h.key outcome).2.get? key) ∧
      (m.requestThrough h outcome).2.InStep := by
  cases hfollowed : m.followed? h with
  | some a =>
    rw [requestThrough_of_followed hfollowed, request_of_made (hm h a hfollowed)]
    exact ⟨rfl, fun key => (get?_reserve m h.key key).symm, hm⟩
  | none =>
    have hin := hm.request h.key outcome
    rw [requestThrough_of_not_followed hfollowed]
    split
    · next a runs m' hrequest =>
      rw [hrequest] at hin
      exact ⟨by rw [hrequest], fun key => by rw [hrequest, get?_keep],
        hin.keep (get?_of_request_ok hrequest)⟩
    · next e runs m' hrequest =>
      rw [hrequest] at hin
      exact ⟨by rw [hrequest], fun key => by rw [hrequest], hin⟩

theorem get?_eq_some_iff {m : Memo κ α} {key : κ} {a : α} :
    m.get? key = some a ↔ (key, some a) ∈ m.slots := by
  unfold get?
  constructor
  · intro h
    obtain ⟨slot, hfind, hslot⟩ := Option.bind_eq_some_iff.1 h
    have hkey : slot.1 = key := by simpa using List.find?_some hfind
    rw [← hkey, ← hslot]
    exact List.mem_of_find?_eq_some hfind
  · intro hmem
    obtain ⟨slot, hfind⟩ : ∃ slot, m.slots.find? (·.1 = key) = some slot :=
      Option.isSome_iff_exists.1 (List.find?_isSome.2 ⟨_, hmem, by simp⟩)
    have hkey : slot.1 = key := by simpa using List.find?_some hfind
    have hsame : slot = (key, some a) :=
      List.inj_on_of_nodup_map m.distinct (List.mem_of_find?_eq_some hfind) hmem hkey
    rw [hfind, hsame, Option.bind_some]

/-- The size tells how many keys have something. -/
theorem size_eq_card {m : Memo κ α} {made : Finset κ}
    (h : ∀ key, key ∈ made ↔ (m.get? key).isSome) : m.size = made.card := by
  have hdistinct : ((m.slots.filter (·.2.isSome)).map (·.1)).Nodup :=
    m.distinct.sublist (List.filter_sublist.map _)
  have hmade : made = ((m.slots.filter (·.2.isSome)).map (·.1)).toFinset := by
    ext key
    rw [h, Option.isSome_iff_exists]
    simp [get?_eq_some_iff, Option.isSome_iff_exists]
  rw [hmade, List.toFinset_card_of_nodup hdistinct, List.length_map, size,
    List.countP_eq_length_filter]

end Memo

/-- A handle by itself, with a slot for what it led to. Its clones are the same handle: they share
the slot. -/
structure SharedHandle (κ : Type) where
  key : κ
  slot : ℕ

/-- A cache of what is made for ids, and the slots of handles. -/
structure Caches (κ α : Type) where
  compiled : Memo κ α
  loaded : Memo ℕ α

namespace Caches

/-- What can be asked. Each attempt comes with what it would give. -/
inductive Request (κ ε α : Type) where
  | compile (key : κ) (outcome : Except ε α)
  | get (key : κ)
  /-- For how many ids something has been made. -/
  | count
  /-- Through a handle that stands in a template, to what the cache has for its key. -/
  | follow (h : Handle κ) (outcome : Except ε α)
  | load (h : SharedHandle κ) (outcome : κ → Except ε α)
  | peek (h : SharedHandle κ)

inductive Answer (ε α : Type) where
  /-- With how often the attempt was run. -/
  | result (outcome : Except ε α) (runs : ℕ)
  | found (content : Option α)
  | number (n : ℕ)
  deriving DecidableEq

variable {κ ε α : Type} [DecidableEq κ]

def empty : Caches κ α := ⟨.empty, .empty⟩

def step (c : Caches κ α) : Request κ ε α → Answer ε α × Caches κ α
  | .compile key outcome =>
    let ((result, runs), compiled) := c.compiled.request key outcome
    (.result result runs, { c with compiled })
  | .get key => (.found (c.compiled.get? key), c)
  | .count => (.number c.compiled.size, c)
  | .follow h outcome =>
    let ((result, runs), compiled) := c.compiled.requestThrough h outcome
    (.result result runs, { c with compiled })
  | .load h outcome =>
    let ((result, runs), loaded) := c.loaded.request h.slot (outcome h.key)
    (.result result runs, { c with loaded })
  | .peek h => (.found (c.loaded.get? h.slot), c)

/-- The caches after some requests, one after the other. -/
def after (past : List (Request κ ε α)) : Caches κ α :=
  past.foldl (fun c r => (c.step r).2) empty

/-- The answer to a request after others. -/
def answer (past : List (Request κ ε α)) (r : Request κ ε α) : Answer ε α :=
  ((after past).step r).1

/-! ### What the requests before say -/

/-- The slot that a request is about: that of an id, or that of a handle and its clones. -/
def Request.slot? : Request κ ε α → Option (κ ⊕ ℕ)
  | .compile key _ => some (.inl key)
  | .get key => some (.inl key)
  | .count => none
  | .follow h _ => some (.inl h.key)
  | .load h _ => some (.inr h.slot)
  | .peek h => some (.inr h.slot)

/-- What the attempt of a request would give, if it comes with one. -/
def Request.outcome? : Request κ ε α → Option (Except ε α)
  | .compile _ outcome | .follow _ outcome => some outcome
  | .load h outcome => some (outcome h.key)
  | _ => none

/-- What a request would put into a slot. -/
def Request.offer? (r : Request κ ε α) (slot : κ ⊕ ℕ) : Option α :=
  if r.slot? = some slot then r.outcome?.bind Except.toOption else none

/-- The first success for a slot. -/
def first? (past : List (Request κ ε α)) (slot : κ ⊕ ℕ) : Option α :=
  past.findSome? (·.offer? slot)

/-- The ids for which there was a success. -/
def succeeded (past : List (Request κ ε α)) : Finset κ :=
  (past.filterMap fun r =>
    match r.slot?, r.outcome? with
    | some (.inl key), some (.ok _) => some key
    | _, _ => none).toFinset

/-- An attempt is run unless there was a success before, which is then the answer. -/
def attempted (before : Option α) (outcome : Except ε α) : Answer ε α :=
  match before with
  | some a => .result (.ok a) 0
  | none => .result outcome 1

/-- The answer that the requests before call for. -/
def due (past : List (Request κ ε α)) (r : Request κ ε α) : Answer ε α :=
  match r.slot?, r.outcome? with
  | some slot, some outcome => attempted (first? past slot) outcome
  | some slot, none => .found (first? past slot)
  | none, _ => .number (succeeded past).card

section
variable {past past' : List (Request κ ε α)} {r : Request κ ε α} {slot : κ ⊕ ℕ}

theorem mem_succeeded {key : κ} : key ∈ succeeded past ↔ (first? past (.inl key)).isSome := by
  rw [succeeded, List.mem_toFinset, List.mem_filterMap, first?, List.findSome?_isSome_iff]
  refine exists_congr fun r => and_congr_right fun _ => ?_
  rw [Request.offer?]
  rcases r.slot? with _ | other | n
  · simp
  · rcases r.outcome? with _ | e | a
    · simp
    · simp [Except.toOption]
    · by_cases h : other = key <;> simp [Except.toOption, h]
  · simp

/-- What is due for a slot is told by its own first success. -/
theorem due_congr_of_slot (hslot : r.slot? = some slot)
    (h : first? past slot = first? past' slot) : due past r = due past' r := by
  rw [due, due, hslot]
  cases r.outcome? with
  | some outcome => exact congrArg (attempted · outcome) h
  | none => exact congrArg Answer.found h

/-- Only first successes count for what is due. -/
theorem due_congr (h : ∀ slot, first? past slot = first? past' slot) (r : Request κ ε α) :
    due past r = due past' r := by
  cases hslot : r.slot? with
  | some slot => exact due_congr_of_slot hslot (h slot)
  | none =>
    have hsucceeded : succeeded past = succeeded past' := by
      ext key
      rw [mem_succeeded, mem_succeeded, h]
    simp only [due, hslot, hsucceeded]

/-- A request that comes to a failure has nothing to put into any slot. -/
theorem offer?_of_failure {e : ε} {runs : ℕ} (h : due past r = .result (.error e) runs) :
    r.offer? slot = none := by
  rw [due] at h
  rw [Request.offer?]
  cases hslot : r.slot? with
  | none => simp
  | some own =>
    cases houtcome : r.outcome? with
    | none => simp
    | some outcome =>
      simp only [hslot, houtcome, attempted] at h
      split at h
      · cases h
      · cases h
        simp [Except.toOption]

theorem first?_filter : first? (past.filter (·.slot? = some slot)) slot = first? past slot := by
  induction past with
  | nil => rfl
  | cons r rest ih =>
    by_cases h : r.slot? = some slot
    · rw [List.filter_cons_of_pos (by simpa using h), first?, first?, List.findSome?_cons,
        List.findSome?_cons, ← first?, ← first?, ih]
    · have hoffer : r.offer? slot = none := if_neg h
      rw [List.filter_cons_of_neg (by simpa using h), ih, first?, first?, List.findSome?_cons,
        hoffer]

end

/-! ### What the slots hold -/

def content (c : Caches κ α) : κ ⊕ ℕ → Option α
  | .inl key => c.compiled.get? key
  | .inr n => c.loaded.get? n

/-- A request changes no slot that is filled, and no slot but its own. -/
theorem content_step {c : Caches κ α} (hc : c.compiled.InStep) (r : Request κ ε α)
    (slot : κ ⊕ ℕ) : (c.step r).2.content slot = (c.content slot).or (r.offer? slot) := by
  cases r with
  | compile key outcome =>
    cases slot with
    | inl other =>
      simp [step, content, Memo.get?_request, Request.offer?, Request.slot?, Request.outcome?]
    | inr n => simp [step, content, Request.offer?, Request.slot?]
  | follow h outcome =>
    cases slot with
    | inl other =>
      simp [step, content, (hc.requestThrough h outcome).2.1, Memo.get?_request, Request.offer?,
        Request.slot?, Request.outcome?]
    | inr n => simp [step, content, Request.offer?, Request.slot?]
  | load h outcome =>
    cases slot with
    | inl key => simp [step, content, Request.offer?, Request.slot?]
    | inr n =>
      simp [step, content, Memo.get?_request, Request.offer?, Request.slot?, Request.outcome?]
  | get _ | count | peek _ => simp [step, Request.offer?, Request.outcome?]

theorem inStep_step {c : Caches κ α} (hc : c.compiled.InStep) (r : Request κ ε α) :
    (c.step r).2.compiled.InStep := by
  cases r with
  | compile key outcome => exact hc.request key outcome
  | follow h outcome => exact (hc.requestThrough h outcome).2.2
  | get _ | count | load _ _ | peek _ => exact hc

theorem after_append (past : List (Request κ ε α)) (r : Request κ ε α) :
    after (past ++ [r]) = ((after past).step r).2 := by
  rw [after, List.foldl_append]
  rfl

theorem inStep_after (past : List (Request κ ε α)) : (after past).compiled.InStep := by
  induction past using List.reverseRecOn with
  | nil => exact nofun
  | append_singleton past r ih =>
    rw [after_append]
    exact inStep_step ih r

/-- A slot holds the first success for it. -/
theorem content_after (past : List (Request κ ε α)) (slot : κ ⊕ ℕ) :
    (after past).content slot = first? past slot := by
  induction past using List.reverseRecOn with
  | nil => cases slot <;> rfl
  | append_singleton past r ih =>
    rw [after_append, content_step (inStep_after past), ih, first?, first?, List.findSome?_append]
    simp

theorem answer_request (m : Memo κ α) (key : κ) (outcome : Except ε α) :
    Answer.result (m.request key outcome).1.1 (m.request key outcome).1.2 =
      attempted (m.get? key) outcome := by
  cases hkey : m.get? key with
  | some a => rw [Memo.request_of_made hkey, attempted]
  | none =>
    cases outcome with
    | error e => rw [Memo.request_error hkey, attempted]
    | ok a => rw [Memo.request_ok hkey, attempted]

theorem answer_eq_due (past : List (Request κ ε α)) (r : Request κ ε α) :
    answer past r = due past r := by
  have hid (key : κ) : (after past).compiled.get? key = first? past (.inl key) :=
    content_after past (.inl key)
  have hhandle (n : ℕ) : (after past).loaded.get? n = first? past (.inr n) :=
    content_after past (.inr n)
  cases r with
  | compile key outcome =>
    change _ = attempted (first? past (.inl key)) outcome
    rw [← hid, ← answer_request]
    rfl
  | get key => exact congrArg Answer.found (hid key)
  | count =>
    refine congrArg Answer.number (Memo.size_eq_card fun key => ?_)
    rw [mem_succeeded, hid]
  | follow h outcome =>
    change _ = attempted (first? past (.inl h.key)) outcome
    rw [← hid, ← answer_request, ← ((inStep_after past).requestThrough h outcome).1]
    rfl
  | load h outcome =>
    change _ = attempted (first? past (.inr h.slot)) (outcome h.key)
    rw [← hhandle, ← answer_request]
    rfl
  | peek h => exact congrArg Answer.found (hhandle h.slot)

/-- After any requests, an attempt is run unless there was a success for its slot before; the first
success answers whatever is asked about the slot from then on, and the count tells for how many ids
there was one. A request that fails changes no later answer, and neither do requests about another
slot. -/
theorem made_once (past : List (Request κ ε α)) :
    (∀ r, answer past r = due past r) ∧
      (∀ r e runs, answer past r = .result (.error e) runs → ∀ future next,
        answer (past ++ r :: future) next = answer (past ++ future) next) ∧
      ∀ r slot, r.slot? = some slot →
        answer past r = answer (past.filter (·.slot? = some slot)) r := by
  refine ⟨answer_eq_due past, fun r e runs h future next => ?_, fun r slot hslot => ?_⟩
  · rw [answer_eq_due] at h
    rw [answer_eq_due, answer_eq_due]
    refine due_congr (fun slot => ?_) next
    simp [first?, List.findSome?_append, offer?_of_failure h]
  · rw [answer_eq_due, answer_eq_due]
    exact due_congr_of_slot hslot first?_filter.symm

/-- After a failure the same id is tried again, and a handle keeps what it led to first. -/
theorem made_once_tried_again :
    let handle : SharedHandle ℕ := ⟨1, 0⟩
    let failure : Request ℕ String String := .compile 1 (.error "missing")
    let past : List (Request ℕ String String) :=
      [.load handle fun _ => .ok "part", .compile 2 (.ok "page")]
    answer past failure = .result (.error "missing") 1 ∧
      answer (past ++ [failure]) (.compile 1 (.ok "later")) = .result (.ok "later") 1 ∧
      answer past (.load handle fun _ => .ok "other") = .result (.ok "part") 0 := by
  intro handle failure past
  refine ⟨(made_once past).1 failure, ?_, ?_⟩
  · exact ((made_once past).2.1 failure "missing" 1 rfl [] _).trans rfl
  · exact ((made_once past).2.2 _ (.inr 0) rfl).trans rfl

end Caches

end TextTemplate
