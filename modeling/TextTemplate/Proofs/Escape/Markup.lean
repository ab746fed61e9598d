import TextTemplate.Escape.Style

/-! Text for markup, escaped and read again. What the safe form gives is safe text, and it leaves
safe text as it is: its ampersands begin character references, and nothing in it delimits. The
strict form can be undone: resolving its references gives the text, but for line ends and characters
that no document may contain. -/

namespace TextTemplate

namespace Escape.Markup
variable {strict : Bool} {c : Char} {cs ds rest : List Char}

/-! ### Character references -/

/-- What stands between the ampersand and the semicolon of a character reference: a name of ASCII
letters and digits, or a number. -/
inductive IsReferenceBody : List Char → Prop where
  | named {c : Char} {cs : List Char} : c.isAlpha = true → (∀ d ∈ cs, d.isAlphanum = true) →
    1 ≤ cs.length → cs.length ≤ 31 → IsReferenceBody (c :: cs)
  | decimal {ds : List Char} : (∀ d ∈ ds, d.isDigit = true) → 1 ≤ ds.length → ds.length ≤ 7 →
    IsReferenceBody ('#' :: ds)
  | hexadecimal {x : Char} {ds : List Char} : x = 'x' ∨ x = 'X' →
    (∀ d ∈ ds, isHexDigit d = true) → 1 ≤ ds.length → ds.length ≤ 6 →
    IsReferenceBody ('#' :: x :: ds)

/-- The text that follows an ampersand goes on with a character reference. -/
def Refers (rest : List Char) : Prop :=
  ∃ body tail, rest = body ++ ';' :: tail ∧ IsReferenceBody body

theorem isRun_iff {p : Char → Bool} {least most : Nat} (hp : p ';' = false) :
    isRun p least most cs = true ↔
      ∃ ds tail, cs = ds ++ ';' :: tail ∧ (∀ d ∈ ds, p d = true) ∧
        least ≤ ds.length ∧ ds.length ≤ most := by
  simp only [isRun, Bool.and_eq_true, decide_eq_true_eq, beq_iff_eq]
  constructor
  · rintro ⟨⟨hleast, hmost⟩, hend⟩
    obtain ⟨tail, htail⟩ := List.head?_eq_some_iff.1 hend
    have hsplit : cs.takeWhile p ++ cs.dropWhile p = cs := List.takeWhile_append_dropWhile
    have hdrop : cs.drop (cs.takeWhile p).length = cs.dropWhile p := by
      have h : (cs.takeWhile p ++ cs.dropWhile p).drop (cs.takeWhile p).length = cs.dropWhile p :=
        List.drop_left
      rwa [hsplit] at h
    refine ⟨cs.takeWhile p, tail, ?_, List.all_eq_true.1 List.all_takeWhile, hleast, hmost⟩
    rw [← htail, hdrop, hsplit]
  · rintro ⟨ds, tail, rfl, hds, hleast, hmost⟩
    have htake : (ds ++ ';' :: tail).takeWhile p = ds := by
      rw [List.takeWhile_append_of_pos hds, List.takeWhile_cons_of_neg (by simp [hp]),
        List.append_nil]
    rw [htake, List.drop_left]
    exact ⟨⟨hleast, hmost⟩, rfl⟩

theorem isReference_cons (hc : c ≠ '#') (cs : List Char) :
    isReference (c :: cs) = (c.isAlpha && isRun Char.isAlphanum 1 31 cs) := by
  unfold isReference
  split
  · next heq => exact absurd (List.cons.inj heq).1 hc
  · next heq => exact absurd (List.cons.inj heq).1 hc
  · next heq => exact absurd (List.cons.inj heq).1 hc
  · next heq =>
    obtain ⟨rfl, rfl⟩ := List.cons.inj heq
    rfl
  · next heq => cases heq

theorem isReference_decimal (hc : c ≠ 'x' ∧ c ≠ 'X') (cs : List Char) :
    isReference ('#' :: c :: cs) = isRun Char.isDigit 1 7 (c :: cs) := by
  unfold isReference
  split
  · next heq =>
    cases heq
    exact absurd rfl hc.1
  · next heq =>
    cases heq
    exact absurd rfl hc.2
  · next heq =>
    cases heq
    rfl
  · next hsharp heq => exact absurd (List.cons.inj heq).1.symm hsharp
  · next heq => cases heq

/-- What is taken for a reference is one. -/
theorem isReference_iff : isReference rest = true ↔ Refers rest := by
  constructor
  · intro h
    unfold isReference at h
    split at h
    · obtain ⟨ds, tail, rfl, hds, hleast, hmost⟩ := (isRun_iff (by decide)).1 h
      exact ⟨'#' :: 'x' :: ds, tail, rfl, .hexadecimal (.inl rfl) hds hleast hmost⟩
    · obtain ⟨ds, tail, rfl, hds, hleast, hmost⟩ := (isRun_iff (by decide)).1 h
      exact ⟨'#' :: 'X' :: ds, tail, rfl, .hexadecimal (.inr rfl) hds hleast hmost⟩
    · obtain ⟨ds, tail, rfl, hds, hleast, hmost⟩ := (isRun_iff (by decide)).1 h
      exact ⟨'#' :: ds, tail, rfl, .decimal hds hleast hmost⟩
    · obtain ⟨hc, hrun⟩ := Bool.and_eq_true_iff.1 h
      obtain ⟨ds, tail, rfl, hds, hleast, hmost⟩ := (isRun_iff (by decide)).1 hrun
      exact ⟨_ :: ds, tail, rfl, .named hc hds hleast hmost⟩
    · cases h
  · rintro ⟨body, tail, rfl, hbody⟩
    cases hbody with
    | @named c cs hc hcs hleast hmost =>
      have hsharp : c ≠ '#' := by
        rintro rfl
        cases hc
      rw [List.cons_append, isReference_cons hsharp, hc, Bool.true_and]
      exact (isRun_iff (by decide)).2 ⟨cs, tail, rfl, hcs, hleast, hmost⟩
    | @decimal ds hds hleast hmost =>
      obtain ⟨d, ds, rfl⟩ := List.exists_cons_of_length_pos hleast
      have hd : d ≠ 'x' ∧ d ≠ 'X' := by
        have hdigit := hds d List.mem_cons_self
        constructor
        all_goals
          rintro rfl
          cases hdigit
      rw [List.cons_append, List.cons_append, isReference_decimal hd]
      exact (isRun_iff (by decide)).2 ⟨d :: ds, tail, rfl, hds, hleast, hmost⟩
    | @hexadecimal x ds hx hds hleast hmost =>
      have hrun : isRun isHexDigit 1 6 (ds ++ ';' :: tail) = true :=
        (isRun_iff (by decide)).2 ⟨ds, tail, rfl, hds, hleast, hmost⟩
      rcases hx with rfl | rfl
      · exact hrun
      · exact hrun

/-! ### Ordinary characters -/

/-- Whether a character stands for itself in either form. -/
def isOrdinary (c : Char) : Bool :=
  !(['\r', '&', '<', '>', '"', '\'', '`', '='].contains c || isForbidden c)

theorem charText_ordinary (h : isOrdinary c = true) (rest : List Char) :
    charText strict c rest = [c] := by
  simp only [isOrdinary, Bool.not_eq_true', Bool.or_eq_false_iff, List.contains_cons,
    List.contains_nil, beq_eq_false_iff_ne] at h
  obtain ⟨⟨hreturn, hand, hlt, hgt, hquote, hapostrophe, hbacktick, hequals, _⟩, hforbidden⟩ := h
  simp [charText, hreturn, hand, hlt, hgt, hquote, hapostrophe, hbacktick, hequals, hforbidden]

theorem escape_cons (h : c ≠ '\r') (rest : List Char) :
    escape strict (c :: rest) = charText strict c rest ++ escape strict rest := by
  rw [escape]
  intro _ hc
  exact absurd hc h

/-- Ordinary characters are kept wherever they stand. -/
theorem escape_ordinary (h : ∀ c ∈ cs, isOrdinary c = true) (rest : List Char) :
    escape strict (cs ++ rest) = cs ++ escape strict rest := by
  induction cs with
  | nil => rfl
  | cons c cs ih =>
    obtain ⟨hc, hcs⟩ := List.forall_mem_cons.1 h
    have hreturn : c ≠ '\r' := by
      rintro rfl
      cases hc
    rw [List.cons_append, escape_cons hreturn, charText_ordinary hc, ih hcs]
    rfl

/-- ASCII letters and digits by their numbers. -/
theorem isAlphanum_iff : c.isAlphanum = true ↔
    ((0x41 ≤ c.toNat ∧ c.toNat ≤ 0x5a) ∨ (0x61 ≤ c.toNat ∧ c.toNat ≤ 0x7a)) ∨
      (0x30 ≤ c.toNat ∧ c.toNat ≤ 0x39) := by
  have hupper : c.isUpper = true ↔ 0x41 ≤ c.toNat ∧ c.toNat ≤ 0x5a := decide_eq_true_iff
  have hlower : c.isLower = true ↔ 0x61 ≤ c.toNat ∧ c.toNat ≤ 0x7a :=
    Bool.and_eq_true_iff.trans (and_congr decide_eq_true_iff decide_eq_true_iff)
  have hdigit : c.isDigit = true ↔ 0x30 ≤ c.toNat ∧ c.toNat ≤ 0x39 :=
    Bool.and_eq_true_iff.trans (and_congr decide_eq_true_iff decide_eq_true_iff)
  have halpha : c.isAlpha = true ↔ c.isUpper = true ∨ c.isLower = true := Bool.or_eq_true_iff
  have halphanum : c.isAlphanum = true ↔ c.isAlpha = true ∨ c.isDigit = true := Bool.or_eq_true_iff
  rw [halphanum, halpha, hupper, hlower, hdigit]

theorem isOrdinary_of_isAlphanum (h : c.isAlphanum = true) : isOrdinary c = true := by
  have hascii : c.toNat < 0x80 := by
    have hranges := isAlphanum_iff.1 h
    omega
  have hall : ∀ n < 0x80, (Char.ofNat n).isAlphanum = true → isOrdinary (Char.ofNat n) = true := by
    decide +kernel
  have hc := hall c.toNat hascii
  rw [Char.ofNat_toNat] at hc
  exact hc h

theorem isAlphanum_of_isHexDigit (h : isHexDigit c = true) : c.isAlphanum = true := by
  have hlast : 'f'.toNat ≤ 0x7a ∧ 'F'.toNat ≤ 0x5a := by decide
  simp only [isHexDigit, Bool.or_eq_true, Bool.and_eq_true, decide_eq_true_eq, Char.le_def,
    UInt32.le_iff_toNat_le] at h
  rcases h with (hdigit | hlower) | hupper
  · exact Bool.or_eq_true_iff.2 (.inr hdigit)
  · exact isAlphanum_iff.2 (.inl (.inr ⟨hlower.1, Nat.le_trans hlower.2 hlast.1⟩))
  · exact isAlphanum_iff.2 (.inl (.inl ⟨hupper.1, Nat.le_trans hupper.2 hlast.2⟩))

theorem IsReferenceBody.ordinary {body : List Char} (h : IsReferenceBody body) :
    ∀ c ∈ body, isOrdinary c = true := by
  have hdigit {ds : List Char} (hds : ∀ d ∈ ds, d.isDigit = true) :
      ∀ d ∈ ds, isOrdinary d = true := by
    intro d hd
    exact isOrdinary_of_isAlphanum (Bool.or_eq_true_iff.2 (.inr (hds d hd)))
  cases h with
  | named hc hcs =>
    refine List.forall_mem_cons.2 ⟨?_, fun d hd => isOrdinary_of_isAlphanum (hcs d hd)⟩
    exact isOrdinary_of_isAlphanum (Bool.or_eq_true_iff.2 (.inl hc))
  | decimal hds => exact List.forall_mem_cons.2 ⟨rfl, hdigit hds⟩
  | hexadecimal hx hds =>
    refine List.forall_mem_cons.2 ⟨rfl, List.forall_mem_cons.2 ⟨?_, fun d hd => ?_⟩⟩
    · rcases hx with rfl | rfl
      · rfl
      · rfl
    · exact isOrdinary_of_isAlphanum (isAlphanum_of_isHexDigit (hds d hd))

/-- Escaping does not touch a reference that follows. -/
theorem Refers.escape (h : Refers rest) : Refers (escape strict rest) := by
  obtain ⟨body, tail, rfl, hbody⟩ := h
  have hordinary : ∀ c ∈ body ++ [';'], isOrdinary c = true :=
    List.forall_mem_append.2 ⟨hbody.ordinary, List.forall_mem_singleton.2 rfl⟩
  have hescape : Markup.escape strict (body ++ [';'] ++ tail) =
      body ++ [';'] ++ Markup.escape strict tail := escape_ordinary hordinary tail
  rw [List.append_assoc, List.append_assoc] at hescape
  exact ⟨body, Markup.escape strict tail, hescape, hbody⟩

/-! ### Safe text -/

/-- The references that a character can be written as. -/
def references : List (String × Char) :=
  [("amp", '&'), ("lt", '<'), ("gt", '>'), ("quot", '"'), ("#39", '\''), ("#96", '`'), ("#61", '=')]

/-- What a character is written as when `rest` follows it. -/
inductive Written (strict : Bool) (c : Char) (rest : List Char) : List Char → Prop where
  | lineFeed : c = '\r' → Written strict c rest ['\n']
  | kept : strict = false → c = '&' → isReference rest = true → Written strict c rest ['&']
  | referred (name : String) : (name, c) ∈ references →
    Written strict c rest ('&' :: (name.toList ++ [';']))
  | dropped : c ≠ '\r' → isForbidden c = true → Written strict c rest []
  | own : c ∉ '\r' :: '&' :: delimiters → (strict = true → c ≠ '`' ∧ c ≠ '=') →
    isForbidden c = false → Written strict c rest [c]

theorem written_charText (strict : Bool) (c : Char) (rest : List Char) :
    Written strict c rest (charText strict c rest) := by
  unfold charText
  split
  · next hreturn => exact .lineFeed hreturn
  split
  · next hreturn hand =>
    subst hand
    split
    · next hkept =>
      rw [Bool.and_eq_true, Bool.not_eq_true'] at hkept
      exact .kept hkept.1 rfl hkept.2
    · exact .referred "amp" (by simp [references])
  split
  · next hlt => exact .referred "lt" (by simp [references, hlt])
  split
  · next hgt => exact .referred "gt" (by simp [references, hgt])
  split
  · next hquote => exact .referred "quot" (by simp [references, hquote])
  split
  · next hapostrophe => exact .referred "#39" (by simp [references, hapostrophe])
  split
  · next hbacktick =>
    rw [Bool.and_eq_true, decide_eq_true_eq] at hbacktick
    exact .referred "#96" (by simp [references, hbacktick.2])
  split
  · next hequals =>
    rw [Bool.and_eq_true, decide_eq_true_eq] at hequals
    exact .referred "#61" (by simp [references, hequals.2])
  split
  · next hreturn _ _ _ _ _ _ _ hforbidden => exact .dropped hreturn hforbidden
  · next hreturn hand hlt hgt hquote hapostrophe hbacktick hequals hforbidden =>
    refine .own ?_ ?_ (Bool.eq_false_iff.2 hforbidden)
    · simp [delimiters, hreturn, hand, hlt, hgt, hquote, hapostrophe]
    · rintro rfl
      simp only [Bool.true_and, decide_eq_true_eq] at hbacktick hequals
      exact ⟨hbacktick, hequals⟩

/-- Text that ends nothing and starts nothing where it stands: no delimiter, nothing that no
document may contain, and no ampersand but that of a character reference. -/
structure IsSafe (cs : List Char) : Prop where
  plain : ∀ c ∈ cs, c ∉ delimiters ∧ c ≠ '\r' ∧ isForbidden c = false
  refers : ∀ lead rest, cs = lead ++ '&' :: rest → Refers rest

theorem isSafe_nil : IsSafe [] where
  plain := nofun
  refers := by simp

theorem isSafe_cons_iff : IsSafe (c :: cs) ↔
    (c ∉ delimiters ∧ c ≠ '\r' ∧ isForbidden c = false) ∧ (c = '&' → Refers cs) ∧ IsSafe cs := by
  constructor
  · intro h
    obtain ⟨hc, hcs⟩ := List.forall_mem_cons.1 h.plain
    refine ⟨hc, ?_, hcs, ?_⟩
    · rintro rfl
      exact h.refers [] cs rfl
    · rintro lead rest rfl
      exact h.refers (c :: lead) rest rfl
  · rintro ⟨hc, hrefers, hcs⟩
    refine ⟨List.forall_mem_cons.2 ⟨hc, hcs.plain⟩, fun lead rest heq => ?_⟩
    cases lead with
    | nil =>
      cases heq
      exact hrefers rfl
    | cons d lead =>
      cases heq
      exact hcs.refers lead rest rfl

theorem IsSafe.append_ordinary (h : IsSafe rest) (hcs : ∀ c ∈ cs, isOrdinary c = true) :
    IsSafe (cs ++ rest) := by
  induction cs with
  | nil => exact h
  | cons c cs ih =>
    obtain ⟨hc, hcs⟩ := List.forall_mem_cons.1 hcs
    simp only [isOrdinary, Bool.not_eq_true', Bool.or_eq_false_iff, List.contains_cons,
      List.contains_nil, beq_eq_false_iff_ne] at hc
    obtain ⟨⟨hreturn, hand, hlt, hgt, hquote, hapostrophe, _⟩, hforbidden⟩ := hc
    refine isSafe_cons_iff.2 ⟨⟨?_, hreturn, hforbidden⟩, fun h => absurd h hand, ih hcs⟩
    simp [delimiters, hlt, hgt, hquote, hapostrophe]

/-- What a character is written as is a reference, whatever follows it. -/
theorem isReference_entry {name : String} (h : (name, c) ∈ references) (rest : List Char) :
    isReference (name.toList ++ ';' :: rest) = true := by
  simp only [references, List.mem_cons, Prod.mk.injEq, List.not_mem_nil, or_false] at h
  rcases h with h | h | h | h | h | h | h
  all_goals
    rw [h.1]
    rfl

theorem ordinary_entry {name : String} (h : (name, c) ∈ references) :
    ∀ d ∈ name.toList ++ [';'], isOrdinary d = true := by
  have hall : (references.all fun entry => (entry.1.toList ++ [';']).all isOrdinary) = true := by
    rfl
  exact List.all_eq_true.1 (List.all_eq_true.1 hall (name, c) h)

/-- The safe form gives safe text. -/
theorem isSafe_escape (cs : List Char) : IsSafe (escape false cs) := by
  have hlineFeed {rest : List Char} (h : IsSafe rest) : IsSafe ('\n' :: rest) :=
    isSafe_cons_iff.2 ⟨by decide, fun hand => absurd hand (by decide), h⟩
  fun_induction escape false cs with
  | case1 => exact isSafe_nil
  | case2 rest ih => exact hlineFeed ih
  | case3 c rest _ ih =>
    have hwritten := written_charText false c rest
    generalize charText false c rest = written at hwritten ⊢
    cases hwritten with
    | lineFeed => exact hlineFeed ih
    | kept _ hand hkept =>
      have hrefers : Refers (escape false rest) := (isReference_iff.1 hkept).escape
      exact isSafe_cons_iff.2 ⟨by decide, fun _ => hrefers, ih⟩
    | referred name hname =>
      have hrefers := isReference_iff.1 (isReference_entry hname (escape false rest))
      have hsafe := ih.append_ordinary (ordinary_entry hname)
      rw [List.append_assoc, List.singleton_append] at hsafe
      rw [List.cons_append, List.append_assoc, List.singleton_append]
      exact isSafe_cons_iff.2 ⟨by decide, fun _ => hrefers, hsafe⟩
    | dropped => exact ih
    | own hown _ hforbidden =>
      simp only [List.mem_cons, not_or] at hown
      obtain ⟨hreturn, hand, hdelimiter⟩ := hown
      exact isSafe_cons_iff.2 ⟨⟨hdelimiter, hreturn, hforbidden⟩, fun h => absurd h hand, ih⟩

/-- The safe form leaves safe text as it is. -/
theorem IsSafe.escape_eq (h : IsSafe cs) : escape false cs = cs := by
  induction cs with
  | nil => rfl
  | cons c cs ih =>
    obtain ⟨⟨hdelimiter, hreturn, hforbidden⟩, hrefers, hcs⟩ := isSafe_cons_iff.1 h
    have hself : charText false c cs = [c] := by
      by_cases hand : c = '&'
      · have hkept := isReference_iff.2 (hrefers hand)
        simp [charText, hand, hkept]
      · simp only [delimiters, List.mem_cons, List.not_mem_nil, or_false, not_or] at hdelimiter
        simp [charText, hreturn, hand, hdelimiter, hforbidden]
    rw [escape_cons hreturn, hself, ih hcs]
    rfl

/-- Safe text is what the safe form leaves as it is. -/
theorem escape_eq_self_iff : escape false cs = cs ↔ IsSafe cs := by
  constructor
  · intro h
    rw [← h]
    exact isSafe_escape cs
  · exact IsSafe.escape_eq

/-! ### Resolving references -/

/-- Puts the characters in place of the references that the strict form writes, left to right. -/
def resolve : List Char → List Char
  | '&' :: 'a' :: 'm' :: 'p' :: ';' :: rest => '&' :: resolve rest
  | '&' :: 'l' :: 't' :: ';' :: rest => '<' :: resolve rest
  | '&' :: 'g' :: 't' :: ';' :: rest => '>' :: resolve rest
  | '&' :: 'q' :: 'u' :: 'o' :: 't' :: ';' :: rest => '"' :: resolve rest
  | '&' :: '#' :: '3' :: '9' :: ';' :: rest => '\'' :: resolve rest
  | '&' :: '#' :: '9' :: '6' :: ';' :: rest => '`' :: resolve rest
  | '&' :: '#' :: '6' :: '1' :: ';' :: rest => '=' :: resolve rest
  | c :: rest => c :: resolve rest
  | [] => []

/-- Text with every line end as a line feed. -/
def lineFeeds : List Char → List Char
  | [] => []
  | '\r' :: '\n' :: rest => '\n' :: lineFeeds rest
  | c :: rest => (if c = '\r' then '\n' else c) :: lineFeeds rest

/-- Text as a document may contain it. -/
def canonical (cs : List Char) : List Char := (lineFeeds cs).filter fun c => !isForbidden c

theorem resolve_entry {name : String} (h : (name, c) ∈ references) (rest : List Char) :
    resolve ('&' :: (name.toList ++ ';' :: rest)) = c :: resolve rest := by
  simp only [references, List.mem_cons, Prod.mk.injEq, List.not_mem_nil, or_false] at h
  rcases h with h | h | h | h | h | h | h
  all_goals
    rw [h.1, h.2]
    rfl

theorem resolve_cons (h : c ≠ '&') (rest : List Char) :
    resolve (c :: rest) = c :: resolve rest := by
  rw [resolve]
  all_goals
    intros
    exact absurd ‹_› h

theorem canonical_cons (hbreak : ∀ after, c = '\r' → rest = '\n' :: after → False) :
    canonical (c :: rest) =
      [if c = '\r' then '\n' else c].filter (fun d => !isForbidden d) ++ canonical rest := by
  rw [canonical, lineFeeds, ← List.singleton_append, List.filter_append]
  · rfl
  · exact hbreak

theorem entry_kept {name : String} (h : (name, c) ∈ references) :
    c ≠ '\r' ∧ isForbidden c = false := by
  have hall : (references.all fun entry => entry.2 != '\r' && !isForbidden entry.2) = true := by
    rfl
  simpa using List.all_eq_true.1 hall (name, c) h

/-- The strict form is undone up to line ends and what no document may contain. -/
theorem resolve_escape (cs : List Char) : resolve (escape true cs) = canonical cs := by
  fun_induction escape true cs with
  | case1 => rfl
  | case2 rest ih =>
    rw [resolve_cons (by decide), ih]
    rfl
  | case3 c rest hbreak ih =>
    rw [canonical_cons hbreak]
    have hwritten := written_charText true c rest
    generalize charText true c rest = written at hwritten ⊢
    cases hwritten with
    | lineFeed hreturn =>
      subst hreturn
      rw [List.singleton_append, resolve_cons (by decide), ih]
      rfl
    | kept hstrict => cases hstrict
    | referred name hname =>
      obtain ⟨hreturn, hforbidden⟩ := entry_kept hname
      rw [List.cons_append, List.append_assoc, List.singleton_append, resolve_entry hname, ih]
      simp [hreturn, hforbidden]
    | dropped hreturn hforbidden => simp [hreturn, hforbidden, ih]
    | own hown _ hforbidden =>
      simp only [List.mem_cons, not_or] at hown
      rw [List.singleton_append, resolve_cons hown.2.1, ih]
      simp [hown.1, hforbidden]

theorem charText_strict_eq (hand : c ≠ '&') (hbacktick : c ≠ '`') (hequals : c ≠ '=')
    (rest : List Char) : charText true c rest = charText false c rest := by
  simp only [charText, hand, hbacktick, hequals, decide_false, Bool.and_false, Bool.false_eq_true,
    if_false]

/-- The forms differ in what they do with ampersands, backticks and equals signs alone. -/
theorem escape_strict_eq (h : ∀ c ∈ cs, c ≠ '&' ∧ c ≠ '`' ∧ c ≠ '=') :
    escape true cs = escape false cs := by
  fun_induction escape true cs with
  | case1 => rfl
  | case2 rest ih =>
    obtain ⟨_, hrest⟩ := List.forall_mem_cons.1 h
    rw [escape, ih (List.forall_mem_cons.1 hrest).2]
  | case3 c rest hbreak ih =>
    obtain ⟨⟨hand, hbacktick, hequals⟩, hrest⟩ := List.forall_mem_cons.1 h
    rw [escape, ih hrest, charText_strict_eq hand hbacktick hequals]
    exact hbreak

end Escape.Markup

namespace EscapeStyle
open Escape.Markup

theorem toList_apply_markup (name : String) (strict : Bool) (text : String) :
    (apply ⟨name, .markup strict⟩ text).toList = escape strict text.toList :=
  String.toList_ofList

/-- The style `html` projects onto safe text: its output is safe, so that escaping once more changes
nothing, and safe text is exactly what it leaves as it is. -/
theorem html_projects (text : String) :
    ∃ style, EscapeTable.standard.find? "html" = some style ∧
      IsSafe (style.apply text).toList ∧ style.apply (style.apply text) = style.apply text ∧
      (style.apply text = text ↔ IsSafe text.toList) := by
  have hbuiltin : ("html", Escaper.markup false) ∈ EscapeTable.builtins := by
    simp [EscapeTable.builtins]
  have hself (t : String) :
      apply ⟨"html", .markup false⟩ t = t ↔ IsSafe t.toList := by
    rw [← String.toList_inj, toList_apply_markup, escape_eq_self_iff]
  have hsafe : IsSafe (apply ⟨"html", .markup false⟩ text).toList := by
    rw [toList_apply_markup]
    exact isSafe_escape text.toList
  exact ⟨_, EscapeTable.find?_builtin hbuiltin, hsafe, (hself _).2 hsafe, hself text⟩

/-- The output of the style `html_strict` says what the text was, with line feeds for its line ends
and without what no document may contain. Without ampersands, backticks and equals signs it is the
output of `html`. -/
theorem html_strict_lossless (text : String) :
    ∃ strict safe, EscapeTable.standard.find? "html_strict" = some strict ∧
      EscapeTable.standard.find? "html" = some safe ∧
      resolve (strict.apply text).toList = canonical text.toList ∧
      ((∀ c ∈ text.toList, c ≠ '&' ∧ c ≠ '`' ∧ c ≠ '=') →
        strict.apply text = safe.apply text) := by
  have hstrict : ("html_strict", Escaper.markup true) ∈ EscapeTable.builtins := by
    simp [EscapeTable.builtins]
  have hsafe : ("html", Escaper.markup false) ∈ EscapeTable.builtins := by
    simp [EscapeTable.builtins]
  refine ⟨_, _, EscapeTable.find?_builtin hstrict, EscapeTable.find?_builtin hsafe, ?_, ?_⟩
  · rw [toList_apply_markup, resolve_escape]
  · intro h
    rw [← String.toList_inj, toList_apply_markup, toList_apply_markup, escape_strict_eq h]

/-- A text that spells a reference out, with both kinds of line end, and one that both styles
write alike. -/
theorem html_strict_lossless_line_ends :
    (∃ strict, EscapeTable.standard.find? "html_strict" = some strict ∧
      resolve (strict.apply "&amp;lt;\r\r\n").toList = "&amp;lt;\n\n".toList) ∧
    (∀ c ∈ "it's\r\n".toList, c ≠ '&' ∧ c ≠ '`' ∧ c ≠ '=') ∧
    ∃ strict safe, EscapeTable.standard.find? "html_strict" = some strict ∧
      EscapeTable.standard.find? "html" = some safe ∧
      strict.apply "it's\r\n" = safe.apply "it's\r\n" := by
  have hplain : ∀ c ∈ "it's\r\n".toList, c ≠ '&' ∧ c ≠ '`' ∧ c ≠ '=' := by
    simp
  obtain ⟨strict, _, hstrict, _, hresolve, _⟩ := html_strict_lossless "&amp;lt;\r\r\n"
  obtain ⟨strict', safe, hstrict', hsafe, _, halike⟩ := html_strict_lossless "it's\r\n"
  exact ⟨⟨strict, hstrict, hresolve⟩, hplain, strict', safe, hstrict', hsafe, halike hplain⟩

end EscapeStyle

end TextTemplate
