import Mathlib.Data.List.Induction
import TextTemplate.Escape.Style
import TextTemplate.Proofs.Text.LowerCase

/-! Escape styles by name. Folding brings spellings that differ only in capitals, in separators or
in the blanks around them to one name, and folds that no further. A registry answers by folded
names, so what it remembers by spelling never shows. -/

namespace TextTemplate

namespace EscapeStyle

/-! ### Spellings -/

/-- The same words up to capitals of ASCII, with separators in the same places: how many there are
in a place and which ones makes no difference. -/
inductive SameWords : List Char → List Char → Prop where
  | nil : SameWords [] []
  | letter {c d : Char} {cs ds : List Char} :
    c.toLower = d.toLower → SameWords cs ds → SameWords (c :: cs) (d :: ds)
  | separators {as bs cs ds : List Char} :
    as ≠ [] → (∀ c ∈ as, isSeparator c = true) → bs ≠ [] → (∀ c ∈ bs, isSeparator c = true) →
    SameWords cs ds → SameWords (as ++ cs) (bs ++ ds)

/-- The name is `core` with nothing but blanks around it, and has no blank at its own ends. -/
def Surrounds (name : String) (core : List Char) : Prop :=
  ∃ lead trail, name.toList = lead ++ (core ++ trail) ∧ (∀ c ∈ lead, Text.isBlank c = true) ∧
    (∀ c ∈ trail, Text.isBlank c = true) ∧ core.head?.any Text.isBlank = false ∧
    core.getLast?.any Text.isBlank = false

/-- Two spellings of one name. -/
def SpelledAlike (a b : String) : Prop :=
  ∃ core core', Surrounds a core ∧ Surrounds b core' ∧ SameWords core core'

theorem Surrounds.trim_eq {name : String} {core : List Char} (h : Surrounds name core) :
    Text.trim name.toList = core := by
  obtain ⟨lead, trail, hname, hlead, htrail, hends⟩ := h
  rw [hname, Text.trim_surrounded hlead htrail (Text.trim_eq_self_iff.2 hends)]

/-- Capitals of ASCII make no difference to a folded name. -/
theorem fold_letter {c d : Char} (h : c.toLower = d.toLower) :
    isSeparator c = isSeparator d ∧ Text.lowerChar c = Text.lowerChar d := by
  have hlower (e : Char) : isSeparator e = isSeparator e.toLower ∧
      Text.lowerChar e = Text.lowerChar e.toLower := by
    by_cases hascii : e.toNat < 0x80
    · have hall : ∀ n < 0x80, isSeparator (Char.ofNat n) = isSeparator (Char.ofNat n).toLower ∧
          Text.lowerChar (Char.ofNat n) = Text.lowerChar (Char.ofNat n).toLower := by
        decide +kernel
      have he := hall e.toNat hascii
      rwa [Char.ofNat_toNat] at he
    · have he : e.toLower = e := by
        refine dif_neg fun hcapital => hascii ?_
        have hle := UInt32.le_iff_toNat_le.1 hcapital.2
        exact Nat.lt_of_le_of_lt hle (by decide)
      rw [he]
      exact ⟨rfl, rfl⟩
  rw [(hlower c).1, (hlower c).2, h]
  exact ⟨(hlower d).1.symm, (hlower d).2.symm⟩

theorem foldChars_separators {as : List Char} (hne : as ≠ [])
    (has : ∀ c ∈ as, isSeparator c = true) (separated : Bool) (cs : List Char) :
    foldChars separated (as ++ cs) =
      (if separated then [] else ['_']) ++ foldChars true cs := by
  induction as generalizing separated with
  | nil => exact absurd rfl hne
  | cons a as ih =>
    rw [List.forall_mem_cons] at has
    have hrest : foldChars true (as ++ cs) = foldChars true cs := by
      cases as with
      | nil => rfl
      | cons b bs => exact ih (by simp) has.2 true
    rw [List.cons_append, foldChars, if_pos has.1, hrest]
    cases separated <;> rfl

theorem SameWords.foldChars_eq {cs ds : List Char} (h : SameWords cs ds) (separated : Bool) :
    foldChars separated cs = foldChars separated ds := by
  induction h generalizing separated with
  | nil => rfl
  | letter hletter _ ih =>
    obtain ⟨hseparator, hlower⟩ := fold_letter hletter
    simp only [foldChars, hseparator, hlower, ih]
  | separators hne has hne' hbs _ ih =>
    rw [foldChars_separators hne has, foldChars_separators hne' hbs, ih]

theorem SpelledAlike.foldName_eq {a b : String} (h : SpelledAlike a b) :
    foldName a = foldName b := by
  obtain ⟨core, core', ha, hb, hwords⟩ := h
  rw [foldName, foldName, ha.trim_eq, hb.trim_eq, hwords.foldChars_eq]

/-! ### Folding twice -/

theorem isSeparator_of_mem_lowerChar {c d : Char} (hc : isSeparator c = false)
    (hd : d ∈ Text.lowerChar c) : isSeparator d = false := by
  rcases (Text.of_mem_lowerChar hd).2 with rfl | ⟨hletter, hblank⟩
  · exact hc
  · have hne (e : Char) (he : e.toNat ≤ 0x5f) : d ≠ e := by
      rintro rfl
      omega
    simp [isSeparator, hblank, hne '.' (by decide), hne '_' (by decide), hne '-' (by decide)]

/-- What is folded already is kept, and ends a run of separators. -/
theorem foldChars_append {ds : List Char} (hne : ds ≠ [])
    (hds : ∀ d ∈ ds, isSeparator d = false ∧ Text.lowerChar d = [d]) (separated : Bool)
    (cs : List Char) : foldChars separated (ds ++ cs) = ds ++ foldChars false cs := by
  induction ds generalizing separated with
  | nil => exact absurd rfl hne
  | cons d ds ih =>
    rw [List.forall_mem_cons] at hds
    rw [List.cons_append, foldChars, if_neg (by simp [hds.1.1]), hds.1.2]
    cases ds with
    | nil => rfl
    | cons e es => rw [ih (by simp) hds.2]; rfl

theorem foldChars_foldChars (separated : Bool) (cs : List Char) :
    foldChars separated (foldChars separated cs) = foldChars separated cs := by
  induction cs generalizing separated with
  | nil => rfl
  | cons c cs ih =>
    rw [foldChars]
    split
    · split
      · next hseparated =>
        subst hseparated
        exact ih true
      · next hseparated =>
        rw [Bool.not_eq_true] at hseparated
        subst hseparated
        rw [foldChars, if_pos (by decide), if_neg (by decide), ih]
    · next hc =>
      have hfolded : ∀ d ∈ Text.lowerChar c, isSeparator d = false ∧ Text.lowerChar d = [d] :=
        fun d hd => ⟨isSeparator_of_mem_lowerChar (Bool.eq_false_iff.2 hc) hd,
          (Text.of_mem_lowerChar hd).1⟩
      rw [foldChars_append (Text.lowerChar_ne_nil c) hfolded, ih]

theorem isBlank_of_mem_foldChars {separated : Bool} {cs : List Char} {d : Char}
    (hd : d ∈ foldChars separated cs) : Text.isBlank d = false := by
  induction cs generalizing separated with
  | nil => cases hd
  | cons c cs ih =>
    rw [foldChars] at hd
    split at hd
    · split at hd
      · exact ih hd
      · rcases List.mem_cons.1 hd with rfl | hd
        · decide
        · exact ih hd
    · next hc =>
      rcases List.mem_append.1 hd with hd | hd
      · have hseparator := isSeparator_of_mem_lowerChar (Bool.eq_false_iff.2 hc) hd
        exact (Bool.or_eq_false_iff.1 hseparator).2
      · exact ih hd

theorem foldName_foldName (name : String) : foldName (foldName name) = foldName name := by
  rw [foldName, foldName, String.toList_ofList,
    Text.trim_eq_self fun d hd => isBlank_of_mem_foldChars hd, foldChars_foldChars]

end EscapeStyle

namespace EscapeTable

/-- The style that was registered last under a name that folds to the same as this one. -/
def latest? (registrations : List (String × Escaper)) (name : String) : Option EscapeStyle :=
  (registrations.reverse.find? fun r =>
    EscapeStyle.foldName r.1 = EscapeStyle.foldName name).map fun r =>
      ⟨EscapeStyle.foldName name, r.2⟩

/-- A table with all that was registered, one after the other. -/
def ofRegistrations (registrations : List (String × Escaper)) : EscapeTable :=
  registrations.foldl (fun t (name, e) => t.register name e) ⟨[]⟩

theorem ofRegistrations_append (registrations : List (String × Escaper)) (name : String)
    (e : Escaper) : ofRegistrations (registrations ++ [(name, e)]) =
      (ofRegistrations registrations).register name e := by
  rw [ofRegistrations, List.foldl_append]
  rfl

theorem find?_ofRegistrations (registrations : List (String × Escaper)) (name : String) :
    (ofRegistrations registrations).find? name = latest? registrations name := by
  induction registrations using List.reverseRecOn with
  | nil => rfl
  | append_singleton registrations r ih =>
    rw [ofRegistrations_append, find?, register, Fields.get?_set, ← find?, ih]
    simp only [latest?, List.reverse_append, List.reverse_singleton, List.singleton_append,
      List.find?_cons]
    split
    · next heq => simp [heq]
    · next hne => simp [hne]

end EscapeTable

namespace EscapeRegistry

/-- What can be asked of a registry. -/
inductive Request where
  | register (name : String) (e : Escaper)
  | resolve (name : String)

def step (r : EscapeRegistry) : Request → EscapeRegistry
  | .register name e => r.register name e
  | .resolve name => (r.resolve name).2

/-- A new registry after some requests, one after the other. -/
def after (past : List Request) : EscapeRegistry := past.foldl step .standard

/-- The style that a name resolves to after some requests. -/
def answer (past : List Request) (name : String) : Option EscapeStyle :=
  ((after past).resolve name).1

def Request.registration? : Request → Option (String × Escaper)
  | .register name e => some (name, e)
  | .resolve _ => none

/-- All that is registered after some requests, with what is always there first. -/
def registrations (past : List Request) : List (String × Escaper) :=
  EscapeTable.builtins ++ past.filterMap Request.registration?

/-- The table holds what was registered, and what is remembered is what the table would answer. -/
structure Coherent (r : EscapeRegistry) (registered : List (String × Escaper)) : Prop where
  table : r.table = EscapeTable.ofRegistrations registered
  remembered : ∀ name found, r.remembered.get? name = some found → r.table.find? name = found

variable {r : EscapeRegistry} {registered : List (String × Escaper)}

theorem Coherent.resolve_eq (h : r.Coherent registered) (name : String) :
    (r.resolve name).1 = r.table.find? name := by
  unfold resolve
  split
  · next found hfound => exact (h.remembered name found hfound).symm
  · rfl

theorem Coherent.resolve (h : r.Coherent registered) (name : String) :
    (r.resolve name).2.Coherent registered := by
  unfold EscapeRegistry.resolve
  split
  · exact h
  · refine ⟨h.table, fun other found hfound => ?_⟩
    rw [Fields.get?_set] at hfound
    split at hfound
    · next heq =>
      cases hfound
      rw [heq]
    · exact h.remembered other found hfound

/-- A registration forgets all answers, those that there is no such style among them. -/
theorem Coherent.register (h : r.Coherent registered) (name : String) (e : Escaper) :
    (r.register name e).Coherent (registered ++ [(name, e)]) where
  table := by
    rw [EscapeRegistry.register, EscapeTable.ofRegistrations_append, h.table]
  remembered := nofun

theorem coherent_after (past : List Request) : (after past).Coherent (registrations past) := by
  induction past using List.reverseRecOn with
  | nil => exact ⟨by rw [registrations, List.filterMap_nil, List.append_nil]; rfl, nofun⟩
  | append_singleton past request ih =>
    have hafter : after (past ++ [request]) = (after past).step request := by
      rw [after, List.foldl_append]
      rfl
    rw [hafter, registrations, List.filterMap_append, ← List.append_assoc]
    cases request with
    | register name e => exact ih.register name e
    | resolve name =>
      rw [List.filterMap_cons_none rfl, List.filterMap_nil, List.append_nil]
      exact ih.resolve name

/-- After any requests, a name resolves to the style registered last under a name with the same
folded form, which is what a table that remembers nothing gives. Two spellings of one name resolve
alike, and a folded name is folded no further. -/
theorem answer_coherent (past : List Request) :
    (∀ name, answer past name = EscapeTable.latest? (registrations past) name ∧
      answer past name = (EscapeTable.ofRegistrations (registrations past)).find? name) ∧
      (∀ a b, EscapeStyle.SpelledAlike a b → answer past a = answer past b) ∧
      ∀ name, EscapeStyle.foldName (EscapeStyle.foldName name) = EscapeStyle.foldName name := by
  have hcoherent := coherent_after past
  have htable (name : String) :
      answer past name = (EscapeTable.ofRegistrations (registrations past)).find? name := by
    rw [answer, hcoherent.resolve_eq, hcoherent.table]
  refine ⟨fun name => ⟨?_, htable name⟩, fun a b h => ?_, EscapeStyle.foldName_foldName⟩
  · rw [htable, EscapeTable.find?_ofRegistrations]
  · rw [htable, htable, EscapeTable.find?, EscapeTable.find?, h.foldName_eq]

/-- A name that was unknown under one spelling is found by another once it is registered. -/
theorem answer_coherent_rot_13 :
    let past : List Request := [.resolve "rot-13", .register "Rot 13" .percent]
    EscapeStyle.SpelledAlike " ROT._13 " "rot-13" ∧
      answer past " ROT._13 " = answer past "rot-13" ∧
      answer past "rot-13" = some ⟨"rot_13", .percent⟩ := by
  intro past
  have halike : EscapeStyle.SpelledAlike " ROT._13 " "rot-13" := by
    refine ⟨['R', 'O', 'T', '.', '_', '1', '3'], ['r', 'o', 't', '-', '1', '3'],
      ⟨[' '], [' '], rfl, by simp [Text.isBlank], by simp [Text.isBlank], rfl, rfl⟩,
      ⟨[], [], rfl, nofun, nofun, rfl, rfl⟩, ?_⟩
    have hnumber : EscapeStyle.SameWords ['1', '3'] ['1', '3'] :=
      .letter rfl (.letter rfl .nil)
    have hseparated : EscapeStyle.SameWords (['.', '_'] ++ ['1', '3']) (['-'] ++ ['1', '3']) :=
      .separators (List.cons_ne_nil _ _) (by simp [EscapeStyle.isSeparator])
        (List.cons_ne_nil _ _) (by simp [EscapeStyle.isSeparator]) hnumber
    exact .letter rfl (.letter rfl (.letter rfl hseparated))
  refine ⟨halike, (answer_coherent past).2.1 _ _ halike, ?_⟩
  exact ((answer_coherent past).1 "rot-13").1.trans (by rfl)

end EscapeRegistry

end TextTemplate
