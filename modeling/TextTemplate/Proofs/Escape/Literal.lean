import Mathlib.Algebra.Ring.Parity
import Mathlib.Data.List.DropRight
import TextTemplate.Proofs.Escape.Reader

/-! Literals read back. What was escaped comes back as it was, one character after the other, and
none of its quotes ends the literal. -/

namespace TextTemplate.Escape

namespace Literal
open LiteralLanguage
variable {l : LiteralLanguage} {ascii : Bool} {n width : Nat}

/-! ### Digits -/

theorem digit_of_mem_hexText {c : Char} (h : c ∈ hexText width n) :
    ∃ d < 16, c = (Nat.digitChar d).toUpper := by
  have hdigits (m : Nat) (hc : c ∈ (Nat.toDigits 16 m).map Char.toUpper) :
      ∃ d < 16, c = (Nat.digitChar d).toUpper := by
    induction m using Nat.strong_induction_on with
    | _ m ih =>
      rw [Nat.toDigits_eq_if (by decide)] at hc
      by_cases hm : m < 16
      · rw [if_pos hm, List.map_singleton, List.mem_singleton] at hc
        exact ⟨m, hm, hc⟩
      · rw [if_neg hm, List.map_append, List.mem_append, List.map_singleton,
          List.mem_singleton] at hc
        rcases hc with hc | hc
        · exact ih (m / 16) (by omega) hc
        · exact ⟨m % 16, by omega, hc⟩
  rw [hexText, List.mem_append] at h
  rcases h with h | h
  · exact ⟨0, by decide, List.eq_of_mem_replicate h⟩
  · exact hdigits n h

theorem hexValue?_digit : ∀ d < 16, Json.hexValue? (Nat.digitChar d).toUpper = some d := by
  decide

/-- A number is read from its digits, whatever leads them is read into its place. -/
theorem readHex?_digits (n more : Nat) (rest : List Char) :
    Json.readHex? ((Nat.toDigits 16 n).length + more) 0
      ((Nat.toDigits 16 n).map Char.toUpper ++ rest) = Json.readHex? more n rest := by
  induction n using Nat.strong_induction_on generalizing more rest with
  | _ n ih =>
    rw [Nat.toDigits_eq_if (by decide)]
    by_cases hn : n < 16
    · rw [if_pos hn, List.length_singleton, Nat.add_comm, List.map_singleton,
        List.singleton_append, Json.readHex?, hexValue?_digit n hn, Option.bind_some,
        Nat.mul_zero, Nat.zero_add]
    · have hlast : n % 16 < 16 := Nat.mod_lt n (by decide)
      rw [if_neg hn, List.length_append, List.length_singleton, Nat.add_assoc, List.map_append,
        List.append_assoc, ih (n / 16) (by omega), Nat.add_comm 1 more, List.map_singleton,
        List.singleton_append, Json.readHex?, hexValue?_digit _ hlast, Option.bind_some,
        Nat.div_add_mod]

theorem readHex?_zeros (k more : Nat) (rest : List Char) :
    Json.readHex? (k + more) 0 (List.replicate k '0' ++ rest) = Json.readHex? more 0 rest := by
  induction k with
  | zero => rw [Nat.zero_add, List.replicate_zero, List.nil_append]
  | succ k ih =>
    rw [Nat.succ_add, List.replicate_succ, List.cons_append, Json.readHex?]
    exact ih

theorem readHex?_hexText (width n : Nat) (rest : List Char) :
    Json.readHex? (hexText width n).length 0 (hexText width n ++ rest) = some (n, rest) := by
  simp only [hexText, List.length_append, List.length_replicate, List.length_map,
    List.append_assoc]
  rw [readHex?_zeros, ← Nat.add_zero (Nat.toDigits 16 n).length, readHex?_digits, Json.readHex?]

theorem length_hexText (hwidth : 0 < width) (h : n < 16 ^ width) :
    (hexText width n).length = width := by
  have hle := (Nat.length_toDigits_le_iff (by decide) hwidth).2 h
  simp only [hexText, List.length_append, List.length_replicate, List.length_map]
  omega

theorem hexText_ne_nil : hexText width n ≠ [] := by
  intro h
  have hdigits := (List.append_eq_nil_iff.1 h).2
  exact Nat.toDigits_ne_nil (List.map_eq_nil_iff.1 hdigits)

theorem readBraced?_hexText (width : Nat) (h : n.isValidChar) (rest : List Char) :
    readBraced? (hexText width n ++ '}' :: rest) = some (Char.ofNat n, rest) := by
  have hbrace : ∀ d < 16, (Nat.digitChar d).toUpper ≠ '}' := by decide
  have hopen : ∀ x ∈ hexText width n, decide (x = '}') = false := by
    intro x hx
    obtain ⟨d, hd, rfl⟩ := digit_of_mem_hexText hx
    exact decide_eq_false (hbrace d hd)
  have hread := readHex?_hexText width n []
  rw [List.append_nil] at hread
  rw [readBraced?, Text.splitFirst?_append rest hopen (by decide)]
  simp only [Option.bind_eq_bind, Option.bind_some, hread]
  rw [if_pos ⟨hexText_ne_nil, h⟩]

/-! ### Code units -/

theorem readHex?_unit (h : n < 0x10000) (rest : List Char) :
    Json.readHex? 4 0 (hexText 4 n ++ rest) = some (n, rest) := by
  have hread := readHex?_hexText 4 n rest
  rwa [length_hexText (by decide) h] at hread

theorem readUnit?_unit (h : n < 0xd800 ∨ 0xdfff < n ∧ n < 0x10000) (rest : List Char) :
    Json.readUnit? (hexText 4 n ++ rest) = some (Char.ofNat n, rest) := by
  have hhigh : ¬ (0xd800 ≤ n ∧ n < 0xdc00) := by omega
  have hlow : ¬ (0xdc00 ≤ n ∧ n < 0xe000) := by omega
  rw [Json.readUnit?, readHex?_unit (by omega), Option.bind_eq_bind, Option.bind_some]
  simp only [if_neg hhigh, if_neg hlow]

/-- A character beyond the first plane is a high and a low surrogate, which make it up again. -/
theorem surrogates_join (h : 0x10000 ≤ n) (hn : n < 0x110000) :
    ∃ high low, surrogates n = (high, low) ∧ (0xd800 ≤ high ∧ high < 0xdc00) ∧
      (0xdc00 ≤ low ∧ low < 0xe000) ∧ 0x10000 + (high - 0xd800) * 0x400 + (low - 0xdc00) = n := by
  refine ⟨_, _, rfl, ?_, ?_, ?_⟩
  all_goals omega

theorem readUnit?_pair (h : 0x10000 ≤ n) (hn : n < 0x110000) (rest : List Char) :
    Json.readUnit? (hexText 4 (surrogates n).1 ++ (unitText (surrogates n).2 ++ rest)) =
      some (Char.ofNat n, rest) := by
  obtain ⟨high, low, hpair, hhigh, hlow, hjoined⟩ := surrogates_join h hn
  rw [hpair, Json.readUnit?, readHex?_unit (by omega), Option.bind_eq_bind, Option.bind_some]
  simp only [if_pos hhigh, unitText, List.cons_append]
  rw [readHex?_unit (by omega)]
  simp only [Option.bind_some, if_pos hlow, hjoined]

end Literal

namespace LiteralLanguage
variable {l : LiteralLanguage} {c e : Char}

/-! ### Characters -/

/-- The characters that some language escapes with a letter or sign. -/
def special : List Char :=
  ['\\', '"', '\x08', '\x0c', '\n', '\r', '\t', '\'', '`', '\x0b', '/']

theorem mem_special (h : l.shortEscape? c = some e) : c ∈ special := by
  by_contra hc
  simp only [special, List.mem_cons, List.not_mem_nil, or_false, not_or] at hc
  simp [shortEscape?, hc] at h

/-- What a character is escaped with is a sign of ASCII that means that character. -/
theorem of_shortEscape?_eq_some (h : l.shortEscape? c = some e) :
    l.meaning? e = some c ∧ e ≠ 'u' ∧ 0x20 ≤ e.toNat ∧ e.toNat < 0x7f := by
  have hall : (special.all fun d => (l.shortEscape? d).all fun s => l.meaning? s == some d &&
      (s != 'u' && (decide (0x20 ≤ s.toNat) && decide (s.toNat < 0x7f)))) = true := by
    cases l <;> rfl
  have hc := List.all_eq_true.1 hall c (mem_special h)
  simpa [h] using hc

theorem of_shortEscape?_eq_none (h : l.shortEscape? c = none) :
    c ≠ '\\' ∧ c ∉ l.quotes ∧ c ≠ '\n' ∧ c ≠ '\r' := by
  have hall : (('\\' :: '\n' :: '\r' :: l.quotes).all fun d => (l.shortEscape? d).isSome) =
      true := by
    cases l <;> rfl
  have hne : ∀ d ∈ '\\' :: '\n' :: '\r' :: l.quotes, c ≠ d := by
    rintro d hd rfl
    have hsome := List.all_eq_true.1 hall c hd
    rw [h] at hsome
    cases hsome
  exact ⟨hne _ (by simp), fun hquote => hne c (by simp [hquote]) rfl, hne _ (by simp),
    hne _ (by simp)⟩

theorem isPlain_of_shortEscape? (h : l.shortEscape? c = none)
    (hc : l = json → 0x20 ≤ c.toNat) : l.isPlain c = true := by
  obtain ⟨hbackslash, hquote, hfeed, hreturn⟩ := of_shortEscape?_eq_none h
  cases l with
  | json => simp [isPlain, hbackslash, hquote, hc rfl]
  | ecma => simp [isPlain, hbackslash, hquote, hfeed, hreturn]
  | java => simp [isPlain, hbackslash, hquote, hfeed, hreturn]

end LiteralLanguage

namespace Literal
open LiteralLanguage
variable {l : LiteralLanguage} {ascii : Bool} {c : Char} {n width : Nat}

/-- What a character is written as. -/
inductive Written (l : LiteralLanguage) (ascii : Bool) (c : Char) : List Char → Prop
  | short {e : Char} : l.shortEscape? c = some e → Written l ascii c ['\\', e]
  | own : l.shortEscape? c = none → isUnprintable c.toNat = false →
    (ascii = true → c.toNat < 0x80) → Written l ascii c [c]
  | unit : l.shortEscape? c = none → c.toNat < 0x10000 → Written l ascii c (unitText c.toNat)
  | braced : l = .ecma → Written l ascii c ('\\' :: 'u' :: '{' :: (hexText 1 c.toNat ++ ['}']))
  | pair : l.shortEscape? c = none → 0x10000 ≤ c.toNat →
    Written l ascii c (unitText (surrogates c.toNat).1 ++ unitText (surrogates c.toNat).2)

theorem written_charText (l : LiteralLanguage) (ascii : Bool) (c : Char) :
    Written l ascii c (charText l ascii c) := by
  unfold charText
  split
  · next e he => exact .short he
  · next hshort =>
    by_cases hcontrol : isUnprintable c.toNat = true
    · have hfirst : c.toNat < 0x10000 := by
        simp only [isUnprintable, Bool.or_eq_true, decide_eq_true_eq, beq_iff_eq] at hcontrol
        omega
      simp only [if_pos hcontrol]
      exact .unit hshort hfirst
    · simp only [if_neg hcontrol]
      split
      · next hown =>
        refine .own hshort (Bool.eq_false_iff.2 hcontrol) ?_
        rintro rfl
        simpa using hown
      split
      · next hfirst => exact .unit hshort hfirst
      split
      · next hecma => exact .braced hecma
      · exact .pair hshort (by omega)

theorem toNat_range (c : Char) : c.toNat < 0xd800 ∨ 0xdfff < c.toNat ∧ c.toNat < 0x110000 :=
  c.valid

/-- Each character is read back from what it is written as, whatever follows. -/
theorem read?_charText (l : LiteralLanguage) (ascii : Bool) (c : Char) (rest : List Char) :
    l.read? (charText l ascii c ++ rest) = (l.read? rest).map (c :: ·) := by
  have hself : Char.ofNat c.toNat = c := Char.ofNat_toNat c
  have hrange := toNat_range c
  have hplain (hshort : l.shortEscape? c = none) : l = .java → l.isPlain c = true := fun hl =>
    isPlain_of_shortEscape? hshort (by simp [hl])
  generalize hwritten : charText l ascii c = written
  have h := written_charText l ascii c
  rw [hwritten] at h
  cases h with
  | short he =>
    obtain ⟨hmeaning, hsign, _⟩ := of_shortEscape?_eq_some he
    exact read?_escape (readEscape?_sign hmeaning hsign rest)
  | own hshort hcontrol _ =>
    refine read?_plain (isPlain_of_shortEscape? hshort fun _ => ?_) rest
    simp only [isUnprintable, Bool.or_eq_false_iff, decide_eq_false_iff_not] at hcontrol
    omega
  | unit hshort hc =>
    have hread := readUnit?_unit (n := c.toNat) (by omega) rest
    rw [hself] at hread
    rw [unitText, List.cons_append, List.cons_append]
    exact read?_escape (readEscape?_unit hread (hplain hshort))
  | braced hl =>
    have hread := readBraced?_hexText (n := c.toNat) 1 hrange rest
    rw [hself] at hread
    have hescape : l.readEscape? ('u' :: '{' :: (hexText 1 c.toNat ++ '}' :: rest)) =
        some (c, rest) := by
      rw [readEscape?, if_pos hl, hread]
    rw [List.cons_append, List.cons_append, List.cons_append, List.append_assoc]
    exact read?_escape hescape
  | pair hshort hc =>
    have hread := readUnit?_pair hc (by omega) rest
    rw [hself] at hread
    rw [unitText, List.append_assoc, List.cons_append, List.cons_append]
    exact read?_escape (readEscape?_unit hread (hplain hshort))

/-! ### Signs that are written -/

theorem hexText_range {d : Char} (h : d ∈ hexText width n) :
    0x20 ≤ d.toNat ∧ d.toNat < 0x7f := by
  have hall : ∀ k < 16, 0x20 ≤ (Nat.digitChar k).toUpper.toNat ∧
      (Nat.digitChar k).toUpper.toNat < 0x7f := by
    decide
  obtain ⟨k, hk, rfl⟩ := digit_of_mem_hexText h
  exact hall k hk

theorem unitText_range {d : Char} (h : d ∈ unitText n) : 0x20 ≤ d.toNat ∧ d.toNat < 0x7f := by
  rw [unitText, List.mem_cons, List.mem_cons] at h
  rcases h with rfl | rfl | h
  · decide
  · decide
  · exact hexText_range h

/-- A character is written as itself or in signs of ASCII that can be seen. -/
theorem Written.cases_of_mem {written : List Char} {d : Char} (h : Written l ascii c written)
    (hd : d ∈ written) : (0x20 ≤ d.toNat ∧ d.toNat < 0x7f) ∨
      isUnprintable d.toNat = false ∧ (ascii = true → d.toNat < 0x80) := by
  cases h with
  | short he =>
    left
    simp only [List.mem_cons, List.not_mem_nil, or_false] at hd
    rcases hd with rfl | rfl
    · decide
    · exact (of_shortEscape?_eq_some he).2.2
  | own _ hcontrol hascii =>
    right
    rw [List.mem_singleton.1 hd]
    exact ⟨hcontrol, hascii⟩
  | unit => exact .inl (unitText_range hd)
  | braced =>
    left
    simp only [List.mem_cons, List.mem_append, List.not_mem_nil, or_false] at hd
    rcases hd with rfl | rfl | rfl | hd | rfl
    · decide
    · decide
    · decide
    · exact hexText_range hd
    · decide
  | pair =>
    rcases List.mem_append.1 hd with hd | hd
    · exact .inl (unitText_range hd)
    · exact .inl (unitText_range hd)

theorem printable_of_mem_escape {cs : List Char} {d : Char} (h : d ∈ escape l ascii cs) :
    isUnprintable d.toNat = false ∧ (ascii = true → d.toNat < 0x80) := by
  obtain ⟨c, _, hd⟩ := List.mem_flatMap.1 h
  rcases (written_charText l ascii c).cases_of_mem hd with ⟨hlow, hhigh⟩ | hself
  · constructor
    · simp only [isUnprintable, Bool.or_eq_false_iff, decide_eq_false_iff_not, beq_eq_false_iff_ne]
      omega
    · intro _
      omega
  · exact hself

/-! ### Quotes -/

/-- Each backslash takes the character after it, and every quote is taken by one. -/
inductive Sealed (l : LiteralLanguage) : List Char → Prop
  | nil : Sealed l []
  | plain {c : Char} {cs : List Char} : c ≠ '\\' → c ∉ l.quotes → Sealed l cs → Sealed l (c :: cs)
  | taken {e : Char} {cs : List Char} : Sealed l cs → Sealed l ('\\' :: e :: cs)

variable {cs ds : List Char}

theorem Sealed.append (h : Sealed l cs) (h' : Sealed l ds) : Sealed l (cs ++ ds) := by
  induction h with
  | nil => exact h'
  | plain hc hquote _ ih => exact .plain hc hquote ih
  | taken _ ih => exact .taken ih

theorem sealed_of_forall (h : ∀ c ∈ cs, c ≠ '\\' ∧ c ∉ l.quotes) : Sealed l cs := by
  induction cs with
  | nil => exact .nil
  | cons c cs ih =>
    obtain ⟨⟨hc, hquote⟩, hcs⟩ := List.forall_mem_cons.1 h
    exact .plain hc hquote (ih hcs)

theorem sealed_hexText (width n : Nat) : Sealed l (hexText width n) := by
  have hall : ∀ k < 16, (Nat.digitChar k).toUpper ≠ '\\' ∧
      (Nat.digitChar k).toUpper ∉ l.quotes := by
    cases l <;> decide
  refine sealed_of_forall fun c hc => ?_
  obtain ⟨k, hk, rfl⟩ := digit_of_mem_hexText hc
  exact hall k hk

theorem sealed_unitText (n : Nat) : Sealed l (unitText n) := .taken (sealed_hexText 4 n)

theorem Written.sealed {written : List Char} (h : Written l ascii c written) :
    Sealed l written := by
  cases h with
  | short _ => exact .taken .nil
  | own hshort =>
    obtain ⟨hbackslash, hquote, _⟩ := of_shortEscape?_eq_none hshort
    exact .plain hbackslash hquote .nil
  | unit => exact sealed_unitText _
  | braced hl =>
    subst hl
    have hopen : '{' ∉ quotes .ecma := by decide
    have hclose : '}' ∉ quotes .ecma := by decide
    have hclosed : Sealed .ecma ['}'] := .plain (by decide) hclose .nil
    exact .taken (.plain (by decide) hopen ((sealed_hexText 1 _).append hclosed))
  | pair => exact (sealed_unitText _).append (sealed_unitText _)

theorem sealed_escape (l : LiteralLanguage) (ascii : Bool) (cs : List Char) :
    Sealed l (escape l ascii cs) := by
  induction cs with
  | nil => exact .nil
  | cons c cs ih => exact (written_charText l ascii c).sealed.append ih

/-- What stands before a character of another kind makes no difference to a run at the end. -/
theorem rtakeWhile_append_cons {p : Char → Bool} {e : Char} (he : p e = false) (lead : List Char)
    (cs : List Char) : (lead ++ e :: cs).rtakeWhile p = cs.rtakeWhile p := by
  induction cs using List.reverseRecOn with
  | nil => rw [List.rtakeWhile_concat_neg p lead e (by simp [he]), List.rtakeWhile_nil]
  | append_singleton cs x ih =>
    rw [← List.cons_append, ← List.append_assoc, List.rtakeWhile_concat, List.rtakeWhile_concat, ih]

theorem odd_backslashes_cons_cons
    (h : Odd (cs.rtakeWhile (· == '\\')).length) :
    Odd (('\\' :: '\\' :: cs).rtakeWhile (· == '\\')).length := by
  by_cases hall : ∀ x ∈ cs, (x == '\\') = true
  · have hself : ∀ ds : List Char, (∀ x ∈ ds, (x == '\\') = true) →
        ds.rtakeWhile (· == '\\') = ds := fun ds hds => List.rtakeWhile_eq_self_iff.2 hds
    rw [hself cs hall] at h
    rw [hself ('\\' :: '\\' :: cs) (by simpa using hall)]
    exact h.add_even even_two
  · push Not at hall
    obtain ⟨x, hx, hne⟩ := hall
    obtain ⟨lead, rest, rfl⟩ := List.append_of_mem hx
    have hrun := rtakeWhile_append_cons (p := (· == '\\')) (Bool.eq_false_iff.2 hne)
    rw [hrun lead rest] at h
    rwa [← List.cons_append, ← List.cons_append, hrun]

/-- The backslashes right before a quote are odd in number: the last one is not taken itself. -/
theorem Sealed.odd_backslashes {lead rest : List Char} {quote : Char} (h : Sealed l cs)
    (hcs : cs = lead ++ quote :: rest) (hquote : quote ∈ l.quotes) :
    Odd (lead.rtakeWhile (· == '\\')).length := by
  have hbackslash : '\\' ∉ l.quotes := by cases l <;> decide
  induction h generalizing lead with
  | nil => simp at hcs
  | plain hc hplain _ ih =>
    rcases lead with _ | ⟨d, lead⟩
    · cases hcs
      exact absurd hquote hplain
    · cases hcs
      rw [← List.nil_append (_ :: lead), rtakeWhile_append_cons (by simpa using hc)]
      exact ih rfl
  | @taken e _ _ ih =>
    rcases lead with _ | ⟨d, _ | ⟨d', lead⟩⟩
    · cases hcs
      exact absurd hquote hbackslash
    · cases hcs
      decide
    · cases hcs
      by_cases he : e = '\\'
      · rw [he]
        exact odd_backslashes_cons_cons (ih rfl)
      · rw [← List.singleton_append, rtakeWhile_append_cons (by simpa using he)]
        exact ih rfl

theorem read?_escaped (l : LiteralLanguage) (ascii : Bool) (cs : List Char) :
    l.read? (escape l ascii cs) = some cs := by
  induction cs with
  | nil => rw [escape, List.flatMap_nil, read?]
  | cons c cs ih =>
    rw [escape, List.flatMap_cons, read?_charText, ← escape, ih, Option.map_some]

/-- Escaped text is read back as the text it was made from. It has no control and no line
separator, it is ASCII where that is asked for, and each of its quotes is kept by a backslash that
no other backslash keeps. -/
theorem escape_loses_nothing (l : LiteralLanguage) (ascii : Bool) (cs : List Char) :
    l.read? (escape l ascii cs) = some cs ∧
      (∀ c ∈ escape l ascii cs, 0x20 ≤ c.toNat ∧ c.toNat ≠ 0x7f ∧ c.toNat ≠ 0x2028 ∧
        c.toNat ≠ 0x2029 ∧ (ascii = true → c.toNat < 0x80)) ∧
      ∀ lead quote rest, escape l ascii cs = lead ++ quote :: rest → quote ∈ l.quotes →
        Odd (lead.rtakeWhile (· == '\\')).length := by
  refine ⟨read?_escaped l ascii cs, fun c hc => ?_, fun lead quote rest heq hquote => ?_⟩
  · obtain ⟨hcontrol, hascii⟩ := printable_of_mem_escape hc
    simp only [isUnprintable, Bool.or_eq_false_iff, decide_eq_false_iff_not,
      beq_eq_false_iff_ne] at hcontrol
    refine ⟨by omega, by omega, by omega, by omega, hascii⟩
  · exact (sealed_escape l ascii cs).odd_backslashes heq hquote

/-- A backslash and a quote side by side, and a character beyond the first plane. -/
theorem escape_loses_nothing_in_ascii :
    let written := escape .java true ['\\', '"', '😀']
    written = ['\\', '\\', '\\'] ++ '"' :: "\\uD83D\\uDE00".toList ∧
      java.read? written = some ['\\', '"', '😀'] ∧ ('D' ∈ written ∧ 'D'.toNat < 0x80) ∧
      '"' ∈ java.quotes ∧ Odd (['\\', '\\', '\\'].rtakeWhile (· == '\\')).length := by
  intro written
  have hwritten : written = ['\\', '\\', '\\'] ++ '"' :: "\\uD83D\\uDE00".toList := by
    decide +kernel
  have hdigit : 'D' ∈ written := by
    rw [hwritten]
    decide
  obtain ⟨hread, hchars, hquotes⟩ := escape_loses_nothing .java true ['\\', '"', '😀']
  obtain ⟨_, _, _, _, hascii⟩ := hchars 'D' hdigit
  exact ⟨hwritten, hread, ⟨hdigit, hascii rfl⟩, by decide, hquotes _ '"' _ hwritten (by decide)⟩

end Literal
end TextTemplate.Escape
