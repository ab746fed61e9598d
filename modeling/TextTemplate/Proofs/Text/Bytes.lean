import Mathlib.Algebra.Ring.Nat
import TextTemplate.Text.Utf8

/-! The bytes of a text, and that texts stand in the order of their bytes. -/

namespace TextTemplate.Text

/-- The bytes of a text in UTF-8. -/
def bytes (cs : List Char) : List UInt8 := cs.flatMap String.utf8EncodeChar

theorem bytes_append (a b : List Char) : bytes (a ++ b) = bytes a ++ bytes b := List.flatMap_append

theorem length_bytes (cs : List Char) : (bytes cs).length = utf8Length cs := by
  induction cs with
  | nil => rfl
  | cons c cs ih =>
    rw [bytes, List.flatMap_cons, List.length_append, String.length_utf8EncodeChar, ← bytes, ih,
      utf8Length]

theorem bytes_toList (text : String) : bytes text.toList = text.toUTF8.data.toList := by
  rw [String.toUTF8_eq_toByteArray, ← String.ofList_toList (s := text), String.toByteArray_ofList,
    String.toList_ofList, List.utf8Encode, List.data_toByteArray, List.toList_toArray, bytes]

/-! ### The order of texts -/

/-- The last bytes of a character, so many of them, with six bits of its code each. -/
def following : Nat → Nat → List UInt8
  | 0, _ => []
  | k + 1, n => UInt8.ofNat (n / 64 ^ k % 64 + 0x80) :: following k n

theorem byte_lt_iff {m n : Nat} (hm : m < 256) (hn : n < 256) :
    UInt8.ofNat m < UInt8.ofNat n ↔ m < n := by
  rw [UInt8.lt_iff_toNat_lt, UInt8.toNat_ofNat_of_lt' hm, UInt8.toNat_ofNat_of_lt' hn]

theorem following_append_lt {k m n : Nat} (h : m % 64 ^ k < n % 64 ^ k) (u v : List UInt8) :
    following k m ++ u < following k n ++ v := by
  induction k with
  | zero => omega
  | succ k ih =>
    have hm := Nat.mod_lt (m / 64 ^ k) (by decide : 64 > 0)
    have hn := Nat.mod_lt (n / 64 ^ k) (by decide : 64 > 0)
    rw [Nat.mod_pow_succ, Nat.mod_pow_succ] at h
    rw [following, following, List.cons_append, List.cons_append, List.cons_lt_cons_iff,
      byte_lt_iff (by omega) (by omega)]
    generalize m / 64 ^ k % 64 = i at *
    generalize n / 64 ^ k % 64 = j at *
    rcases Nat.lt_trichotomy i j with hlt | rfl | hgt
    · exact .inl (Nat.add_lt_add_right hlt _)
    · exact .inr ⟨rfl, ih (by omega)⟩
    · -- A greater digit outweighs all that follows it.
      have hdigit : 64 ^ k * (j + 1) ≤ 64 ^ k * i := Nat.mul_le_mul_left _ hgt
      have hrest := Nat.mod_lt n (Nat.pow_pos (by decide) : 64 ^ k > 0)
      rw [Nat.mul_add] at hdigit
      omega

/-- How many bytes follow the first byte of the character with this code. -/
def Leads (n k lead : Nat) : Prop :=
  k = 0 ∧ n < 0x80 ∧ lead = n ∨
  k = 1 ∧ 0x80 ≤ n ∧ n < 0x800 ∧ lead = n / 64 + 0xc0 ∨
  k = 2 ∧ 0x800 ≤ n ∧ n < 0x10000 ∧ lead = n / 4096 + 0xe0 ∨
  k = 3 ∧ 0x10000 ≤ n ∧ n < 0x110000 ∧ lead = n / 262144 + 0xf0

theorem utf8EncodeChar_eq_cons (c : Char) :
    ∃ k lead, Leads c.val.toNat k lead ∧
      String.utf8EncodeChar c = UInt8.ofNat lead :: following k c.val.toNat := by
  have hlast : c.val.toNat < 0x110000 := by
    rcases c.valid with hc | ⟨-, hc⟩
    · exact Nat.lt_trans hc (by decide)
    · exact hc
  unfold String.utf8EncodeChar
  generalize c.val.toNat = n at hlast
  simp only
  split
  · exact ⟨0, n, .inl ⟨rfl, by omega, rfl⟩, rfl⟩
  split
  · refine ⟨1, n / 64 + 0xc0, .inr (.inl ⟨rfl, by omega, by omega, rfl⟩), ?_⟩
    rw [Nat.mod_eq_of_lt (by omega : n / 64 < 0x20)]
    simp [following]
  split
  · refine ⟨2, n / 4096 + 0xe0, .inr (.inr (.inl ⟨rfl, by omega, by omega, rfl⟩)), ?_⟩
    rw [Nat.mod_eq_of_lt (by omega : n / 4096 < 0x10)]
    simp [following]
  · refine ⟨3, n / 262144 + 0xf0, .inr (.inr (.inr ⟨rfl, by omega, hlast, rfl⟩)), ?_⟩
    rw [Nat.mod_eq_of_lt (by omega : n / 262144 < 0x08)]
    simp [following]

theorem Leads.lt_size {n k lead : Nat} (h : Leads n k lead) : lead < 256 := by
  rcases h with ⟨-, _, rfl⟩ | ⟨-, _, _, rfl⟩ | ⟨-, _, _, rfl⟩ | ⟨-, _, _, rfl⟩ <;> omega

/-- The first bytes tell characters apart, unless as many bytes follow, which then do. -/
theorem Leads.lt_or_eq {m n k l a b : Nat} (hm : Leads m k a) (hn : Leads n l b) (h : m < n) :
    a < b ∨ k = l ∧ a = b ∧ m % 64 ^ k < n % 64 ^ k := by
  rcases hm with ⟨rfl, _, rfl⟩ | ⟨rfl, _, _, rfl⟩ | ⟨rfl, _, _, rfl⟩ | ⟨rfl, _, _, rfl⟩ <;>
  rcases hn with ⟨rfl, _, rfl⟩ | ⟨rfl, _, _, rfl⟩ | ⟨rfl, _, _, rfl⟩ | ⟨rfl, _, _, rfl⟩ <;>
  omega

/-- The bytes of a character come before those of a later one, whatever follows. -/
theorem utf8EncodeChar_append_lt {c d : Char} (h : c < d) (u v : List UInt8) :
    String.utf8EncodeChar c ++ u < String.utf8EncodeChar d ++ v := by
  obtain ⟨k, a, hc, hbytes⟩ := utf8EncodeChar_eq_cons c
  obtain ⟨l, b, hd, hother⟩ := utf8EncodeChar_eq_cons d
  rw [hbytes, hother, List.cons_append, List.cons_append, List.cons_lt_cons_iff,
    byte_lt_iff hc.lt_size hd.lt_size]
  rcases hc.lt_or_eq hd h with hlt | ⟨rfl, rfl, hlt⟩
  · exact .inl hlt
  · exact .inr ⟨rfl, following_append_lt hlt u v⟩

theorem bytes_lt {cs ds : List Char} (h : cs < ds) : bytes cs < bytes ds := by
  induction h with
  | nil =>
    next d ds =>
    obtain ⟨k, a, -, hbytes⟩ := utf8EncodeChar_eq_cons d
    rw [bytes, bytes, List.flatMap_nil, List.flatMap_cons, hbytes]
    exact List.nil_lt_cons _ _
  | rel hlt => exact utf8EncodeChar_append_lt hlt _ _
  | cons _ ih => exact List.append_left_lt ih

theorem bytes_lt_iff {cs ds : List Char} : bytes cs < bytes ds ↔ cs < ds := by
  constructor
  · intro h
    by_contra hnot
    by_cases hsame : cs = ds
    · rw [hsame] at h
      exact List.lt_irrefl _ h
    · have hback : ds < cs := by
        by_contra hother
        exact hsame (List.le_antisymm (List.not_lt.1 hother) (List.not_lt.1 hnot))
      exact List.lt_asymm h (bytes_lt hback)
  · exact bytes_lt

/-- Of two texts the lesser is the one whose bytes come first. -/
theorem compare_eq_lt_iff (s t : String) :
    compare s t = .lt ↔ s.toUTF8.data.toList < t.toUTF8.data.toList := by
  rw [← bytes_toList, ← bytes_toList, bytes_lt_iff]
  exact compareOfLessAndEq_eq_lt

end TextTemplate.Text
