import Mathlib.Data.List.Basic
import TextTemplate.Function.Paging

/-! A loop over rows that opens a container at the first row of a page and closes it at the last. What
it writes is one page after another. -/

namespace TextTemplate.PageIndex

/-- A piece of what the loop writes. -/
inductive Piece where
  | opening
  | row (index : Nat)
  | closing
  deriving DecidableEq, Repr

/-- What the loop writes for a row: an opening before it, a closing behind it, where they belong. -/
def pieces (p : PageIndex) (index : Nat) : List Piece :=
  (if p.isFirstOnPage then [.opening] else []) ++
    .row index :: (if p.isLastOnPage then [.closing] else [])

/-- What the loop writes for all rows, one after another. -/
def run (size pageSize : Nat) : List Piece :=
  (List.range size).flatMap fun i => (of i size pageSize).pieces i

/-- What a container with these rows looks like. -/
def container (page : List Nat) : List Piece := .opening :: (page.map .row ++ [.closing])

/-- The number of rows on a page that is full. Pages of no rows mean one page for all. -/
def rows (size pageSize : Nat) : Nat := if pageSize = 0 then max size 1 else pageSize

/-- The rows of page `k`, which counts from zero. -/
def page (size n k : Nat) : List Nat := List.range' (k * n) (min n (size - k * n))

section
variable {size pageSize n k j : Nat}

theorem rows_pos (size pageSize : Nat) : 0 < rows size pageSize := by
  unfold rows
  split <;> omega

theorem of_eq (hn : rows size pageSize = n) (i : Nat) :
    of i size pageSize =
      ⟨i % n == 0, i % n + 1 == n || i + 1 == size, i % n + 1, i / n + 1,
        (size + n - 1) / n⟩ := by
  subst hn
  rfl

/-- The fields of a row, told from its page and its place there. -/
theorem of_place (hn : rows size pageSize = n) (hj : j < n) (hindex : k * n + j < size) :
    of (k * n + j) size pageSize =
      ⟨decide (j = 0), decide (j + 1 = min n (size - k * n)), j + 1, k + 1,
        (size + n - 1) / n⟩ := by
  have hrest : (k * n + j) % n = j := by
    rw [Nat.add_comm, Nat.add_mul_mod_self_right, Nat.mod_eq_of_lt hj]
  have hquotient : (k * n + j) / n = k := by
    rw [Nat.add_comm, Nat.add_mul_div_right j k (by omega), Nat.div_eq_of_lt hj, Nat.zero_add]
  have hlast : (j + 1 == n || k * n + j + 1 == size) = decide (j + 1 = min n (size - k * n)) := by
    rw [Bool.eq_iff_iff]
    simp only [Bool.or_eq_true, beq_iff_eq, decide_eq_true_eq]
    omega
  rw [of_eq hn, hrest, hquotient, hlast]
  rfl

theorem lt_pageCount_iff (hn : 0 < n) : k < (size + n - 1) / n ↔ k * n < size := by
  rw [Nat.lt_iff_add_one_le, Nat.le_div_iff_mul_le hn, Nat.succ_mul]
  omega

/-- The first pages hold the first rows. -/
theorem flatMap_page (size n count : Nat) :
    (List.range count).flatMap (page size n) = List.range (min size (count * n)) := by
  induction count with
  | zero => simp
  | succ count ih =>
    rw [List.range_succ, List.flatMap_append, ih, List.flatMap_singleton, Nat.succ_mul, page]
    by_cases hdone : size ≤ count * n
    · have hnone : size - count * n = 0 := Nat.sub_eq_zero_of_le hdone
      rw [hnone, Nat.min_zero, List.range'_zero, List.append_nil, Nat.min_eq_left hdone,
        Nat.min_eq_left (by omega)]
    · have hrest : min size (count * n + n) = count * n + min n (size - count * n) := by omega
      have hbehind := List.range'_append_1 (s := 0) (m := count * n) (n := min n (size - count * n))
      rw [Nat.zero_add] at hbehind
      rw [Nat.min_eq_right (by omega), hrest, List.range_eq_range', List.range_eq_range', hbehind]

/-- From a row on, the rest of its page is written, with an opening if the row is the first. -/
theorem flatMap_pieces (hn : rows size pageSize = n) (d : Nat)
    (hlast : j + d + 1 = min n (size - k * n)) :
    ((List.range' (k * n + j) (d + 1)).flatMap fun i => (of i size pageSize).pieces i) =
      (if j = 0 then [.opening] else []) ++
        ((List.range' (k * n + j) (d + 1)).map .row ++ [.closing]) := by
  induction d generalizing j with
  | zero =>
    have hplace := of_place (k := k) hn (j := j) (by omega) (by omega)
    have hend : decide (j + 1 = min n (size - k * n)) = true := decide_eq_true (by omega)
    simp [hplace, hend, pieces]
  | succ d ih =>
    have hplace := of_place (k := k) hn (j := j) (by omega) (by omega)
    have hend : decide (j + 1 = min n (size - k * n)) = false := decide_eq_false (by omega)
    have hrest := ih (j := j + 1) (by omega)
    rw [← Nat.add_assoc, if_neg (Nat.succ_ne_zero j), List.nil_append] at hrest
    rw [List.range'_succ, List.flatMap_cons, List.map_cons, hrest, hplace]
    simp [hend, pieces]

theorem flatMap_pieces_page (hn : rows size pageSize = n) (hk : k * n < size) :
    ((page size n k).flatMap fun i => (of i size pageSize).pieces i) =
      container (page size n k) := by
  have hpos := rows_pos size pageSize
  obtain ⟨d, hd⟩ : ∃ d, min n (size - k * n) = d + 1 := ⟨min n (size - k * n) - 1, by omega⟩
  have hpieces := flatMap_pieces (k := k) (j := 0) hn d (by omega)
  rw [page, hd]
  exact hpieces

/-- All rows of a run, page by page. -/
def pages (size n : Nat) : List (List Nat) := (List.range ((size + n - 1) / n)).map (page size n)

theorem flatten_pages (size : Nat) (hn : 0 < n) : (pages size n).flatten = List.range size := by
  have hnot : ¬ (size + n - 1) / n * n < size := mt (lt_pageCount_iff hn).2 (Nat.lt_irrefl _)
  rw [pages, ← List.flatMap_def, flatMap_page, Nat.min_eq_left (Nat.not_lt.1 hnot)]

/-- The run is one container after another. -/
theorem run_eq (hn : rows size pageSize = n) (hpos : 0 < n) :
    run size pageSize = (pages size n).flatMap container := by
  rw [run, ← flatten_pages size hpos, pages, ← List.flatMap_def, List.flatMap_assoc,
    List.flatMap_map, List.flatMap_def, List.flatMap_def]
  congr 1
  apply List.map_congr_left
  intro k hk
  exact flatMap_pieces_page hn ((lt_pageCount_iff hpos).1 (List.mem_range.1 hk))

theorem getElem?_pages {page : List Nat} (hn : 0 < n) (h : (pages size n)[k]? = some page) :
    page = PageIndex.page size n k ∧ k * n < size := by
  obtain ⟨hk, hpage⟩ := List.getElem?_eq_some_iff.1 h
  simp only [pages, List.length_map, List.length_range] at hk
  simp only [pages, List.getElem_map, List.getElem_range] at hpage
  exact ⟨hpage.symm, (lt_pageCount_iff hn).1 hk⟩

/-- No page is empty, and none has too many rows. -/
theorem length_of_mem_pages {page : List Nat} (hn : 0 < n) (h : page ∈ pages size n) :
    1 ≤ page.length ∧ page.length ≤ n := by
  obtain ⟨k, hk⟩ := List.mem_iff_getElem?.1 h
  obtain ⟨rfl, hstart⟩ := getElem?_pages hn hk
  rw [PageIndex.page, List.length_range']
  omega

/-- A page that others follow is full. -/
theorem length_of_mem_dropLast_pages {page : List Nat} (hn : 0 < n)
    (h : page ∈ (pages size n).dropLast) : page.length = n := by
  obtain ⟨k, hk⟩ := List.mem_iff_getElem?.1 h
  rw [List.getElem?_dropLast] at hk
  split at hk
  · next hlast =>
    obtain ⟨rfl, -⟩ := getElem?_pages hn hk
    have hnext : (k + 1) * n < size := by
      apply (lt_pageCount_iff hn).1
      simp only [pages, List.length_map, List.length_range] at hlast
      omega
    rw [Nat.succ_mul] at hnext
    rw [PageIndex.page, List.length_range']
    omega
  · cases hk

/-- Where a row stands tells its page number and page row. -/
theorem of_getElem? (hn : rows size pageSize = n) (hpos : 0 < n) {page : List Nat} {i : Nat}
    (hpage : (pages size n)[k]? = some page) (hi : page[j]? = some i) :
    (of i size pageSize).pageNumber = k + 1 ∧ (of i size pageSize).pageRow = j + 1 := by
  obtain ⟨rfl, hstart⟩ := getElem?_pages hpos hpage
  obtain ⟨hj, rfl⟩ := List.getElem?_eq_some_iff.1 hi
  rw [PageIndex.page, List.length_range'] at hj
  have hplace := of_place (k := k) hn (j := j) (by omega) (by omega)
  simp [PageIndex.page, hplace]

end

/-- The containers open and close in balance: the run is a row of containers without anything
between or inside them but rows, as many as the page count says, and all rows stand in them in
order. All but the last are full, and none is empty. Page number and page row tell the container
and the place in it, and from them the index; nothing on the way is larger than the number of
rows. -/
theorem containers_balanced (size pageSize : Nat) :
    ∃ pages : List (List Nat),
      run size pageSize = pages.flatMap container ∧
      pages.flatten = List.range size ∧
      (∀ i, (of i size pageSize).pageCount = pages.length) ∧
      (∀ page ∈ pages.dropLast, page.length = rows size pageSize) ∧
      (∀ page ∈ pages, 1 ≤ page.length ∧ page.length ≤ rows size pageSize) ∧
      (∀ k page j i, pages[k]? = some page → page[j]? = some i →
        (of i size pageSize).pageNumber = k + 1 ∧ (of i size pageSize).pageRow = j + 1) ∧
      ∀ i < size, let p := of i size pageSize
        (p.pageNumber - 1) * rows size pageSize + p.pageRow - 1 = i ∧
        1 ≤ p.pageNumber ∧ p.pageNumber ≤ size ∧ 1 ≤ p.pageRow ∧
        (p.pageNumber - 1) * rows size pageSize + p.pageRow ≤ size := by
  have hpos := rows_pos size pageSize
  generalize hn : rows size pageSize = n at hpos ⊢
  refine ⟨PageIndex.pages size n, run_eq hn hpos, flatten_pages size hpos, ?_, ?_, ?_, ?_, ?_⟩
  · intro i
    rw [of_eq hn, PageIndex.pages, List.length_map, List.length_range]
  · intro page hpage
    exact length_of_mem_dropLast_pages hpos hpage
  · intro page hpage
    exact length_of_mem_pages hpos hpage
  · intro k page j i hpage hi
    exact of_getElem? hn hpos hpage hi
  · intro i hi
    have hsplit : i / n * n + i % n = i := Nat.div_add_mod' i n
    have hquotient : i / n ≤ i := Nat.div_le_self i n
    simp only [of_eq hn, Nat.add_sub_cancel]
    generalize i / n = q at *
    generalize i % n = r at *
    omega

/-- Nine rows on pages of four make two full containers and one of a single row. -/
theorem containers_balanced_single_last_row :
    ∃ a b c : List Nat, run 9 4 = container a ++ (container b ++ container c) ∧
      a ++ (b ++ c) = List.range 9 ∧ a.length = 4 ∧ b.length = 4 ∧ c = [8] ∧
      (of 8 9 4).pageNumber = 3 ∧ (of 8 9 4).pageRow = 1 ∧
      ((of 8 9 4).pageNumber - 1) * 4 + (of 8 9 4).pageRow - 1 = 8 := by
  obtain ⟨pages, hrun, hrows, hcount, hfull, hsome, hplace, hindex⟩ := containers_balanced 9 4
  obtain ⟨a, b, c, rfl⟩ : ∃ a b c, pages = [a, b, c] :=
    List.length_eq_three.1 (hcount 0).symm
  have ha : a.length = 4 := hfull a (by simp)
  have hb : b.length = 4 := hfull b (by simp)
  have hc := hsome c (by simp)
  simp only [List.flatten_cons, List.flatten_nil, List.append_nil] at hrows
  have hlast : c = [8] := by
    have hdrop := congrArg (List.drop 8) hrows
    rwa [← List.append_assoc, List.drop_left' (by simp [ha, hb])] at hdrop
  have hat := hplace 2 c 0 8 rfl (by rw [hlast]; rfl)
  refine ⟨a, b, c, ?_, hrows, ha, hb, hlast, hat.1, hat.2, (hindex 8 (by decide)).1⟩
  simpa using hrun

end TextTemplate.PageIndex
