import RecoverAI.Framework.Selection
import Mathlib.Data.List.Pairwise
import Mathlib.Data.List.Sort

/-!
# Pages of an order that is not total

Rows that are sorted by a rank which several rows may share have more than one order, and
whoever asks for them page by page may be served each page from another one. The pages are
exact whatever the orders if and only if no two rows of equal rank are on different sides of
a boundary between pages (`pages_perm_iff`).
-/

namespace Interleave

variable {α τ : Type} [LinearOrder τ] {rank : α → τ} {rows l l' : List α} {c n size : ℕ}

/-- An order of the rows by their ranks. -/
structure Arranges (rank : α → τ) (rows l : List α) : Prop where
  perm : l.Perm rows
  sorted : l.Pairwise fun a b => rank a ≤ rank b

/-- Rows of equal rank are cut apart behind the first `c`. -/
def CutsTie (rank : α → τ) (rows : List α) (c : ℕ) : Prop :=
  ∃ t, rows.countP (fun a => rank a < t) < c ∧ c < rows.countP (fun a => rank a ≤ t)

namespace Arranges

theorem exists_arranges (rank : α → τ) (rows : List α) : ∃ l, Arranges rank rows l := by
  refine ⟨rows.insertionSort fun a b => rank a ≤ rank b, List.perm_insertionSort _ _, ?_⟩
  have htotal : Std.Total fun a b : α => rank a ≤ rank b := ⟨fun a b => le_total _ _⟩
  have htrans : IsTrans α fun a b => rank a ≤ rank b := ⟨fun a b c => le_trans⟩
  exact List.pairwise_insertionSort _ rows

theorem initial_lt (h : Arranges rank rows l) (t : τ) :
    l.Pairwise fun a b => decide (rank b < t) → decide (rank a < t) := by
  refine h.sorted.imp fun {a b} hle hlt => ?_
  rw [decide_eq_true_eq] at hlt ⊢
  exact hle.trans_lt hlt

theorem initial_le (h : Arranges rank rows l) (t : τ) :
    l.Pairwise fun a b => decide (rank b ≤ t) → decide (rank a ≤ t) := by
  refine h.sorted.imp fun {a b} hle hle' => ?_
  rw [decide_eq_true_eq] at hle' ⊢
  exact hle.trans hle'

/-- Where no tie is cut, the first rows are the same in every order. -/
theorem take_perm (h : Arranges rank rows l) (h' : Arranges rank rows l')
    (hcut : ¬ CutsTie rank rows c) : (l.take c).Perm (l'.take c) := by
  -- at either end there is nothing to choose
  rcases Nat.eq_zero_or_pos c with rfl | hpos
  · exact List.Perm.refl _
  rcases Nat.lt_or_ge l.length c with hall | hc
  · have hlength := h.perm.length_eq.trans h'.perm.length_eq.symm
    rw [List.take_of_length_le hall.le, List.take_of_length_le (hlength ▸ hall.le)]
    exact h.perm.trans h'.perm.symm
  -- the rows up to the rank of the last one are as many as there are to be
  have hi : c - 1 < l.length := by omega
  let t := rank l[c - 1]
  have hlt : l.countP (fun a => rank a < t) < c := by
    refine countP_lt_of_mem_take (h.initial_lt t) (b := l[c - 1]) ?_ (by simp [t])
    exact List.mem_take_iff_getElem.mpr ⟨c - 1, by omega, rfl⟩
  have hle : c ≤ l.countP fun a => rank a ≤ t := by
    have hmem : l[c - 1] ∈ l.drop (c - 1) := List.mem_drop_iff_getElem.mpr ⟨0, by simpa using hi, rfl⟩
    have := lt_countP_of_mem_drop (h.initial_le t) hmem (by simp [t])
    omega
  -- one more would be a tie at the cut
  have hcount : l.countP (fun a => rank a ≤ t) = c := by
    refine le_antisymm (Nat.le_of_not_lt fun hover => hcut ⟨t, ?_, ?_⟩) hle
    · rwa [← h.perm.countP_eq]
    · rwa [← h.perm.countP_eq]
  -- the other order has the same counts, so its first rows are those up to `t` as well
  have hcount' : l'.countP (fun a => rank a ≤ t) = c := by
    rw [h'.perm.countP_eq, ← h.perm.countP_eq, hcount]
  have htake := filter_eq_take (h.initial_le t)
  have htake' := filter_eq_take (h'.initial_le t)
  rw [hcount] at htake
  rw [hcount'] at htake'
  rw [← htake, ← htake']
  exact (h.perm.trans h'.perm.symm).filter _

/-- What is at a place between the rows below a rank and those up to it. -/
theorem rank_getElem {t : τ} {i : ℕ} (h : Arranges rank rows l)
    (hlt : rows.countP (fun a => rank a < t) ≤ i) (hle : i < rows.countP fun a => rank a ≤ t)
    (hi : i < l.length) : rank l[i] = t := by
  rw [← h.perm.countP_eq] at hlt hle
  -- a rank above `t` is not among the first, a rank below it not among the last
  refine le_antisymm ?_ (le_of_not_gt fun hbelow => ?_)
  · have hmem : l[i] ∈ l.take (l.countP fun a => rank a ≤ t) :=
      List.mem_take_iff_getElem.mpr ⟨i, by omega, rfl⟩
    rw [← filter_eq_take (h.initial_le t)] at hmem
    simpa using (List.mem_filter.mp hmem).2
  · have hmem : l[i] ∈ l.drop i := List.mem_drop_iff_getElem.mpr ⟨0, by simpa using hi, rfl⟩
    have hcount := lt_countP_of_mem_drop (h.initial_lt t) hmem (by simpa using hbelow)
    omega

/-- Rows whose ranks rise as they stand come in that order. -/
theorem filter_eq (h : Arranges rank rows l) {p : α → Bool}
    (hp : (rows.filter p).Pairwise fun a b => rank a < rank b) : l.filter p = rows.filter p := by
  refine (h.perm.filter p).eq_of_pairwise (fun a b ha hb hab hba => ?_) (h.sorted.filter p)
    (hp.imp le_of_lt)
  -- two of them of one rank are one
  by_contra hne
  have ha := (h.perm.filter p).mem_iff.mp ha
  have : Std.Symm fun a b : α => rank a ≠ rank b := ⟨fun _ _ => Ne.symm⟩
  exact List.Pairwise.forall (R := fun a b => rank a ≠ rank b) (hp.imp ne_of_lt) ha hb hne
    (le_antisymm hab hba)

/-- Where a tie is cut, the rows at the cut can change places. -/
theorem exists_swap (h : Arranges rank rows l) (hcut : CutsTie rank rows c) :
    ∃ front a b back, l = front ++ a :: b :: back ∧ front.length + 1 = c ∧
      Arranges rank rows (front ++ b :: a :: back) := by
  -- both rows at the cut have the rank `t`
  obtain ⟨t, hlt, hle⟩ := hcut
  have hlength : rows.countP (fun a => rank a ≤ t) ≤ l.length := by
    rw [h.perm.length_eq]
    exact List.countP_le_length
  have hi : c - 1 < l.length := by omega
  have hi' : c < l.length := by omega
  have hsplit : l = l.take (c - 1) ++ l[c - 1] :: l[c] :: l.drop (c + 1) := by
    have hnext : c - 1 + 1 = c := by omega
    conv_lhs => rw [← List.take_append_drop (c - 1) l, List.drop_eq_getElem_cons hi]
    rw [hnext, List.drop_eq_getElem_cons hi']
  have ha : rank l[c - 1] = t := h.rank_getElem (by omega) (by omega) hi
  have hb : rank l[c] = t := h.rank_getElem hlt.le hle hi'
  refine ⟨_, _, _, _, hsplit, by rw [List.length_take]; omega, ?_, ?_⟩
  -- a swap permutes, and two rows of one rank may stand in either order
  · refine List.Perm.trans ?_ h.perm
    conv_rhs => rw [hsplit]
    exact (List.Perm.swap _ _ _).append_left _
  · have hsorted := h.sorted
    rw [hsplit] at hsorted
    obtain ⟨hfront, hrest, hacross⟩ := List.pairwise_append.mp hsorted
    obtain ⟨hfirst, hrest⟩ := List.pairwise_cons.mp hrest
    obtain ⟨hsecond, hback⟩ := List.pairwise_cons.mp hrest
    refine List.pairwise_append.mpr ⟨hfront, ?_, fun r hr r' hr' => hacross r hr r' ?_⟩
    · refine List.pairwise_cons.mpr ⟨?_, List.pairwise_cons.mpr ⟨fun r hr => ?_, hback⟩⟩
      · intro r hr
        rcases List.mem_cons.mp hr with rfl | hr
        · rw [ha, hb]
        · exact hsecond r hr
      · exact hfirst r (List.mem_cons_of_mem _ hr)
    · simp only [List.mem_cons] at hr' ⊢
      tauto

end Arranges

/-! ### Pages -/

/-- The page that leaves out the first `n` pages. -/
def page (l : List α) (size n : ℕ) : List α := (l.drop (n * size)).take size

theorem mem_page_of_getElem? {a : α} {i : ℕ} (h : l[i]? = some a) (hle : n * size ≤ i)
    (hlt : i < (n + 1) * size) : a ∈ page l size n := by
  rw [Nat.succ_mul] at hlt
  refine List.mem_of_getElem? (i := i - n * size) ?_
  rw [page, List.getElem?_take_of_lt (by omega), List.getElem?_drop, Nat.add_sub_cancel' hle, h]

theorem take_append_page : l.take (n * size) ++ page l size n = l.take ((n + 1) * size) := by
  rw [page, Nat.succ_mul, List.take_add]

/-- How many pages there are. -/
def pageCount (total size : ℕ) : ℕ := (total + size - 1) / size

/-- The pages have room for everything. -/
theorem le_pageCount_mul {total : ℕ} (hsize : 0 < size) : total ≤ pageCount total size * size := by
  have hdiv := Nat.div_add_mod (total + size - 1) size
  have hmod := Nat.mod_lt (total + size - 1) hsize
  rw [Nat.mul_comm] at hdiv
  rw [pageCount]
  omega

theorem lt_pageCount {total : ℕ} (hsize : 0 < size) (h : n * size < total) :
    n < pageCount total size := by
  rw [pageCount, Nat.lt_iff_add_one_le, Nat.le_div_iff_mul_le hsize, Nat.succ_mul]
  omega

/-- Pages that are served one after another, each from an order of its own. -/
def pages (ls : ℕ → List α) (size m : ℕ) : List α :=
  (List.range m).flatMap fun n => page (ls n) size n

theorem pages_succ (ls : ℕ → List α) (m : ℕ) :
    pages ls size (m + 1) = pages ls size m ++ page (ls m) size m := by
  rw [pages, List.range_succ, List.flatMap_append, List.flatMap_singleton]
  rfl

/-- The pages so far are the first rows of any order, by induction on the pages. -/
theorem pages_perm_take {ls : ℕ → List α} (hls : ∀ n, Arranges rank rows (ls n))
    (hcut : ∀ n, ¬ CutsTie rank rows (n * size)) (m : ℕ) :
    ∀ l, Arranges rank rows l → (pages ls size m).Perm (l.take (m * size)) := by
  -- the pages before are the first rows of the next order too: no tie is cut between them
  induction m with
  | zero =>
    intro l _
    rw [Nat.zero_mul]
    exact List.Perm.refl _
  | succ m ih =>
    intro l hl
    rw [pages_succ]
    calc pages ls size m ++ page (ls m) size m
        |>.Perm ((ls m).take (m * size) ++ page (ls m) size m) := (ih _ (hls m)).append_right _
      _ = (ls m).take ((m + 1) * size) := take_append_page
      _ |>.Perm (l.take ((m + 1) * size)) := (hls m).take_perm hl (hcut (m + 1))

/-- A row that two pages share. -/
theorem not_nodup_pages {ls : ℕ → List α} {m n n' : ℕ} {a : α} (hlt : n < n') (hm : n' < m)
    (h : a ∈ page (ls n) size n) (h' : a ∈ page (ls n') size n') : ¬ (pages ls size m).Nodup := by
  intro hnodup
  have hdisjoint := (List.nodup_flatMap.mp hnodup).2
  have hpair := List.pairwise_iff_getElem.mp hdisjoint n n' (by simp; omega) (by simpa using hm) hlt
  rw [List.getElem_range, List.getElem_range] at hpair
  exact hpair h h'

/-- **When paging is exact.** Whatever orders the pages are served from, every row is on one
of them once, if and only if no boundary between them cuts a tie. -/
theorem pages_perm_iff (hnodup : rows.Nodup) (hsize : 0 < size) :
    (∀ ls : ℕ → List α, (∀ n, Arranges rank rows (ls n)) →
      (pages ls size (pageCount rows.length size)).Perm rows) ↔
    ∀ n, ¬ CutsTie rank rows (n * size) := by
  obtain ⟨l, hl⟩ := Arranges.exists_arranges rank rows
  constructor
  -- if a tie is cut, the row before the cut can be served twice
  · intro hexact n hcut
    obtain ⟨front, a, b, back, hsplit, hlength, hswap⟩ := hl.exists_swap hcut
    have hn : n ≠ 0 := by
      rintro rfl
      omega
    obtain ⟨n, rfl⟩ : ∃ m, n = m + 1 := ⟨n - 1, by omega⟩
    have htotal : (n + 1) * size < rows.length := by
      rw [← hl.perm.length_eq, hsplit, List.length_append, List.length_cons, List.length_cons]
      omega
    have hbegin : n * size ≤ front.length := by
      rw [Nat.succ_mul] at hlength
      omega
    -- the page behind the cut is served from the other order
    let ls (i : ℕ) : List α := if i = n + 1 then front ++ b :: a :: back else l
    have hls (i : ℕ) : Arranges rank rows (ls i) := by
      simp only [ls]
      split
      · exact hswap
      · exact hl
    have hbefore : a ∈ page (ls n) size n := by
      have hfirst : l[front.length]? = some a := by
        rw [hsplit, List.getElem?_append_right le_rfl, Nat.sub_self]
        rfl
      have hother : ls n = l := if_neg (by omega)
      rw [hother]
      exact mem_page_of_getElem? hfirst hbegin (by omega)
    have hbehind : a ∈ page (ls (n + 1)) size (n + 1) := by
      have hnext : (front ++ b :: a :: back)[(n + 1) * size]? = some a := by
        rw [← hlength, List.getElem?_append_right (Nat.le_succ _), Nat.succ_eq_add_one,
          Nat.add_sub_cancel_left]
        rfl
      have hother : ls (n + 1) = front ++ b :: a :: back := if_pos rfl
      rw [hother]
      exact mem_page_of_getElem? hnext le_rfl (Nat.mul_lt_mul_of_pos_right (Nat.lt_succ_self _) hsize)
    have hperm := hexact ls hls
    exact not_nodup_pages (Nat.lt_succ_self n) (lt_pageCount hsize htotal) hbefore hbehind
      (hperm.nodup_iff.mpr hnodup)
  · intro hcut ls hls
    -- all pages together hold as many rows as there are
    have hperm := pages_perm_take hls hcut (pageCount rows.length size) l hl
    rw [List.take_of_length_le] at hperm
    · exact hperm.trans hl.perm
    · rw [hl.perm.length_eq]
      exact le_pageCount_mul hsize

end Interleave
