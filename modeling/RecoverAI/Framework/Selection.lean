import Mathlib.Data.List.Basic
import Mathlib.Data.List.Perm.Subperm

/-!
# The first of a list

What is among the first `n` of a list whose order is known. A predicate is initial if it
holds of whatever comes before something that it holds of; what it holds of is then a
first part of the list, so how often it holds says whether that part ends before `n`.
-/

namespace Interleave

variable {α : Type} {l : List α} {p : α → Bool} {R : α → α → Prop} {a b : α} {n : ℕ}

/-- What an initial predicate holds of comes first. -/
theorem filter_eq_take (h : l.Pairwise fun a b => p b → p a) : l.filter p = l.take (l.countP p) := by
  induction l with
  | nil => rfl
  | cons a l ih =>
    obtain ⟨ha, hl⟩ := List.pairwise_cons.mp h
    by_cases hp : p a
    · rw [List.filter_cons_of_pos hp, List.countP_cons_of_pos hp, List.take_succ_cons, ih hl]
    · have hnone : ∀ b ∈ l, ¬ p b := fun b hb hpb => hp (ha b hb hpb)
      rw [List.filter_cons_of_neg hp, List.countP_cons_of_neg hp, List.filter_eq_nil_iff.mpr hnone,
        List.countP_eq_zero.mpr hnone, List.take_zero]

/-- And what it does not hold of comes last. -/
theorem filter_not_eq_drop (h : l.Pairwise fun a b => p b → p a) :
    (l.filter fun a => !p a) = l.drop (l.countP p) := by
  -- by induction: either the head is kept out, or nothing behind it satisfies `p`
  induction l with
  | nil => rfl
  | cons a l ih =>
    obtain ⟨ha, hl⟩ := List.pairwise_cons.mp h
    by_cases hp : p a
    · rw [List.filter_cons_of_neg (by simp [hp]), List.countP_cons_of_pos hp, List.drop_succ_cons,
        ih hl]
    · have hnone : ∀ b ∈ l, ¬ p b := fun b hb hpb => hp (ha b hb hpb)
      rw [List.filter_cons_of_pos (by simp [hp]), List.countP_cons_of_neg hp,
        List.countP_eq_zero.mpr hnone, List.drop_zero]
      exact congrArg (a :: ·) (List.filter_eq_self.mpr fun b hb => by simp [hnone b hb])

/-- Something among the first that the predicate does not hold of: it has ended before. -/
theorem countP_lt_of_mem_take (h : l.Pairwise fun a b => p b → p a) (hb : b ∈ l.take n)
    (hpb : ¬ p b) : l.countP p < n := by
  by_contra hle
  have hmem : b ∈ l.take (l.countP p) := List.take_subset_take_left l (Nat.le_of_not_lt hle) hb
  rw [← filter_eq_take h] at hmem
  exact hpb (List.mem_filter.mp hmem).2

/-- Something behind the first that the predicate holds of: it has not ended before. -/
theorem lt_countP_of_mem_drop (h : l.Pairwise fun a b => p b → p a) (ha : a ∈ l.drop n)
    (hpa : p a) : n < l.countP p := by
  by_contra hle
  have hmem : a ∈ l.drop (l.countP p) := List.drop_subset_drop_left l (Nat.le_of_not_lt hle) ha
  rw [← filter_not_eq_drop h] at hmem
  simpa [hpa] using (List.mem_filter.mp hmem).2

/-- Where a predicate has ended, the next one is among the first. -/
theorem exists_mem_take (h : l.Pairwise fun a b => p b → p a) (hR : l.Pairwise R)
    (hn : l.countP p < n) (hb : b ∈ l) (hpb : ¬ p b) :
    ∃ a ∈ l.take n, ¬ p a ∧ (a = b ∨ R a b) := by
  -- `b` is among those that `p` has ended before, and their first is `a`
  have hmem : b ∈ l.drop (l.countP p) := by
    rw [← filter_not_eq_drop h, List.mem_filter]
    exact ⟨hb, by simp [hpb]⟩
  have hdrop := filter_not_eq_drop h
  cases hl : l.drop (l.countP p) with
  | nil => rw [hl] at hmem; cases hmem
  | cons a rest =>
    have hpa : a ∈ l.filter fun a => !p a := by
      rw [hdrop, hl]
      exact List.mem_cons_self
    refine ⟨a, ?_, by simpa using (List.mem_filter.mp hpa).2, ?_⟩
    -- `a` stands at the place `countP p`, which is below `n`
    · have htake : l.take (l.countP p + 1) = l.take (l.countP p) ++ [a] := by
        rw [List.take_add, hl]
        rfl
      refine List.take_subset_take_left l hn ?_
      rw [htake]
      exact List.mem_append_right _ List.mem_cons_self
    · rw [hl] at hmem
      rcases List.mem_cons.mp hmem with rfl | hmem
      · exact .inl rfl
      · have hrest := hR.sublist (List.drop_sublist (l.countP p) l)
        rw [hl] at hrest
        exact .inr (List.pairwise_cons.mp hrest |>.1 b hmem)

/-- Where it has not ended, the last that it holds of is behind the first. -/
theorem exists_mem_drop (h : l.Pairwise fun a b => p b → p a) (hR : l.Pairwise R)
    (hn : n < l.countP p) (hb : b ∈ l) (hpb : p b) :
    ∃ a ∈ l.drop n, p a ∧ (a = b ∨ R b a) := by
  -- `b` is among the first `countP p`, and their last is `a`
  have hmem : b ∈ l.take (l.countP p) := by
    rw [← filter_eq_take h, List.mem_filter]
    exact ⟨hb, hpb⟩
  rcases List.eq_nil_or_concat (l.take (l.countP p)) with hnil | ⟨front, a, hfront⟩
  · rw [hnil] at hmem
    cases hmem
  have hsplit : l = front ++ a :: l.drop (l.countP p) := by
    conv_lhs => rw [← List.take_append_drop (l.countP p) l, hfront]
    rw [List.concat_eq_append, List.append_assoc, List.singleton_append]
  refine ⟨a, ?_, ?_, ?_⟩
  -- `a` stands at the place `countP p - 1`, which is `n` or more
  · have hlength := congrArg List.length hfront
    rw [List.length_take, Nat.min_eq_left List.countP_le_length, List.length_concat] at hlength
    rw [hsplit, List.drop_append_of_le_length (by omega)]
    exact List.mem_append_right _ List.mem_cons_self
  · have ha : a ∈ l.filter p := by
      rw [filter_eq_take h, hfront, List.concat_eq_append]
      exact List.mem_append_right _ List.mem_cons_self
    exact (List.mem_filter.mp ha).2
  · rw [hfront, List.concat_eq_append] at hmem
    rcases List.mem_append.mp hmem with hmem | hmem
    · rw [hsplit] at hR
      exact .inr ((List.pairwise_append.mp hR).2.2 b hmem a List.mem_cons_self)
    · exact .inl (List.mem_singleton.mp hmem).symm

/-- **Taking more than is needed.** Whoever takes as many more of a list without repetitions as
there are things to leave out has enough, or has everything. -/
theorem length_take_filter_take [DecidableEq α] {excluded : List α} (hl : l.Nodup) (n : ℕ) :
    (((l.take (n + excluded.length)).filter fun a => a ∉ excluded).take n).length =
      min n (l.filter fun a => a ∉ excluded).length := by
  set front := l.take (n + excluded.length) with hfront
  rw [List.length_take]
  rcases Nat.le_total l.length (n + excluded.length) with hall | hmore
  · rw [hfront, List.take_of_length_le hall]
  -- of the rows fetched, at most as many as there are exclusions are filtered out
  · have hin : (front.filter fun a => a ∈ excluded).length ≤ excluded.length := by
      have hnodup : (front.filter fun a => a ∈ excluded).Nodup :=
        (hl.sublist (List.take_sublist _ _)).filter _
      refine (hnodup.subperm fun a ha => ?_).length_le
      simpa using (List.mem_filter.mp ha).2
    have hsplit := List.length_eq_length_filter_add (l := front) fun a => a ∈ excluded
    have hlength : front.length = n + excluded.length := by
      rw [hfront, List.length_take, Nat.min_eq_left hmore]
    -- and what is left is part of what could be had
    have hout : (front.filter fun a => a ∉ excluded).length ≤
        (l.filter fun a => a ∉ excluded).length :=
      ((List.take_sublist _ _).filter _).length_le
    simp only [decide_not] at hout ⊢
    rw [Nat.min_eq_left (by omega), Nat.min_eq_left (by omega)]

end Interleave
