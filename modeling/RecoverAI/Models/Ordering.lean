import RecoverAI.Framework.Paging
import RecoverAI.Models.Queries

/-!
# Rows in order

`orderedBy` yields the same rows in the order of their times, so whatever page of them is
taken first is of the earliest times. It yields every such order, each for some ranking.
-/

namespace RecoverAI

open Interleave

section Ordering

variable {ρ : Type} [Keyed ρ Uuid] (time : ρ → Time) (ranking : List Uuid) (rows : List ρ)

theorem orderedBy_perm : (orderedBy time ranking rows).Perm rows := List.perm_insertionSort _ _

variable {time ranking rows}

@[simp] theorem mem_orderedBy {r : ρ} : r ∈ orderedBy time ranking rows ↔ r ∈ rows :=
  (orderedBy_perm time ranking rows).mem_iff

@[simp] theorem length_orderedBy : (orderedBy time ranking rows).length = rows.length :=
  (orderedBy_perm time ranking rows).length_eq

variable (time ranking rows) in
theorem pairwise_orderedBy_ranking : (orderedBy time ranking rows).Pairwise fun a b =>
    time a < time b ∨
      (time a = time b ∧ ranking.idxOf (Keyed.key a) ≤ ranking.idxOf (Keyed.key b)) := by
  let before : ρ → ρ → Prop := fun a b => time a < time b ∨
    (time a = time b ∧ ranking.idxOf (Keyed.key a) ≤ ranking.idxOf (Keyed.key b))
  have htotal : Std.Total before := ⟨fun a b => by
    rcases lt_trichotomy (time a) (time b) with hlt | heq | hgt
    · exact .inl (.inl hlt)
    · rcases le_total (ranking.idxOf (Keyed.key a)) (ranking.idxOf (Keyed.key b)) with hle | hle
      · exact .inl (.inr ⟨heq, hle⟩)
      · exact .inr (.inr ⟨heq.symm, hle⟩)
    · exact .inr (.inl hgt)⟩
  have htrans : IsTrans ρ before := ⟨fun a b c => by
    rintro (hab | ⟨hab, hab'⟩) (hbc | ⟨hbc, hbc'⟩)
    · exact .inl (hab.trans hbc)
    · exact .inl (hbc ▸ hab)
    · exact .inl (hab ▸ hbc)
    · exact .inr ⟨hab.trans hbc, hab'.trans hbc'⟩⟩
  exact List.pairwise_insertionSort before rows

variable (time ranking rows) in
theorem pairwise_orderedBy :
    (orderedBy time ranking rows).Pairwise fun a b => time a ≤ time b := by
  refine (pairwise_orderedBy_ranking time ranking rows).imp fun {a b} h => ?_
  rcases h with h | ⟨h, -⟩
  · exact h.le
  · exact h.le

variable (time ranking rows) in
theorem arranges_orderedBy : Arranges time rows (orderedBy time ranking rows) :=
  ⟨orderedBy_perm time ranking rows, pairwise_orderedBy time ranking rows⟩

/-- An order of the rows is what the ranking by that order leads to. -/
theorem orderedBy_map_key {l : List ρ} (hkeys : (rows.map Keyed.key).Nodup)
    (h : Arranges time rows l) : orderedBy time (l.map Keyed.key) rows = l := by
  have hkeys' : (l.map Keyed.key).Nodup := (h.perm.map _).nodup_iff.mpr hkeys
  refine (orderedBy_perm time _ rows).trans h.perm.symm |>.eq_of_pairwise ?_
    (pairwise_orderedBy_ranking time (l.map Keyed.key) rows) ?_
  · -- rows of one time and one place in the ranking have one key
    rintro a b ha hb (hab | ⟨heq, hab⟩) (hba | ⟨heq', hba⟩)
    · exact absurd (hab.trans hba) (lt_irrefl _)
    · exact absurd (heq' ▸ hab) (lt_irrefl _)
    · exact absurd (heq ▸ hba) (lt_irrefl _)
    · have hkey : Keyed.key a ∈ l.map Keyed.key :=
        List.mem_map_of_mem (h.perm.mem_iff.mpr (mem_orderedBy.mp ha))
      exact List.inj_on_of_nodup_map hkeys' (h.perm.mem_iff.mpr (mem_orderedBy.mp ha)) hb
        ((List.idxOf_inj hkey).mp (le_antisymm hab hba))
  · refine List.pairwise_iff_getElem.mpr fun i j hi hj hlt => ?_
    have hle := List.pairwise_iff_getElem.mp h.sorted i j hi hj hlt
    rcases hle.lt_or_eq with hbefore | hsame
    · exact .inl hbefore
    · refine .inr ⟨hsame, ?_⟩
      have hplace (k : ℕ) (hk : k < l.length) : (l.map Keyed.key).idxOf (Keyed.key l[k]) = k := by
        have hk' : k < (l.map Keyed.key).length := by rwa [List.length_map]
        rw [← List.getElem_map (f := Keyed.key) (h := hk')]
        exact hkeys'.idxOf_getElem k hk'
      rw [hplace i hi, hplace j hj]
      exact hlt.le

/-- What is on the first page is no later than what is not. -/
theorem le_of_mem_take_orderedBy {limit : ℕ} {r r' : ρ}
    (hr : r ∈ (orderedBy time ranking rows).take limit) (hr' : r' ∈ rows)
    (hout : r' ∉ (orderedBy time ranking rows).take limit) : time r ≤ time r' := by
  have hsplit := List.take_append_drop limit (orderedBy time ranking rows)
  have hmem : r' ∈ (orderedBy time ranking rows).drop limit := by
    have hall : r' ∈ orderedBy time ranking rows := mem_orderedBy.mpr hr'
    rw [← hsplit, List.mem_append] at hall
    exact hall.resolve_left hout
  exact (pairwise_orderedBy time ranking rows).rel_of_mem_take_of_mem_drop hr hmem

end Ordering

end RecoverAI
