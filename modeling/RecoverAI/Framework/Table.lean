import Mathlib.Init

/-!
# Tables

A table is a list of rows in the order of their insertion, each row with a key.
`Table.get?` is the first row with a key and `Table.update` rewrites the rows
with a key, so the two agree about a row whether or not keys repeat: nothing
below asks for distinct keys.

The simp set pushes `get?` through an update or an insertion.
-/

namespace Interleave

/-- Rows of type `ρ` are told apart by a key. -/
class Keyed (ρ : Type) (κ : outParam Type) where
  /-- The key of a row. -/
  key : ρ → κ

/-- A table of rows, in insertion order. -/
abbrev Table (ρ : Type) := List ρ

namespace Table

variable {ρ κ : Type} [Keyed ρ κ] [DecidableEq κ] {t : Table ρ} {k k' : κ} {r : ρ} {f g : ρ → ρ}

/-- The row with a key, if there is one. -/
def get? (t : Table ρ) (k : κ) : Option ρ := t.find? fun r => Keyed.key r = k

/-- Rewrite the rows with a key. -/
def update (t : Table ρ) (k : κ) (f : ρ → ρ) : Table ρ :=
  t.map fun r => if Keyed.key r = k then f r else r

/-- The function keeps the key of the rows it is applied to. -/
def KeepsKey (f : ρ → ρ) : Prop := ∀ r, Keyed.key (f r) = (Keyed.key r : κ)

theorem key_of_get? (h : get? t k = some r) : Keyed.key r = k := by
  simpa using List.find?_some h

theorem mem_of_get? (h : get? t k = some r) : r ∈ t := List.mem_of_find?_eq_some h

theorem get?_isSome_of_mem (h : r ∈ t) : (get? t (Keyed.key r)).isSome := by
  rw [get?, List.find?_isSome]
  exact ⟨r, h, by simp⟩

theorem get?_eq_none_iff : get? t k = none ↔ ∀ r ∈ t, Keyed.key r ≠ k := by
  simp [get?, List.find?_eq_none]

theorem get?_append (t u : Table ρ) (k : κ) : get? (t ++ u) k = (get? t k).or (get? u k) :=
  List.find?_append

@[simp] theorem get?_singleton (r : ρ) (k : κ) :
    get? [r] k = if Keyed.key r = k then some r else none := by
  by_cases h : Keyed.key r = k <;> simp [get?, h]

theorem get?_append_of_some (h : get? t k = some r) (u : Table ρ) :
    get? (t ++ u) k = some r := by
  rw [get?_append, h, Option.or]

theorem get?_update_self (hf : KeepsKey f) : get? (update t k f) k = (get? t k).map f := by
  induction t with
  | nil => rfl
  | cons r t ih =>
    have hf := hf r
    by_cases h : Keyed.key r = k
    · simp [get?, update, h, hf]
    · simpa [get?, update, h] using ih

theorem get?_update_ne (hf : KeepsKey f) (hne : k ≠ k') :
    get? (update t k f) k' = get? t k' := by
  -- by induction on the rows: the row that is updated keeps its key, so it is not the one looked
  -- for
  induction t with
  | nil => rfl
  | cons r t ih =>
    have hf := hf r
    by_cases h : Keyed.key r = k
    · have hk : Keyed.key r ≠ k' := fun hr => hne (h.symm.trans hr)
      have hfk : Keyed.key (f r) ≠ k' := hf ▸ hk
      simpa [get?, update, h, hfk, hne] using ih
    · by_cases h' : Keyed.key r = k'
      · have hne' : k' ≠ k := hne.symm
        simp [get?, update, h', hne']
      · simpa [get?, update, h, h'] using ih

/-- `get?` after an update, whichever the keys. -/
theorem get?_update (hf : KeepsKey f) :
    get? (update t k f) k' = if k = k' then (get? t k').map f else get? t k' := by
  by_cases h : k = k'
  · rw [if_pos h, ← h, get?_update_self hf]
  · rw [if_neg h, get?_update_ne hf h]

theorem mem_update : r ∈ update t k f ↔
    (r ∈ t ∧ Keyed.key r ≠ k) ∨ ∃ r₀ ∈ t, Keyed.key r₀ = k ∧ f r₀ = r := by
  rw [update, List.mem_map]
  constructor
  · rintro ⟨r₀, hr₀, rfl⟩
    by_cases h : Keyed.key r₀ = k
    · exact .inr ⟨r₀, hr₀, h, by rw [if_pos h]⟩
    · exact .inl (by rw [if_neg h]; exact ⟨hr₀, h⟩)
  · rintro (⟨hr, hk⟩ | ⟨r₀, hr₀, hk, rfl⟩)
    · exact ⟨r, hr, by rw [if_neg hk]⟩
    · exact ⟨r₀, hr₀, by rw [if_pos hk]⟩

/-- A column that the rewriting keeps. -/
theorem map_update {α : Type} (column : ρ → α) (h : ∀ r, column (f r) = column r) :
    (update t k f).map column = t.map column := by
  rw [update, List.map_map]
  refine List.map_congr_left fun r _ => ?_
  rw [Function.comp_apply]
  split
  · exact h r
  · rfl

theorem countP_update {p : ρ → Bool} (h : ∀ r, p (f r) = p r) :
    (update t k f).countP p = t.countP p := by
  have hmap := congrArg (List.countP id) (map_update (t := t) (k := k) p h)
  rwa [List.countP_map, List.countP_map] at hmap

end Table

end Interleave
