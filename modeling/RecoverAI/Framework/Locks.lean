import Mathlib.Data.Fintype.Card
import Mathlib.Data.Set.Finite.Basic
import Mathlib.Logic.Relation
import Mathlib.Order.WellFounded

/-!
# Waiting for locks

A thread that wants a lock another one holds waits for it. Threads that wait for each other
in a circle wait for ever. The classical remedy is to rank the locks and to ask for a lock
only while every lock held ranks below it (`Locking.Ranked`).

Some threads may be `lax`: they ask for a lock while they hold others of the same rank.
Then every member of a circle is lax (`lax_of_cycle`), so with one lax thread at most there
is no circle at all (`acyclic`). Without a circle, however it is avoided, one among finitely
many threads that wait only for each other does not wait (`Acyclic.exists_free`).
-/

namespace Interleave

open Relation

/-- Who holds which locks, and who wants which. -/
structure Locking (T Key : Type) where
  holds : T → Key → Prop
  wants : T → Key → Prop

namespace Locking

variable {T Key : Type} (L : Locking T Key)

/-- `t` wants a lock that another thread `u` holds. -/
def WaitsFor (t u : T) : Prop := t ≠ u ∧ ∃ k, L.wants t k ∧ L.holds u k

/-- Nobody waits in a circle. -/
def Acyclic : Prop := ∀ t, ¬ TransGen L.WaitsFor t t

/-- **The discipline of ranks.** A lock is held by one thread; whoever wants a lock it does
not hold wants one that ranks no lower than those it holds and, unless it is lax, higher. -/
structure Ranked (rank : Key → ℕ) (lax : T → Prop) : Prop where
  exclusive : ∀ t u k, L.holds t k → L.holds u k → t = u
  rising : ∀ t k, L.wants t k → ¬ L.holds t k → ∀ h, L.holds t h → rank h ≤ rank k
  strictly : ∀ t k, L.wants t k → ¬ L.holds t k → ¬ lax t → ∀ h, L.holds t h → rank h < rank k

variable {L} {rank : Key → ℕ} {lax : T → Prop} {t u : T}

namespace Ranked

/-- Along a chain of waiting threads the rank does not fall, from the lock the first one
wants to a lock the last one holds. -/
theorem rank_le_of_chain (hL : L.Ranked rank lax) (h : TransGen L.WaitsFor t u) :
    ∃ k k', L.wants t k ∧ ¬ L.holds t k ∧ L.holds u k' ∧ rank k ≤ rank k' := by
  -- what another thread holds is not held by the one that waits for it
  have hnot : ∀ {t u k}, t ≠ u → L.holds u k → ¬ L.holds t k := fun htu hu ht =>
    htu (hL.exclusive _ _ _ ht hu)
  induction h with
  | single h =>
    obtain ⟨htu, k, hwants, hholds⟩ := h
    exact ⟨k, k, hwants, hnot htu hholds, hholds, le_rfl⟩
  | tail _ h ih =>
    obtain ⟨k, k', hk, hk', hmiddle, hle⟩ := ih
    obtain ⟨htu, k'', hwants, hholds⟩ := h
    have hrise := hL.rising _ k'' hwants (hnot htu hholds) k' hmiddle
    exact ⟨k, k'', hk, hk', hholds, hle.trans hrise⟩

/-- **Who waits in a circle is lax.** -/
theorem lax_of_cycle (hL : L.Ranked rank lax) (h : TransGen L.WaitsFor t t) : lax t := by
  by_contra hstrict
  -- once around, the rank would have to rise above itself
  obtain ⟨k, k', hwants, hnot, hholds, hle⟩ := hL.rank_le_of_chain h
  exact absurd (hL.strictly t k hwants hnot hstrict k' hholds) (Nat.not_lt.mpr hle)

/-- One lax thread alone cannot wait in a circle. -/
theorem acyclic (hL : L.Ranked rank lax) (hone : ∀ t u, lax t → lax u → t = u) :
    L.Acyclic := by
  intro t h
  -- the next one on the circle is another thread, and it is on the circle as well
  obtain ⟨u, hwaits, hback⟩ := TransGen.head'_iff.mp h
  have hnext : TransGen L.WaitsFor u u := TransGen.tail' hback hwaits
  exact hwaits.1 (hone t u (hL.lax_of_cycle h) (hL.lax_of_cycle hnext))

end Ranked

/-- **Somebody goes on.** Among finitely many threads that wait for no others, and not in a
circle, one waits for nobody. -/
theorem Acyclic.exists_free (hL : L.Acyclic) {A : Set T} (hA : A.Finite) (hne : A.Nonempty)
    (hclosed : ∀ t ∈ A, ∀ u, L.WaitsFor t u → u ∈ A) : ∃ t ∈ A, ∀ u, ¬ L.WaitsFor t u := by
  -- without circles waiting is a strict order, which has an end on a finite set
  let below : A → A → Prop := fun u t => TransGen L.WaitsFor t.1 u.1
  have : Finite A := hA
  have : IsTrans A below := ⟨fun _ _ _ h h' => h'.trans h⟩
  have : Std.Irrefl below := ⟨fun t => hL t.1⟩
  obtain ⟨t, ht⟩ := hne
  obtain ⟨⟨t, ht⟩, -, hmin⟩ := (Finite.wellFounded_of_trans_of_irrefl below).has_min Set.univ
    ⟨⟨t, ht⟩, trivial⟩
  exact ⟨t, ht, fun u hwaits => hmin ⟨u, hclosed t ht u hwaits⟩ trivial (.single hwaits)⟩

/-- A list of locks may be asked for while others are held. -/
def InOrder (rank : Key → ℕ) (lax : Bool) (held wanted : List Key) : Prop :=
  ∀ k ∈ wanted, k ∈ held ∨ ∀ h ∈ held, rank h < rank k ∨ lax = true ∧ rank h = rank k

namespace InOrder

variable {laxly : Bool} {held wanted wanted' : List Key} {k : Key}

theorem nil : InOrder rank laxly held [] := fun _ hk => absurd hk List.not_mem_nil

/-- Nothing is in the way of who holds nothing. -/
theorem of_nil : InOrder rank laxly [] wanted :=
  fun _ _ => .inr fun _ hh => absurd hh List.not_mem_nil

theorem append (h : InOrder rank laxly held wanted) (h' : InOrder rank laxly held wanted') :
    InOrder rank laxly held (wanted ++ wanted') := fun k hk =>
  (List.mem_append.mp hk).elim (h k) (h' k)

/-- Who holds one lock at most may ask for it again. -/
theorem again (h : ∀ k' ∈ held, k' = k) : InOrder rank laxly held [k] := by
  intro k' hk'
  obtain rfl := List.mem_singleton.mp hk'
  -- either nothing is held, or the lock itself
  rcases held with _ | ⟨k'', held⟩
  · exact .inr fun _ hh => absurd hh List.not_mem_nil
  · exact .inl (h k'' List.mem_cons_self ▸ List.mem_cons_self)

/-- What ranks above everything held may be asked for. -/
theorem above (h : ∀ k ∈ wanted, ∀ k' ∈ held, rank k' < rank k) :
    InOrder rank laxly held wanted := fun k hk => .inr fun k' hk' => .inl (h k hk k' hk')

end InOrder

end Locking

end Interleave
