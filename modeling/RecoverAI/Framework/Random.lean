import Mathlib.Algebra.Order.Ring.Rat
import Mathlib.Data.List.Forall2

/-!
# Random generators

`random.Random` as far as its documentation goes: each draw advances the state of the generator
and returns something from a range. What is drawn is open, so whatever is proved of a program
that draws holds of every outcome (`Always`).
-/

namespace Python

/-- A random generator with the ranges of what it draws. -/
structure Random where
  State : Type
  /-- `Random(seed)` -/
  seed : ℤ → State
  /-- `a <= N <= b` -/
  randint (a b : ℤ) : StateM State { n : ℤ // a ≤ b → a ≤ n ∧ n ≤ b }
  choice {α : Type} (seq : List α) (nonempty : seq ≠ []) : StateM State { x : α // x ∈ seq }
  /-- `a <= N <= b`, as a float and so as a rational. -/
  uniform (a b : ℚ) : StateM State { x : ℚ // a ≤ b → a ≤ x ∧ x ≤ b }
  /-- `0.0 <= X < 1.0` -/
  random : StateM State { x : ℚ // 0 ≤ x ∧ x < 1 }
  shuffle {α : Type} (x : List α) : StateM State { l : List α // l.Perm x }

/-- Whatever the state, the result is as `Q` says. -/
def Always {σ α : Type} (x : StateM σ α) (Q : α → Prop) : Prop := ∀ s, Q (x s).1

section Rules

variable {σ α β : Type} {x : StateM σ α} {Q : α → Prop} {R : β → Prop}

theorem Always.pure {a : α} (h : Q a) : Always (Pure.pure a : StateM σ α) Q := fun _ => h

theorem Always.bind {f : α → StateM σ β} (hx : Always x Q) (hf : ∀ a, Q a → Always (f a) R) :
    Always (x >>= f) R :=
  fun s => hf _ (hx s) _

/-- A draw that nothing needs to be known of. -/
theorem Always.draw {f : α → StateM σ β} (hf : ∀ a, Always (f a) R) : Always (x >>= f) R :=
  fun _ => hf _ _

/-- Draws for each of a list, by induction on the list. -/
theorem Always.mapM {f : α → StateM σ β} {P : α → β → Prop} (h : ∀ a, Always (f a) (P a))
    (l : List α) : Always (l.mapM f) fun bs => List.Forall₂ P l bs := by
  induction l with
  | nil =>
    rw [List.mapM_nil]
    exact .pure .nil
  | cons a l ih =>
    rw [List.mapM_cons]
    exact (h a).bind fun b hb => ih.bind fun bs hbs => .pure (.cons hb hbs)

end Rules

/-- The generator that always draws the first there is. -/
def Random.first : Random where
  State := Unit
  seed _ := ()
  randint a _ := Pure.pure ⟨a, fun h => ⟨Int.le_refl a, h⟩⟩
  choice
    | [], nonempty => absurd rfl nonempty
    | x :: _, _ => Pure.pure ⟨x, List.mem_cons_self⟩
  uniform a _ := Pure.pure ⟨a, fun h => ⟨le_rfl, h⟩⟩
  random := Pure.pure ⟨0, le_rfl, zero_lt_one⟩
  shuffle x := Pure.pure ⟨x, List.Perm.refl x⟩

end Python
