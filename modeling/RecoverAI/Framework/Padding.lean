import Mathlib.Data.List.Basic

/-!
# Padded numbers in names

`f"{n:04d}"` pads a number with zeros up to a width and leaves a longer one as it is. Reading
the digits gives the number back at any length, and as there is no underscore in them, a name
that ends in an underscore and such a number can be taken apart again.
-/

namespace Python

/-- The digits of `f"{n:0{width}d}"`. -/
def zeroPadded (width n : ℕ) : List Char :=
  List.replicate (width - (Nat.toDigits 10 n).length) '0' ++ Nat.toDigits 10 n

theorem ofDigitChars_zeroPadded (width n : ℕ) : Nat.ofDigitChars 10 (zeroPadded width n) 0 = n := by
  rw [zeroPadded, Nat.ofDigitChars_append, Nat.ofDigitChars_replicate_zero, Nat.mul_zero]
  exact Nat.ofDigitChars_toDigits (by decide) (by decide)

theorem zeroPadded_injective (width : ℕ) : Function.Injective (zeroPadded width) :=
  Function.LeftInverse.injective (g := fun digits => Nat.ofDigitChars 10 digits 0)
    (ofDigitChars_zeroPadded width)

theorem underscore_notMem_zeroPadded (width n : ℕ) : '_' ∉ zeroPadded width n := by
  rw [zeroPadded, List.mem_append, not_or]
  refine ⟨fun h => ?_, Nat.underscore_not_in_toDigits⟩
  exact absurd (List.eq_of_mem_replicate h) (by decide)

/-- What is behind the last separator, and what is before it. -/
theorem append_cons_inj {α : Type} {sep : α} {as as' bs bs' : List α} (hbs : sep ∉ bs)
    (hbs' : sep ∉ bs') (h : as ++ sep :: bs = as' ++ sep :: bs') : as = as' ∧ bs = bs' := by
  -- no separator is behind the last one, so neither list can be longer
  induction as generalizing as' with
  | nil =>
    cases as' with
    | nil => exact ⟨rfl, (List.cons.inj h).2⟩
    | cons a' as' =>
      obtain ⟨-, rfl⟩ := List.cons.inj h
      exact absurd (List.mem_append_right _ List.mem_cons_self) hbs
  | cons a as ih =>
    cases as' with
    | nil =>
      obtain ⟨-, rfl⟩ := List.cons.inj h
      exact absurd (List.mem_append_right _ List.mem_cons_self) hbs'
    | cons a' as' =>
      obtain ⟨rfl, hrest⟩ := List.cons.inj h
      obtain ⟨rfl, rfl⟩ := ih hrest
      exact ⟨rfl, rfl⟩

/-- `f"{name}_{n:0{width}d}"` -/
def nameWithNumber (width : ℕ) (name : String) (n : ℕ) : String :=
  String.ofList (name.toList ++ '_' :: zeroPadded width n)

/-- The name and the number can be told from it. -/
theorem nameWithNumber_inj {width n n' : ℕ} {name name' : String}
    (h : nameWithNumber width name n = nameWithNumber width name' n') : name = name' ∧ n = n' := by
  have htext := String.ofList_injective h
  obtain ⟨hname, hdigits⟩ := append_cons_inj (underscore_notMem_zeroPadded width n)
    (underscore_notMem_zeroPadded width n') htext
  exact ⟨String.toList_injective hname, zeroPadded_injective width hdigits⟩

end Python
