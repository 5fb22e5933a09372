import Mathlib.Algebra.Group.Int.Defs

/-!
# Integer columns

The models and the migrations declare every count and every amount as `Integer`, which is
the four-byte `INTEGER` of PostgreSQL. A value that does not fit is refused when it is
written.
-/

namespace RecoverAI

/-- The values an `INTEGER` column takes. -/
def FitsInteger (n : ℤ) : Prop := -2 ^ 31 ≤ n ∧ n ≤ 2 ^ 31 - 1

instance (n : ℤ) : Decidable (FitsInteger n) := inferInstanceAs (Decidable (_ ∧ _))

/-- A value that is read from such a column. -/
abbrev IntegerColumn := { n : ℤ // FitsInteger n }

end RecoverAI
