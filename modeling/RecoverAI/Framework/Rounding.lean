import RecoverAI.Framework.Json
import Mathlib.Algebra.Order.Field.Rat
import Mathlib.Data.Int.Log
import Mathlib.Data.Rat.Floor

/-!
# Rounding

`round` takes the nearest value, and the even one of two. It stays between whatever integers
there are around, and so a rate stays a rate.
-/

namespace Python

theorem floor_le_roundHalfEven (x : ℚ) : ⌊x⌋ ≤ roundHalfEven x := by
  rw [roundHalfEven]
  split
  · exact le_refl _
  · split
    · exact Int.le_add_one (le_refl _)
    · split
      · exact le_refl _
      · exact Int.le_add_one (le_refl _)

@[simp] theorem roundHalfEven_intCast (n : ℤ) : roundHalfEven n = n := by
  have hbelow : ((n : ℚ) - ⌊(n : ℚ)⌋) < 1 / 2 := by
    rw [Int.floor_intCast, sub_self]
    exact one_half_pos
  rw [roundHalfEven, if_pos hbelow, Int.floor_intCast]

theorem le_roundHalfEven {n : ℤ} {x : ℚ} (h : (n : ℚ) ≤ x) : n ≤ roundHalfEven x :=
  (Int.le_floor.mpr h).trans (floor_le_roundHalfEven x)

theorem roundHalfEven_le {n : ℤ} {x : ℚ} (h : x ≤ (n : ℚ)) : roundHalfEven x ≤ n := by
  have hle : (⌊x⌋ : ℚ) ≤ x := Int.floor_le x
  have hfloor : ⌊x⌋ ≤ n := Int.cast_le.mp (hle.trans h)
  rcases hfloor.lt_or_eq with hlt | heq
  · simp only [roundHalfEven]
    split_ifs <;> omega
  · -- the value is the integer itself
    have hx : x = ⌊x⌋ := le_antisymm (heq ▸ h) hle
    rw [hx, roundHalfEven_intCast]
    exact hfloor

/-- `round(x, digits)` of a float, as the rational it stands for. -/
def roundTo (digits : ℕ) (x : ℚ) : ℚ := roundHalfEven (x * 10 ^ digits) / 10 ^ digits

theorem roundTo_mem {digits : ℕ} {x : ℚ} (h : 0 ≤ x ∧ x ≤ 1) :
    0 ≤ roundTo digits x ∧ roundTo digits x ≤ 1 := by
  have hpow : (0 : ℚ) < 10 ^ digits := pow_pos (by decide) digits
  -- `0` and `10 ^ digits` are integers, so rounding does not pass them
  have hlow : 0 ≤ roundHalfEven (x * 10 ^ digits) := by
    refine le_roundHalfEven ?_
    rw [Int.cast_zero]
    exact mul_nonneg h.1 hpow.le
  have hhigh : roundHalfEven (x * 10 ^ digits) ≤ 10 ^ digits := by
    refine roundHalfEven_le ?_
    rw [Int.cast_pow]
    exact mul_le_of_le_one_left hpow.le h.2
  refine ⟨div_nonneg (Int.cast_nonneg hlow) hpow.le, (div_le_one hpow).mpr ?_⟩
  have hcast := Int.cast_le (R := ℚ).mpr hhigh
  rwa [Int.cast_pow] at hcast

/-- What a quotient is as a binary64 number, away from the subnormal ones: the nearest number with
a significand of 53 bits, the even one of two. -/
def roundBinary64 (x : ℚ) : ℚ :=
  if x = 0 then 0
  else roundHalfEven (x / 2 ^ (Int.log 2 |x| - 52)) * 2 ^ (Int.log 2 |x| - 52)

end Python
