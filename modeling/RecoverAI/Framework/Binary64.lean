import RecoverAI.Framework.Rounding
import Mathlib.Algebra.Order.Field.Rat
import Mathlib.Data.Nat.Log

/-!
# Integers as binary64 numbers

JavaScript has no integers: a number that it reads is the nearest binary64 number. Below
`2 ^ 53` that is the integer itself, and beyond no integer comes back below it, so an
integer below compares with any other as it does before both are read.
-/

namespace Python

namespace Float

/-- The nearest number with a significand of 53 bits, the even one of two. -/
def roundNat (n : ℕ) : ℕ :=
  (roundHalfEven (n / (2 ^ (n.log2 - 52) : ℕ))).toNat * 2 ^ (n.log2 - 52)

/-- The first number that is too large. -/
@[irreducible] def overflow : ℕ := 2 ^ 1024

/-- Reading an integer; one that is too large is infinite. -/
def ofInt (n : ℤ) : Float :=
  if roundNat n.natAbs < overflow then .finite (n.sign * roundNat n.natAbs)
  else .infinite (n < 0)

/-- `a <= b` -/
def le : Float → Float → Bool
  | .nan, _ => false
  | _, .nan => false
  | .infinite negative, .infinite negative' => negative || !negative'
  | .infinite negative, .finite _ => negative
  | .finite _, .infinite negative => !negative
  | .finite a, .finite b => a ≤ b

/-- `a < b` -/
def lt : Float → Float → Bool
  | .nan, _ => false
  | _, .nan => false
  | .infinite negative, .infinite negative' => negative && !negative'
  | .infinite negative, .finite _ => negative
  | .finite _, .infinite negative => !negative
  | .finite a, .finite b => a < b

@[simp] theorem le_finite {a b : ℚ} : le (.finite a) (.finite b) ↔ a ≤ b := decide_eq_true_iff

@[simp] theorem lt_finite {a b : ℚ} : lt (.finite a) (.finite b) ↔ a < b := decide_eq_true_iff

/-! ### Which integers are read exactly -/

theorem roundNat_of_lt {n : ℕ} (h : n < 2 ^ 53) : roundNat n = n := by
  have hlog : n.log2 - 52 = 0 := by
    rcases Nat.eq_zero_or_pos n with rfl | hpos
    · rfl
    · exact Nat.sub_eq_zero_of_le (Nat.le_of_lt_succ ((Nat.log2_lt hpos.ne').mpr h))
  have hcast : (n : ℚ) / ((1 : ℕ) : ℚ) = ((n : ℤ) : ℚ) := by
    rw [Nat.cast_one, div_one, Int.cast_natCast]
  rw [roundNat, hlog, pow_zero, hcast, roundHalfEven_intCast, Int.toNat_natCast, Nat.mul_one]

/-- What is read of a larger one is no smaller than that. -/
theorem le_roundNat {n : ℕ} (h : 2 ^ 53 ≤ n) : 2 ^ 53 ≤ roundNat n := by
  have hne : n ≠ 0 := by
    rintro rfl
    exact absurd h (by decide)
  have hlog : 53 ≤ n.log2 := (Nat.le_log2 hne).mpr h
  -- the last place of `n` is worth `2 ^ (log2 n - 52)`, and `n` has at least `2 ^ 52` of them
  have hunit : 2 ^ 52 * 2 ^ (n.log2 - 52) ≤ n := by
    rw [← Nat.pow_add, Nat.add_sub_cancel' (Nat.le_of_succ_le hlog)]
    exact Nat.log2_self_le hne
  have hpos : (0 : ℚ) < (2 ^ (n.log2 - 52) : ℕ) := by
    exact_mod_cast Nat.two_pow_pos _
  have hquotient : ((2 ^ 52 : ℤ) : ℚ) ≤ n / (2 ^ (n.log2 - 52) : ℕ) := by
    rw [le_div_iff₀ hpos]
    exact_mod_cast hunit
  -- rounding keeps that bound, since `2 ^ 52` is an integer
  have hsignificand : 2 ^ 52 ≤ (roundHalfEven (n / (2 ^ (n.log2 - 52) : ℕ))).toNat := by
    have hround := (Int.le_floor.mpr hquotient).trans (floor_le_roundHalfEven _)
    exact (Int.le_toNat (le_trans (by decide) hround)).mpr hround
  calc 2 ^ 53 = 2 ^ 52 * 2 ^ 1 := (Nat.pow_succ ..)
    _ ≤ 2 ^ 52 * 2 ^ (n.log2 - 52) :=
      Nat.mul_le_mul_left _ (Nat.pow_le_pow_right (by decide) (Nat.le_sub_of_add_le hlog))
    _ ≤ roundNat n := Nat.mul_le_mul_right _ hsignificand

theorem lt_overflow {n : ℕ} (h : n < 2 ^ 53) : n < overflow := by
  have hexponent : 53 < 1024 := by decide
  unfold overflow
  exact h.trans (pow_lt_pow_right₀ Nat.one_lt_two hexponent)

variable {a b : ℤ}

theorem ofInt_of_lt (h : a.natAbs < 2 ^ 53) : ofInt a = .finite a := by
  have hfinite : roundNat a.natAbs < overflow := by
    rw [roundNat_of_lt h]
    exact lt_overflow h
  have hvalue : ((a.sign : ℚ) * (a.natAbs : ℕ)) = a := by
    rw [← Int.cast_natCast, ← Int.cast_mul, Int.sign_mul_natAbs]
  rw [ofInt, if_pos hfinite, roundNat_of_lt h, hvalue]

/-- A positive integer beyond is read as one beyond. -/
theorem ofInt_of_ge (h : 2 ^ 53 ≤ b) :
    (∃ value : ℚ, 2 ^ 53 ≤ value ∧ ofInt b = .finite value) ∨ ofInt b = .infinite false := by
  have hround : 2 ^ 53 ≤ roundNat b.natAbs := le_roundNat (by omega)
  have hsign : b.sign = 1 := Int.sign_eq_one_of_pos (by omega)
  by_cases hfinite : roundNat b.natAbs < overflow
  · refine .inl ⟨b.sign * roundNat b.natAbs, ?_, by rw [ofInt, if_pos hfinite]⟩
    rw [hsign, Int.cast_one, one_mul]
    exact_mod_cast hround
  · right
    rw [ofInt, if_neg hfinite, decide_eq_false (by omega)]

/-- And a negative one. -/
theorem ofInt_of_le (h : b ≤ -2 ^ 53) :
    (∃ value : ℚ, value ≤ -2 ^ 53 ∧ ofInt b = .finite value) ∨ ofInt b = .infinite true := by
  have hround : 2 ^ 53 ≤ roundNat b.natAbs := le_roundNat (by omega)
  have hsign : b.sign = -1 := Int.sign_eq_neg_one_of_neg (by omega)
  by_cases hfinite : roundNat b.natAbs < overflow
  · refine .inl ⟨b.sign * roundNat b.natAbs, ?_, by rw [ofInt, if_pos hfinite]⟩
    rw [hsign, Int.cast_neg, Int.cast_one, neg_mul, one_mul, neg_le_neg_iff]
    exact_mod_cast hround
  · right
    rw [ofInt, if_neg hfinite, decide_eq_true (by omega)]

/-! ### Comparisons -/

/-- How an integer that is read exactly stands to any other, when both are read. -/
theorem ofInt_trichotomy (ha : a.natAbs < 2 ^ 53) (b : ℤ) :
    (a < b ∧ le (ofInt a) (ofInt b) ∧ lt (ofInt a) (ofInt b) ∧ ¬ le (ofInt b) (ofInt a)) ∨
    (a = b ∧ le (ofInt a) (ofInt b) ∧ ¬ lt (ofInt a) (ofInt b) ∧ le (ofInt b) (ofInt a)) ∨
    (b < a ∧ ¬ le (ofInt a) (ofInt b) ∧ ¬ lt (ofInt a) (ofInt b) ∧ le (ofInt b) (ofInt a)) := by
  have habove : (a : ℚ) < 2 ^ 53 := by
    have h : a < 2 ^ 53 := by omega
    exact_mod_cast h
  have hbelow : -2 ^ 53 < (a : ℚ) := by
    have h : -2 ^ 53 < a := by omega
    exact_mod_cast h
  rw [ofInt_of_lt ha]
  -- either `b` is read exactly too, or what is read of it lies beyond the exact integers
  by_cases hb : b.natAbs < 2 ^ 53
  · rw [ofInt_of_lt hb]
    simp only [le_finite, lt_finite, Int.cast_le, Int.cast_lt]
    omega
  · rcases (by omega : 2 ^ 53 ≤ b ∨ b ≤ -2 ^ 53) with hbig | hsmall
    · left
      refine ⟨by omega, ?_⟩
      -- the far side may also be the infinity, which compares like a number
      rcases ofInt_of_ge hbig with ⟨value, hvalue, heq⟩ | heq
      · have hlt : (a : ℚ) < value := habove.trans_le hvalue
        rw [heq, le_finite, lt_finite, le_finite]
        exact ⟨hlt.le, hlt, not_le.mpr hlt⟩
      · rw [heq]
        exact ⟨rfl, rfl, Bool.false_ne_true⟩
    · right; right
      refine ⟨by omega, ?_⟩
      rcases ofInt_of_le hsmall with ⟨value, hvalue, heq⟩ | heq
      · have hlt : value < (a : ℚ) := hvalue.trans_lt hbelow
        rw [heq, le_finite, lt_finite, le_finite]
        exact ⟨not_le.mpr hlt, not_lt.mpr hlt.le, hlt.le⟩
      · rw [heq]
        exact ⟨Bool.false_ne_true, Bool.false_ne_true, rfl⟩

theorem ofInt_le_iff (ha : a.natAbs < 2 ^ 53) : le (ofInt a) (ofInt b) ↔ a ≤ b := by
  rcases ofInt_trichotomy ha b with ⟨hab, h, -, -⟩ | ⟨hab, h, -, -⟩ | ⟨hab, h, -, -⟩
  · exact iff_of_true h hab.le
  · exact iff_of_true h hab.le
  · exact iff_of_false h (not_le.mpr hab)

theorem ofInt_lt_iff (ha : a.natAbs < 2 ^ 53) : lt (ofInt a) (ofInt b) ↔ a < b := by
  rcases ofInt_trichotomy ha b with ⟨hab, -, h, -⟩ | ⟨hab, -, h, -⟩ | ⟨hab, -, h, -⟩
  · exact iff_of_true h hab
  · exact iff_of_false h hab.not_lt
  · exact iff_of_false h (not_lt.mpr hab.le)

theorem le_ofInt_iff (ha : a.natAbs < 2 ^ 53) : le (ofInt b) (ofInt a) ↔ b ≤ a := by
  rcases ofInt_trichotomy ha b with ⟨hab, -, -, h⟩ | ⟨hab, -, -, h⟩ | ⟨hab, -, -, h⟩
  · exact iff_of_false h (not_le.mpr hab)
  · exact iff_of_true h hab.ge
  · exact iff_of_true h hab.le

end Float

end Python
