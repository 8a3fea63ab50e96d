import Mathlib.Data.Int.Log
import Mathlib.Data.Rat.Floor
import Mathlib.Tactic.Linarith
import Mathlib.Tactic.NormNum

/-!
# Machinery/Binary64 — the doubles among the rationals, and the shortest text of one

A double is a number of 53 binary digits, or fewer below `2 ^ -1022`.  The one nearest to a number is
half a unit in the last place away from it at most (`abs_binary64_sub_le`), and so is every number that
is read as this double (`abs_sub_binary64_le`): the shortest decimal text of a double says nearly what
the double is (`abs_shortestDecimal_sub_le`), and not quite.

Doubles are finite here; what is too large for one is not looked at.
-/

namespace Machinery

variable {x : ℚ}

/-! ## The nearest double -/

/-- The nearest integer, of two the even one. -/
def roundHalfEven (x : ℚ) : ℤ :=
  if x - ⌊x⌋ < 1 / 2 then ⌊x⌋
  else if 1 / 2 < x - ⌊x⌋ then ⌊x⌋ + 1
  else if ⌊x⌋ % 2 = 0 then ⌊x⌋ else ⌊x⌋ + 1

theorem abs_roundHalfEven_sub_le (x : ℚ) : |(roundHalfEven x : ℚ) - x| ≤ 1 / 2 := by
  have hle := Int.floor_le x
  have hlt := Int.lt_floor_add_one x
  rw [abs_le, roundHalfEven]
  split_ifs <;> push_cast <;> constructor <;> linarith

theorem le_roundHalfEven {n : ℤ} (h : n ≤ x) : n ≤ roundHalfEven x := by
  have hle : n ≤ ⌊x⌋ := Int.le_floor.mpr h
  rw [roundHalfEven]
  split_ifs <;> omega

/-- **The unit in the last place** of the doubles about `x`. -/
def ulp (x : ℚ) : ℚ := 2 ^ max (Int.log 2 |x| - 52) (-1074)

/-- **The double nearest to a number.** -/
def binary64 (x : ℚ) : ℚ :=
  if 0 ≤ x then roundHalfEven (|x| / ulp x) * ulp x else -(roundHalfEven (|x| / ulp x) * ulp x)

theorem ulp_pos (x : ℚ) : 0 < ulp x := zpow_pos (by norm_num) _

theorem abs_binary64_sub_le_ulp (x : ℚ) : |binary64 x - x| ≤ ulp x / 2 := by
  have hpos := ulp_pos x
  have hround : ∀ y : ℚ, |(roundHalfEven (y / ulp x) : ℚ) * ulp x - y| ≤ ulp x / 2 := fun y => by
    have hscale : (roundHalfEven (y / ulp x) : ℚ) * ulp x - y =
        (roundHalfEven (y / ulp x) - y / ulp x) * ulp x := by
      rw [sub_mul, div_mul_cancel₀ _ hpos.ne']
    rw [hscale, abs_mul, abs_of_pos hpos]
    have hhalf := mul_le_mul_of_nonneg_right (abs_roundHalfEven_sub_le (y / ulp x)) hpos.le
    linarith
  rw [binary64]
  split
  case isTrue hx =>
    rw [abs_of_nonneg hx]
    exact hround x
  case isFalse hx =>
    have hneg := hround (-x)
    rw [abs_of_neg (not_le.mp hx), ← abs_neg, neg_sub, sub_neg_eq_add, add_comm]
    rwa [sub_neg_eq_add] at hneg

theorem abs_binary64 (x : ℚ) : |binary64 x| = roundHalfEven (|x| / ulp x) * ulp x := by
  have hpos := ulp_pos x
  have hround : (0 : ℤ) ≤ roundHalfEven (|x| / ulp x) :=
    le_roundHalfEven (by rw [Int.cast_zero]; positivity)
  have hnonneg : (0 : ℚ) ≤ roundHalfEven (|x| / ulp x) * ulp x :=
    mul_nonneg (by exact_mod_cast hround) hpos.le
  rw [binary64]
  split
  · exact abs_of_nonneg hnonneg
  · rw [abs_neg, abs_of_nonneg hnonneg]

/-- The unit of a number with 53 digits. -/
theorem ulp_of_le_log (h : -1022 ≤ Int.log 2 |x|) : 2 ^ Int.log 2 |x| = 2 ^ 52 * ulp x := by
  rw [ulp, max_eq_left (by omega), zpow_sub₀ two_ne_zero, mul_div_assoc']
  exact (mul_div_cancel_left₀ _ (by positivity)).symm

theorem zpow_log_le (hx : x ≠ 0) : (2 : ℚ) ^ Int.log 2 |x| ≤ |x| := by
  exact_mod_cast Int.zpow_log_le_self (b := 2) one_lt_two (abs_pos.mpr hx)

/-- The unit is the last of 53 digits. -/
theorem ulp_le (h : 1 / 2 ^ 1022 ≤ |x|) : ulp x ≤ |x| / 2 ^ 52 := by
  have hx : 0 < |x| := lt_of_lt_of_le (by positivity) h
  have hlog : -1022 ≤ Int.log 2 |x| := by
    refine (Int.zpow_le_iff_le_log (b := 2) one_lt_two hx).mp (le_trans (le_of_eq ?_) h)
    rw [zpow_neg, one_div]
    norm_cast
  have hle := zpow_log_le (abs_pos.mp hx)
  rw [ulp_of_le_log hlog] at hle
  rw [le_div_iff₀ (by positivity)]
  linarith

/-- Rounding does not cross a power of two: the unit is the last of 53 digits of the double, too. -/
theorem ulp_le_binary64 (h : 1 / 2 ^ 1022 ≤ |binary64 x|) : ulp x ≤ |binary64 x| / 2 ^ 52 := by
  have hpos := ulp_pos x
  rw [le_div_iff₀ (by positivity)]
  by_cases hlog : -1022 ≤ Int.log 2 |x|
  · have hx : x ≠ 0 := by
      rintro rfl
      have hzero : binary64 0 = 0 := by decide +kernel
      rw [hzero, abs_zero] at h
      exact absurd h (not_le.mpr (by positivity))
    have hle := zpow_log_le hx
    rw [ulp_of_le_log hlog] at hle
    have hdigits : ((2 ^ 52 : ℤ) : ℚ) ≤ |x| / ulp x := by
      rw [le_div_iff₀ hpos]
      exact_mod_cast hle
    have hround : ((2 ^ 52 : ℤ) : ℚ) ≤ roundHalfEven (|x| / ulp x) := by
      exact_mod_cast le_roundHalfEven hdigits
    rw [abs_binary64, mul_comm]
    exact mul_le_mul_of_nonneg_right (by exact_mod_cast hround) hpos.le
  · have hulp : ulp x * 2 ^ 52 = 1 / 2 ^ 1022 := by
      rw [ulp, max_eq_right (by omega), one_div, ← zpow_natCast, ← zpow_natCast,
        ← zpow_add₀ two_ne_zero, ← zpow_neg]
      exact congrArg _ (by decide)
    rwa [hulp]

theorem div_two_pow_53 (x : ℚ) : x / 2 ^ 53 = x / 2 ^ 52 / 2 := by rw [div_div, ← pow_succ]

/-- **The nearest double is near**, half a unit away at most. -/
theorem abs_binary64_sub_le (h : 1 / 2 ^ 1022 ≤ |x|) : |binary64 x - x| ≤ |x| / 2 ^ 53 := by
  have hulp := ulp_le h
  have hnear := abs_binary64_sub_le_ulp x
  rw [div_two_pow_53]
  linarith

/-- **What is read as a double is near it**, as a part of the double. -/
theorem abs_sub_binary64_le (h : 1 / 2 ^ 1022 ≤ |binary64 x|) :
    |x - binary64 x| ≤ |binary64 x| / 2 ^ 53 := by
  have hulp := ulp_le_binary64 h
  have hnear := abs_binary64_sub_le_ulp x
  rw [abs_sub_comm, div_two_pow_53]
  linarith

/-! ## The shortest text -/

/-- The nearest number of `k + 1` decimal digits. -/
def toDigits (x : ℚ) (k : ℕ) : ℚ :=
  roundHalfEven (x / 10 ^ (Int.log 10 |x| - k)) * 10 ^ (Int.log 10 |x| - k)

/-- **The shortest decimal text of a double**, as the number it says: with the fewest digits that are
read as this double.  Seventeen are enough. -/
def shortestDecimal (x : ℚ) : ℚ :=
  (((List.range 17).map (toDigits x)).find? fun d => binary64 d = x).getD x

theorem abs_shortestDecimal_sub_le (x : ℚ) (h : 1 / 2 ^ 1022 ≤ |x|) :
    |shortestDecimal x - x| ≤ |x| / 2 ^ 53 := by
  rw [shortestDecimal]
  cases hfind : ((List.range 17).map (toDigits x)).find? fun d => binary64 d = x with
  | none =>
    rw [Option.getD_none, sub_self, abs_zero]
    positivity
  | some d =>
    have hd : binary64 d = x := by simpa using List.find?_some hfind
    subst hd
    exact abs_sub_binary64_le h

end Machinery
