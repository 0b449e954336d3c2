import Mathlib.Algebra.Order.Floor.Ring
import Mathlib.Data.Int.Log
import Mathlib.Data.Rat.Floor
import Mathlib.Tactic.Linarith
import Mathlib.Tactic.NormNum

/-!
# Binary64 values and their rounded arithmetic

A double is either a finite number, kept as the exact rational it denotes, or one of the
infinities and NaNs, which no comparison modelled here tells apart. An arithmetic result
is the exact rational result rounded to the nearest multiple of the unit in the last
place, ties to even, with gradual underflow.
-/

namespace Numeric

/-- Round to the nearest integer, to the even one at a midpoint. -/
def nearestEven (x : ℚ) : ℤ :=
  if x - ⌊x⌋ < 1 / 2 then ⌊x⌋
  else if 1 / 2 < x - ⌊x⌋ then ⌊x⌋ + 1
  else ⌊x⌋ + ⌊x⌋ % 2

/-- The exponent of the unit in the last place of the binary64 numbers around `x`. -/
def ulpExponent (x : ℚ) : ℤ := max (Int.log 2 |x| - 52) (-1074)

/-- The binary64 number nearest to `x`, for an `x` within the finite range. -/
def binary64 (x : ℚ) : ℚ := nearestEven (x / 2 ^ ulpExponent x) * 2 ^ ulpExponent x

/-- An integer rounds to itself. -/
@[simp] theorem nearestEven_intCast (k : ℤ) : nearestEven k = k := by
  simp [nearestEven]

/-- Zero is a binary64 number. -/
@[simp] theorem binary64_zero : binary64 0 = 0 := by
  have h := nearestEven_intCast 0
  simp only [Int.cast_zero] at h
  simp [binary64, h]

/-- Rounding never falls below the integer part. -/
theorem floor_le_nearestEven (x : ℚ) : ⌊x⌋ ≤ nearestEven x := by
  have hparity := Int.emod_nonneg ⌊x⌋ (by norm_num : (2 : ℤ) ≠ 0)
  unfold nearestEven
  split_ifs <;> omega

/-- A positive number of at least the smallest normal size does not round to zero. -/
theorem binary64_pos {x : ℚ} (hx : (2 : ℚ) ^ (-1022 : ℤ) ≤ x) : 0 < binary64 x := by
  have hpow (k : ℤ) : (0 : ℚ) < 2 ^ k := zpow_pos (by norm_num) k
  have hpos : 0 < x := (hpow _).trans_le hx
  have hlog : (-1022 : ℤ) ≤ Int.log 2 |x| := by
    rw [abs_of_pos hpos]
    exact (Int.zpow_le_iff_le_log (by norm_num) hpos).mp (by exact_mod_cast hx)
  have hulp : ulpExponent x = Int.log 2 |x| - 52 := max_eq_left (by omega)
  have hfloor : 1 ≤ ⌊x / 2 ^ ulpExponent x⌋ := by
    rw [Int.le_floor, Int.cast_one, le_div_iff₀ (hpow _), one_mul, hulp]
    calc (2 : ℚ) ^ (Int.log 2 |x| - 52) ≤ 2 ^ Int.log 2 |x| :=
          zpow_le_zpow_right₀ (by norm_num) (by omega)
      _ ≤ x := by
          rw [abs_of_pos hpos]
          exact_mod_cast Int.zpow_log_le_self (b := 2) (by norm_num) hpos
  have hround : (0 : ℚ) < nearestEven (x / 2 ^ ulpExponent x) := by
    exact_mod_cast lt_of_lt_of_le one_pos (hfloor.trans (floor_le_nearestEven _))
  exact mul_pos hround (hpow _)

/-- A double as the comparisons of the program see it. -/
inductive Double
  | finite (value : ℚ)
  | nonFinite
  deriving DecidableEq, Repr

namespace Double

/-- Whether the double is neither an infinity nor a NaN. -/
def isFinite : Double → Bool
  | finite _ => true
  | nonFinite => false

/-- `|a - b| < bound`, with the subtraction rounded; false when either side is not finite. -/
def closerThan (bound : ℚ) : Double → Double → Bool
  | finite a, finite b => decide (|binary64 (a - b)| < bound)
  | _, _ => false

/-- A finite double is closer to itself than any positive bound. -/
theorem closerThan_self {bound : ℚ} (hbound : 0 < bound) {x : Double} (hx : x.isFinite = true) :
    closerThan bound x x = true := by
  cases x with
  | finite a => simp [closerThan, hbound]
  | nonFinite => simp [isFinite] at hx

/-- Only finite doubles are close to anything. -/
theorem isFinite_of_closerThan {bound : ℚ} {x y : Double} (h : closerThan bound x y = true) :
    x.isFinite = true := by
  cases x with
  | finite a => rfl
  | nonFinite => simp [closerThan] at h

end Double

end Numeric
