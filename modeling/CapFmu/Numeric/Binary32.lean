import Mathlib.Algebra.Order.Ring.Rat
import Mathlib.Tactic.Linarith
import Mathlib.Tactic.NormNum
import Mathlib.Tactic.Positivity

/-!
# Binary32 values, their comparisons and their conversions to integers

A value of single precision is a finite number, kept as the exact rational it denotes with the
proof that single precision represents it, or one of the infinities and NaNs. Comparisons are
exact. A conversion to an integer truncates towards zero, and is undefined where the type does not
hold the result.
-/

namespace Numeric

/-- Single precision represents a number: an integer of 24 bits, scaled within the exponents. -/
def IsBinary32 (q : ℚ) : Prop :=
  ∃ m e : ℤ, |m| < 2 ^ 24 ∧ -149 ≤ e ∧ e ≤ 104 ∧ q = m * 2 ^ e

/-- Single precision represents the natural numbers of 24 bits. -/
theorem isBinary32_of_lt {n : ℕ} (h : n < 2 ^ 24) : IsBinary32 n := by
  refine ⟨n, 0, ?_, by norm_num, by norm_num, by rw [zpow_zero, mul_one, Int.cast_natCast]⟩
  rw [abs_of_nonneg (Int.natCast_nonneg n)]
  exact_mod_cast h

/-- A value of single precision. -/
inductive Binary32
  | finite (value : ℚ) (representable : IsBinary32 value)
  | infinite (negative : Bool)
  | nan

namespace Binary32

/-- A natural number that single precision represents. -/
def ofNat (n : ℕ) (h : IsBinary32 n) : Binary32 := finite n h

/-- Whether the value equals a number. -/
def equals (q : ℚ) : Binary32 → Bool
  | finite value _ => decide (value = q)
  | infinite _ | nan => false

/-- Whether the value is at most a number. -/
def atMost (q : ℚ) : Binary32 → Bool
  | finite value _ => decide (value ≤ q)
  | infinite negative => negative
  | nan => false

/-- The integer towards zero. -/
def truncate : Binary32 → Option ℤ
  | finite value _ => some (value.num.tdiv value.den)
  | infinite _ | nan => none

/-- The conversion to 32 bits without a sign. -/
def toUInt32 (v : Binary32) : Option UInt32 :=
  v.truncate.bind fun i => if 0 ≤ i ∧ i < 2 ^ 32 then some (UInt32.ofNat i.toNat) else none

variable {n : ℕ} {h : IsBinary32 n}

/-- A natural number equals itself only. -/
@[simp] theorem equals_ofNat (m : ℕ) : (ofNat n h).equals m = decide (n = m) := by
  unfold ofNat equals
  rw [decide_eq_decide, Nat.cast_inj]

/-- A natural number is not rounded. -/
@[simp] theorem truncate_ofNat : (ofNat n h).truncate = some (n : ℤ) := by
  simp only [ofNat, truncate, Rat.num_natCast, Rat.den_natCast, Nat.cast_one, Int.tdiv_one]

/-- A natural number of 32 bits is converted to itself. -/
theorem toUInt32_ofNat_of_lt (hlt : n < 2 ^ 32) :
    (ofNat n h).toUInt32 = some (UInt32.ofNat n) := by
  unfold toUInt32
  rw [truncate_ofNat, Option.bind_some, if_pos ⟨by omega, by omega⟩, Int.toNat_natCast]

/-- The conversion of a natural number of more than 32 bits is undefined. -/
theorem toUInt32_ofNat_of_le (hle : 2 ^ 32 ≤ n) : (ofNat n h).toUInt32 = none := by
  unfold toUInt32
  rw [truncate_ofNat, Option.bind_some, if_neg (by omega)]

end Binary32

end Numeric
