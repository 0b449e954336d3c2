import CapFmu.Numeric.Binary64

/-!
# Rounding to whole numbers and the error of binary64 arithmetic

A quotient of integers whose approximation is off by less than the distance between two such
quotients rounds to a nearest whole number all the same. The approximations are results of
binary64 operations, whose error is bounded by the size of the result.
-/

namespace Numeric

/-- Round to the nearest integer, away from zero at a midpoint. -/
def lround (x : ℚ) : ℤ := if 0 ≤ x then ⌊x + 1 / 2⌋ else ⌈x - 1 / 2⌉

/-- A whole number nearest to `x`, of which there are two at a midpoint. -/
def IsNearest (x : ℚ) (z : ℤ) : Prop := |x - z| ≤ 1 / 2

/-- The value of the closed range that is closest to `z`. -/
def saturate (lo hi z : ℤ) : ℤ := max lo (min hi z)

/-- Within its range a value saturates to itself. -/
theorem saturate_of_mem {lo hi z : ℤ} (hlo : lo ≤ z) (hhi : z ≤ hi) : saturate lo hi z = z := by
  unfold saturate
  omega

/-- Saturation keeps the order. -/
theorem saturate_mono (lo hi : ℤ) {y z : ℤ} (h : y ≤ z) :
    saturate lo hi y ≤ saturate lo hi z := by
  unfold saturate
  omega

/-- Rounding gives a nearest whole number. -/
theorem isNearest_lround (x : ℚ) : IsNearest x (lround x) := by
  unfold IsNearest lround
  split
  · have hle := Int.floor_le (x + 1 / 2)
    have hlt := Int.lt_floor_add_one (x + 1 / 2)
    rw [abs_le]
    constructor <;> linarith
  · have hle := Int.le_ceil (x - 1 / 2)
    have hlt := Int.ceil_lt_add_one (x - 1 / 2)
    rw [abs_le]
    constructor <;> linarith

/-- A nearest whole number of a smaller number is no greater. -/
theorem IsNearest.le_of_lt {x y : ℚ} {z w : ℤ} (hx : IsNearest x z) (hy : IsNearest y w)
    (hlt : x < y) : z ≤ w := by
  have hbelow := neg_le_of_abs_le hx
  have habove := le_of_abs_le hy
  have hsub : ((z - 1 : ℤ) : ℚ) < w := by
    push_cast
    linarith
  exact Int.sub_one_lt_iff.mp (Int.cast_lt.mp hsub)

section Approximation

variable {x y ε : ℚ} {z : ℤ}

/-- A nearest whole number of an approximation is off by the error at most. -/
theorem IsNearest.of_approx (h : IsNearest y z) (happrox : |y - x| ≤ ε) :
    |x - z| ≤ 1 / 2 + ε := by
  have hnear : |y - z| ≤ 1 / 2 := h
  have hdist := abs_sub_le x y z
  rw [abs_sub_comm x y] at hdist
  linarith

/-- Below the midpoint an approximation rounds down. -/
theorem IsNearest.le_of_approx (h : IsNearest y z) (happrox : |y - x| ≤ ε) {bound : ℤ}
    (hx : x + ε < bound + 1 / 2) : z ≤ bound := by
  have hnear := neg_le_of_abs_le h
  have herror := le_of_abs_le happrox
  have hlt : (z : ℚ) < (bound + 1 : ℤ) := by
    push_cast
    linarith
  exact Int.lt_add_one_iff.mp (Int.cast_lt.mp hlt)

/-- Above the midpoint an approximation rounds up. -/
theorem IsNearest.ge_of_approx (h : IsNearest y z) (happrox : |y - x| ≤ ε) {bound : ℤ}
    (hx : bound - 1 / 2 < x - ε) : bound ≤ z := by
  have hnear := le_of_abs_le h
  have herror := neg_le_of_abs_le happrox
  have hlt : ((bound - 1 : ℤ) : ℚ) < z := by
    push_cast
    linarith
  exact Int.sub_one_lt_iff.mp (Int.cast_lt.mp hlt)

/-- The integer within less than a half is the nearest one. -/
theorem IsNearest.eq_of_abs_lt {m : ℤ} (h : IsNearest y z) (hlt : |y - m| < 1 / 2) : z = m := by
  have hnear : |y - z| ≤ 1 / 2 := h
  have hdist : |((z - m : ℤ) : ℚ)| < 1 := by
    push_cast
    rw [abs_sub_comm] at hnear
    calc |(z : ℚ) - m| ≤ |z - y| + |y - m| := abs_sub_le _ y _
      _ < 1 := by linarith
  have hzero : |z - m| < 1 := by exact_mod_cast hdist
  exact sub_eq_zero.mp (Int.abs_lt_one_iff.mp hzero)

/-- A quotient by `2 q` lies at a midpoint or further than `1 / (2 q)` from any: an approximation
closer than that rounds to a nearest whole number of the quotient. -/
theorem IsNearest.of_quotient {p q : ℤ} (hq : 0 < q) (h : IsNearest y z)
    (happrox : |y - p / (2 * q)| ≤ ε) (hε : ε * (2 * q) < 1) : IsNearest (p / (2 * q)) z := by
  have hq' : (0 : ℚ) < 2 * q := by exact_mod_cast Int.mul_pos two_pos hq
  have hdist := h.of_approx happrox
  have hscale : (p / (2 * q) - z : ℚ) = ((p - 2 * q * z : ℤ) : ℚ) / (2 * q) := by
    push_cast
    field_simp
  rw [hscale, abs_div, abs_of_pos hq', div_le_iff₀ hq', ← Int.cast_abs] at hdist
  have hlt : ((|p - 2 * q * z| : ℤ) : ℚ) < (q + 1 : ℤ) := by
    push_cast at hdist ⊢
    linarith
  have hle : |p - 2 * q * z| ≤ q := Int.lt_add_one_iff.mp (Int.cast_lt.mp hlt)
  unfold IsNearest
  rw [hscale, abs_div, abs_of_pos hq', div_le_iff₀ hq', ← Int.cast_abs]
  calc ((|p - 2 * q * z| : ℤ) : ℚ) ≤ q := by exact_mod_cast hle
    _ = 1 / 2 * (2 * q) := by ring

end Approximation

/-- A quotient of approximations is off by the errors of both, over the divisor. -/
theorem abs_div_sub_div_le {a b x y δ ε : ℚ} (hb : 0 < b) (hy : 0 < y) (hx : |a - x| ≤ δ)
    (hdivisor : |b - y| ≤ ε) : |a / b - x / y| ≤ (δ + |x / y| * ε) / b := by
  have hsplit : a / b - x / y = (a - x + x / y * (y - b)) / b := by
    field_simp
    ring
  rw [hsplit, abs_div, abs_of_pos hb]
  apply div_le_div_of_nonneg_right _ hb.le
  calc |a - x + x / y * (y - b)| ≤ |a - x| + |x / y * (y - b)| := abs_add_le _ _
    _ = |a - x| + |x / y| * |b - y| := by rw [abs_mul, abs_sub_comm y b]
    _ ≤ δ + |x / y| * ε := by gcongr

section Error

variable {x : ℚ} {k : ℤ}

/-- Rounding to the even one at a midpoint gives a nearest integer. -/
theorem isNearest_nearestEven (x : ℚ) : IsNearest x (nearestEven x) := by
  have hle := Int.floor_le x
  have hlt := Int.lt_floor_add_one x
  have hparity := Int.emod_two_eq ⌊x⌋
  unfold IsNearest nearestEven
  rw [abs_le]
  split_ifs
  · constructor <;> linarith
  · push_cast
    constructor <;> linarith
  · rcases hparity with heven | hodd
    · rw [heven]
      push_cast
      constructor <;> linarith
    · rw [hodd]
      push_cast
      constructor <;> linarith

/-- A number less than a power of two has its last place 53 binary digits below. -/
theorem ulpExponent_le (hk : -1021 ≤ k) (hx : x ≠ 0) (hlt : |x| < 2 ^ k) :
    ulpExponent x ≤ k - 53 := by
  have hlog := (Int.lt_zpow_iff_log_lt one_lt_two (abs_pos.mpr hx)).mp (by exact_mod_cast hlt)
  unfold ulpExponent
  omega

/-- The error of binary64 rounding by the size of the number. -/
theorem abs_binary64_sub_le (hk : -1021 ≤ k) (hlt : |x| < 2 ^ k) :
    |binary64 x - x| ≤ 2 ^ (k - 54) := by
  by_cases hx : x = 0
  · simp only [hx, binary64_zero, sub_zero, abs_zero]
    exact (zpow_pos two_pos _).le
  · have hulp : (0 : ℚ) < 2 ^ ulpExponent x := zpow_pos two_pos _
    have hscale : binary64 x - x =
        (nearestEven (x / 2 ^ ulpExponent x) - x / 2 ^ ulpExponent x) * 2 ^ ulpExponent x := by
      rw [binary64, sub_mul, div_mul_cancel₀ x hulp.ne']
    rw [hscale, abs_mul, abs_of_pos hulp]
    calc |nearestEven (x / 2 ^ ulpExponent x) - x / 2 ^ ulpExponent x| * 2 ^ ulpExponent x
        ≤ 1 / 2 * 2 ^ (k - 53) := by
          rw [abs_sub_comm]
          apply mul_le_mul (isNearest_nearestEven _) _ hulp.le (by norm_num)
          exact zpow_le_zpow_right₀ one_le_two (ulpExponent_le hk hx hlt)
      _ = 2 ^ (k - 54) := by
          rw [show k - 53 = k - 54 + 1 by ring, zpow_add_one₀ two_ne_zero]
          ring

/-- The rounding of a number between two powers of two. -/
theorem binary64_eq {z : ℤ} (hk : -1022 ≤ k) (hle : 2 ^ k ≤ |x|) (hlt : |x| < 2 ^ (k + 1))
    (hz : |x / 2 ^ (k - 52) - z| < 1 / 2) : binary64 x = z * 2 ^ (k - 52) := by
  have hpos : 0 < |x| := (zpow_pos two_pos _).trans_le hle
  have hlower := (Int.zpow_le_iff_le_log one_lt_two hpos).mp (by exact_mod_cast hle)
  have hupper := (Int.lt_zpow_iff_log_lt one_lt_two hpos).mp (by exact_mod_cast hlt)
  have hulp : ulpExponent x = k - 52 := by
    unfold ulpExponent
    omega
  rw [binary64, hulp, (isNearest_nearestEven _).eq_of_abs_lt hz]

end Error

end Numeric
