import CapFmu.Numeric.Rounding

/-!
# The order of rounded numbers

Rounding to a whole number and to a double keeps the order, so that a bound that is a double
itself bounds the rounded result too.
-/

namespace Numeric

/-- Round towards zero. -/
def truncate (x : ℚ) : ℤ := if 0 ≤ x then ⌊x⌋ else ⌈x⌉

/-- Rounding towards zero keeps the order. -/
theorem truncate_mono {x y : ℚ} (h : x ≤ y) : truncate x ≤ truncate y := by
  unfold truncate
  split_ifs with hx hy hy
  · exact Int.floor_le_floor h
  · exact absurd (hx.trans h) hy
  · have hneg : ⌈x⌉ ≤ 0 := Int.ceil_le.mpr (by push_cast; linarith)
    exact hneg.trans (Int.floor_nonneg.mpr hy)
  · exact Int.ceil_le_ceil h

/-- A whole number rounds towards zero to itself. -/
@[simp] theorem truncate_intCast (z : ℤ) : truncate z = z := by
  simp [truncate]

/-- Rounding towards zero drops less than a whole. -/
theorem abs_truncate_sub_lt (x : ℚ) : |x - truncate x| < 1 := by
  have hfloor := Int.floor_le x
  have hfloor' := Int.lt_floor_add_one x
  have hceil := Int.le_ceil x
  have hceil' := Int.ceil_lt_add_one x
  unfold truncate
  rw [abs_lt]
  split_ifs
  · constructor <;> linarith
  · constructor <;> linarith

/-- Rounding towards zero does not grow a number. -/
theorem abs_truncate_le (x : ℚ) : |(truncate x : ℚ)| ≤ |x| := by
  unfold truncate
  split_ifs with hx
  · have hfloor : (0 : ℚ) ≤ ⌊x⌋ := by exact_mod_cast Int.floor_nonneg.mpr hx
    rw [abs_of_nonneg hfloor, abs_of_nonneg hx]
    exact Int.floor_le x
  · have hneg : x < 0 := not_le.mp hx
    have hceil : (⌈x⌉ : ℚ) ≤ 0 := by exact_mod_cast Int.ceil_le.mpr (by push_cast; exact hneg.le)
    rw [abs_of_nonpos hceil, abs_of_neg hneg]
    exact neg_le_neg (Int.le_ceil x)

/-- Close to a whole number, rounding towards zero gives it or the next one towards zero. -/
theorem truncate_eq_or {x : ℚ} {z : ℤ} (h : |x - z| < 1) :
    truncate x = z ∨ truncate x = z - z.sign := by
  obtain ⟨hlo, hhi⟩ := abs_lt.mp h
  unfold truncate
  split_ifs with hx
  · have hle : z - 1 ≤ ⌊x⌋ := Int.le_floor.mpr (by push_cast; linarith)
    have hlt : ⌊x⌋ < z + 1 := Int.floor_lt.mpr (by push_cast; linarith)
    have hfloor : 0 ≤ ⌊x⌋ := Int.floor_nonneg.mpr hx
    cases lt_or_ge 0 z with
    | inl hpos =>
      rw [Int.sign_eq_one_of_pos hpos]
      omega
    | inr hneg => exact .inl (by omega)
  · have hle : ⌈x⌉ ≤ z + 1 := Int.ceil_le.mpr (by push_cast; linarith)
    have hlt : z - 1 < ⌈x⌉ := Int.lt_ceil.mpr (by push_cast; linarith)
    have hceil : ⌈x⌉ ≤ 0 := Int.ceil_le.mpr (by push_cast; linarith)
    cases lt_or_ge z 0 with
    | inl hneg =>
      rw [Int.sign_eq_neg_one_of_neg hneg]
      omega
    | inr hpos => exact .inl (by omega)

/-- Rounding to the nearest rounds up by a whole at most. -/
theorem nearestEven_le_floor_add_one (x : ℚ) : nearestEven x ≤ ⌊x⌋ + 1 := by
  have hparity := Int.emod_lt_of_pos ⌊x⌋ (by norm_num : (0 : ℤ) < 2)
  unfold nearestEven
  split_ifs <;> omega

/-- Rounding to the nearest keeps the order. -/
theorem nearestEven_mono {x y : ℚ} (h : x ≤ y) : nearestEven x ≤ nearestEven y := by
  cases (Int.floor_le_floor h).lt_or_eq with
  | inl hlt =>
    calc nearestEven x ≤ ⌊x⌋ + 1 := nearestEven_le_floor_add_one x
      _ ≤ ⌊y⌋ := hlt
      _ ≤ nearestEven y := floor_le_nearestEven y
  | inr heq =>
    -- with one integer part, the order of the fractions decides
    have hparity := Int.emod_two_eq ⌊y⌋
    unfold nearestEven
    rw [heq]
    split_ifs <;> first | omega | (exfalso; linarith)

/-- Rounding to the nearest is odd. -/
theorem nearestEven_neg (x : ℚ) : nearestEven (-x) = -nearestEven x := by
  by_cases hwhole : x = ⌊x⌋
  · rw [hwhole, ← Int.cast_neg, nearestEven_intCast, nearestEven_intCast]
  · have hfloor : ⌊-x⌋ = -⌊x⌋ - 1 := by
      rw [Int.floor_eq_iff]
      have hle := lt_of_le_of_ne (Int.floor_le x) (Ne.symm hwhole)
      have hlt := Int.lt_floor_add_one x
      push_cast
      constructor <;> linarith
    have hparity := Int.emod_two_eq ⌊x⌋
    have hparity' : (-⌊x⌋ - 1) % 2 = 1 - ⌊x⌋ % 2 := by omega
    unfold nearestEven
    rw [hfloor, hparity']
    push_cast
    split_ifs <;> first | omega | (exfalso; linarith)

/-- Rounding to a double is odd. -/
theorem binary64_neg (x : ℚ) : binary64 (-x) = -binary64 x := by
  have hulp : ulpExponent (-x) = ulpExponent x := by
    unfold ulpExponent
    rw [abs_neg]
  rw [binary64, hulp, neg_div, nearestEven_neg, Int.cast_neg, neg_mul, ← binary64]

/-- What is not negative does not round to something negative. -/
theorem binary64_nonneg {x : ℚ} (hx : 0 ≤ x) : 0 ≤ binary64 x := by
  have hulp : (0 : ℚ) < 2 ^ ulpExponent x := zpow_pos two_pos _
  have hfloor : 0 ≤ ⌊x / 2 ^ ulpExponent x⌋ := Int.floor_nonneg.mpr (div_nonneg hx hulp.le)
  have hround : (0 : ℚ) ≤ nearestEven (x / 2 ^ ulpExponent x) := by
    exact_mod_cast hfloor.trans (floor_le_nearestEven _)
  exact mul_nonneg hround hulp.le

/-- A power of two that a number stays below is not exceeded by rounding. -/
theorem binary64_le_zpow {x : ℚ} {k : ℤ} (hk : ulpExponent x ≤ k) (hle : x ≤ 2 ^ k) :
    binary64 x ≤ 2 ^ k := by
  have hulp : (0 : ℚ) < 2 ^ ulpExponent x := zpow_pos two_pos _
  obtain ⟨n, hn⟩ := Int.le.dest hk
  have hscale : (2 : ℚ) ^ k / 2 ^ ulpExponent x = ((2 ^ n : ℤ) : ℚ) := by
    rw [← zpow_sub₀ two_ne_zero, ← hn, add_sub_cancel_left, zpow_natCast]
    norm_num
  have hround : nearestEven (x / 2 ^ ulpExponent x) ≤ 2 ^ n := by
    rw [← nearestEven_intCast (2 ^ n), ← hscale]
    exact nearestEven_mono (div_le_div_of_nonneg_right hle hulp.le)
  calc binary64 x = nearestEven (x / 2 ^ ulpExponent x) * 2 ^ ulpExponent x := rfl
    _ ≤ (2 ^ n : ℤ) * 2 ^ ulpExponent x := by
        gcongr
    _ = 2 ^ k := by rw [← hscale, div_mul_cancel₀ _ hulp.ne']

/-- A power of two that a number reaches is still reached after rounding. -/
theorem zpow_le_binary64 {x : ℚ} {k : ℤ} (hk : ulpExponent x ≤ k) (hle : 2 ^ k ≤ x) :
    2 ^ k ≤ binary64 x := by
  have hulp : (0 : ℚ) < 2 ^ ulpExponent x := zpow_pos two_pos _
  obtain ⟨n, hn⟩ := Int.le.dest hk
  have hscale : (2 : ℚ) ^ k / 2 ^ ulpExponent x = ((2 ^ n : ℤ) : ℚ) := by
    rw [← zpow_sub₀ two_ne_zero, ← hn, add_sub_cancel_left, zpow_natCast]
    norm_num
  have hround : 2 ^ n ≤ nearestEven (x / 2 ^ ulpExponent x) := by
    rw [← nearestEven_intCast (2 ^ n), ← hscale]
    exact nearestEven_mono (div_le_div_of_nonneg_right hle hulp.le)
  calc (2 : ℚ) ^ k = (2 ^ n : ℤ) * 2 ^ ulpExponent x := by
        rw [← hscale, div_mul_cancel₀ _ hulp.ne']
    _ ≤ nearestEven (x / 2 ^ ulpExponent x) * 2 ^ ulpExponent x := by
        gcongr
    _ = binary64 x := rfl

/-- Rounding to a double keeps the order of positive numbers. -/
theorem binary64_le_of_pos {x y : ℚ} (hx : 0 < x) (h : x ≤ y) : binary64 x ≤ binary64 y := by
  have hlog : Int.log 2 |x| ≤ Int.log 2 |y| := by
    rw [abs_of_pos hx, abs_of_pos (hx.trans_le h)]
    exact Int.log_mono_right hx h
  by_cases hulp : ulpExponent x = ulpExponent y
  · unfold binary64
    rw [hulp]
    have hpos : (0 : ℚ) < 2 ^ ulpExponent y := zpow_pos two_pos _
    gcongr
    exact nearestEven_mono (div_le_div_of_nonneg_right h hpos.le)
  · -- a power of two lies between the two numbers
    have hx' : x < 2 ^ (Int.log 2 |x| + 1) := by
      rw [abs_of_pos hx]
      exact_mod_cast Int.lt_zpow_succ_log_self (b := 2) (by norm_num) x
    have hy' : 2 ^ Int.log 2 |y| ≤ y := by
      rw [abs_of_pos (hx.trans_le h)]
      exact_mod_cast Int.zpow_log_le_self (b := 2) (by norm_num) (hx.trans_le h)
    unfold ulpExponent at hulp
    have hbelow : x ≤ 2 ^ Int.log 2 |y| :=
      hx'.le.trans (zpow_le_zpow_right₀ one_le_two (by omega))
    calc binary64 x ≤ 2 ^ Int.log 2 |y| :=
          binary64_le_zpow (by unfold ulpExponent; omega) hbelow
      _ ≤ binary64 y := zpow_le_binary64 (by unfold ulpExponent; omega) hy'

/-- Rounding to a double keeps the order. -/
theorem binary64_mono : Monotone binary64 := by
  intro x y h
  cases lt_trichotomy x 0 with
  | inl hneg =>
    cases lt_or_ge y 0 with
    | inl hneg' =>
      have hflip := binary64_le_of_pos (neg_pos.mpr hneg') (neg_le_neg h)
      rw [binary64_neg, binary64_neg] at hflip
      exact neg_le_neg_iff.mp hflip
    | inr hnonneg =>
      have hflip := binary64_nonneg (neg_nonneg.mpr hneg.le)
      rw [binary64_neg] at hflip
      exact (neg_nonneg.mp hflip).trans (binary64_nonneg hnonneg)
  | inr hrest =>
    cases hrest with
    | inl hzero =>
      rw [hzero, binary64_zero]
      exact binary64_nonneg (hzero ▸ h)
    | inr hpos => exact binary64_le_of_pos hpos h

/-- A power of two in the normal range is a double. -/
theorem binary64_zpow {k : ℤ} (hk : -1022 ≤ k) : binary64 (2 ^ k) = 2 ^ k := by
  have hpos : (0 : ℚ) < 2 ^ k := zpow_pos two_pos _
  have hround : binary64 (2 ^ k) = (2 ^ 52 : ℤ) * 2 ^ (k - 52) := by
    apply binary64_eq hk
    · rw [abs_of_pos hpos]
    · rw [abs_of_pos hpos]
      exact zpow_lt_zpow_right₀ one_lt_two (by omega)
    · rw [← zpow_sub₀ two_ne_zero, sub_sub_cancel]
      norm_num
  rw [hround, zpow_sub₀ two_ne_zero]
  push_cast
  exact mul_div_cancel₀ _ (by norm_num)

/-- A whole number of at most 53 binary digits is a double. -/
theorem binary64_intCast {z : ℤ} (hz : |z| < 2 ^ 53) : binary64 z = z := by
  by_cases hzero : z = 0
  · rw [hzero, Int.cast_zero, binary64_zero]
  · have hulp : ulpExponent (z : ℚ) ≤ 0 := by
      have hlt : |(z : ℚ)| < 2 ^ (53 : ℤ) := by exact_mod_cast hz
      exact ulpExponent_le (by norm_num) (by exact_mod_cast hzero) hlt
    have hpos : (0 : ℚ) < 2 ^ ulpExponent (z : ℚ) := zpow_pos two_pos _
    obtain ⟨n, hn⟩ := Int.le.dest hulp
    have hscale : (z : ℚ) / 2 ^ ulpExponent (z : ℚ) = ((z * 2 ^ n : ℤ) : ℚ) := by
      have hunit : (1 : ℚ) = 2 ^ ulpExponent (z : ℚ) * 2 ^ n := by
        rw [← zpow_natCast, ← zpow_add₀ two_ne_zero, hn, zpow_zero]
      rw [div_eq_iff hpos.ne']
      push_cast
      rw [mul_assoc, mul_comm (2 ^ n : ℚ), ← hunit, mul_one]
    rw [binary64, hscale, nearestEven_intCast, ← hscale, div_mul_cancel₀ _ hpos.ne']

end Numeric
