import CapFmu.Core.Types
import CapFmu.Numeric.Monotone

/-!
# Coordinates on the wire

The autopilot's messages carry latitude and longitude as whole ten-millionths of a degree. The
double of that unit is not exact, so neither direction of the conversion is, and dropping the
fraction can lose a whole unit of a coordinate that came from the wire. It never loses more.
-/

namespace CapFmu

open Numeric

/-- The double closest to the unit of the wire, in degrees. -/
def latLngCov : ℚ := binary64 (1 / 10000000)

/-- Degrees in the unit of the wire, towards zero and clamped to the field; a bad coordinate is
zero. -/
def degreesToDegE7 : Double → Int32
  | .nonFinite => 0
  | .finite degrees =>
    let degE7 := binary64 (degrees / latLngCov)
    if degE7 ≤ -2147483648 then Int32.minValue
    else if 2147483647 ≤ degE7 then Int32.maxValue
    else .ofInt (truncate degE7)

/-- The unit of the wire in degrees. -/
def degE7ToDegrees (degE7 : Int32) : Double := .finite (binary64 (degE7.toInt * latLngCov))

/-- A coordinate of at most `limit` degrees is conveyed: its units on the wire are within the limit,
and what they drop of it is less than a unit, towards zero but for the error of the division. -/
structure Conveyed (limit : ℤ) (degrees : ℚ) (degE7 : Int32) : Prop where
  within : |degE7.toInt| ≤ limit * 10000000
  near : |degrees * 10000000 - degE7.toInt| < 1 + 1 / 1000000
  towardsZero : |(degE7.toInt : ℚ)| ≤ |degrees * 10000000| + 1 / 1000000

section Unit

/-- The unit of the wire, with the last place of its double. -/
theorem latLngCov_eq : latLngCov = (7555786372591432 : ℤ) * 2 ^ ((-24 : ℤ) - 52) :=
  binary64_eq (by norm_num) (by norm_num) (by norm_num) (by norm_num)

/-- The unit is positive. -/
theorem latLngCov_pos : 0 < latLngCov := by
  rw [latLngCov_eq]
  norm_num

/-- The double of the unit is off from it by less than a unit of its last place. -/
theorem abs_latLngCov_sub_le : |latLngCov - 1 / 10000000| ≤ 2 ^ (-77 : ℤ) := by
  rw [latLngCov_eq]
  norm_num [abs_le]

/-- A right angle is a whole number of units. -/
theorem binary64_ninety_div : binary64 (90 / latLngCov) = 900000000 := by
  have hquotient : binary64 (90 / latLngCov) = (7549747200000000 : ℤ) * 2 ^ ((29 : ℤ) - 52) := by
    rw [latLngCov_eq]
    exact binary64_eq (by norm_num) (by norm_num) (by norm_num) (by norm_num)
  rw [hquotient]
  norm_num

/-- Half a turn is a whole number of units. -/
theorem binary64_oneEighty_div : binary64 (180 / latLngCov) = 1800000000 := by
  have hquotient : binary64 (180 / latLngCov) = (7549747200000000 : ℤ) * 2 ^ ((30 : ℤ) - 52) := by
    rw [latLngCov_eq]
    exact binary64_eq (by norm_num) (by norm_num) (by norm_num) (by norm_num)
  rw [hquotient]
  norm_num

/-- The units of a right angle are one. -/
theorem binary64_ninety_mul : binary64 (900000000 * latLngCov) = 90 := by
  have hproduct :
      binary64 (900000000 * latLngCov) = (6333186975989760 : ℤ) * 2 ^ ((6 : ℤ) - 52) := by
    rw [latLngCov_eq]
    exact binary64_eq (by norm_num) (by norm_num) (by norm_num) (by norm_num)
  rw [hproduct]
  norm_num

/-- The units of half a turn are one. -/
theorem binary64_oneEighty_mul : binary64 (1800000000 * latLngCov) = 180 := by
  have hproduct : binary64 (1800000000 * latLngCov) =
      (6333186975989760 : ℤ) * 2 ^ ((7 : ℤ) - 52) := by
    rw [latLngCov_eq]
    exact binary64_eq (by norm_num) (by norm_num) (by norm_num) (by norm_num)
  rw [hproduct]
  norm_num

end Unit

section Encoding

variable (degrees : ℚ)

/-- What goes out is the quotient towards zero, saturated to the field. -/
theorem toInt_degreesToDegE7 :
    (degreesToDegE7 (.finite degrees)).toInt =
      saturate (-2147483648) 2147483647 (truncate (binary64 (degrees / latLngCov))) := by
  generalize hdegE7 : binary64 (degrees / latLngCov) = degE7
  simp only [degreesToDegE7, hdegE7]
  split_ifs with hlo hhi
  · have hle := truncate_mono hlo
    rw [show (-2147483648 : ℚ) = ((-2147483648 : ℤ) : ℚ) by norm_num, truncate_intCast] at hle
    unfold saturate
    have hvalue : Int32.minValue.toInt = -2147483648 := rfl
    omega
  · have hle := truncate_mono hhi
    rw [show (2147483647 : ℚ) = ((2147483647 : ℤ) : ℚ) by norm_num, truncate_intCast] at hle
    unfold saturate
    have hvalue : Int32.maxValue.toInt = 2147483647 := rfl
    omega
  · have hle := truncate_mono (not_le.mp hlo).le
    rw [show (-2147483648 : ℚ) = ((-2147483648 : ℤ) : ℚ) by norm_num, truncate_intCast] at hle
    have hge := truncate_mono (not_le.mp hhi).le
    rw [show (2147483647 : ℚ) = ((2147483647 : ℤ) : ℚ) by norm_num, truncate_intCast] at hge
    rw [saturate_of_mem hle hge]
    exact Int32.toInt_ofInt_of_le hle (by omega)

/-- The units keep the order of the degrees. -/
theorem degreesToDegE7_mono {lower upper : ℚ} (h : lower ≤ upper) :
    (degreesToDegE7 (.finite lower)).toInt ≤ (degreesToDegE7 (.finite upper)).toInt := by
  rw [toInt_degreesToDegE7, toInt_degreesToDegE7]
  apply saturate_mono
  apply truncate_mono
  apply binary64_mono
  exact div_le_div_of_nonneg_right h latLngCov_pos.le

variable {degrees}

/-- The quotient is off by the errors of the unit and of the division. -/
theorem abs_degE7_sub_le (h : |degrees| ≤ 180) :
    |binary64 (degrees / latLngCov) - degrees * 10000000| ≤ 1 / 1000000 := by
  have hunit := abs_latLngCov_sub_le
  have hpos : 9 / 100000000 < latLngCov := by
    rw [latLngCov_eq]
    norm_num
  have hexact : degrees * 10000000 = degrees / (1 / 10000000) := by ring
  have hsize : |degrees / (1 / 10000000)| ≤ 1800000000 := by
    rw [← hexact, abs_mul]
    norm_num
    linarith
  have hquotient : |degrees / latLngCov - degrees / (1 / 10000000)| ≤ 1 / 4000000 :=
    calc |degrees / latLngCov - degrees / (1 / 10000000)|
        ≤ (0 + |degrees / (1 / 10000000)| * 2 ^ (-77 : ℤ)) / latLngCov :=
          abs_div_sub_div_le latLngCov_pos (by norm_num) (by simp) hunit
      _ ≤ (0 + 1800000000 * 2 ^ (-77 : ℤ)) / (9 / 100000000) := by gcongr
      _ ≤ 1 / 4000000 := by norm_num
  have hrange : |degrees / latLngCov| < 2 ^ (31 : ℤ) :=
    calc |degrees / latLngCov|
        ≤ |degrees / latLngCov - degrees / (1 / 10000000)| + |degrees / (1 / 10000000)| :=
          sub_le_iff_le_add.mp (abs_sub_abs_le_abs_sub _ _)
      _ ≤ 1 / 4000000 + 1800000000 := add_le_add hquotient hsize
      _ < 2 ^ (31 : ℤ) := by norm_num
  rw [hexact]
  calc |binary64 (degrees / latLngCov) - degrees / (1 / 10000000)|
      ≤ |binary64 (degrees / latLngCov) - degrees / latLngCov| +
          |degrees / latLngCov - degrees / (1 / 10000000)| := abs_sub_le _ _ _
    _ ≤ 2 ^ ((31 : ℤ) - 54) + 1 / 4000000 :=
        add_le_add (abs_binary64_sub_le (by norm_num) hrange) hquotient
    _ ≤ 1 / 1000000 := by norm_num

/-- A coordinate within a limit that is a whole number of units is conveyed. -/
theorem conveyed_of_abs_le {limit : ℤ} (hlimit : limit ≤ 180)
    (hunits : binary64 (limit / latLngCov) = limit * 10000000) (h : |degrees| ≤ limit) :
    Conveyed limit degrees (degreesToDegE7 (.finite degrees)) := by
  have hturn : |degrees| ≤ 180 := h.trans (by exact_mod_cast hlimit)
  have herror := abs_degE7_sub_le hturn
  have hwithin : |binary64 (degrees / latLngCov)| ≤ limit * 10000000 := by
    obtain ⟨hlo, hhi⟩ := abs_le.mp h
    rw [abs_le, ← hunits]
    constructor
    · rw [← binary64_neg, ← neg_div]
      exact binary64_mono (div_le_div_of_nonneg_right hlo latLngCov_pos.le)
    · exact binary64_mono (div_le_div_of_nonneg_right hhi latLngCov_pos.le)
  have hdropped := abs_truncate_sub_lt (binary64 (degrees / latLngCov))
  have hshrunk := abs_truncate_le (binary64 (degrees / latLngCov))
  have hrange : |truncate (binary64 (degrees / latLngCov))| ≤ limit * 10000000 := by
    exact_mod_cast hshrunk.trans hwithin
  have hwire : (degreesToDegE7 (.finite degrees)).toInt =
      truncate (binary64 (degrees / latLngCov)) := by
    obtain ⟨hlo, hhi⟩ := abs_le.mp hrange
    rw [toInt_degreesToDegE7]
    exact saturate_of_mem (by omega) (by omega)
  generalize truncate (binary64 (degrees / latLngCov)) = units at hdropped hshrunk hrange hwire
  generalize binary64 (degrees / latLngCov) = degE7 at herror hwithin hdropped hshrunk
  constructor
  · rw [hwire]
    exact hrange
  · rw [hwire]
    calc |degrees * 10000000 - units|
        ≤ |degrees * 10000000 - degE7| + |degE7 - units| := abs_sub_le _ _ _
      _ < 1 + 1 / 1000000 := by
          rw [abs_sub_comm] at herror
          linarith
  · rw [hwire]
    calc |(units : ℚ)| ≤ |degE7| := hshrunk
      _ ≤ |degE7 - degrees * 10000000| + |degrees * 10000000| :=
          sub_le_iff_le_add.mp (abs_sub_abs_le_abs_sub _ _)
      _ ≤ |degrees * 10000000| + 1 / 1000000 := by linarith

/-- A valid position is conveyed in both coordinates. -/
theorem conveyed_of_isValid {p : Point} (h : p.isValid = true) : ∃ latitude longitude,
    p = { latitude := .finite latitude, longitude := .finite longitude } ∧
      Conveyed 90 latitude (degreesToDegE7 p.latitude) ∧
      Conveyed 180 longitude (degreesToDegE7 p.longitude) := by
  obtain ⟨latitude, longitude⟩ := p
  obtain ⟨hlat, hlng⟩ := (Bool.and_eq_true _ _).mp h
  cases latitude with
  | nonFinite => exact absurd hlat Bool.false_ne_true
  | finite latitude =>
    cases longitude with
    | nonFinite => exact absurd hlng Bool.false_ne_true
    | finite longitude =>
      have hlat' : |latitude| ≤ (90 : ℤ) := abs_le.mpr (of_decide_eq_true hlat)
      have hlng' : |longitude| ≤ (180 : ℤ) := abs_le.mpr (of_decide_eq_true hlng)
      refine ⟨latitude, longitude, rfl, ?_, ?_⟩
      · apply conveyed_of_abs_le (by norm_num) _ hlat'
        norm_num [binary64_ninety_div]
      · apply conveyed_of_abs_le (by norm_num) _ hlng'
        norm_num [binary64_oneEighty_div]

end Encoding

section RoundTrip

variable (degE7 : Int32)

/-- A coordinate on the wire is at most 2147483648 units, either way. -/
theorem abs_degE7_le : |(degE7.toInt : ℚ)| ≤ 2147483648 := by
  have hle := degE7.le_toInt
  have hlt := degE7.toInt_lt
  rw [abs_le]
  constructor
  · exact_mod_cast hle
  · exact_mod_cast hlt.le

/-- The quotient of decoded units is off from them by less than a half. -/
theorem abs_roundTrip_sub_lt :
    |binary64 (binary64 (degE7.toInt * latLngCov) / latLngCov) - degE7.toInt| < 1 / 2 := by
  have hrange := abs_degE7_le degE7
  have hpos : 9 / 100000000 < latLngCov := by
    rw [latLngCov_eq]
    norm_num
  have hunit : latLngCov < 11 / 100000000 := by
    rw [latLngCov_eq]
    norm_num
  have hproduct : |degE7.toInt * latLngCov| < 2 ^ (8 : ℤ) := by
    rw [abs_mul, abs_of_pos latLngCov_pos]
    calc |(degE7.toInt : ℚ)| * latLngCov ≤ 2147483648 * (11 / 100000000) := by gcongr
      _ < 2 ^ (8 : ℤ) := by norm_num
  have hdegrees := abs_binary64_sub_le (by norm_num) hproduct
  generalize binary64 (degE7.toInt * latLngCov) = degrees at hdegrees ⊢
  have hquotient : |degrees / latLngCov - degE7.toInt| ≤ 1 / 1000000 := by
    have hscale : degrees / latLngCov - degE7.toInt =
        (degrees - degE7.toInt * latLngCov) / latLngCov := by
      rw [sub_div, mul_div_cancel_right₀ _ latLngCov_pos.ne']
    rw [hscale, abs_div, abs_of_pos latLngCov_pos]
    calc |degrees - degE7.toInt * latLngCov| / latLngCov
        ≤ 2 ^ ((8 : ℤ) - 54) / (9 / 100000000) := by gcongr
      _ ≤ 1 / 1000000 := by norm_num
  have hsize : |degrees / latLngCov| < 2 ^ (32 : ℤ) :=
    calc |degrees / latLngCov|
        ≤ |degrees / latLngCov - degE7.toInt| + |(degE7.toInt : ℚ)| :=
          sub_le_iff_le_add.mp (abs_sub_abs_le_abs_sub _ _)
      _ ≤ 1 / 1000000 + 2147483648 := add_le_add hquotient hrange
      _ < 2 ^ (32 : ℤ) := by norm_num
  have hround := abs_binary64_sub_le (by norm_num) hsize
  calc |binary64 (degrees / latLngCov) - degE7.toInt|
      ≤ |binary64 (degrees / latLngCov) - degrees / latLngCov| +
          |degrees / latLngCov - degE7.toInt| := abs_sub_le _ _ _
    _ ≤ 2 ^ ((32 : ℤ) - 54) + 1 / 1000000 := add_le_add hround hquotient
    _ < 1 / 2 := by norm_num

/-- Units that were decoded are encoded to themselves, or lose one unit. -/
theorem roundTrip_eq_or :
    (degreesToDegE7 (degE7ToDegrees degE7)).toInt = degE7.toInt ∨
      (degreesToDegE7 (degE7ToDegrees degE7)).toInt = degE7.toInt - degE7.toInt.sign := by
  have hclose := abs_lt.mp (abs_roundTrip_sub_lt degE7)
  have hle := degE7.le_toInt
  have hlt := degE7.toInt_lt
  rw [degE7ToDegrees, toInt_degreesToDegE7]
  generalize binary64 (binary64 (degE7.toInt * latLngCov) / latLngCov) = quotient at hclose ⊢
  have hnear : |quotient - degE7.toInt| < 1 := by
    rw [abs_lt]
    constructor <;> linarith
  cases truncate_eq_or hnear with
  | inl hsame =>
    rw [hsame]
    exact .inl (saturate_of_mem hle (by omega))
  | inr hlost =>
    rw [hlost]
    apply Or.inr
    rcases lt_trichotomy degE7.toInt 0 with hneg | hzero | hpos
    · rw [Int.sign_eq_neg_one_of_neg hneg]
      exact saturate_of_mem (by omega) (by omega)
    · rw [hzero]
      rfl
    · rw [Int.sign_eq_one_of_pos hpos]
      exact saturate_of_mem (by omega) (by omega)

/-- Units within the limit decode to degrees within it. -/
theorem withinDegrees_degE7ToDegrees (limit : ℤ) (degE7 : Int32)
    (hlimit : binary64 ((limit * 10000000 : ℤ) * latLngCov) = limit)
    (h : |degE7.toInt| ≤ limit * 10000000) : withinDegrees limit (degE7ToDegrees degE7) = true := by
  obtain ⟨hlo, hhi⟩ := abs_le.mp h
  have hlo' : (-(limit * 10000000 : ℤ) * latLngCov : ℚ) ≤ degE7.toInt * latLngCov :=
    mul_le_mul_of_nonneg_right (by exact_mod_cast hlo) latLngCov_pos.le
  have hhi' : (degE7.toInt * latLngCov : ℚ) ≤ (limit * 10000000 : ℤ) * latLngCov :=
    mul_le_mul_of_nonneg_right (by exact_mod_cast hhi) latLngCov_pos.le
  have hbelow := binary64_mono hlo'
  have habove := binary64_mono hhi'
  rw [neg_mul, binary64_neg, hlimit] at hbelow
  rw [hlimit] at habove
  exact decide_eq_true ⟨hbelow, habove⟩

end RoundTrip

/-- The lost unit is real: seventy-nine units come back as seventy-eight. -/
example : (degreesToDegE7 (degE7ToDegrees 79)).toInt = 78 := by
  have hdegrees : binary64 (79 * latLngCov) = (4663336901833774 : ℤ) * 2 ^ ((-17 : ℤ) - 52) := by
    rw [latLngCov_eq]
    exact binary64_eq (by norm_num) (by norm_num) (by norm_num) (by norm_num)
  have hquotient : binary64 (binary64 (79 * latLngCov) / latLngCov) =
      (5559130790035455 : ℤ) * 2 ^ ((6 : ℤ) - 52) := by
    rw [hdegrees, latLngCov_eq]
    exact binary64_eq (by norm_num) (by norm_num) (by norm_num) (by norm_num)
  have hunits : (79 : Int32).toInt = 79 := rfl
  rw [degE7ToDegrees, toInt_degreesToDegE7, hunits, Int.cast_ofNat, hquotient]
  norm_num [truncate, saturate]

end CapFmu
