import CapFmu.Altitude.Wire
import CapFmu.Numeric.Monotone

/-!
# Altitudes within the limits

An altitude is commanded in feet by the ground station, or derived from the sweep width of a
search and the camera's field of view. Either is clamped between the floor and the cap of the
configuration before it is narrowed, so that no command is too large to be clamped.
-/

namespace CapFmu

open Numeric

/-- The double closest to the ratio of a circle's circumference to its diameter. -/
def pi : ℚ := binary64 (314159265358979323846 / 100000000000000000000)

/-- Half the field of view in radians. -/
def halfFovRad (cameraFovDeg : ℚ) : ℚ :=
  binary64 (binary64 (binary64 (cameraFovDeg * pi) / 180) / 2)

/-- The altitude at which the camera sees the sweep width, given the tangent of the standard
library. A quotient that is too large for a double is over every cap just the same; one by zero
is an infinity or, of a zero width, no number. -/
def rawSearchAltitude (tan : ℚ → ℚ) (sweepWidth : ℚ) : Double → Double
  | .nonFinite => .finite 0
  | .finite cameraFovDeg =>
    if 0 < cameraFovDeg ∧ cameraFovDeg < 180 then
      let footprint := binary64 (2 * tan (halfFovRad cameraFovDeg))
      if footprint = 0 then .nonFinite else .finite (binary64 (sweepWidth / footprint))
    else .finite 0

/-- Clamp an altitude between the floor and the cap, in whole metres towards zero. The conversion
of what is no number is undefined. -/
def clampSearchAltitude (altitude : Double) (altitudeFloor altitudeCap : UInt16) : Option UInt16 :=
  match altitude with
  | .nonFinite => none
  | .finite metres =>
    if (altitudeCap.toNat : ℚ) < metres then some altitudeCap
    else if metres < altitudeFloor.toNat then some altitudeFloor
    else some (.ofNat (truncate metres).toNat)

/-- An altitude command in metres, clamped. -/
def clampCommandAltitude (altitudeFt : UInt32) (altitudeFloor altitudeCap : UInt16) :
    Option UInt16 :=
  clampSearchAltitude (.finite (binary64 (altitudeFt.toNat * metresPerFoot))) altitudeFloor
    altitudeCap

/-- The altitude that a search is constructed with. -/
def searchAltitude (tan : ℚ → ℚ) (sweepWidth : ℚ) (cameraFovDeg : Double)
    (altitudeFloor altitudeCap : UInt16) : Option UInt16 :=
  clampSearchAltitude (rawSearchAltitude tan sweepWidth cameraFovDeg) altitudeFloor altitudeCap

/-- What is used of the standard library's tangent: it is at least the angle, up to a right one. -/
def TangentBounds (tan : ℚ → ℚ) : Prop := ∀ x, 0 < x → x ≤ pi / 2 → x ≤ tan x

/-- A field of view the configuration accepts, and not so narrow that its half underflows. -/
def FovInRange (cameraFovDeg : ℚ) : Prop := 2 ^ (-1000 : ℤ) ≤ cameraFovDeg ∧ cameraFovDeg < 180

section Clamp

variable {metres : ℚ} {altitudeFloor altitudeCap : UInt16}

/-- A finite altitude is clamped to the whole metres towards zero. -/
theorem exists_clampSearchAltitude (metres : ℚ) (hle : altitudeFloor ≤ altitudeCap) :
    ∃ m, clampSearchAltitude (.finite metres) altitudeFloor altitudeCap = some m ∧
      (m.toNat : ℤ) = saturate altitudeFloor.toNat altitudeCap.toNat (truncate metres) := by
  have hle' : altitudeFloor.toNat ≤ altitudeCap.toNat := hle
  unfold clampSearchAltitude
  simp only
  split_ifs with hcap hfloor
  · have htruncate := truncate_mono hcap.le
    rw [← Int.cast_natCast, truncate_intCast] at htruncate
    refine ⟨altitudeCap, rfl, ?_⟩
    unfold saturate
    omega
  · have htruncate := truncate_mono hfloor.le
    rw [← Int.cast_natCast altitudeFloor.toNat, truncate_intCast] at htruncate
    refine ⟨altitudeFloor, rfl, ?_⟩
    unfold saturate
    omega
  · have hbelow := truncate_mono (not_lt.mp hcap)
    have habove := truncate_mono (not_lt.mp hfloor)
    rw [← Int.cast_natCast altitudeCap.toNat, truncate_intCast] at hbelow
    rw [← Int.cast_natCast altitudeFloor.toNat, truncate_intCast] at habove
    have hsize := altitudeCap.toNat_lt
    refine ⟨.ofNat (truncate metres).toNat, rfl, ?_⟩
    rw [saturate_of_mem habove hbelow, UInt16.toNat_ofNat', Nat.mod_eq_of_lt (by omega)]
    omega

/-- What is clamped to the whole metres is between the floor and the cap. -/
theorem limits_of_saturate {m : UInt16} {z : ℤ} (hle : altitudeFloor ≤ altitudeCap)
    (hm : (m.toNat : ℤ) = saturate altitudeFloor.toNat altitudeCap.toNat z) :
    altitudeFloor ≤ m ∧ m ≤ altitudeCap := by
  have hle' : altitudeFloor.toNat ≤ altitudeCap.toNat := hle
  unfold saturate at hm
  rw [UInt16.le_iff_toNat_le, UInt16.le_iff_toNat_le]
  omega

end Clamp

section Command

/-- The double of a foot is not short of a foot. -/
theorem le_metresPerFoot : 3048 / 10000 ≤ metresPerFoot := by
  have hfoot : metresPerFoot = (5490788665690109 : ℤ) * 2 ^ ((-2 : ℤ) - 52) :=
    binary64_eq (by norm_num) (by norm_num) (by norm_num) (by norm_num)
  rw [hfoot]
  norm_num

/-- The whole metres of a command in feet, converted in doubles, are exact. -/
theorem truncate_commandMetres (altitudeFt : UInt32) :
    truncate (binary64 (altitudeFt.toNat * metresPerFoot)) = altitudeFt.toNat * 3048 / 10000 := by
  have hsize := altitudeFt.toNat_lt
  generalize altitudeFt.toNat = feet at hsize ⊢
  have hfeet : (feet : ℚ) ≤ 4294967296 := by exact_mod_cast hsize.le
  have hunit := le_metresPerFoot
  have herror := abs_le.mp abs_metresPerFoot_sub_le
  -- both terms of the fraction are multiples of eight
  have hdiv : 10000 * (feet * 3048 / 10000 : ℤ) ≤ feet * 3048 ∧
      feet * 3048 ≤ 10000 * (feet * 3048 / 10000 : ℤ) + 9992 := by omega
  have hrange : |(feet * 3048 / 10000 : ℤ)| < 2 ^ 53 := by
    rw [abs_lt]
    omega
  generalize (feet * 3048 / 10000 : ℤ) = whole at hdiv hrange ⊢
  have hlower : (10000 : ℚ) * whole ≤ feet * 3048 := by exact_mod_cast hdiv.1
  have hupper : (feet : ℚ) * 3048 ≤ 10000 * whole + 9992 := by exact_mod_cast hdiv.2
  have hproduct : (feet : ℚ) * (3048 / 10000) ≤ feet * metresPerFoot :=
    mul_le_mul_of_nonneg_left hunit (Nat.cast_nonneg feet)
  have hexcess : (feet : ℚ) * metresPerFoot ≤
      feet * (3048 / 10000) + 4294967296 * 2 ^ (-55 : ℤ) := by
    have hstep : (feet : ℚ) * (metresPerFoot - 3048 / 10000) ≤ 4294967296 * 2 ^ (-55 : ℤ) := by
      gcongr
      exact herror.2
    linarith
  have hround := abs_binary64_sub_le (x := feet * metresPerFoot) (k := 31) (by norm_num) (by
    rw [abs_of_nonneg (by positivity)]
    norm_num at hexcess ⊢
    linarith)
  have habove : binary64 (feet * metresPerFoot) < whole + 1 := by
    have hover := (abs_le.mp hround).2
    norm_num at hover hexcess ⊢
    linarith
  -- the product is not short of the metres, and a whole number of metres is a double
  have hbelow : (whole : ℚ) ≤ binary64 (feet * metresPerFoot) := by
    rw [← binary64_intCast hrange]
    exact binary64_mono (by linarith)
  have hnonneg : 0 ≤ binary64 (feet * metresPerFoot) := binary64_nonneg (by linarith)
  rw [truncate, if_pos hnonneg, Int.floor_eq_iff]
  exact ⟨hbelow, habove⟩

end Command

section Derived

variable {tan : ℚ → ℚ} {fov : ℚ}

/-- Pi, with the last place of its double. -/
theorem pi_eq : pi = (7074237752028440 : ℤ) * 2 ^ ((1 : ℤ) - 52) :=
  binary64_eq (by norm_num) (by norm_num) (by norm_num) (by norm_num)

/-- The half of a straight angle is a right one. -/
theorem halfFovRad_straight : halfFovRad 180 = pi / 2 := by
  have hproduct : binary64 (180 * pi) = (4974073419394997 : ℤ) * 2 ^ ((9 : ℤ) - 52) := by
    rw [pi_eq]
    exact binary64_eq (by norm_num) (by norm_num) (by norm_num) (by norm_num)
  have hquotient : binary64 (binary64 (180 * pi) / 180) =
      (7074237752028440 : ℤ) * 2 ^ ((1 : ℤ) - 52) := by
    rw [hproduct]
    exact binary64_eq (by norm_num) (by norm_num) (by norm_num) (by norm_num)
  have hhalf : halfFovRad 180 = (7074237752028440 : ℤ) * 2 ^ ((0 : ℤ) - 52) := by
    rw [halfFovRad, hquotient]
    exact binary64_eq (by norm_num) (by norm_num) (by norm_num) (by norm_num)
  rw [hhalf, pi_eq]
  norm_num

/-- A quotient by less than a power of two is not far below a power of two either. -/
theorem zpow_le_binary64_div {x y : ℚ} {j k : ℤ} (hj : -1022 ≤ j - k) (hx : 2 ^ j ≤ x)
    (hy : 0 < y) (hy' : y ≤ 2 ^ k) : 2 ^ (j - k) ≤ binary64 (x / y) := by
  rw [← binary64_zpow hj, zpow_sub₀ two_ne_zero]
  apply binary64_mono
  have hpos : (0 : ℚ) < 2 ^ j := zpow_pos two_pos _
  have hnonneg : 0 ≤ x := hpos.le.trans hx
  gcongr

/-- The half of a field of view in range is a positive angle, and at most a right one. -/
theorem halfFovRad_mem (hfov : FovInRange fov) :
    2 ^ (-1009 : ℤ) ≤ halfFovRad fov ∧ halfFovRad fov ≤ pi / 2 := by
  have hpi : 1 ≤ pi := by
    rw [pi_eq]
    norm_num
  constructor
  · have hpos : 0 < fov := (zpow_pos two_pos _).trans_le hfov.1
    have hscaled : 2 ^ (-1000 : ℤ) ≤ fov * pi := hfov.1.trans (le_mul_of_one_le_right hpos.le hpi)
    have hproduct : 2 ^ (-1000 : ℤ) ≤ binary64 (fov * pi) := by
      rw [← binary64_zpow (by norm_num)]
      exact binary64_mono hscaled
    have hquotient := zpow_le_binary64_div (k := 8) (y := 180) (by norm_num) hproduct
      (by norm_num) (by norm_num)
    exact zpow_le_binary64_div (k := 1) (by norm_num) hquotient (by norm_num) (by norm_num)
  · rw [← halfFovRad_straight]
    unfold halfFovRad
    apply binary64_mono
    apply div_le_div_of_nonneg_right _ (by norm_num)
    apply binary64_mono
    apply div_le_div_of_nonneg_right _ (by norm_num)
    apply binary64_mono
    exact mul_le_mul_of_nonneg_right hfov.2.le (by linarith)

/-- What the camera sees from a metre is not nothing. -/
theorem footprint_pos (htan : TangentBounds tan) (hfov : FovInRange fov) :
    0 < binary64 (2 * tan (halfFovRad fov)) := by
  obtain ⟨hlo, hhi⟩ := halfFovRad_mem hfov
  have hpos : (0 : ℚ) < 2 ^ (-1009 : ℤ) := zpow_pos two_pos _
  have hangle := htan (halfFovRad fov) (hpos.trans_le hlo) hhi
  apply binary64_pos
  calc (2 : ℚ) ^ (-1022 : ℤ) ≤ 2 ^ (-1009 : ℤ) := zpow_le_zpow_right₀ one_le_two (by norm_num)
    _ ≤ 2 * tan (halfFovRad fov) := by linarith

/-- The altitude of a search is its sweep width over what the camera sees from a metre. -/
theorem rawSearchAltitude_of_inRange (htan : TangentBounds tan) (hfov : FovInRange fov)
    (sweepWidth : ℚ) : rawSearchAltitude tan sweepWidth (.finite fov) =
      .finite (binary64 (sweepWidth / binary64 (2 * tan (halfFovRad fov)))) := by
  have hpos : 0 < fov := (zpow_pos two_pos _).trans_le hfov.1
  simp only [rawSearchAltitude, if_pos (And.intro hpos hfov.2),
    if_neg (footprint_pos htan hfov).ne']

/-- A search is constructed with an altitude between the floor and the cap. -/
theorem exists_searchAltitude {altitudeFloor altitudeCap : UInt16} (htan : TangentBounds tan)
    (hfov : FovInRange fov) (hle : altitudeFloor ≤ altitudeCap) (sweepWidth : ℚ) :
    ∃ m, searchAltitude tan sweepWidth (.finite fov) altitudeFloor altitudeCap = some m ∧
      (m.toNat : ℤ) = saturate altitudeFloor.toNat altitudeCap.toNat
        (truncate (binary64 (sweepWidth / binary64 (2 * tan (halfFovRad fov))))) := by
  rw [searchAltitude, rawSearchAltitude_of_inRange htan hfov]
  exact exists_clampSearchAltitude _ hle

end Derived

/-- The tangent at the half of the default field of view, and a bound elsewhere. -/
def defaultTan (x : ℚ) : ℚ := max x (9007199254740991 / 9007199254740992)

/-- The bound of the tangent is at least the angle. -/
theorem tangentBounds_defaultTan : TangentBounds defaultTan := fun x _ _ => le_max_left x _

/-- The default field of view is in range. -/
theorem fovInRange_default : FovInRange 90 := by
  constructor
  · exact (zpow_le_one_of_nonpos₀ one_le_two (by norm_num)).trans (by norm_num)
  · norm_num

end CapFmu
