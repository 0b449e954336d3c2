import CapFmu.Altitude.Units

/-!
# Altitudes on the wire

An altitude of the autopilot reaches three boundaries, each with a unit and a field of its own.
The conversions go through doubles, whose error is far below the distance of two altitudes in
any of the units, so that what is rounded to is a nearest whole number. Two of the fields hold
every altitude; the feet of the ground station do not.
-/

namespace CapFmu

open Numeric

/-- The boundaries an altitude goes out by. -/
inductive AltitudeBoundary
  | fss
  | smm
  | adsb
  deriving DecidableEq

namespace AltitudeBoundary

/-- The unit of the field, in millimetres. -/
def mmPerUnit : AltitudeBoundary → ℚ
  | fss => 3048 / 10
  | smm => 1000
  | adsb => 1

/-- The least value of the field. -/
def lo : AltitudeBoundary → ℤ
  | fss => -2 ^ 15
  | smm | adsb => -2 ^ 31

/-- The greatest value of the field. -/
def hi : AltitudeBoundary → ℤ
  | fss => 2 ^ 15 - 1
  | smm | adsb => 2 ^ 31 - 1

/-- What goes out through a boundary for a position. -/
def wire (b : AltitudeBoundary) (pd : OwnPosition) : ℤ :=
  match b with
  | fss => (fssReportPosition pd).alt.toInt
  | smm => (smmReportPosition pd.toPositionData).alt.toInt
  | adsb => (adsbAltitude pd.toPositionData).toInt

/-- The whole number that the narrowing cast is applied to; ADS-B does not get there with a value
it clamps. -/
def narrowed (b : AltitudeBoundary) (altitudeMetres : Double) : Option ℤ :=
  match b, altitudeMetres with
  | fss, _ => some (wholeFeet altitudeMetres)
  | smm, _ => some (wholeMetres altitudeMetres)
  | adsb, .nonFinite => none
  | adsb, .finite metres =>
    let millimetres := binary64 (metres * 1000)
    if 2147483647 ≤ millimetres ∨ millimetres ≤ -2147483648 then none
    else some (lround millimetres)

/-- The feet are cast as they are. -/
theorem narrowed_fss (altitudeMetres : Double) :
    fss.narrowed altitudeMetres = some (wholeFeet altitudeMetres) := by
  rw [narrowed]

/-- The metres are cast as they are. -/
theorem narrowed_smm (altitudeMetres : Double) :
    smm.narrowed altitudeMetres = some (wholeMetres altitudeMetres) := by
  rw [narrowed]

/-- The feet that an altitude of the autopilot is sent as. -/
theorem wire_fss (pd : OwnPosition) (millimetres : Int32) :
    fss.wire (pd.atAltitude millimetres) =
      (Int16.ofInt (wholeFeet (mavMmToMetres millimetres))).toInt := rfl

/-- The metres that an altitude of the autopilot is sent as. -/
theorem wire_smm (pd : OwnPosition) (millimetres : Int32) :
    smm.wire (pd.atAltitude millimetres) =
      (Int32.ofInt (wholeMetres (mavMmToMetres millimetres))).toInt := rfl

/-- A boundary conveys an altitude: what goes out is a whole number of the unit nearest to it,
saturated to the field, and nothing outside the field was cast to it. -/
structure Conveys (b : AltitudeBoundary) (pd : OwnPosition) (millimetres : Int32) : Prop where
  rounded : ∃ z, IsNearest (millimetres.toInt / b.mmPerUnit) z ∧
    b.wire (pd.atAltitude millimetres) = saturate b.lo b.hi z
  unwrapped : ∀ z ∈ b.narrowed (pd.atAltitude millimetres).altitudeMetres, b.lo ≤ z ∧ z ≤ b.hi

end AltitudeBoundary

/-- The feet of an altitude fit the field of the ground station's report: it is no more than half a
foot beyond the field, which lies between -32768 ft and 32767 ft. -/
def FeetFit (millimetres : Int32) : Prop :=
  -9987838 ≤ millimetres.toInt ∧ millimetres.toInt ≤ 9987534

section Error

/-- The double of a foot is off by less than a unit of its last place. -/
theorem abs_metresPerFoot_sub_le : |metresPerFoot - 3048 / 10000| ≤ 2 ^ (-55 : ℤ) := by
  unfold metresPerFoot
  apply abs_binary64_sub_le (k := -1) (by norm_num)
  rw [abs_of_pos] <;> norm_num

variable (millimetres : Int32)

/-- An altitude of the autopilot is at most 2147483648 millimetres, either way. -/
theorem abs_millimetres_le : |(millimetres.toInt : ℚ)| ≤ 2147483648 := by
  have hle := millimetres.le_toInt
  have hlt := millimetres.toInt_lt
  rw [abs_le]
  constructor
  · exact_mod_cast hle
  · exact_mod_cast hlt.le

/-- The double of an altitude in metres is off by at most 2⁻³² metres. -/
theorem abs_metres_sub_le :
    |binary64 (millimetres.toInt / 1000) - millimetres.toInt / 1000| ≤ 2 ^ (-32 : ℤ) := by
  apply abs_binary64_sub_le (k := 22) (by norm_num)
  rw [abs_div]
  norm_num
  linarith [abs_millimetres_le millimetres]

/-- The metres that a position carries round to the nearest metre. -/
theorem isNearest_wholeMetres :
    IsNearest (millimetres.toInt / 1000) (wholeMetres (mavMmToMetres millimetres)) := by
  have herror : |binary64 (millimetres.toInt / 1000) - millimetres.toInt / (2 * (500 : ℤ))| ≤
      2 ^ (-32 : ℤ) := by
    have hmetres := abs_metres_sub_le millimetres
    norm_num at hmetres ⊢
    exact hmetres
  have h := (isNearest_lround (binary64 (millimetres.toInt / 1000))).of_quotient
    (by norm_num) herror (by norm_num)
  norm_num at h
  exact h

/-- The millimetres that ADS-B converts back to are off by less than a half. -/
theorem abs_mavMm_sub_lt :
    |binary64 (binary64 (millimetres.toInt / 1000) * 1000) - millimetres.toInt| < 1 / 2 := by
  have hmetres := abs_metres_sub_le millimetres
  have hrange := abs_millimetres_le millimetres
  generalize binary64 (millimetres.toInt / 1000) = metres at hmetres ⊢
  have hproduct : |metres * 1000 - millimetres.toInt| ≤ 1 / 1000000 := by
    have hscale : metres * 1000 - millimetres.toInt =
        (metres - millimetres.toInt / 1000) * 1000 := by ring
    rw [hscale, abs_mul]
    norm_num at hmetres ⊢
    linarith
  have hsize : |metres * 1000| < 2 ^ (32 : ℤ) := by
    calc |metres * 1000| ≤ |metres * 1000 - millimetres.toInt| + |(millimetres.toInt : ℚ)| :=
          sub_le_iff_le_add.mp (abs_sub_abs_le_abs_sub _ _)
      _ ≤ 1 / 1000000 + 2147483648 := add_le_add hproduct hrange
      _ < 2 ^ (32 : ℤ) := by norm_num
  have hround := abs_binary64_sub_le (by norm_num) hsize
  calc |binary64 (metres * 1000) - millimetres.toInt|
      ≤ |binary64 (metres * 1000) - metres * 1000| + |metres * 1000 - millimetres.toInt| :=
        abs_sub_le _ _ _
    _ < 1 / 2 := by
        norm_num at hround
        linarith

/-- The feet of an altitude, divided in doubles, are off by far less than the distance of two
altitudes. -/
theorem abs_feet_sub_le :
    |binary64 (binary64 (millimetres.toInt / 1000) / metresPerFoot) -
      (5 * millimetres.toInt : ℤ) / (2 * (762 : ℤ))| ≤ 1 / 10000 := by
  have hmetres := abs_metres_sub_le millimetres
  have hrange := abs_millimetres_le millimetres
  have hfoot := abs_metresPerFoot_sub_le
  generalize binary64 (millimetres.toInt / 1000) = metres at hmetres ⊢
  generalize metresPerFoot = foot at hfoot ⊢
  have hpos : 3 / 10 < foot := by
    have hbelow := neg_le_of_abs_le hfoot
    norm_num at hbelow ⊢
    linarith
  have hexact : ((5 * millimetres.toInt : ℤ) / (2 * (762 : ℤ)) : ℚ) =
      millimetres.toInt / 1000 / (3048 / 10000) := by
    push_cast
    ring
  have hfeet : |(millimetres.toInt / 1000 / (3048 / 10000) : ℚ)| ≤ 7100000 := by
    rw [abs_div, abs_div]
    norm_num
    linarith
  have hquotient : |metres / foot - millimetres.toInt / 1000 / (3048 / 10000)| ≤ 1 / 100000 :=
    calc |metres / foot - millimetres.toInt / 1000 / (3048 / 10000)|
        ≤ (2 ^ (-32 : ℤ) + |(millimetres.toInt / 1000 / (3048 / 10000) : ℚ)| * 2 ^ (-55 : ℤ)) /
            foot := abs_div_sub_div_le (by linarith) (by norm_num) hmetres hfoot
      _ ≤ (2 ^ (-32 : ℤ) + 7100000 * 2 ^ (-55 : ℤ)) / (3 / 10) := by gcongr
      _ ≤ 1 / 100000 := by norm_num
  have hsize : |metres / foot| < 2 ^ (23 : ℤ) :=
    calc |metres / foot|
        ≤ |metres / foot - millimetres.toInt / 1000 / (3048 / 10000)| +
            |(millimetres.toInt / 1000 / (3048 / 10000) : ℚ)| :=
          sub_le_iff_le_add.mp (abs_sub_abs_le_abs_sub _ _)
      _ ≤ 1 / 100000 + 7100000 := add_le_add hquotient hfeet
      _ < 2 ^ (23 : ℤ) := by norm_num
  rw [hexact]
  calc |binary64 (metres / foot) - millimetres.toInt / 1000 / (3048 / 10000)|
      ≤ |binary64 (metres / foot) - metres / foot| +
          |metres / foot - millimetres.toInt / 1000 / (3048 / 10000)| := abs_sub_le _ _ _
    _ ≤ 2 ^ ((23 : ℤ) - 54) + 1 / 100000 :=
        add_le_add (abs_binary64_sub_le (by norm_num) hsize) hquotient
    _ ≤ 1 / 10000 := by norm_num

/-- The feet that are sent are nearest to the altitude, before they are narrowed. -/
theorem isNearest_wholeFeet :
    IsNearest (millimetres.toInt / (3048 / 10)) (wholeFeet (mavMmToMetres millimetres)) := by
  have h := (isNearest_lround (binary64 (binary64 (millimetres.toInt / 1000) / metresPerFoot)))
    |>.of_quotient (by norm_num) (abs_feet_sub_le millimetres) (by norm_num)
  have hexact : ((5 * millimetres.toInt : ℤ) / (2 * (762 : ℤ)) : ℚ) =
      millimetres.toInt / (3048 / 10) := by
    push_cast
    ring
  rw [hexact] at h
  exact h

/-- The feet that are sent, as an inequality of whole numbers. -/
theorem abs_feet_le :
    |5 * millimetres.toInt - 1524 * wholeFeet (mavMmToMetres millimetres)| ≤ 762 := by
  have hnear : |(millimetres.toInt / (3048 / 10) : ℚ) - wholeFeet (mavMmToMetres millimetres)| ≤
      1 / 2 := isNearest_wholeFeet millimetres
  have hscale : ((5 * millimetres.toInt - 1524 * wholeFeet (mavMmToMetres millimetres) : ℤ) : ℚ) =
      1524 * (millimetres.toInt / (3048 / 10) - wholeFeet (mavMmToMetres millimetres)) := by
    push_cast
    ring
  have hrational : |((5 * millimetres.toInt - 1524 * wholeFeet (mavMmToMetres millimetres) : ℤ) : ℚ)|
      ≤ (762 : ℤ) := by
    rw [hscale, abs_mul]
    calc |(1524 : ℚ)| * |(millimetres.toInt / (3048 / 10) : ℚ) -
            wholeFeet (mavMmToMetres millimetres)|
        ≤ |(1524 : ℚ)| * (1 / 2) := by gcongr
      _ = (762 : ℤ) := by norm_num
  exact_mod_cast hrational

/-- At 32767.5 ft the quotient falls short of the half, and the feet still fit. -/
theorem wholeFeet_midpoint : wholeFeet (mavMmToMetres 9987534) = 32767 := by
  have hmetres : binary64 (9987534 / 1000) = (5490704882904072 : ℤ) * 2 ^ ((13 : ℤ) - 52) :=
    binary64_eq (by norm_num) (by norm_num) (by norm_num) (by norm_num)
  have hfoot : metresPerFoot = (5490788665690109 : ℤ) * 2 ^ ((-2 : ℤ) - 52) :=
    binary64_eq (by norm_num) (by norm_num) (by norm_num) (by norm_num)
  have hfeet : binary64 (binary64 (9987534 / 1000) / metresPerFoot) =
      (9007061815787519 : ℤ) * 2 ^ ((14 : ℤ) - 52) := by
    rw [hmetres, hfoot]
    exact binary64_eq (by norm_num) (by norm_num) (by norm_num) (by norm_num)
  have hround : wholeFeet (mavMmToMetres 9987534) =
      lround (binary64 (binary64 (9987534 / 1000) / metresPerFoot)) := rfl
  rw [hround, hfeet]
  norm_num [lround, Int.floor_eq_iff]

/-- ADS-B gets the autopilot's millimetres back. -/
theorem lround_mavMm :
    lround (binary64 (binary64 (millimetres.toInt / 1000) * 1000)) = millimetres.toInt :=
  (isNearest_lround _).eq_of_abs_lt (abs_mavMm_sub_lt millimetres)

end Error

namespace AltitudeBoundary

variable (pd : OwnPosition) (millimetres : Int32)

/-- The feet fit the field exactly up to its bounds and half a foot. -/
theorem wholeFeet_mem_iff :
    (-2 ^ 15 ≤ wholeFeet (mavMmToMetres millimetres) ∧
      wholeFeet (mavMmToMetres millimetres) ≤ 2 ^ 15 - 1) ↔ FeetFit millimetres := by
  have hfeet := abs_le.mp (abs_feet_le millimetres)
  unfold FeetFit
  by_cases hmid : millimetres.toInt = 9987534
  · have hvalue : millimetres = 9987534 := Int32.toInt_inj.mp hmid
    subst hvalue
    rw [wholeFeet_midpoint]
    decide
  · omega

/-- A boundary that puts a nearest whole number on the wire, and casts nothing else, conveys the
altitude. -/
theorem conveys_of_nearest {b : AltitudeBoundary} {z : ℤ}
    (hnear : IsNearest (millimetres.toInt / b.mmPerUnit) z) (hlo : b.lo ≤ z) (hhi : z ≤ b.hi)
    (hwire : b.wire (pd.atAltitude millimetres) = z)
    (hnarrowed : ∀ y ∈ b.narrowed (mavMmToMetres millimetres), y = z) :
    b.Conveys pd millimetres where
  rounded := ⟨z, hnear, hwire.trans (saturate_of_mem hlo hhi).symm⟩
  unwrapped := by
    intro y hy
    obtain rfl := hnarrowed y hy
    exact ⟨hlo, hhi⟩

/-- The ground station is told the feet exactly when they fit. -/
theorem conveys_fss_iff : fss.Conveys pd millimetres ↔ FeetFit millimetres := by
  constructor
  · intro h
    have hmem := h.unwrapped (wholeFeet (mavMmToMetres millimetres)) (narrowed_fss _)
    exact (wholeFeet_mem_iff millimetres).mp hmem
  · intro hfit
    obtain ⟨hlo, hhi⟩ := (wholeFeet_mem_iff millimetres).mpr hfit
    apply conveys_of_nearest pd millimetres (b := fss)
      (z := wholeFeet (mavMmToMetres millimetres)) (isNearest_wholeFeet millimetres) hlo hhi
    · rw [wire_fss]
      exact Int16.toInt_ofInt_of_le hlo (Int.lt_of_le_sub_one hhi)
    · intro y hy
      rw [narrowed_fss] at hy
      exact (Option.mem_some_iff.mp hy).symm

/-- The metres of an altitude fit the field. -/
theorem wholeMetres_mem :
    -2 ^ 31 ≤ wholeMetres (mavMmToMetres millimetres) ∧
      wholeMetres (mavMmToMetres millimetres) ≤ 2 ^ 31 - 1 := by
  have hnear := isNearest_wholeMetres millimetres
  have hrange := abs_le.mp (abs_millimetres_le millimetres)
  have hself : |(millimetres.toInt / 1000 : ℚ) - millimetres.toInt / 1000| ≤ 0 := by simp
  constructor
  · exact IsNearest.ge_of_approx hnear hself (by norm_num; linarith)
  · exact IsNearest.le_of_approx hnear hself (by norm_num; linarith)

/-- The search server is told every altitude. -/
theorem conveys_smm : smm.Conveys pd millimetres := by
  obtain ⟨hlo, hhi⟩ := wholeMetres_mem millimetres
  apply conveys_of_nearest pd millimetres (b := smm)
    (z := wholeMetres (mavMmToMetres millimetres)) (isNearest_wholeMetres millimetres) hlo hhi
  · rw [wire_smm]
    exact Int32.toInt_ofInt_of_le hlo (Int.lt_of_le_sub_one hhi)
  · intro y hy
    rw [narrowed_smm] at hy
    exact (Option.mem_some_iff.mp hy).symm

/-- ADS-B puts the autopilot's millimetres back on the wire. -/
theorem wire_adsb : adsb.wire (pd.atAltitude millimetres) = millimetres.toInt := by
  have herror := abs_lt.mp (abs_mavMm_sub_lt millimetres)
  have hlo := millimetres.le_toInt
  have hhi := millimetres.toInt_lt
  change (metresToMavMm (.finite (binary64 (millimetres.toInt / 1000)))).toInt = _
  unfold metresToMavMm
  simp only
  split_ifs with hmax hmin
  · have hlt : ((2147483646 : ℤ) : ℚ) < millimetres.toInt := by
      push_cast
      linarith
    have hvalue := Int.cast_lt.mp hlt
    have hmaxValue : Int32.maxValue.toInt = 2147483647 := rfl
    omega
  · have hlt : (millimetres.toInt : ℚ) < ((-2147483647 : ℤ) : ℚ) := by
      push_cast
      linarith
    have hvalue := Int.cast_lt.mp hlt
    have hminValue : Int32.minValue.toInt = -2147483648 := rfl
    omega
  · rw [lround_mavMm]
    exact Int32.toInt_ofInt_of_le (by omega) (by omega)

/-- The autopilot is told every altitude. -/
theorem conveys_adsb : adsb.Conveys pd millimetres := by
  apply conveys_of_nearest pd millimetres (z := millimetres.toInt)
  · simp [IsNearest, mmPerUnit]
  · exact millimetres.le_toInt
  · exact Int.le_sub_one_of_lt millimetres.toInt_lt
  · exact wire_adsb pd millimetres
  · intro y hy
    simp only [narrowed, mavMmToMetres, lround_mavMm] at hy
    split_ifs at hy
    · exact absurd hy (Option.not_mem_none y)
    · exact (Option.mem_some_iff.mp hy).symm

/-- The unit of a field is positive. -/
theorem mmPerUnit_pos (b : AltitudeBoundary) : 0 < b.mmPerUnit := by
  cases b <;> norm_num [mmPerUnit]

/-- A boundary keeps the order of two altitudes that it conveys. -/
theorem Conveys.wire_le {b : AltitudeBoundary} {pd : OwnPosition} {lower upper : Int32}
    (hlower : b.Conveys pd lower) (hupper : b.Conveys pd upper) (hle : lower ≤ upper) :
    b.wire (pd.atAltitude lower) ≤ b.wire (pd.atAltitude upper) := by
  obtain ⟨z, hz, hwire⟩ := hlower.rounded
  obtain ⟨w, hw, hwire'⟩ := hupper.rounded
  cases (Int32.le_iff_toInt_le.mp hle).lt_or_eq with
  | inl hlt =>
    rw [hwire, hwire']
    apply saturate_mono
    apply hz.le_of_lt hw
    have hcast : (lower.toInt : ℚ) < upper.toInt := by exact_mod_cast hlt
    exact div_lt_div_of_pos_right hcast (mmPerUnit_pos b)
  | inr heq => rw [Int32.toInt_inj.mp heq]

/-- Whatever else a position carries, every altitude whose feet fit is conveyed by all three
boundaries and no other is, the search server and ADS-B being told any altitude; and a boundary
keeps the order of altitudes of which it conveys both. -/
theorem altitudes_conveyed (pd : OwnPosition) :
    (∀ millimetres, (∀ b : AltitudeBoundary, b.Conveys pd millimetres) ↔ FeetFit millimetres) ∧
      (∀ millimetres, smm.Conveys pd millimetres ∧ adsb.Conveys pd millimetres) ∧
      ∀ (b : AltitudeBoundary) (lower upper : Int32),
        (b = fss → FeetFit lower ∧ FeetFit upper) → lower ≤ upper →
          b.wire (pd.atAltitude lower) ≤ b.wire (pd.atAltitude upper) := by
  have hconveys : ∀ (b : AltitudeBoundary) (millimetres : Int32),
      (b = fss → FeetFit millimetres) → b.Conveys pd millimetres := by
    intro b millimetres hfit
    cases b with
    | fss => exact (conveys_fss_iff pd millimetres).mpr (hfit rfl)
    | smm => exact conveys_smm pd millimetres
    | adsb => exact conveys_adsb pd millimetres
  refine ⟨fun millimetres => ⟨fun h => ?_, fun hfit b => ?_⟩, fun millimetres => ?_, ?_⟩
  · exact (conveys_fss_iff pd millimetres).mp (h fss)
  · exact hconveys b millimetres fun _ => hfit
  · exact ⟨conveys_smm pd millimetres, conveys_adsb pd millimetres⟩
  · intro b lower upper hfit hle
    exact (hconveys b lower fun hfss => (hfit hfss).1).wire_le
      (hconveys b upper fun hfss => (hfit hfss).2) hle

/-- At ten kilometres the ground station is told an altitude far below the ground. -/
theorem tenKilometres_wraps :
    fss.wire (OwnPosition.atAltitude {} 10000000) = -32728 ∧
      ¬ ∀ (b : AltitudeBoundary) (pd : OwnPosition) (millimetres : Int32),
        b.Conveys pd millimetres := by
  have hfeet := abs_le.mp (abs_feet_le 10000000)
  have hvalue : (10000000 : Int32).toInt = 10000000 := rfl
  rw [hvalue] at hfeet
  have hwhole : wholeFeet (mavMmToMetres 10000000) = 32808 := by omega
  constructor
  · rw [wire_fss, hwhole]
    rfl
  · intro h
    have hfit := (conveys_fss_iff {} 10000000).mp (h fss {} 10000000)
    exact absurd hfit.2 (by rw [hvalue]; decide)

end AltitudeBoundary

end CapFmu
