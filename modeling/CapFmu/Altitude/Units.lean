import CapFmu.Fss.SendQueue
import CapFmu.Numeric.Rounding
import CapFmu.Smm.Worker

/-!
# Altitude units

A position carries its altitude in metres. Each protocol boundary converts it to its own unit:
the autopilot and ADS-B use millimetres, the ground station feet, the search server metres.
-/

namespace CapFmu

open Numeric (Double binary64 lround)

/-- The double closest to the length of a foot. -/
def metresPerFoot : ℚ := binary64 (3048 / 10000)

/-- Metres in feet, of an altitude whose quotient is within the finite range. -/
def metresToFeet : Double → Double
  | .finite metres => .finite (binary64 (metres / metresPerFoot))
  | .nonFinite => .nonFinite

/-- The autopilot's millimetres in metres. -/
def mavMmToMetres (millimetres : Int32) : Double :=
  .finite (binary64 (millimetres.toInt / 1000))

/-- Metres in the autopilot's millimetres, clamped to the field; a bad altitude is zero. -/
def metresToMavMm : Double → Int32
  | .nonFinite => 0
  | .finite metres =>
    let millimetres := binary64 (metres * 1000)
    if 2147483647 ≤ millimetres then Int32.maxValue
    else if millimetres ≤ -2147483648 then Int32.minValue
    else .ofInt (lround millimetres)

/-- The fields of an own-ship position that the ground station is told besides. -/
structure OwnPosition extends PositionData where
  velocityHorizontal : UInt16 := 0
  velocityVertical : Int16 := 0
  flags : UInt16 := 0

/-- The position is backed by a fix. -/
def positionFlagValidCoords : UInt16 := 1

/-- The altitude that the ground station is told, before it is narrowed to the field. -/
def wholeFeet (altitudeMetres : Double) : ℤ :=
  match metresToFeet altitudeMetres with
  | .finite feet => lround feet
  | .nonFinite => 0

/-- The report to the ground station, in feet. -/
def fssReportPosition (pd : OwnPosition) : FssPositionTask where
  lat := pd.position.latitude
  lng := pd.position.longitude
  alt := .ofInt (wholeFeet pd.altitudeMetres)
  heading := pd.heading
  horVel := pd.velocityHorizontal
  verVel := pd.velocityVertical
  fixValid := pd.flags &&& positionFlagValidCoords ≠ 0

/-- A position report to the search server. -/
structure SmmPositionReport where
  lat : Double
  lon : Double
  alt : Int32
  heading : UInt16
  deriving DecidableEq

/-- The altitude that the search server is told, before it is narrowed to the field. -/
def wholeMetres (altitudeMetres : Double) : ℤ :=
  match altitudeMetres with
  | .finite metres => lround metres
  | .nonFinite => 0

/-- The report to the search server, in metres. -/
def smmReportPosition (pd : PositionData) : SmmPositionReport where
  lat := pd.position.latitude
  lon := pd.position.longitude
  alt := .ofInt (wholeMetres pd.altitudeMetres)
  heading := pd.heading / 100

/-- The altitude of an ADS-B report, in millimetres. -/
def adsbAltitude (pd : PositionData) : Int32 := metresToMavMm pd.altitudeMetres

/-- A position at an altitude that the autopilot reported. -/
def OwnPosition.atAltitude (pd : OwnPosition) (millimetres : Int32) : OwnPosition :=
  { pd with altitudeMetres := mavMmToMetres millimetres }

end CapFmu
