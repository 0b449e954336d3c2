import CapFmu.Numeric.Binary64

/-!
# States, commands and positions

The enumerations shared by the state machine, the ground-station client and the
autopilot link, under the source's names. A position keeps its two coordinates as
doubles, because the validity check that rejects a non-finite coordinate is part of the
command path.
-/

namespace CapFmu

open Numeric (Double)

/-- A position in degrees. -/
structure Point where
  latitude : Double := .finite 0
  longitude : Double := .finite 0
  deriving DecidableEq, Repr

/-- A finite coordinate inside its closed range of degrees. -/
def withinDegrees (limit : ℚ) : Double → Bool
  | .finite x => decide (-limit ≤ x ∧ x ≤ limit)
  | .nonFinite => false

/-- The shared coordinate validator. -/
def Point.isValid (p : Point) : Bool :=
  withinDegrees 90 p.latitude && withinDegrees 180 p.longitude

/-- The fields of another aircraft's position report that identify and place it. -/
structure PeerPosition where
  position : Point := {}
  callSign : String := ""
  icaoAddress : UInt32 := 0
  deriving DecidableEq

/-- The states of the flight state machine. -/
inductive FmuState
  | manual
  | searching
  | goto
  | altitudeAdjust
  | rtl
  | waitingForTasking
  | hold
  | lowBattery
  | failsafe
  | disarmed
  | terminate
  deriving DecidableEq, Repr

/-- The commands a ground station can give. -/
inductive FssCommand
  | cmdUnknown
  | cmdManual
  | cmdRtl
  | cmdHold
  | cmdAltitude
  | cmdGoto
  | cmdContinue
  | cmdDisarm
  | cmdTerminate
  deriving DecidableEq, Repr

/-- The commands the search server can give. -/
inductive SmmCommand
  | cmdNone
  | cmdAbandonSearch
  | cmdMissionComplete
  deriving DecidableEq, Repr

/-- The target a goto or altitude command carries; the altitude is in feet, full width. -/
structure FssCommandTarget where
  position : Point := {}
  altitude : UInt32 := 0
  deriving DecidableEq, Repr

/-- Whether a ground-station command took effect or a latch was in control. -/
inductive FssCommandOutcome
  | actioned
  | superseded
  deriving DecidableEq, Repr

/-- How a ground-station command resolved. -/
structure FssCommandResolution where
  outcome : FssCommandOutcome := .actioned
  supersedingState : Option FmuState := none
  transitioned : Bool := false
  deriving DecidableEq, Repr

/-- The flight modes the state machine asks the autopilot interface for. -/
inductive FlightMode
  | unknown
  | manual
  | rtl
  | goto
  | hold
  deriving DecidableEq, Repr

end CapFmu
