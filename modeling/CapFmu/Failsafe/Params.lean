import CapFmu.App.EventLoop
import CapFmu.Mav.Types
import CapFmu.Numeric.Binary32
import Mathlib.Data.Nat.Bitwise

/-!
# The failsafe parameters that the flight computer expects

As it meets the autopilot the flight computer requests the parameters that its backstops rest on,
and warns about the values that leave one of them open. A parameter is judged by a predicate on the
value of single precision that the autopilot reports.
-/

namespace CapFmu

open Numeric (Binary32)

/-- The system id that the flight computer heartbeats as. -/
def fmuGcsSysId : UInt8 := 200

/-- The option of a copter to continue the mission on a GCS failsafe. -/
def fsOptionsContinueInAutoBit : UInt32 := 1 <<< (1 : UInt32)

/-- A verdict on a value; there is none where the conversion of the value is undefined. -/
abbrev Verdict := Option Bool

/-- A parameter to request, how to judge its value, and what to warn of. -/
structure FailsafeParamCheck where
  name : String
  accept : Binary32 → Verdict
  warning : String

/-- The families of vehicles, which share a set of parameters. -/
inductive VehicleFamily
  | plane
  | copter
  | rover
  deriving DecidableEq, Repr

/-- The family of an autopilot. -/
def resolveVehicleFamily : MavType → Option VehicleFamily
  | .fixedWing => some .plane
  | .quadrotor | .coaxial | .helicopter | .hexarotor | .octorotor | .tricopter => some .copter
  | .groundRover => some .rover
  | .other => none

/-- The name of the parameter that enables the GCS failsafe. -/
def gcsFailsafeParamName (family : VehicleFamily) : String :=
  if family = .plane then "FS_GCS_ENABL" else "FS_GCS_ENABLE"

/-- Accept any value but zero. -/
def isNonzero (value : Binary32) : Verdict := some (!value.equals 0)

/-- Accept some values only. -/
def isOneOf (accepted : List ℕ) (value : Binary32) : Verdict :=
  some (accepted.any fun n => value.equals n)

/-- Accept the options that do not continue the mission. -/
def continueInAutoClear (value : Binary32) : Verdict :=
  value.toUInt32.map fun options => options &&& fsOptionsContinueInAutoBit == 0

/-- The checks of a family. -/
def familyParams (family : VehicleFamily) : List FailsafeParamCheck :=
  match family with
  | .plane =>
    [{ name := gcsFailsafeParamName family
       accept := isOneOf [1, 2]
       warning := gcsFailsafeParamName family ++
         " is not enabled for every mode the FMU flies (1 or 2): the autopilot's own " ++
         "GCS/telemetry failsafe is the backstop the FMU relies on while the MAV link " ++
         "is down, and 3 only fails safe in AUTO" },
     { name := "FS_LONG_ACTN"
       accept := isOneOf [1]
       warning := "the long-failsafe action is not RTL (1), so a GCS failsafe fires and the " ++
         "aircraft carries on flying the mission in AUTO and GUIDED — the modes the FMU flies — " ++
         "leaving no backstop" }]
  | .copter =>
    [{ name := gcsFailsafeParamName family
       accept := isOneOf [1, 3]
       warning := gcsFailsafeParamName family ++
         " is not set to an action that returns the aircraft (1 = RTL, 3 = SmartRTL " ++
         "falling back to RTL): the autopilot's own GCS/telemetry failsafe is the " ++
         "backstop the FMU relies on while the MAV link is down, and 2 continues the " ++
         "mission" },
     { name := "FS_OPTIONS"
       accept := continueInAutoClear
       warning := "FS_OPTIONS bit 1 is set, so a GCS failsafe in AUTO continues the mission " ++
         "instead of returning — the same trap as FS_LONG_ACTN=0 on Plane, leaving no backstop" }]
  | .rover =>
    [{ name := gcsFailsafeParamName family
       accept := isOneOf [1]
       warning := gcsFailsafeParamName family ++
         " is not enabled (1): the autopilot's own GCS/telemetry failsafe is the " ++
         "backstop the FMU relies on while the MAV link is down, and 2 continues the " ++
         "mission in Auto" },
     { name := "FS_ACTION"
       accept := isOneOf [1, 3]
       warning := "the failsafe action is not one that returns the vehicle (1 = RTL, 3 = " ++
         "SmartRTL falling back to RTL); the default is Hold" }]

/-- The checks of an aircraft that is flown with a termination. -/
def terminateParams : List FailsafeParamCheck :=
  [{ name := "AFS_ENABLE"
     accept := isNonzero
     warning := "AFS is disabled on the autopilot but --terminate-action=terminate requires it " ++
       "enabled for MAV_CMD_DO_FLIGHTTERMINATION to have any effect" },
   { name := "AFS_TERM_ACTION"
     accept := isNonzero
     warning := "the AFS termination action is not configured on the autopilot but " ++
       "--terminate-action=terminate requires it to be set" }]

/-- The check of the system id whose heartbeat the GCS failsafe watches. -/
def sysidMygcs : FailsafeParamCheck where
  name := "SYSID_MYGCS"
  accept := isOneOf [fmuGcsSysId.toNat]
  warning := "the GCS failsafe is watching a different system id than the FMU heartbeats as " ++
    "(200), so the FMU dying is invisible to it — MAVProxy on the same companion computer " ++
    "keeps the heartbeat the autopilot is actually watching alive"

/-- The checks for an autopilot and what a termination does. -/
def expectedFailsafeParams (autopilotType : MavType) (action : TerminateAction) :
    List FailsafeParamCheck :=
  let params := if action = .terminate then terminateParams else []
  match resolveVehicleFamily autopilotType with
  | none => params
  | some family => params ++ familyParams family ++ [sysidMygcs]

section Verdicts

variable {n : ℕ} {h : Numeric.IsBinary32 n}

/-- Every natural number but zero is accepted. -/
@[simp] theorem isNonzero_ofNat : isNonzero (.ofNat n h) = some (decide (n ≠ 0)) := by
  have hzero := Binary32.equals_ofNat (h := h) 0
  rw [Nat.cast_zero] at hzero
  rw [isNonzero, hzero, decide_not]

/-- The natural numbers among the accepted ones are accepted. -/
@[simp] theorem isOneOf_ofNat (accepted : List ℕ) :
    isOneOf accepted (.ofNat n h) = some (decide (n ∈ accepted)) := by
  induction accepted with
  | nil => rfl
  | cons m accepted ih =>
    have hrest := Option.some.inj ih
    unfold isOneOf
    rw [List.any_cons, Binary32.equals_ofNat, hrest, ← Bool.decide_or, Option.some_inj,
      decide_eq_decide, List.mem_cons]

/-- A bit of a word is a bit of the number. -/
theorem and_continueInAutoBit (n : ℕ) (hlt : n < 2 ^ 32) :
    (UInt32.ofNat n &&& fsOptionsContinueInAutoBit == 0) = !n.testBit 1 := by
  have hbit : (UInt32.ofNat n &&& fsOptionsContinueInAutoBit).toNat =
      (n.testBit 1).toNat * 2 := by
    rw [UInt32.toNat_and, UInt32.toNat_ofNat_of_lt' hlt]
    exact Nat.and_two_pow n 1
  rw [Bool.eq_iff_iff, beq_iff_eq, ← UInt32.toNat_inj, hbit]
  cases n.testBit 1 <;> decide

/-- Options of 32 bits are accepted without the bit. -/
theorem continueInAutoClear_ofNat_of_lt (hlt : n < 2 ^ 32) :
    continueInAutoClear (.ofNat n h) = some (!n.testBit 1) := by
  rw [continueInAutoClear, Binary32.toUInt32_ofNat_of_lt hlt, Option.map_some,
    and_continueInAutoBit n hlt]

/-- There is no verdict on larger ones. -/
theorem continueInAutoClear_ofNat_of_le (hle : 2 ^ 32 ≤ n) :
    continueInAutoClear (.ofNat n h) = none := by
  rw [continueInAutoClear, Binary32.toUInt32_ofNat_of_le hle, Option.map_none]

end Verdicts

end CapFmu
