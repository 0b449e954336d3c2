import CapFmu.Core.Types

/-!
# Modes, missions and packets

The custom mode numbers of the three firmware families are kept by name, since only which
command they stand for matters. A mission is laid out by sequence number: the autopilot is
told the count and then requests the items one by one.
-/

namespace CapFmu

/-- The vehicle types the mode table knows; everything else, and no heartbeat yet, is `other`. -/
inductive MavType
  | fixedWing
  | quadrotor
  | coaxial
  | helicopter
  | hexarotor
  | octorotor
  | tricopter
  | groundRover
  | other
  deriving DecidableEq, Repr

/-- The mode commands. -/
inductive MavModeCommand
  | rtl
  | manual
  | hold
  | autoMode
  deriving DecidableEq, Repr

/-- The custom modes of the firmware families. -/
inductive ArduMode
  | planeRtl
  | planeFlyByWireB
  | planeLoiter
  | planeAuto
  | copterRtl
  | copterStabilize
  | copterPoshold
  | copterAuto
  | roverRtl
  | roverManual
  | roverHold
  | roverAuto
  deriving DecidableEq, Repr

/-- Whether a mode is the family's AUTO. -/
def ArduMode.isAuto : ArduMode → Bool
  | planeAuto | copterAuto | roverAuto => true
  | _ => false

/-- The mode that carries out a command on a vehicle type, once the type is known. -/
def resolveMavMode : MavType → MavModeCommand → Option ArduMode
  | .fixedWing, .rtl => some .planeRtl
  | .fixedWing, .manual => some .planeFlyByWireB
  | .fixedWing, .hold => some .planeLoiter
  | .fixedWing, .autoMode => some .planeAuto
  | .groundRover, .rtl => some .roverRtl
  | .groundRover, .manual => some .roverManual
  | .groundRover, .hold => some .roverHold
  | .groundRover, .autoMode => some .roverAuto
  | .other, _ => none
  | _, .rtl => some .copterRtl
  | _, .manual => some .copterStabilize
  | _, .hold => some .copterPoshold
  | _, .autoMode => some .copterAuto

/-- A mode resolves exactly when the vehicle type is known. -/
theorem resolveMavMode_isSome (t : MavType) (command : MavModeCommand) :
    (resolveMavMode t command).isSome = true ↔ t ≠ .other := by
  cases t <;> cases command <;> simp [resolveMavMode]

/-- The AUTO command, and no other, resolves to an AUTO mode. -/
theorem isAuto_of_resolveMavMode {t : MavType} {command : MavModeCommand} {fmode : ArduMode}
    (h : resolveMavMode t command = some fmode) :
    fmode.isAuto = decide (command = .autoMode) := by
  cases t <;> cases command <;> cases h <;> rfl

/-- The mode a command resolved to, with the vehicle type it was resolved for. -/
structure ResolvedMode (command : MavModeCommand) where
  vehicle : MavType
  fmode : ArduMode
  resolved : resolveMavMode vehicle command = some fmode

/-- Resolve a command. -/
def resolveMode (t : MavType) (command : MavModeCommand) : Option (ResolvedMode command) :=
  match h : resolveMavMode t command with
  | some fmode => some ⟨t, fmode, h⟩
  | none => none

/-- On a known vehicle type every command resolves. -/
theorem resolveMode_isSome {t : MavType} (ht : t ≠ .other) (command : MavModeCommand) :
    ∃ r, resolveMode t command = some r := by
  have hsome := (resolveMavMode_isSome t command).mpr ht
  unfold resolveMode
  split
  · exact ⟨_, rfl⟩
  · next hnone => simp [hnone] at hsome

/-- Only the AUTO command resolves to an AUTO mode. -/
@[simp] theorem ResolvedMode.isAuto_fmode {command : MavModeCommand} (r : ResolvedMode command) :
    r.fmode.isAuto = decide (command = .autoMode) := isAuto_of_resolveMavMode r.resolved

/-- The modes that take control of the aircraft. -/
inductive TakeoverMode
  | rtl
  | manual
  | hold
  deriving DecidableEq, Repr

/-- The mode command of a takeover mode. -/
def TakeoverMode.command : TakeoverMode → MavModeCommand
  | rtl => .rtl
  | manual => .manual
  | hold => .hold

/-- A takeover mode is not AUTO. -/
@[simp] theorem TakeoverMode.command_ne_autoMode (m : TakeoverMode) : m.command ≠ .autoMode := by
  cases m <;> rintro ⟨⟩

/-- A search as its pointer, so that two loads of one search are the same. -/
structure SmmSearch where
  id : ℕ
  points : List Point := []
  altitude : UInt16 := 0
  deriving DecidableEq, Repr

/-- Which kind of mission is uploaded. -/
inductive MissionPlanMode
  | search
  | goTo
  deriving DecidableEq, Repr

/-- What a mission sequence number stands for. -/
inductive MissionItem
  | takeoff
  | searchPoint (pointIndex : ℕ)
  | gotoPoint
  | rtl
  deriving DecidableEq, Repr

/-- Search points follow the two setup items. -/
def searchFirstPointSeq : ℕ := 2

/-- The sequence number of a search point, in the 16 bits of the field. -/
def searchPointMissionSeq (pointIndex : ℕ) : ℕ := (pointIndex + searchFirstPointSeq) % 2 ^ 16

/-- The item of a sequence number. -/
def missionItemFor (seq numPoints : ℕ) : MissionPlanMode → MissionItem
  | .goTo => if 2 ≤ seq then .rtl else .gotoPoint
  | .search =>
    if seq ≤ 1 then .takeoff
    else if numPoints + 1 < seq then .rtl
    else .searchPoint (seq - 2)

/-- The number of items to advertise. -/
def missionCountFor (numPoints : ℕ) : MissionPlanMode → ℕ
  | .goTo => 3
  | .search => numPoints + 3

/-- A mission item on the wire, with the fields that depend on the upload. -/
structure MissionItemInt where
  seq : ℕ
  item : MissionItem
  current : Bool := false
  position : Option Point := none
  altitudeM : UInt16 := 0
  missionType : ℕ
  deriving DecidableEq

/-- The packets of the command and mission paths. -/
inductive Packet
  | setMode (fmode : ArduMode)
  | armDisarm (force : Bool)
  | flightTermination
  | missionCount (count : ℕ)
  | missionSetCurrent (seq : ℕ)
  | missionItem (item : MissionItemInt)
  deriving DecidableEq

/-- The takeovers that are a single command packet. -/
inductive DirectCommand
  | disarm
  | forceDisarm
  | terminate
  deriving DecidableEq, Repr

/-- The packet of a direct command. -/
def DirectCommand.packet : DirectCommand → Packet
  | disarm => .armDisarm false
  | forceDisarm => .armDisarm true
  | terminate => .flightTermination

/-- A packet that selects a mission item or engages AUTO. -/
def Packet.engages : Packet → Bool
  | setMode fmode => fmode.isAuto
  | missionSetCurrent _ => true
  | armDisarm _ | flightTermination | missionCount _ | missionItem _ => false

/-- A direct command does not engage. -/
@[simp] theorem DirectCommand.engages_packet (d : DirectCommand) : d.packet.engages = false := by
  cases d <;> rfl

/-- The code path that wrote a packet. -/
inductive Writer
  | takeover
  | preamble
  | upload
  | missionAck
  | replay
  | waypoint
  deriving DecidableEq, Repr

/-- A packet on the wire. -/
structure WireEntry where
  packet : Packet
  writer : Writer
  deriving DecidableEq

end CapFmu
