import CapFmu.Mav.Types

/-!
# The lock sections of the autopilot connection

The mission-upload state is guarded by the state lock, and a packet is packed and written
under the send lock, never under both. Each section below is one atomic step: the threads
of the next module, and the whole calls, are sequences of them. Log lines are left out.
-/

namespace CapFmu

/-- The connection: the link, the autopilot's vehicle type, the fields under the state
lock, and for each search the point it resumes from. -/
structure MavConnection where
  fdOpen : Bool := false
  autopilotType : MavType := .other
  search : Option SmmSearch := none
  searchLoading : Bool := false
  searchLoaded : Bool := false
  gotoPosition : Point := {}
  gotoActive : Bool := false
  gotoAckPending : Bool := false
  pendingModeCommand : Option MavModeCommand := none
  gotoAltitudeM : UInt16 := 0
  currentPointIdx : ℕ → ℕ := fun _ => 0

namespace MavConnection

/-- A quadrotor on an open link, before the first command. -/
def quadrotor : MavConnection := { fdOpen := true, autopilotType := .quadrotor }

/-- The link is up: open, the autopilot heard from, and no mode command deferred until it is. -/
structure Ready (c : MavConnection) : Prop where
  linkOpen : c.fdOpen = true
  typeKnown : c.autopilotType ≠ .other
  noneDeferred : c.pendingModeCommand = none

/-- Whether an upload's acknowledgement is still awaited. -/
def uploadPending (c : MavConnection) : Bool := c.gotoAckPending || c.searchLoading

/-- Clear the upload state; a search that never finished loading is dropped. -/
def invalidateInFlightUpload (c : MavConnection) : MavConnection :=
  { c with
    search := if c.searchLoading then none else c.search
    gotoActive := false
    gotoAckPending := false
    searchLoading := false
    searchLoaded := false }

/-- The state section of a resolved mode command, after its packet was written. -/
def settleMode (c : MavConnection) (clearSearchLoaded : Bool) : MavConnection :=
  let settled := { c with pendingModeCommand := none }
  if clearSearchLoaded then settled.invalidateInFlightUpload else settled

/-- The state section of a mode command whose vehicle type is not known. -/
def deferMode (c : MavConnection) (command : MavModeCommand) (clearSearchLoaded : Bool) :
    MavConnection :=
  let deferred := { c with pendingModeCommand := some command }
  if clearSearchLoaded then deferred.invalidateInFlightUpload else deferred

/-- The state section of a replayed mode command, after its packet was written. -/
def clearReplayed (c : MavConnection) (command : MavModeCommand) : MavConnection :=
  { c with
    pendingModeCommand :=
      if c.pendingModeCommand = some command then none else c.pendingModeCommand
    searchLoaded := if command ≠ .autoMode then false else c.searchLoaded }

/-- The first state section of a goto, after its preamble. -/
def activateGoto (c : MavConnection) (p : Point) : MavConnection :=
  { c with gotoPosition := p, gotoActive := true, searchLoaded := false }

/-- The last state section of a goto, once its count was written. -/
def armGoto (c : MavConnection) : MavConnection := { c with gotoAckPending := true }

/-- The state section of a search upload, after its preamble. -/
def armSearch (c : MavConnection) (s : SmmSearch) : MavConnection :=
  { c with
    gotoActive := false
    gotoAckPending := false
    searchLoaded := false
    search := some s
    searchLoading := true }

/-- The check of a search load: whether the search has to be uploaded. -/
def checkReload (c : MavConnection) (s : Option SmmSearch) : MavConnection × Option SmmSearch :=
  if c.search ≠ s ∨ c.searchLoaded = false then ({ c with search := s }, s) else (c, none)

/-- The state section of an acknowledgement, with the sequence numbers it selects. -/
def ackDecision (c : MavConnection) (accepted : Bool) : MavConnection × List ℕ :=
  let searchSeq := (c.search.map fun s => searchPointMissionSeq (c.currentPointIdx s.id)).getD 0
  ({ c with
      gotoAckPending := false
      gotoActive := if c.gotoAckPending then false else c.gotoActive
      searchLoading := false
      searchLoaded := if c.searchLoading && accepted then true else c.searchLoaded
      search := if c.searchLoading && !accepted then none else c.search },
    (if c.gotoAckPending && accepted then [0] else []) ++
      (if c.searchLoading && accepted then [searchSeq] else []))

/-- The reply to a mission request, from one snapshot of the state: nothing when no upload is
open, and no answer at all where the code would use a search it does not have. -/
def waypointReply (c : MavConnection) (seq missionType : ℕ) : Option (Option MissionItemInt) :=
  if !c.gotoActive && !c.searchLoading then some none
  else
    let numPoints := (c.search.map fun s => s.points.length).getD 0
    let mode := if c.gotoActive then MissionPlanMode.goTo else .search
    let item := missionItemFor seq numPoints mode
    match item with
    | .rtl => some (some { seq := seq, item := item, missionType := missionType })
    | .gotoPoint =>
      some (some { seq := seq, item := item, position := some c.gotoPosition,
                   altitudeM := c.gotoAltitudeM, missionType := missionType })
    | .takeoff => c.search.map fun s =>
        some { seq := seq, item := item, altitudeM := s.altitude, missionType := missionType,
               current := decide (seq = 1 ∧ c.currentPointIdx s.id = 0) }
    | .searchPoint pointIndex => c.search.bind fun s => s.points[pointIndex]?.map fun p =>
        some { seq := seq, item := item, position := some p, altitudeM := s.altitude,
               missionType := missionType,
               current := decide (c.currentPointIdx s.id = pointIndex) }

/-- Write a packet; with the link closed nothing is written. -/
def written (c : MavConnection) (packet : Packet) (writer : Writer) : List WireEntry :=
  if c.fdOpen then [{ packet := packet, writer := writer }] else []

/-- The count a search upload advertises, in the 16 bits of the field. -/
def searchCount (s : SmmSearch) : Packet :=
  .missionCount (missionCountFor s.points.length .search % 2 ^ 16)

/-- The count a goto advertises. -/
def gotoCount : Packet := .missionCount (missionCountFor 0 .goTo)

/-- On an open link a packet is written. -/
theorem written_of_open {c : MavConnection} (h : c.fdOpen = true) (packet : Packet)
    (writer : Writer) : c.written packet writer = [{ packet := packet, writer := writer }] := by
  simp only [written, h, if_true]

@[simp] theorem uploadPending_ackDecision (c : MavConnection) (accepted : Bool) :
    (c.ackDecision accepted).1.uploadPending = false := rfl

/-- The check of a search load changes the search alone. -/
theorem checkReload_fst (c : MavConnection) (s : Option SmmSearch) :
    (c.checkReload s).1 = { c with search := (c.checkReload s).1.search } := by
  unfold checkReload
  split <;> rfl

/-- An acknowledgement with no upload pending changes nothing and selects nothing. -/
theorem ackDecision_of_not_pending {c : MavConnection} (h : c.uploadPending = false)
    (accepted : Bool) : c.ackDecision accepted = (c, []) := by
  cases c
  simp only [uploadPending, Bool.or_eq_false_iff] at h
  simp [ackDecision, h.1, h.2]

end MavConnection

end CapFmu
