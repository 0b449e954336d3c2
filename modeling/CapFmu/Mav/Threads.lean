import CapFmu.Mav.Connection
import CapFmu.Transition.Run

/-!
# The two threads of the autopilot connection

The event loop issues the commands and the recv thread processes the autopilot's messages.
A thread's program counter says which lock section it executes next; a step executes one
section of one thread. The remaining labels are the calls and messages that start a thread
on its sections, and what the other threads do to the same fields.

The vehicle type is read under a lock of its own before a mode command is packed, so that
reading it is a section too.
-/

namespace CapFmu

/-- What follows the settling of a mode command: nothing, when the command itself takes
control, or the upload it prepares. -/
inductive AfterMode
  | done
  | goto (p : Point)
  | search (s : SmmSearch)

/-- A mode command that prepares an upload is the upload's preamble. -/
def AfterMode.writer : AfterMode → Writer
  | done => .takeover
  | goto _ | search _ => .preamble

/-- The next section of the event loop. -/
inductive LoopPc
  | idle
  | resolve (m : TakeoverMode) (after : AfterMode)
  | modeSend (m : TakeoverMode) (r : ResolvedMode m.command) (after : AfterMode)
  | modeSettle (after : AfterMode)
  | modeDefer (m : TakeoverMode) (after : AfterMode)
  | directSend (d : DirectCommand)
  | directSettle
  | gotoActivate (p : Point)
  | gotoCount
  | gotoArm
  | loadCheck (s : Option SmmSearch)
  | searchArm (s : SmmSearch)
  | searchCount (s : SmmSearch)

/-- The section that follows a settled mode command. -/
def AfterMode.next : AfterMode → LoopPc
  | done => .idle
  | goto p => .gotoActivate p
  | search s => .searchArm s

/-- Return to launch. -/
def commandRtl : LoopPc := .resolve .rtl .done

/-- Loiter. -/
def commandHold : LoopPc := .resolve .hold .done

/-- Hand control to the pilot. -/
def commandManual : LoopPc := .resolve .manual .done

/-- Disarm. -/
def commandDisArm : LoopPc := .directSend .disarm

/-- Disarm in flight. -/
def commandForceDisArm : LoopPc := .directSend .forceDisarm

/-- Terminate the flight. -/
def commandTerminate : LoopPc := .directSend .terminate

/-- Upload the mission of a goto. -/
def commandGoto (p : Point) : LoopPc := .resolve .rtl (.goto p)

/-- Upload the mission of a search. -/
def uploadSearch (s : SmmSearch) : LoopPc := .resolve .rtl (.search s)

/-- Upload a search unless it is loaded already. -/
def loadSearch (s : Option SmmSearch) : LoopPc := .loadCheck s

/-- The commands of the event loop. -/
inductive MavCall
  | rtl
  | hold
  | manual
  | disArm
  | forceDisArm
  | terminate
  | goto (p : Point)
  | loadSearch (s : Option SmmSearch)

/-- The first section of a command. -/
def MavCall.entry : MavCall → LoopPc
  | rtl => commandRtl
  | hold => commandHold
  | manual => commandManual
  | disArm => commandDisArm
  | forceDisArm => commandForceDisArm
  | terminate => commandTerminate
  | goto p => commandGoto p
  | loadSearch s => CapFmu.loadSearch s

/-- The next section of the recv thread; `rest` are the items the acknowledgement being
processed still has to select. -/
inductive RecvPc
  | idle
  | selecting (seq : ℕ) (rest : List ℕ)
  | autoResolve (rest : List ℕ)
  | autoSend (r : ResolvedMode .autoMode) (rest : List ℕ)
  | autoSettle (rest : List ℕ)
  | autoDefer (rest : List ℕ)
  | replayCopy (t : MavType)
  | replaySend (command : MavModeCommand) (r : ResolvedMode command)
  | replayClear (command : MavModeCommand)
  | waypointSend (item : MissionItemInt)

/-- Select the next item an acknowledgement asks for. -/
def selectNext : List ℕ → RecvPc
  | [] => .idle
  | seq :: rest => .selecting seq rest

/-- One section of the event loop: the fields after it, the section that follows and what it
wrote. A goto arms its acknowledgement only if the count was sent. -/
def loopSection (c : MavConnection) : LoopPc → Option (MavConnection × LoopPc × List WireEntry)
  | .idle => none
  | .resolve m after =>
    match resolveMode c.autopilotType m.command with
    | some r => some (c, .modeSend m r after, [])
    | none => some (c, .modeDefer m after, [])
  | .modeSend _ r after => some (c, .modeSettle after, c.written (.setMode r.fmode) after.writer)
  | .modeSettle after => some (c.settleMode true, after.next, [])
  | .modeDefer m after => some (c.deferMode m.command true, after.next, [])
  | .directSend d => some (c, .directSettle, c.written d.packet .takeover)
  | .directSettle => some (c.invalidateInFlightUpload, .idle, [])
  | .gotoActivate p => some (c.activateGoto p, .gotoCount, [])
  | .gotoCount =>
    some (c, if c.fdOpen then .gotoArm else .idle, c.written MavConnection.gotoCount .upload)
  | .gotoArm => some (c.armGoto, .idle, [])
  | .loadCheck s =>
    let (checked, reload) := c.checkReload s
    some (checked, (reload.map CapFmu.uploadSearch).getD .idle, [])
  | .searchArm s => some (c.armSearch s, .searchCount s, [])
  | .searchCount s => some (c, .idle, c.written (MavConnection.searchCount s) .upload)

/-- One section of the recv thread. -/
def recvSection (c : MavConnection) : RecvPc → Option (MavConnection × RecvPc × List WireEntry)
  | .idle => none
  | .selecting seq rest =>
    some (c, .autoResolve rest, c.written (.missionSetCurrent seq) .missionAck)
  | .autoResolve rest =>
    match resolveMode c.autopilotType .autoMode with
    | some r => some (c, .autoSend r rest, [])
    | none => some (c, .autoDefer rest, [])
  | .autoSend r rest => some (c, .autoSettle rest, c.written (.setMode r.fmode) .missionAck)
  | .autoSettle rest => some (c.settleMode false, selectNext rest, [])
  | .autoDefer rest => some (c.deferMode .autoMode false, selectNext rest, [])
  | .replayCopy t =>
    match c.pendingModeCommand with
    | none => some (c, .idle, [])
    | some command =>
      match resolveMode t command with
      | none => some (c, .idle, [])
      | some r => some (c, .replaySend command r, [])
  | .replaySend command r => some (c, .replayClear command, c.written (.setMode r.fmode) .replay)
  | .replayClear command => some (c.clearReplayed command, .idle, [])
  | .waypointSend item => some (c, .idle, c.written (.missionItem item) .waypoint)

/-- The sections left after the settling of a mode command. -/
def AfterMode.remaining : AfterMode → ℕ
  | .done => 0
  | .goto _ => 3
  | .search _ => 2

/-- The sections the event loop has left, at most. -/
def LoopPc.remaining : LoopPc → ℕ
  | .idle => 0
  | .resolve _ after => after.remaining + 3
  | .modeSend _ _ after => after.remaining + 2
  | .modeSettle after | .modeDefer _ after => after.remaining + 1
  | .directSend _ => 2
  | .directSettle => 1
  | .gotoActivate _ => 3
  | .gotoCount => 2
  | .gotoArm => 1
  | .loadCheck _ => 6
  | .searchArm _ => 2
  | .searchCount _ => 1

/-- The sections the recv thread has left, at most. -/
def RecvPc.remaining : RecvPc → ℕ
  | .idle => 0
  | .selecting _ rest => 4 * rest.length + 4
  | .autoResolve rest => 4 * rest.length + 3
  | .autoSend _ rest => 4 * rest.length + 2
  | .autoSettle rest | .autoDefer rest => 4 * rest.length + 1
  | .replayCopy _ => 3
  | .replaySend _ _ => 2
  | .replayClear _ => 1
  | .waypointSend _ => 1

/-- The connection, what was written on it, oldest first, and the two threads. -/
structure MavSystem where
  conn : MavConnection
  wire : List WireEntry := []
  loop : LoopPc := .idle
  recv : RecvPc := .idle

/-- What can happen: a section of either thread, a command, a message of the autopilot, the
heartbeat thread's report of a lost link, a change of the link, and search progress. -/
inductive MavLabel
  | loop
  | recv
  | call (command : MavCall)
  | heartbeat (t : MavType)
  | missionAck (accepted : Bool)
  | missionRequest (seq missionType : ℕ)
  | autopilotRestart
  | commsLost
  | setLink (isOpen : Bool)
  | progress (id pointIdx : ℕ)

namespace MavSystem

/-- The event loop executes its next section. -/
def stepLoop (s : MavSystem) : Option MavSystem :=
  (loopSection s.conn s.loop).map fun (conn, loop, written) =>
    { s with conn := conn, loop := loop, wire := s.wire ++ written }

/-- The recv thread executes its next section. -/
def stepRecv (s : MavSystem) : Option MavSystem :=
  (recvSection s.conn s.recv).map fun (conn, recv, written) =>
    { s with conn := conn, recv := recv, wire := s.wire ++ written }

/-- The recv thread starts on a message, once the one before is processed. The state section
of an acknowledgement, of a request and of a detected restart is part of it. -/
def receive (s : MavSystem) : MavLabel → Option MavSystem
  | .heartbeat t =>
    some { s with conn := { s.conn with autopilotType := t }, recv := .replayCopy t }
  | .missionAck accepted =>
    let (conn, selects) := s.conn.ackDecision accepted
    some { s with conn := conn, recv := selectNext selects }
  | .missionRequest seq missionType =>
    (s.conn.waypointReply seq missionType).map fun reply =>
      { s with recv := (reply.map RecvPc.waypointSend).getD .idle }
  | .autopilotRestart => some { s with conn := s.conn.invalidateInFlightUpload }
  | _ => none

/-- One step of the system; `none` when the label is not enabled. -/
def step (s : MavSystem) : MavLabel → Option MavSystem
  | .loop => s.stepLoop
  | .recv => s.stepRecv
  | .call command =>
    match s.loop with
    | .idle => some { s with loop := command.entry }
    | _ => none
  | .commsLost => some { s with conn := { s.conn with gotoAckPending := false } }
  | .setLink isOpen => some { s with conn := { s.conn with fdOpen := isOpen } }
  | .progress id pointIdx =>
    some { s with conn := { s.conn with
      currentPointIdx := Function.update s.conn.currentPointIdx id pointIdx } }
  | message =>
    match s.recv with
    | .idle => s.receive message
    | _ => none

/-- A heartbeat is taken once the message before it is processed. -/
theorem step_heartbeat_eq_some {s t : MavSystem} {type : MavType} :
    s.step (.heartbeat type) = some t ↔ s.recv = .idle ∧
      { s with conn := { s.conn with autopilotType := type }, recv := .replayCopy type } = t := by
  cases hrecv : s.recv <;> simp [step, receive, hrecv]

/-- A request is answered once the message before it is processed. -/
theorem step_missionRequest_eq_some {s t : MavSystem} {seq missionType : ℕ} :
    s.step (.missionRequest seq missionType) = some t ↔ s.recv = .idle ∧
      ∃ reply, s.conn.waypointReply seq missionType = some reply ∧
        { s with recv := (reply.map RecvPc.waypointSend).getD .idle } = t := by
  cases hrecv : s.recv <;> simp [step, receive, hrecv]

/-- A restart is detected once the message before it is processed. -/
theorem step_autopilotRestart_eq_some {s t : MavSystem} :
    s.step .autopilotRestart = some t ↔ s.recv = .idle ∧
      { s with conn := s.conn.invalidateInFlightUpload } = t := by
  cases hrecv : s.recv <;> simp [step, receive, hrecv]

/-- An acknowledgement is decided once the message before it is processed. -/
theorem step_missionAck_eq_some {s t : MavSystem} {accepted : Bool} :
    s.step (.missionAck accepted) = some t ↔ s.recv = .idle ∧ { s with
      conn := (s.conn.ackDecision accepted).1
      recv := selectNext (s.conn.ackDecision accepted).2 } = t := by
  cases hrecv : s.recv <;> simp [step, receive, hrecv]

end MavSystem

end CapFmu
