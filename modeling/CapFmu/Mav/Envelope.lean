import CapFmu.Altitude.Limits
import CapFmu.Mav.Coordinates
import CapFmu.Mav.Threads

/-!
# The envelope of the missions

A mission that is uploaded is flown without another look at it. What the connection answers a
request with comes from the goto position, the goto altitude and the search it was last handed,
at whatever moment the request is received; so the envelope is a property of every place in
which the two threads keep one of these.
-/

namespace CapFmu

/-- The limits of a configuration, the goto altitude within them. -/
structure AltitudeLimits where
  floorM : UInt16
  capM : UInt16
  gotoM : UInt16
  floor_le_goto : floorM ≤ gotoM
  goto_le_cap : gotoM ≤ capM

/-- An altitude is within the limits. -/
def AltitudeLimits.Allows (limits : AltitudeLimits) (altitudeM : UInt16) : Prop :=
  limits.floorM ≤ altitudeM ∧ altitudeM ≤ limits.capM

/-- The floor is below the cap. -/
theorem AltitudeLimits.floor_le_cap (limits : AltitudeLimits) : limits.floorM ≤ limits.capM :=
  UInt16.le_trans limits.floor_le_goto limits.goto_le_cap

section Envelope

variable (limits : AltitudeLimits)

/-- A search is flown within the limits, over valid points. -/
structure SmmSearch.Flyable (s : SmmSearch) : Prop where
  altitude : limits.Allows s.altitude
  points : ∀ p ∈ s.points, p.isValid = true

/-- A mission item has an altitude within the limits, unless it returns home, and its position is
valid if it has one. -/
structure MissionItemInt.Flyable (item : MissionItemInt) : Prop where
  altitude : item.item ≠ .rtl → limits.Allows item.altitudeM
  position : ∀ p, item.position = some p → p.isValid = true

/-- The mission items among the packets are within the envelope. -/
def Packet.Flyable : Packet → Prop
  | missionItem item => item.Flyable limits
  | setMode _ | armDisarm _ | flightTermination | missionCount _ | missionSetCurrent _ => True

/-- What follows a preamble is within the envelope. -/
def AfterMode.Flyable : AfterMode → Prop
  | done => True
  | goto p => p.isValid = true
  | search s => s.Flyable limits

/-- What the event loop is about to upload is within the envelope. -/
def LoopPc.Flyable : LoopPc → Prop
  | resolve _ after | modeSend _ _ after | modeSettle after | modeDefer _ after =>
    after.Flyable limits
  | gotoActivate p => p.isValid = true
  | loadCheck s => ∀ q, s = some q → q.Flyable limits
  | searchArm s | searchCount s => s.Flyable limits
  | idle | directSend _ | directSettle | gotoCount | gotoArm => True

/-- What the recv thread is about to send is within the envelope. -/
def RecvPc.Flyable : RecvPc → Prop
  | waypointSend item => item.Flyable limits
  | idle | selecting _ _ | autoResolve _ | autoSend _ _ | autoSettle _ | autoDefer _
  | replayCopy _ | replaySend _ _ | replayClear _ => True

/-- What a command uploads is within the envelope. -/
def MavCall.Flyable : MavCall → Prop
  | goto p => p.isValid = true
  | loadSearch s => ∀ q, s = some q → q.Flyable limits
  | rtl | hold | manual | disArm | forceDisArm | terminate => True

/-- What the connection keeps to answer requests with is within the envelope. -/
structure MavConnection.Flyable (c : MavConnection) : Prop where
  search : ∀ s, c.search = some s → s.Flyable limits
  gotoPosition : c.gotoPosition.isValid = true
  gotoAltitude : c.gotoAltitudeM = limits.gotoM

/-- Everything the two threads keep and have written is within the envelope. -/
structure MavSystem.Flyable (s : MavSystem) : Prop where
  conn : s.conn.Flyable limits
  loop : s.loop.Flyable limits
  recv : s.recv.Flyable limits
  wire : ∀ entry ∈ s.wire, entry.packet.Flyable limits

variable {limits}

/-- The goto altitude is within the limits. -/
theorem AltitudeLimits.allows_gotoM : limits.Allows limits.gotoM :=
  ⟨limits.floor_le_goto, limits.goto_le_cap⟩

/-- What follows a preamble keeps within the envelope. -/
theorem AfterMode.Flyable.next {after : AfterMode} (h : after.Flyable limits) :
    after.next.Flyable limits := by
  cases after with
  | done => trivial
  | goto p => exact h
  | search s => exact h

/-- The first section of a command keeps within the envelope. -/
theorem MavCall.Flyable.entry {command : MavCall} (h : command.Flyable limits) :
    command.entry.Flyable limits := by
  cases command with
  | goto p => exact h
  | loadSearch s => exact h
  | rtl | hold | manual | disArm | forceDisArm | terminate => trivial

/-- No mission item is sent as the next one is selected. -/
theorem flyable_selectNext (seqs : List ℕ) : (selectNext seqs).Flyable limits := by
  cases seqs with
  | nil => trivial
  | cons seq rest => trivial

/-- A search to be uploaded is within the envelope if the one that is checked is. -/
theorem flyable_reload {c : MavConnection} {s : Option SmmSearch}
    (h : ∀ q, s = some q → q.Flyable limits) :
    (((c.checkReload s).2.map CapFmu.uploadSearch).getD .idle).Flyable limits := by
  unfold MavConnection.checkReload
  split_ifs
  · cases s with
    | none => trivial
    | some q => exact h q rfl
  · trivial

namespace MavConnection

variable {c d : MavConnection}

/-- A connection keeps within the envelope while it keeps the positions and altitude, and drops its
search at most. -/
theorem Flyable.congr (h : c.Flyable limits) (hsearch : ∀ s, d.search = some s → c.search = some s)
    (hposition : d.gotoPosition = c.gotoPosition) (haltitude : d.gotoAltitudeM = c.gotoAltitudeM) :
    d.Flyable limits where
  search s hs := h.search s (hsearch s hs)
  gotoPosition := hposition ▸ h.gotoPosition
  gotoAltitude := haltitude.trans h.gotoAltitude

/-- An invalidated upload drops its search at most. -/
theorem Flyable.invalidateInFlightUpload (h : c.Flyable limits) :
    c.invalidateInFlightUpload.Flyable limits := by
  refine h.congr (fun s hs => ?_) rfl rfl
  exact (Option.ite_none_left_eq_some.mp hs).2

/-- A settled mode keeps the connection within the envelope. -/
theorem Flyable.settleMode (h : c.Flyable limits) (clearSearchLoaded : Bool) :
    (c.settleMode clearSearchLoaded).Flyable limits := by
  cases clearSearchLoaded with
  | true => exact Flyable.invalidateInFlightUpload (h.congr (fun _ => id) rfl rfl)
  | false => exact h.congr (fun _ => id) rfl rfl

/-- A deferred mode keeps the connection within the envelope. -/
theorem Flyable.deferMode (h : c.Flyable limits) (command : MavModeCommand)
    (clearSearchLoaded : Bool) : (c.deferMode command clearSearchLoaded).Flyable limits := by
  cases clearSearchLoaded with
  | true => exact Flyable.invalidateInFlightUpload (h.congr (fun _ => id) rfl rfl)
  | false => exact h.congr (fun _ => id) rfl rfl

/-- An acknowledgement drops the search at most. -/
theorem Flyable.ackDecision (h : c.Flyable limits) (accepted : Bool) :
    (c.ackDecision accepted).1.Flyable limits := by
  refine h.congr (fun s hs => ?_) rfl rfl
  exact (Option.ite_none_left_eq_some.mp hs).2

/-- Every answer to a request is within the envelope. -/
theorem Flyable.waypointReply (h : c.Flyable limits) {seq missionType : ℕ} {item : MissionItemInt}
    (hreply : c.waypointReply seq missionType = some (some item)) : item.Flyable limits := by
  unfold MavConnection.waypointReply at hreply
  by_cases hclosed : (!c.gotoActive && !c.searchLoading) = true
  · rw [if_pos hclosed] at hreply
    exact absurd hreply (by simp)
  · rw [if_neg hclosed] at hreply
    simp only at hreply
    generalize missionItemFor seq ((c.search.map fun s => s.points.length).getD 0) _ = kind at hreply
    cases kind with
    | rtl =>
      cases hreply
      exact ⟨fun hnot => absurd rfl hnot, fun p hp => absurd hp (Option.some_ne_none p).symm⟩
    | gotoPoint =>
      cases hreply
      refine ⟨fun _ => ?_, fun p hp => ?_⟩
      · rw [h.gotoAltitude]
        exact AltitudeLimits.allows_gotoM
      · rw [← Option.some.inj hp]
        exact h.gotoPosition
    | takeoff =>
      obtain ⟨s, hs, hitem⟩ := Option.map_eq_some_iff.mp hreply
      cases hitem
      exact ⟨fun _ => (h.search s hs).altitude, fun p hp => absurd hp (Option.some_ne_none p).symm⟩
    | searchPoint pointIndex =>
      obtain ⟨s, hs, hpoint⟩ := Option.bind_eq_some_iff.mp hreply
      obtain ⟨p, hp, hitem⟩ := Option.map_eq_some_iff.mp hpoint
      cases hitem
      refine ⟨fun _ => (h.search s hs).altitude, fun q hq => ?_⟩
      rw [← Option.some.inj hq]
      exact (h.search s hs).points p (List.mem_of_getElem? hp)

end MavConnection

section Sections

variable {c d : MavConnection} {written : List WireEntry}

/-- What writes nothing keeps within the envelope. -/
theorem flyable_nil : ∀ entry ∈ ([] : List WireEntry), entry.packet.Flyable limits :=
  fun _ hentry => absurd hentry List.not_mem_nil

/-- A packet within the envelope is written or not. -/
theorem flyable_written {packet : Packet} {writer : Writer} (h : packet.Flyable limits) :
    ∀ entry ∈ c.written packet writer, entry.packet.Flyable limits := by
  intro entry hentry
  unfold MavConnection.written at hentry
  split_ifs at hentry
  · rw [List.mem_singleton.mp hentry]
    exact h
  · exact absurd hentry List.not_mem_nil

/-- A section of the event loop keeps within the envelope and writes no mission item. -/
theorem loopSection_flyable {pc qc : LoopPc} (hconn : c.Flyable limits) (hpc : pc.Flyable limits)
    (hstep : loopSection c pc = some (d, qc, written)) :
    d.Flyable limits ∧ qc.Flyable limits ∧ ∀ entry ∈ written, entry.packet.Flyable limits := by
  cases pc with
  | idle => cases hstep
  | resolve m after =>
    simp only [loopSection] at hstep
    split at hstep
    · cases hstep
      exact ⟨hconn, hpc, flyable_nil⟩
    · cases hstep
      exact ⟨hconn, hpc, flyable_nil⟩
  | modeSend m r after =>
    cases hstep
    exact ⟨hconn, hpc, flyable_written trivial⟩
  | modeSettle after =>
    cases hstep
    exact ⟨hconn.settleMode true, AfterMode.Flyable.next hpc, flyable_nil⟩
  | modeDefer m after =>
    cases hstep
    exact ⟨hconn.deferMode m.command true, AfterMode.Flyable.next hpc, flyable_nil⟩
  | directSend direct =>
    cases hstep
    refine ⟨hconn, trivial, flyable_written ?_⟩
    cases direct <;> trivial
  | directSettle =>
    cases hstep
    exact ⟨hconn.invalidateInFlightUpload, trivial, flyable_nil⟩
  | gotoActivate p =>
    cases hstep
    exact ⟨⟨hconn.search, hpc, hconn.gotoAltitude⟩, trivial, flyable_nil⟩
  | gotoCount =>
    cases hstep
    refine ⟨hconn, ?_, flyable_written trivial⟩
    split_ifs <;> trivial
  | gotoArm =>
    cases hstep
    exact ⟨hconn.congr (fun _ => id) rfl rfl, trivial, flyable_nil⟩
  | loadCheck s =>
    simp only [loopSection, Option.some.injEq, Prod.mk.injEq] at hstep
    obtain ⟨rfl, rfl, rfl⟩ := hstep
    refine ⟨?_, flyable_reload hpc, flyable_nil⟩
    rw [c.checkReload_fst]
    refine ⟨fun q hq => ?_, hconn.gotoPosition, hconn.gotoAltitude⟩
    unfold MavConnection.checkReload at hq
    split_ifs at hq
    · exact hpc q hq
    · exact hconn.search q hq
  | searchArm s =>
    cases hstep
    refine ⟨⟨fun q hq => ?_, hconn.gotoPosition, hconn.gotoAltitude⟩, hpc, flyable_nil⟩
    rw [← Option.some.inj hq]
    exact hpc
  | searchCount s =>
    cases hstep
    exact ⟨hconn, trivial, flyable_written trivial⟩

/-- A section of the recv thread keeps within the envelope, and so does what it writes. -/
theorem recvSection_flyable {pc qc : RecvPc} (hconn : c.Flyable limits) (hpc : pc.Flyable limits)
    (hstep : recvSection c pc = some (d, qc, written)) :
    d.Flyable limits ∧ qc.Flyable limits ∧ ∀ entry ∈ written, entry.packet.Flyable limits := by
  cases pc with
  | idle => cases hstep
  | selecting seq rest =>
    cases hstep
    exact ⟨hconn, trivial, flyable_written trivial⟩
  | autoResolve rest =>
    simp only [recvSection] at hstep
    split at hstep
    · cases hstep
      exact ⟨hconn, trivial, flyable_nil⟩
    · cases hstep
      exact ⟨hconn, trivial, flyable_nil⟩
  | autoSend r rest =>
    cases hstep
    exact ⟨hconn, trivial, flyable_written trivial⟩
  | autoSettle rest =>
    cases hstep
    exact ⟨hconn.settleMode false, flyable_selectNext rest, flyable_nil⟩
  | autoDefer rest =>
    cases hstep
    exact ⟨hconn.deferMode .autoMode false, flyable_selectNext rest, flyable_nil⟩
  | replayCopy t =>
    simp only [recvSection] at hstep
    split at hstep
    · cases hstep
      exact ⟨hconn, trivial, flyable_nil⟩
    · split at hstep
      · cases hstep
        exact ⟨hconn, trivial, flyable_nil⟩
      · cases hstep
        exact ⟨hconn, trivial, flyable_nil⟩
  | replaySend command r =>
    cases hstep
    exact ⟨hconn, trivial, flyable_written trivial⟩
  | replayClear command =>
    cases hstep
    exact ⟨hconn.congr (fun _ => id) rfl rfl, trivial, flyable_nil⟩
  | waypointSend item =>
    cases hstep
    exact ⟨hconn, trivial, flyable_written hpc⟩

end Sections

namespace MavSystem

variable {s t : MavSystem}

/-- The event loop keeps within the envelope. -/
theorem Flyable.stepLoop (h : s.Flyable limits) (hstep : s.stepLoop = some t) :
    t.Flyable limits := by
  obtain ⟨⟨conn, loop, written⟩, hsection, rfl⟩ := Option.map_eq_some_iff.mp hstep
  obtain ⟨hconn, hloop, hwritten⟩ := loopSection_flyable h.conn h.loop hsection
  exact ⟨hconn, hloop, h.recv, List.forall_mem_append.mpr ⟨h.wire, hwritten⟩⟩

/-- The recv thread keeps within the envelope. -/
theorem Flyable.stepRecv (h : s.Flyable limits) (hstep : s.stepRecv = some t) :
    t.Flyable limits := by
  obtain ⟨⟨conn, recv, written⟩, hsection, rfl⟩ := Option.map_eq_some_iff.mp hstep
  obtain ⟨hconn, hrecv, hwritten⟩ := recvSection_flyable h.conn h.recv hsection
  exact ⟨hconn, h.loop, hrecv, List.forall_mem_append.mpr ⟨h.wire, hwritten⟩⟩

/-- A message is received within the envelope. -/
theorem Flyable.receive (h : s.Flyable limits) {message : MavLabel}
    (hstep : s.receive message = some t) : t.Flyable limits := by
  cases message with
  | heartbeat type =>
    cases hstep
    exact ⟨h.conn.congr (fun _ => id) rfl rfl, h.loop, trivial, h.wire⟩
  | missionAck accepted =>
    cases hstep
    exact ⟨h.conn.ackDecision accepted, h.loop, flyable_selectNext _, h.wire⟩
  | missionRequest seq missionType =>
    obtain ⟨reply, hreply, rfl⟩ := Option.map_eq_some_iff.mp hstep
    refine ⟨h.conn, h.loop, ?_, h.wire⟩
    cases reply with
    | none => trivial
    | some item => exact h.conn.waypointReply hreply
  | autopilotRestart =>
    cases hstep
    exact ⟨h.conn.invalidateInFlightUpload, h.loop, h.recv, h.wire⟩
  | loop | recv | call _ | commsLost | setLink _ | progress _ _ => cases hstep

/-- Every step keeps within the envelope, as a command within it does. -/
theorem Flyable.step (h : s.Flyable limits) {label : MavLabel}
    (hcall : ∀ command, label = .call command → command.Flyable limits)
    (hstep : s.step label = some t) : t.Flyable limits := by
  cases label with
  | loop => exact h.stepLoop hstep
  | recv => exact h.stepRecv hstep
  | call command =>
    simp only [MavSystem.step] at hstep
    split at hstep
    · cases hstep
      exact ⟨h.conn, (hcall command rfl).entry, h.recv, h.wire⟩
    · cases hstep
  | commsLost | setLink _ | progress _ _ =>
    cases hstep
    exact ⟨h.conn.congr (fun _ => id) rfl rfl, h.loop, h.recv, h.wire⟩
  | heartbeat _ | missionAck _ | missionRequest _ _ | autopilotRestart =>
    simp only [MavSystem.step] at hstep
    split at hstep
    · exact h.receive hstep
    · cases hstep

end MavSystem

end Envelope

end CapFmu
