import CapFmu.Mav.Threads

/-!
# Whole calls

The commands and the processing of an acknowledgement as single functions: the fields after
the call and what it wrote. Each is the run of its thread's sections with nothing in
between, which the last results of this file establish.
-/

namespace CapFmu

namespace MavConnection

/-- Set a mode, or defer it while the vehicle type is not known. -/
def setResolvedMode (c : MavConnection) (command : MavModeCommand) (clearSearchLoaded : Bool)
    (writer : Writer) : MavConnection × List WireEntry :=
  match resolveMode c.autopilotType command with
  | none => (c.deferMode command clearSearchLoaded, [])
  | some r => (c.settleMode clearSearchLoaded, c.written (.setMode r.fmode) writer)

/-- The return to launch of an upload. -/
def commandRtlForUpload (c : MavConnection) : MavConnection × List WireEntry :=
  c.setResolvedMode .rtl true .preamble

/-- Engage AUTO. -/
def commandAuto (c : MavConnection) : MavConnection × List WireEntry :=
  c.setResolvedMode .autoMode false .missionAck

/-- Upload the mission of a goto. -/
def commandGoto (c : MavConnection) (p : Point) : MavConnection × List WireEntry :=
  let prepared := c.commandRtlForUpload
  let active := prepared.1.activateGoto p
  (if active.fdOpen then active.armGoto else active,
    prepared.2 ++ active.written gotoCount .upload)

/-- Upload the mission of a search. -/
def uploadSearch (c : MavConnection) (s : SmmSearch) : MavConnection × List WireEntry :=
  let prepared := c.commandRtlForUpload
  let armed := prepared.1.armSearch s
  (armed, prepared.2 ++ armed.written (searchCount s) .upload)

/-- Upload a search unless it is loaded already. -/
def loadSearch (c : MavConnection) (s : Option SmmSearch) : MavConnection × List WireEntry :=
  match c.checkReload s with
  | (checked, none) => (checked, [])
  | (checked, some reload) => checked.uploadSearch reload

/-- Select the items of a decided acknowledgement, engaging AUTO after each. -/
def selectAndEngage (c : MavConnection) : List ℕ → MavConnection × List WireEntry
  | [] => (c, [])
  | seq :: rest =>
    let engaged := c.commandAuto
    let done := engaged.1.selectAndEngage rest
    (done.1, c.written (.missionSetCurrent seq) .missionAck ++ engaged.2 ++ done.2)

/-- Process an acknowledgement. -/
def missionAck (c : MavConnection) (accepted : Bool) : MavConnection × List WireEntry :=
  (c.ackDecision accepted).1.selectAndEngage (c.ackDecision accepted).2

end MavConnection

namespace MavSystem

open Transition

/-- The loop alone carries out a mode command and stands at what follows it. -/
theorem repeats_setResolvedMode {s : MavSystem} {m : TakeoverMode} {after : AfterMode}
    (hloop : s.loop = .resolve m after) :
    Repeats step .loop s { s with
      conn := (s.conn.setResolvedMode m.command true after.writer).1
      loop := after.next
      wire := s.wire ++ (s.conn.setResolvedMode m.command true after.writer).2 } := by
  cases hr : resolveMode s.conn.autopilotType m.command with
  | none =>
    exact ⟨2, by simp [run, step, stepLoop, hloop, loopSection, hr, MavConnection.setResolvedMode]⟩
  | some r =>
    exact ⟨3, by simp [run, step, stepLoop, hloop, loopSection, hr, MavConnection.setResolvedMode]⟩

/-- The loop alone advertises a goto after its preamble, and arms it if the count was sent. -/
theorem repeats_gotoActivate {s : MavSystem} {p : Point} (hloop : s.loop = .gotoActivate p) :
    Repeats step .loop s { s with
      conn := if s.conn.fdOpen then (s.conn.activateGoto p).armGoto else s.conn.activateGoto p
      loop := .idle
      wire := s.wire ++ (s.conn.activateGoto p).written MavConnection.gotoCount .upload } := by
  cases hopen : s.conn.fdOpen with
  | true =>
    exact ⟨3, by simp [run, step, stepLoop, loopSection, hloop, MavConnection.activateGoto, hopen]⟩
  | false =>
    exact ⟨2, by simp [run, step, stepLoop, loopSection, hloop, MavConnection.activateGoto, hopen]⟩

/-- The loop alone advertises a search after its preamble. -/
theorem repeats_searchArm {s : MavSystem} {q : SmmSearch} (hloop : s.loop = .searchArm q) :
    Repeats step .loop s { s with
      conn := s.conn.armSearch q
      loop := .idle
      wire := s.wire ++ (s.conn.armSearch q).written (MavConnection.searchCount q) .upload } :=
  ⟨2, by simp [run, step, stepLoop, loopSection, hloop]⟩

/-- The loop alone carries out a goto. -/
theorem repeats_commandGoto {s : MavSystem} {p : Point} (hloop : s.loop = CapFmu.commandGoto p) :
    Repeats step .loop s { s with
      conn := (s.conn.commandGoto p).1
      loop := .idle
      wire := s.wire ++ (s.conn.commandGoto p).2 } := by
  have hpreamble := repeats_setResolvedMode hloop
  have hupload := repeats_trans hpreamble (repeats_gotoActivate rfl)
  rwa [List.append_assoc] at hupload

/-- The loop alone uploads a search. -/
theorem repeats_uploadSearch {s : MavSystem} {q : SmmSearch}
    (hloop : s.loop = CapFmu.uploadSearch q) :
    Repeats step .loop s { s with
      conn := (s.conn.uploadSearch q).1
      loop := .idle
      wire := s.wire ++ (s.conn.uploadSearch q).2 } := by
  have hpreamble := repeats_setResolvedMode hloop
  have hupload := repeats_trans hpreamble (repeats_searchArm rfl)
  rwa [List.append_assoc] at hupload

/-- The loop alone loads a search. -/
theorem repeats_loadSearch {s : MavSystem} {q : Option SmmSearch}
    (hloop : s.loop = CapFmu.loadSearch q) :
    Repeats step .loop s { s with
      conn := (s.conn.loadSearch q).1
      loop := .idle
      wire := s.wire ++ (s.conn.loadSearch q).2 } := by
  unfold MavConnection.loadSearch
  cases hcheck : s.conn.checkReload q with
  | mk checked reload =>
    cases reload with
    | none =>
      exact ⟨1, by simp [run, step, stepLoop, loopSection, hloop, CapFmu.loadSearch, hcheck]⟩
    | some reload =>
      have hstep : s.step .loop = some { s with
          conn := checked
          loop := CapFmu.uploadSearch reload } := by
        simp [step, stepLoop, loopSection, hloop, CapFmu.loadSearch, hcheck]
      exact repeats_head hstep (repeats_uploadSearch rfl)

/-- The recv thread alone selects one item and engages AUTO. -/
theorem repeats_selecting {s : MavSystem} {seq : ℕ} {rest : List ℕ}
    (hrecv : s.recv = .selecting seq rest) :
    Repeats step .recv s { s with
      conn := s.conn.commandAuto.1
      recv := selectNext rest
      wire := s.wire ++
        (s.conn.written (.missionSetCurrent seq) .missionAck ++ s.conn.commandAuto.2) } := by
  cases hr : resolveMode s.conn.autopilotType .autoMode with
  | none =>
    exact ⟨3, by simp [run, step, stepRecv, recvSection, hrecv, hr, MavConnection.commandAuto,
      MavConnection.setResolvedMode]⟩
  | some r =>
    exact ⟨4, by simp [run, step, stepRecv, recvSection, hrecv, hr, MavConnection.commandAuto,
      MavConnection.setResolvedMode]⟩

/-- The recv thread alone selects the items of an acknowledgement. -/
theorem repeats_selectNext (seqs : List ℕ) (s : MavSystem) (hrecv : s.recv = selectNext seqs) :
    Repeats step .recv s { s with
      conn := (s.conn.selectAndEngage seqs).1
      recv := .idle
      wire := s.wire ++ (s.conn.selectAndEngage seqs).2 } := by
  induction seqs generalizing s with
  | nil =>
    have hs : { s with recv := .idle, wire := s.wire ++ [] } = s := by
      rw [List.append_nil, ← (show s.recv = .idle from hrecv)]
    simp only [MavConnection.selectAndEngage, hs]
    exact repeats_refl MavLabel.recv s
  | cons seq rest ih =>
    have hone := repeats_selecting (s := s) hrecv
    have hall := repeats_trans hone (ih _ rfl)
    rwa [List.append_assoc] at hall

/-- The recv thread alone processes an acknowledgement. -/
theorem repeats_missionAck {s t : MavSystem} {accepted : Bool}
    (hstep : s.step (.missionAck accepted) = some t) :
    Repeats step .recv t { s with
      conn := (s.conn.missionAck accepted).1
      recv := .idle
      wire := s.wire ++ (s.conn.missionAck accepted).2 } := by
  obtain ⟨-, rfl⟩ := step_missionAck_eq_some.mp hstep
  exact repeats_selectNext _ _ rfl

/-- Every section brings the event loop closer to rest. -/
theorem stepLoop_remaining (s : MavSystem) (hbusy : s.loop.remaining ≠ 0) :
    ∃ t, s.step .loop = some t ∧ t.loop.remaining < s.loop.remaining := by
  unfold step stepLoop
  cases hloop : s.loop with
  | idle => simp [hloop, LoopPc.remaining] at hbusy
  | resolve m after =>
    cases hr : resolveMode s.conn.autopilotType m.command <;>
      simp [loopSection, hr, LoopPc.remaining]
  | modeSettle after | modeDefer _ after =>
    cases after <;> simp [loopSection, AfterMode.next, AfterMode.remaining, LoopPc.remaining]
  | gotoCount => cases hopen : s.conn.fdOpen <;> simp [loopSection, hopen, LoopPc.remaining]
  | loadCheck q =>
    cases hreload : (s.conn.checkReload q).2 <;>
      simp [loopSection, hreload, LoopPc.remaining, AfterMode.remaining, CapFmu.uploadSearch]
  | modeSend _ _ _ | directSend _ | directSettle | gotoActivate _ | gotoArm | searchArm _
  | searchCount _ => simp [loopSection, LoopPc.remaining]

/-- Left to run, the event loop comes to rest. -/
theorem loop_comes_to_rest (s : MavSystem) : ∃ t, Repeats step .loop s t ∧ t.loop = .idle := by
  obtain ⟨t, hrepeats, ht⟩ := repeats_of_measure (fun s => s.loop.remaining) stepLoop_remaining s
  refine ⟨t, hrepeats, ?_⟩
  cases hloop : t.loop <;> simp_all [LoopPc.remaining]

/-- Every section brings the recv thread closer to rest. -/
theorem stepRecv_remaining (s : MavSystem) (hbusy : s.recv.remaining ≠ 0) :
    ∃ t, s.step .recv = some t ∧ t.recv.remaining < s.recv.remaining := by
  unfold step stepRecv
  cases hrecv : s.recv with
  | idle => simp [hrecv, RecvPc.remaining] at hbusy
  | autoResolve rest =>
    cases hr : resolveMode s.conn.autopilotType .autoMode <;>
      simp [recvSection, hr, RecvPc.remaining]
  | autoSettle rest | autoDefer rest =>
    cases rest <;> simp [recvSection, selectNext, RecvPc.remaining, Nat.mul_add]
  | replayCopy vehicle =>
    cases hpending : s.conn.pendingModeCommand with
    | none => simp [recvSection, hpending, RecvPc.remaining]
    | some command =>
      cases hr : resolveMode vehicle command <;>
        simp [recvSection, hpending, hr, RecvPc.remaining]
  | selecting _ _ | autoSend _ _ | replaySend _ _ | replayClear _ | waypointSend _ =>
    simp [recvSection, RecvPc.remaining]

/-- Left to run, the recv thread comes to rest. -/
theorem recv_comes_to_rest (s : MavSystem) : ∃ t, Repeats step .recv s t ∧ t.recv = .idle := by
  obtain ⟨t, hrepeats, ht⟩ := repeats_of_measure (fun s => s.recv.remaining) stepRecv_remaining s
  refine ⟨t, hrepeats, ?_⟩
  cases hrecv : t.recv <;> simp_all [RecvPc.remaining]

end MavSystem

end CapFmu
