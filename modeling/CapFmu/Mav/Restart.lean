import CapFmu.Mav.Threads
import CapFmu.Signal.CounterReset

/-!
# Restarts of the autopilot

The recv thread compares the autopilot's uptime, which two message streams carry, with the last
one it saw. When it is more than the margin lower the autopilot has restarted: the latches of
every known system are re-armed, the upload state is cleared and the restart is reported, one
section after the other, before the uptime is recorded and the next message is processed. The
event loop runs its own sections in between.
-/

namespace CapFmu

open Signal

/-- How far below the last uptime one still counts as skew between the streams. -/
def autopilotRestartMarginMs : UInt32 := 3000

/-- Whether an uptime shows a restart; zero is an uptime that was not populated. -/
def autopilotRestarted (lastTimeBootMs nowTimeBootMs marginMs : UInt32) : Bool :=
  if lastTimeBootMs = 0 ∨ nowTimeBootMs = 0 ∨ lastTimeBootMs ≤ nowTimeBootMs then false
  else decide (marginMs < lastTimeBootMs - nowTimeBootMs)

/-- The system that is the autopilot. -/
def targetSysId : UInt8 := 1

/-- The vehicle type of the byte in a heartbeat. -/
def MavType.ofByte (type : UInt8) : MavType :=
  if type = 1 then .fixedWing
  else if type = 2 then .quadrotor
  else if type = 3 then .coaxial
  else if type = 4 then .helicopter
  else if type = 10 then .groundRover
  else if type = 13 then .hexarotor
  else if type = 14 then .octorotor
  else if type = 15 then .tricopter
  else .other

/-- A known system with its one-shot latches. -/
structure MavSys where
  sysId : UInt8
  setup : Bool := false
  failsafeChecked : Bool := false
  failsafeCheckedType : UInt8 := 0
  deriving DecidableEq

namespace MavSys

/-- Re-arm both latches. -/
def resetSetup (sys : MavSys) : MavSys := { sys with setup := false, failsafeChecked := false }

/-- The streams were requested. -/
def setupComplete (sys : MavSys) : MavSys := { sys with setup := true }

/-- Whether the failsafe configuration was checked for this type. -/
def checkedFailsafeFor (sys : MavSys) (type : UInt8) : Bool :=
  sys.failsafeChecked && sys.failsafeCheckedType = type

/-- The failsafe configuration was checked for this type. -/
def markFailsafeCheckedFor (sys : MavSys) (type : UInt8) : MavSys :=
  { sys with failsafeCheckedType := type, failsafeChecked := true }

/-- The next message re-issues what both latches hold back. -/
def Rearmed (sys : MavSys) : Prop := sys.setup = false ∧ sys.failsafeChecked = false

/-- Re-arming re-arms. -/
theorem rearmed_resetSetup (sys : MavSys) : sys.resetSetup.Rearmed := ⟨rfl, rfl⟩

end MavSys

/-- The known systems with the one a message came from, which is created if absent. -/
def findSystem (systems : List MavSys) (sysId : UInt8) : List MavSys :=
  if systems.any fun sys => sys.sysId = sysId then systems else systems ++ [{ sysId := sysId }]

/-- Change one known system. -/
def updateSystem (systems : List MavSys) (sysId : UInt8) (f : MavSys → MavSys) : List MavSys :=
  systems.map fun sys => if sys.sysId = sysId then f sys else sys

/-- The section of a detected restart that the recv thread executes next. -/
inductive RestartPc
  | idle
  | resetSetup (timeBootMs : UInt32)
  | invalidate (timeBootMs : UInt32)
  | report (timeBootMs : UInt32)
  | record (timeBootMs : UInt32)
  deriving DecidableEq

/-- The latches were re-armed for the restart being handled. -/
def RestartPc.rearmed : RestartPc → Bool
  | invalidate _ | report _ | record _ => true
  | idle | resetSetup _ => false

/-- The upload state was cleared for the restart being handled. -/
def RestartPc.cleared : RestartPc → Bool
  | report _ | record _ => true
  | idle | resetSetup _ | invalidate _ => false

/-- The messages that carry the autopilot's uptime. -/
inductive UptimeStream
  | globalPositionInt
  | systemTime
  deriving DecidableEq, Repr

/-- The connection, the known systems and the last uptime. The samples noted and the restarts
reported are recorded, and whether the event loop has executed a section since the upload state
was last cleared by a restart. -/
structure MavReceiver where
  mav : MavSystem
  systems : List MavSys := []
  lastTimeBootMs : UInt32 := 0
  pc : RestartPc := .idle
  samples : List UInt32 := []
  restarts : List UInt32 := []
  loopMoved : Bool := false

/-- What can happen: a heartbeat or an uptime of the autopilot, a message of any system, a
section of a detected restart, the teardown of the link, and what happens on the connection. -/
inductive ReceiverLabel
  | heartbeat (type : UInt8)
  | uptime (stream : UptimeStream) (timeBootMs : UInt32)
  | message (sysId : UInt8)
  | restart
  | linkTornDown
  | mav (e : MavLabel)

/-- The uptime a label carries. -/
def ReceiverLabel.timeBootMs? : ReceiverLabel → Option UInt32
  | uptime _ timeBootMs => some timeBootMs
  | heartbeat _ | message _ | restart | linkTornDown | mav _ => none

/-- No goto or search upload is pending or loaded. -/
structure MavConnection.NoUpload (c : MavConnection) : Prop where
  notActive : c.gotoActive = false
  notPending : c.gotoAckPending = false
  notLoading : c.searchLoading = false
  notLoaded : c.searchLoaded = false

/-- Clearing the upload state leaves none. -/
theorem MavConnection.noUpload_invalidateInFlightUpload (c : MavConnection) :
    c.invalidateInFlightUpload.NoUpload := ⟨rfl, rfl, rfl, rfl⟩

/-- An uptime shows a restart when it is populated and more than the margin below the last. -/
theorem autopilotRestarted_iff {last now : UInt32} (hnow : now ≠ 0) :
    autopilotRestarted last now autopilotRestartMarginMs = true ↔
      now.toNat + 3000 < last.toNat := by
  unfold autopilotRestarted
  split
  · next hnot =>
    have hle : last ≤ now := by
      obtain rfl | hzero | hle := hnot
      · exact UInt32.zero_le
      · exact absurd hzero hnow
      · exact hle
    have := UInt32.le_iff_toNat_le.mp hle
    simp only [Bool.false_eq_true, false_iff]
    omega
  · next hlt =>
    simp only [not_or, UInt32.not_le] at hlt
    have hsub := UInt32.toNat_sub_of_le _ _ (UInt32.le_of_lt hlt.2.2)
    have := UInt32.lt_iff_toNat_lt.mp hlt.2.2
    rw [decide_eq_true_iff, UInt32.lt_iff_toNat_lt, hsub]
    change 3000 < _ ↔ _
    omega

namespace MavReceiver

/-- A message's system is found, and its streams are requested if they were not yet. -/
def setUp (s : MavReceiver) (sysId : UInt8) : MavReceiver :=
  { s with systems := updateSystem (findSystem s.systems sysId) sysId MavSys.setupComplete }

/-- The failsafe configuration is checked once for a heartbeat's type. -/
def checkFailsafe (s : MavReceiver) (type : UInt8) : MavReceiver :=
  { s with systems := updateSystem s.systems targetSysId fun sys =>
      if sys.checkedFailsafeFor type then sys else sys.markFailsafeCheckedFor type }

/-- Re-arm the latches of every known system. -/
def resetAllSetup (s : MavReceiver) : MavReceiver :=
  { s with systems := s.systems.map MavSys.resetSetup }

/-- Compare an uptime with the last one and record it, unless a restart has to be handled first. -/
def noteTimeBootMs (s : MavReceiver) (timeBootMs : UInt32) : MavReceiver :=
  if timeBootMs = 0 then s
  else if autopilotRestarted s.lastTimeBootMs timeBootMs autopilotRestartMarginMs then
    { s with pc := .resetSetup timeBootMs }
  else { s with lastTimeBootMs := timeBootMs }

/-- One section of the handling of a restart. -/
def handleAutopilotRestart (s : MavReceiver) : Option MavReceiver :=
  match s.pc with
  | .idle => none
  | .resetSetup v => some { s.resetAllSetup with pc := .invalidate v }
  | .invalidate v => some { s with
      mav := { s.mav with conn := s.mav.conn.invalidateInFlightUpload }
      pc := .report v
      loopMoved := false }
  | .report v => some { s with restarts := s.restarts ++ [v], pc := .record v }
  | .record v => some { s with lastTimeBootMs := v, pc := .idle }

/-- The recv thread is done with the message before. -/
def awaitsMessage (s : MavReceiver) : Bool :=
  match s.pc, s.mav.recv with
  | .idle, .idle => true
  | _, _ => false

/-- A message of the mission protocol comes from the autopilot; heartbeats and restarts have
labels of their own. -/
def stepMav (s : MavReceiver) (e : MavLabel) : Option MavReceiver :=
  match e with
  | .heartbeat _ | .autopilotRestart => none
  | .missionAck _ | .missionRequest _ _ =>
    if s.awaitsMessage then (s.mav.step e).map fun mav => { s.setUp targetSysId with mav := mav }
    else none
  | .loop => (s.mav.step e).map fun mav => { s with mav := mav, loopMoved := true }
  | .recv | .call _ | .commsLost | .setLink _ | .progress _ _ =>
    (s.mav.step e).map fun mav => { s with mav := mav }

/-- One step. -/
def step (s : MavReceiver) : ReceiverLabel → Option MavReceiver
  | .heartbeat type =>
    if s.awaitsMessage then
      (s.mav.step (.heartbeat (.ofByte type))).map fun mav =>
        { (s.setUp targetSysId).checkFailsafe type with mav := mav }
    else none
  | .uptime _ timeBootMs =>
    if s.awaitsMessage then
      some { (s.setUp targetSysId).noteTimeBootMs timeBootMs with
        samples := s.samples ++ [timeBootMs] }
    else none
  | .message sysId => if s.awaitsMessage then some (s.setUp sysId) else none
  | .restart => s.handleAutopilotRestart
  | .linkTornDown => some s.resetAllSetup
  | .mav e => s.stepMav e

/-- The uptime of a restart that is still to be reported. -/
def unreported (s : MavReceiver) : List UInt32 :=
  match s.pc with
  | .resetSetup v | .invalidate v | .report v => [v]
  | .idle | .record _ => []

/-- The last uptime noted, whether it is recorded yet or not. -/
def baseline (s : MavReceiver) : UInt32 :=
  match s.pc with
  | .idle => s.lastTimeBootMs
  | .resetSetup v | .invalidate v | .report v | .record v => v

/-- The sections a detected restart has left. -/
def remaining (s : MavReceiver) : ℕ :=
  match s.pc with
  | .idle => 0
  | .resetSetup _ => 4
  | .invalidate _ => 3
  | .report _ => 2
  | .record _ => 1

/-- The latches of every known system are re-armed. -/
def Rearmed (s : MavReceiver) : Prop := ∀ sys ∈ s.systems, sys.Rearmed

/-- A restart was reported, and the next message is not processed yet. -/
def JustReported (s : MavReceiver) : Prop := ∃ timeBootMs, s.pc = .record timeBootMs

/-- The books of a run: what is reported and about to be are the resets of the samples, and a
restart is reported after the latches were re-armed and the upload state cleared. -/
structure Noted (s : MavReceiver) : Prop where
  waits : s.pc ≠ .idle → s.mav.recv = .idle
  reports : s.restarts ++ s.unreported = resets UInt32.toNat 3000 0 s.samples
  last : s.baseline.toNat = lastValue UInt32.toNat 0 s.samples
  rearmed : s.pc.rearmed = true → s.Rearmed
  cleared : s.pc.cleared = true → s.loopMoved = false → s.mav.conn.NoUpload

variable {s t : MavReceiver}

/-- The recv thread waits for a message when it neither processes one nor handles a restart. -/
theorem awaitsMessage_iff : s.awaitsMessage = true ↔ s.pc = .idle ∧ s.mav.recv = .idle := by
  unfold awaitsMessage
  split <;> simp_all

/-- While no restart is handled the books depend on the samples, the reports and the last uptime
alone. -/
theorem noted_of_idle (hpc : s.pc = .idle)
    (hreports : s.restarts = resets UInt32.toNat 3000 0 s.samples)
    (hlast : s.lastTimeBootMs.toNat = lastValue UInt32.toNat 0 s.samples) : s.Noted where
  waits := fun hne => absurd hpc hne
  reports := by simpa [unreported, hpc] using hreports
  last := by simpa [baseline, hpc] using hlast
  rearmed := by simp [hpc, RestartPc.rearmed]
  cleared := by simp [hpc, RestartPc.cleared]

/-- While no restart is handled, what changes neither of these keeps the books. -/
theorem Noted.of_idle (h : s.Noted) (hs : s.pc = .idle) (ht : t.pc = .idle)
    (hrestarts : t.restarts = s.restarts) (hsamples : t.samples = s.samples)
    (hlast : t.lastTimeBootMs = s.lastTimeBootMs) : t.Noted := by
  have hreports := h.reports
  have hbaseline := h.last
  simp only [unreported, hs, List.append_nil] at hreports
  simp only [baseline, hs] at hbaseline
  apply noted_of_idle ht
  · rw [hrestarts, hsamples, hreports]
  · rw [hlast, hsamples, hbaseline]

/-- What changes the connection alone keeps the books, if it leaves the recv thread where it is
and no upload behind, unless the event loop has moved. -/
theorem Noted.withMav (h : s.Noted) {mav : MavSystem} {moved : Bool}
    (hrecv : mav.recv = s.mav.recv) (hmoved : moved = false → s.loopMoved = false)
    (hconn : moved = false → s.mav.conn.NoUpload → mav.conn.NoUpload) :
    Noted { s with mav := mav, loopMoved := moved } where
  waits := fun hpc => hrecv.trans (h.waits hpc)
  reports := h.reports
  last := h.last
  rearmed := h.rearmed
  cleared := fun hpc hloop => hconn hloop (h.cleared hpc (hmoved hloop))

/-- A section of the handling of a restart keeps the books. -/
theorem noted_handleAutopilotRestart (h : s.Noted) (hstep : s.handleAutopilotRestart = some t) :
    t.Noted := by
  unfold handleAutopilotRestart at hstep
  obtain ⟨hwaits, hreports, hlast, hrearmed, hcleared⟩ := h
  cases hpc : s.pc with
  | idle => simp [hpc] at hstep
  | resetSetup v =>
    simp only [hpc, Option.some.injEq] at hstep
    subst hstep
    exact { waits := fun _ => hwaits (by simp [hpc])
            reports := by simpa [unreported, hpc, resetAllSetup] using hreports
            last := by simpa [baseline, hpc, resetAllSetup] using hlast
            rearmed := fun _ => by
              intro sys hsys
              obtain ⟨before, -, rfl⟩ := List.mem_map.mp hsys
              exact before.rearmed_resetSetup
            cleared := fun hpc => absurd hpc Bool.false_ne_true }
  | invalidate v =>
    simp only [hpc, Option.some.injEq] at hstep
    subst hstep
    exact { waits := fun _ => hwaits (by simp [hpc])
            reports := by simpa [unreported, hpc] using hreports
            last := by simpa [baseline, hpc] using hlast
            rearmed := fun _ => hrearmed (by simp [hpc, RestartPc.rearmed])
            cleared := fun _ _ => MavConnection.noUpload_invalidateInFlightUpload _ }
  | report v =>
    simp only [hpc, Option.some.injEq] at hstep
    subst hstep
    exact { waits := fun _ => hwaits (by simp [hpc])
            reports := by simpa [unreported, hpc] using hreports
            last := by simpa [baseline, hpc] using hlast
            rearmed := fun _ => hrearmed (by simp [hpc, RestartPc.rearmed])
            cleared := fun _ => hcleared (by simp [hpc, RestartPc.cleared]) }
  | record v =>
    simp only [hpc, Option.some.injEq] at hstep
    subst hstep
    apply noted_of_idle rfl
    · simpa [unreported, hpc] using hreports
    · simpa [baseline, hpc] using hlast

/-- Noting an uptime keeps the books. -/
theorem noted_noteTimeBootMs (h : s.Noted) (hpc : s.pc = .idle) (hrecv : s.mav.recv = .idle)
    (v : UInt32) : Noted { s.noteTimeBootMs v with samples := s.samples ++ [v] } := by
  have hreports := h.reports
  have hlast := h.last
  simp only [unreported, hpc, List.append_nil] at hreports
  simp only [baseline, hpc] at hlast
  unfold noteTimeBootMs
  split
  · next hzero =>
    subst hzero
    exact noted_of_idle hpc (by simp [resets_append, resets, hreports])
      (by simp [lastValue_append, lastValue, hlast])
  · next hnonzero =>
    have hvalue : v.toNat ≠ 0 := fun hv => hnonzero (UInt32.toNat_inj.mp hv)
    split
    · next hrestarted =>
      have hbelow := (autopilotRestarted_iff hnonzero).mp hrestarted
      rw [hlast] at hbelow
      exact { waits := fun _ => hrecv
              reports := by simp [unreported, resets_append, resets, hreports, hvalue, hbelow]
              last := by simp [baseline, lastValue_append, lastValue, hvalue]
              rearmed := fun hpc => absurd hpc Bool.false_ne_true
              cleared := fun hpc => absurd hpc Bool.false_ne_true }
    · next hrestarted =>
      have hbelow : ¬ v.toNat + 3000 < lastValue UInt32.toNat 0 s.samples := by
        rw [← hlast]
        exact fun hlt => hrestarted ((autopilotRestarted_iff hnonzero).mpr hlt)
      exact noted_of_idle hpc (by simp [resets_append, resets, hreports, hvalue, hbelow])
        (by simp [lastValue_append, lastValue, hvalue])

/-- A message of the mission protocol, a section of either thread or a change of the link keeps
the books. -/
theorem noted_stepMav (h : s.Noted) {e : MavLabel} (hstep : s.stepMav e = some t) : t.Noted := by
  have hidle : s.mav.recv ≠ .idle → s.pc = .idle := fun hrecv =>
    Decidable.by_contra fun hpc => hrecv (h.waits hpc)
  cases e with
  | heartbeat | autopilotRestart => cases hstep
  | missionAck | missionRequest =>
    simp only [stepMav] at hstep
    split at hstep
    · next hawaits =>
      obtain ⟨mav, -, rfl⟩ := Option.map_eq_some_iff.mp hstep
      have hpc := (awaitsMessage_iff.mp hawaits).1
      exact h.of_idle hpc hpc rfl rfl rfl
    · cases hstep
  | loop =>
    obtain ⟨mav, hmav, rfl⟩ := Option.map_eq_some_iff.mp hstep
    obtain ⟨-, -, rfl⟩ := Option.map_eq_some_iff.mp hmav
    exact h.withMav rfl (by simp) (by simp)
  | recv =>
    obtain ⟨mav, hmav, rfl⟩ := Option.map_eq_some_iff.mp hstep
    have hrecv : s.mav.recv ≠ .idle := by
      intro hrecv
      simp [MavSystem.step, MavSystem.stepRecv, recvSection, hrecv] at hmav
    exact h.of_idle (hidle hrecv) (hidle hrecv) rfl rfl rfl
  | call command =>
    obtain ⟨mav, hmav, rfl⟩ := Option.map_eq_some_iff.mp hstep
    cases hloop : s.mav.loop <;> simp only [MavSystem.step, hloop, reduceCtorEq] at hmav
    cases hmav
    exact h.withMav rfl id fun _ hnone => hnone
  | commsLost =>
    cases hstep
    exact h.withMav rfl id fun _ hnone => { hnone with notPending := rfl }
  | setLink | progress =>
    cases hstep
    exact h.withMav rfl id fun _ hnone => { hnone with }

/-- Every step keeps the books. -/
theorem noted_step {e : ReceiverLabel} (h : s.Noted) (hstep : s.step e = some t) : t.Noted := by
  cases e with
  | heartbeat type =>
    simp only [step] at hstep
    split at hstep
    · next hawaits =>
      obtain ⟨mav, -, rfl⟩ := Option.map_eq_some_iff.mp hstep
      have hpc := (awaitsMessage_iff.mp hawaits).1
      exact h.of_idle hpc hpc rfl rfl rfl
    · cases hstep
  | uptime stream v =>
    simp only [step] at hstep
    split at hstep
    · next hawaits =>
      cases hstep
      obtain ⟨hpc, hrecv⟩ := awaitsMessage_iff.mp hawaits
      have hsetUp : (s.setUp targetSysId).Noted := h.of_idle hpc hpc rfl rfl rfl
      exact noted_noteTimeBootMs hsetUp hpc hrecv v
    · cases hstep
  | message sysId =>
    simp only [step] at hstep
    split at hstep
    · next hawaits =>
      cases hstep
      have hpc := (awaitsMessage_iff.mp hawaits).1
      exact h.of_idle hpc hpc rfl rfl rfl
    · cases hstep
  | restart => exact noted_handleAutopilotRestart h hstep
  | linkTornDown =>
    cases hstep
    exact { waits := h.waits
            reports := h.reports
            last := h.last
            rearmed := fun _ sys hsys => by
              obtain ⟨before, -, rfl⟩ := List.mem_map.mp hsys
              exact before.rearmed_resetSetup
            cleared := h.cleared }
  | mav e => exact noted_stepMav h hstep

/-- A section of the connection notes no sample. -/
theorem samples_stepMav {e : MavLabel} (hstep : s.stepMav e = some t) :
    t.samples = s.samples := by
  cases e with
  | heartbeat | autopilotRestart => cases hstep
  | missionAck | missionRequest =>
    simp only [stepMav] at hstep
    split at hstep
    · obtain ⟨mav, -, rfl⟩ := Option.map_eq_some_iff.mp hstep
      rfl
    · cases hstep
  | loop | recv | call =>
    obtain ⟨mav, -, rfl⟩ := Option.map_eq_some_iff.mp hstep
    rfl
  | commsLost | setLink | progress =>
    cases hstep
    rfl

/-- A step notes the uptime it carries. -/
theorem samples_step {e : ReceiverLabel} (hstep : s.step e = some t) :
    t.samples = s.samples ++ e.timeBootMs?.toList := by
  cases e with
  | heartbeat type =>
    simp only [step] at hstep
    split at hstep
    · obtain ⟨mav, -, rfl⟩ := Option.map_eq_some_iff.mp hstep
      exact (List.append_nil _).symm
    · cases hstep
  | uptime stream v =>
    simp only [step] at hstep
    split at hstep <;> cases hstep
    rfl
  | message sysId =>
    simp only [step] at hstep
    split at hstep <;> cases hstep
    exact (List.append_nil _).symm
  | restart =>
    simp only [step, handleAutopilotRestart] at hstep
    split at hstep <;> cases hstep <;> exact (List.append_nil _).symm
  | linkTornDown =>
    cases hstep
    exact (List.append_nil _).symm
  | mav e => exact (samples_stepMav hstep).trans (List.append_nil _).symm

/-- The samples noted in a run are the uptimes of its labels. -/
theorem samples_of_run {es : List ReceiverLabel} (hrun : Transition.run step s es = some t) :
    t.samples = s.samples ++ es.filterMap ReceiverLabel.timeBootMs? := by
  induction es generalizing s with
  | nil =>
    obtain rfl := Transition.run_nil_eq_some.mp hrun
    exact (List.append_nil _).symm
  | cons e es ih =>
    obtain ⟨u, hstep, hrest⟩ := Transition.run_cons_eq_some.mp hrun
    rw [ih hrest, samples_step hstep, List.append_assoc]
    cases he : e.timeBootMs? <;> simp [he]

/-- The recv thread executes the next section of a detected restart. -/
theorem restart_remaining (s : MavReceiver) (hbusy : s.remaining ≠ 0) :
    ∃ t, s.step .restart = some t ∧ t.remaining < s.remaining := by
  unfold remaining at hbusy
  cases hpc : s.pc with
  | idle => simp [hpc] at hbusy
  | resetSetup | invalidate | report | record =>
    simp [step, handleAutopilotRestart, hpc, remaining]

/-- The handling of a restart comes to its end and notes no sample. -/
theorem restart_comes_to_rest (h : s.Noted) :
    ∃ t, Transition.Repeats step .restart s t ∧ t.Noted ∧ t.pc = .idle ∧ t.samples = s.samples := by
  obtain ⟨t, ⟨n, hrun⟩, hrest⟩ := Transition.repeats_of_measure remaining restart_remaining s
  have hnoted := Transition.invariant_of_run Noted (fun _ _ _ => noted_step) h hrun
  have hnone : (List.replicate n ReceiverLabel.restart).filterMap ReceiverLabel.timeBootMs? = [] :=
    List.filterMap_replicate_of_none rfl
  have hsamples := samples_of_run hrun
  rw [hnone, List.append_nil] at hsamples
  refine ⟨t, ⟨n, hrun⟩, hnoted, ?_, hsamples⟩
  cases hpc : t.pc <;> simp [remaining, hpc] at hrest
  rfl

/-- The samples of a run are those of the boots of the autopilot, each of them steady. -/
structure Boots (es : List ReceiverLabel) (boots : List (List UInt32)) : Prop where
  samples : es.filterMap ReceiverLabel.timeBootMs? = boots.flatten
  steady : ∀ boot ∈ boots, Steady UInt32.toNat 3000 boot

/-- However the steps interleave, a restart is reported exactly once for each boot whose first
uptime is more than the margin below the last one before it, and for nothing else: none in the
first boot. When it has been reported every latch is re-armed, and no upload is pending or loaded
unless the event loop has moved on since; and what is detected does get reported. -/
theorem restarts_reported {mav : MavSystem} {es : List ReceiverLabel} {boots : List (List UInt32)}
    (hboots : Boots es boots) (hrun : Transition.run step { mav := mav } es = some t) :
    t.restarts ++ t.unreported = resetsOf UInt32.toNat 3000 0 boots ∧
      (∀ boot, boots = [boot] → t.restarts = []) ∧
      (t.JustReported → t.Rearmed ∧ (t.loopMoved = false → t.mav.conn.NoUpload)) ∧
      ∃ u, Transition.Repeats step .restart t u ∧
        u.restarts = resetsOf UInt32.toNat 3000 0 boots := by
  have hstart : Noted { mav := mav } := noted_of_idle rfl rfl rfl
  have hnoted := Transition.invariant_of_run Noted (fun _ _ _ => noted_step) hstart hrun
  have hsamples : t.samples = boots.flatten := (samples_of_run hrun).trans hboots.samples
  have hresets : resets UInt32.toNat 3000 0 t.samples = resetsOf UInt32.toNat 3000 0 boots := by
    rw [hsamples]
    exact resets_flatten 0 hboots.steady
  have hreports := hnoted.reports.trans hresets
  refine ⟨hreports, ?_, ?_, ?_⟩
  · rintro boot rfl
    rw [resetsOf_first] at hreports
    exact (List.append_eq_nil_iff.mp hreports).1
  · rintro ⟨v, hpc⟩
    exact ⟨hnoted.rearmed (by rw [hpc]; rfl), hnoted.cleared (by rw [hpc]; rfl)⟩
  · obtain ⟨u, hrepeats, hu, hpc, husamples⟩ := restart_comes_to_rest hnoted
    have hureports := hu.reports
    simp only [unreported, hpc, List.append_nil] at hureports
    exact ⟨u, hrepeats, by rw [hureports, husamples, hresets]⟩

/-- Two boots with skewed and unpopulated samples, a lost upload and the sections of the restart. -/
def rebootMidUpload : List ReceiverLabel :=
  [ReceiverLabel.heartbeat 2, .mav .recv, .uptime .globalPositionInt 900200,
    .uptime .systemTime 900050, .mav (.call (.loadSearch (some { id := 1 })))] ++
  List.replicate 6 (ReceiverLabel.mav .loop) ++
  [ReceiverLabel.uptime .globalPositionInt 0, .uptime .systemTime 1200, .restart, .restart, .restart]

/-- The second boot is reported, with the latches re-armed and the upload cleared. -/
theorem rebootMidUpload_reported :
    ∃ t, Transition.run step { mav := { conn := .quadrotor } } rebootMidUpload = some t ∧
      t.restarts = [1200] ∧ t.Rearmed ∧ t.mav.conn.NoUpload := by
  obtain ⟨t, ht, hrestarts, hpc, hmoved⟩ : ∃ t,
      Transition.run step { mav := { conn := .quadrotor } } rebootMidUpload = some t ∧
      t.restarts = [1200] ∧ t.pc = .record 1200 ∧ t.loopMoved = false :=
    ⟨_, rfl, rfl, rfl, rfl⟩
  have hboots : Boots rebootMidUpload [[900200, 900050, 0], [1200]] :=
    { samples := rfl
      steady := by simp [Steady] }
  obtain ⟨hrearmed, hcleared⟩ := (restarts_reported hboots ht).2.2.1 ⟨1200, hpc⟩
  exact ⟨t, ht, hrestarts, hrearmed, hcleared hmoved⟩

end MavReceiver

end CapFmu
