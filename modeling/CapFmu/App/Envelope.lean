import CapFmu.App.HandOff
import CapFmu.Config.Fallback
import CapFmu.Fss.CommandClient
import CapFmu.Mav.Envelope
import CapFmu.StateMachine.Drive

/-!
# Nothing outside the envelope is commanded

A position and an altitude reach the autopilot from two sources. The ground station commands a
goto or an altitude, and the search server hands out searches; in between lie the client that
rejects invalid targets, the state machine that retains a target and goes back to it, the worker
that constructs and validates a search, the event queue and the two threads of the connection.
Whatever their order, what is sent is within the limits of the configuration, at a valid position.
-/

namespace CapFmu

open Numeric Transition

section Envelope

variable (limits : AltitudeLimits)

/-- A search as it is constructed: its altitude is within the limits, and if it is valid then so are
its points. -/
structure SmmCandidate.Built (candidate : SmmCandidate) : Prop where
  altitude : limits.Allows candidate.search.altitude
  points : candidate.valid = true → ∀ p ∈ candidate.search.points, p.isValid = true

/-- The search that an acquisition owns is as it was constructed. -/
def SmmPc.Flyable : SmmPc → Prop
  | grant _ _ candidate | commit _ _ candidate | rejected _ _ candidate => candidate.Built limits
  | idle | connect _ | reportPosition _ | checkOperatorCommand _ _ | sendReport _ _ | reachedPoint _
  | search _ | maybeAcquire _ | tryAcquire _ | fetch _ _ | fetched _ _ _ | construct _ _ _
  | rtl _ _ => True

/-- The search that is held is within the envelope. -/
structure Smm.Flyable (w : Smm) : Prop where
  pc : w.pc.Flyable limits
  held : ∀ held, w.currentSearch = some held → held.search.Flyable limits

/-- The target of an event, or its search, is within the envelope. -/
def AppEvent.Flyable : AppEvent → Prop
  | fssCommand _ target => target.position.isValid = true
  | smmLoadSearch s => s.Flyable limits
  | fssComms _ | mavComms _ | mavAutopilotRestart | smmSettings _ | position _ _ _
  | reachedPoint _ _ | smmRtl | smmOperatorCommand _ | battery _ => True

/-- The position of a call, or its search, is within the envelope. -/
def AppCall.Flyable : AppCall → Prop
  | action (.gotoPosition p) => p.isValid = true
  | loadSearch s => s.Flyable limits
  | _ => True

/-- Everything that the components keep, and all that is on its way between them, is within the
envelope. -/
structure App.Flyable (a : App) : Prop where
  mav : a.mav.Flyable limits
  smm : a.smm.Flyable limits
  target : a.machine.fssCommandTarget.position.isValid = true
  gotoPosition : a.gotoPosition.isValid = true
  eventQueue : ∀ e ∈ a.eventQueue, e.Flyable limits
  calls : ∀ call ∈ a.calls, call.Flyable limits

/-- The searches that are constructed and the targets that are commanded are within the
envelope. -/
def AppLabel.Flyable : AppLabel → Prop
  | worker r => limits.Allows r.altitude
  | post e => e.Flyable limits
  | loop _ | recv | heartbeat _ | missionAck _ | uploadDropped | missionRequest _ _
  | missionItemReached _ | autopilotRestart _ | mavCommsLost | setLink _
  | retryPendingSearch _ => True

variable {limits}

section Worker

variable {w v : Smm} {r : SmmReply} {effects : List SmmEffect}

/-- Valid waypoints are valid points. -/
theorem forall_isValid_of_waypointsValid {waypoints : Option (List Point)}
    (h : waypointsValid waypoints = true) : ∀ p ∈ waypoints.getD [], p.isValid = true := by
  cases waypoints with
  | none => exact absurd h Bool.false_ne_true
  | some points => exact List.all_eq_true.mp ((Bool.and_eq_true _ _).mp h).2

/-- A search is constructed from an altitude within the limits. -/
theorem built_candidate (handle : ℕ) (hr : limits.Allows r.altitude) :
    (w.candidate handle r).Built limits :=
  ⟨hr, forall_isValid_of_waypointsValid⟩

/-- The first section of a task owns no search. -/
theorem flyable_entry (task : SmmTask) : task.entry.Flyable limits := by
  cases task <;> trivial

/-- A section of the worker passes on the search it owns, or constructs one. -/
theorem flyable_pc (hpc : w.pc.Flyable limits) (hr : limits.Allows r.altitude)
    (hstep : w.step r = some (v, effects)) : v.pc.Flyable limits := by
  unfold Smm.step at hstep
  split at hstep <;> grind [SmmPc.Flyable, flyable_entry, built_candidate]

/-- A section of the worker keeps within the envelope, and so do the uploads it brings. -/
theorem Smm.Flyable.step (h : w.Flyable limits) (hr : limits.Allows r.altitude)
    (hstep : w.step r = some (v, effects)) :
    v.Flyable limits ∧ ∀ e ∈ effects.filterMap SmmEffect.event?, e.Flyable limits := by
  have hpc := flyable_pc h.pc hr hstep
  have hevents (hloads : ∀ effect ∈ effects, ∀ s, effect.load? = some s → s.Flyable limits) :
      ∀ e ∈ effects.filterMap SmmEffect.event?, e.Flyable limits := by
    intro e he
    obtain ⟨effect, heffect, hevent⟩ := List.mem_filterMap.mp he
    cases effect with
    | loadSearchCb candidate =>
      cases hevent
      exact hloads _ heffect candidate.search rfl
    | rtlCb | operatorCommandCb _ =>
      cases hevent
      trivial
    | _ => cases hevent
  cases hsection : w.pc with
  | search pos =>
    simp only [Smm.step, hsection] at hstep
    cases hheld : w.currentSearch with
    | none =>
      simp only [hheld, Option.some.injEq, Prod.mk.injEq] at hstep
      obtain ⟨rfl, rfl⟩ := hstep
      refine ⟨⟨hpc, fun held hsome => ?_⟩, hevents fun effect heffect => ?_⟩
      · exact absurd hsome (Option.some_ne_none held).symm
      · exact absurd heffect List.not_mem_nil
    | some held =>
      simp only [hheld, Option.some.injEq, Prod.mk.injEq] at hstep
      obtain ⟨rfl, rfl⟩ := hstep
      have hflyable := h.held held hheld
      refine ⟨⟨hpc, fun other hother => ?_⟩, hevents fun effect heffect s hs => ?_⟩
      · rw [← Option.some.inj hother]
        exact hflyable
      · rw [List.mem_singleton.mp heffect] at hs
        cases hs
        exact hflyable
  | commit pos retries candidate =>
    have hbuilt : candidate.Built limits := by
      have hpc := h.pc
      rwa [hsection] at hpc
    simp only [Smm.step, hsection] at hstep
    split_ifs at hstep with hvalid haccepted
    · obtain ⟨rfl, rfl⟩ := Prod.mk.inj (Option.some.inj hstep)
      have hflyable : candidate.search.Flyable limits := ⟨hbuilt.altitude, hbuilt.points hvalid⟩
      refine ⟨⟨hpc, fun held hheld => ?_⟩, hevents fun effect heffect s hs => ?_⟩
      · rw [← Option.some.inj hheld]
        exact hflyable
      · simp only [List.mem_cons, List.not_mem_nil, or_false] at heffect
        rcases heffect with rfl | rfl | rfl <;> cases hs
        exact hflyable
    · obtain ⟨rfl, rfl⟩ := Prod.mk.inj (Option.some.inj hstep)
      refine ⟨⟨hpc, h.held⟩, hevents fun effect heffect s hs => ?_⟩
      rw [List.mem_singleton.mp heffect] at hs
      cases hs
    · obtain ⟨rfl, rfl⟩ := Prod.mk.inj (Option.some.inj hstep)
      exact ⟨⟨hpc, h.held⟩, hevents fun effect heffect => absurd heffect List.not_mem_nil⟩
  | _ =>
    obtain ⟨hkept, hquiet⟩ := Smm.step_quiet (by simp [hsection]) (by simp [hsection]) hstep
    refine ⟨⟨hpc, fun held hheld => ?_⟩, hevents fun effect heffect s hs => ?_⟩
    · cases hkept with
      | inl hdropped => exact absurd (hdropped.symm.trans hheld) (by simp)
      | inr hsame => exact h.held held (hsame.symm.trans hheld)
    · exact absurd ((hquiet effect heffect).symm.trans hs) (by simp)

/-- A task that is added changes nothing of the search. -/
theorem Smm.Flyable.enqueue (h : w.Flyable limits) (task : SmmTask) :
    (w.enqueue task).Flyable limits := by
  unfold Smm.enqueue
  split_ifs
  · exact ⟨h.pc, h.held⟩
  · exact h
  · exact ⟨h.pc, h.held⟩

/-- A role that is granted changes nothing of the search. -/
theorem Smm.Flyable.search (h : w.Flyable limits) (pos : Point) :
    (w.search pos).Flyable limits := by
  have hactive : ({ w with searchActive := true } : Smm).Flyable limits := ⟨h.pc, h.held⟩
  exact hactive.enqueue (.search pos)

/-- A role that is revoked changes nothing of the search. -/
theorem Smm.Flyable.cancelSearch (h : w.Flyable limits) : w.cancelSearch.Flyable limits :=
  ⟨h.pc, h.held⟩

end Worker

section Machine

variable {m : FmuStateMachine}

/-- The calls that carry out a state are within the envelope if the retained target is. -/
theorem flyable_actionState (h : m.fssCommandTarget.position.isValid = true) (state : FmuState) :
    ∀ action ∈ m.actionState state, (AppCall.action action).Flyable limits := by
  intro action haction
  unfold FmuStateMachine.actionState at haction
  rcases List.mem_append.mp haction with hprepared | hchange
  · rcases List.mem_append.mp hprepared with hcancel | hdrive
    · split_ifs at hcancel
      · rw [List.mem_singleton.mp hcancel]
        trivial
      · exact absurd hcancel List.not_mem_nil
    · cases state with
      | goto =>
        rcases List.mem_cons.mp hdrive with rfl | hmode
        · exact h
        · rw [List.mem_singleton.mp hmode]
          trivial
      | _ =>
        rw [List.mem_singleton.mp hdrive]
        trivial
  · rw [List.mem_singleton.mp hchange]
    trivial

/-- An event is handled within the envelope. -/
theorem flyable_drive {e : FmuEvent} (h : (m.handle e).1.fssCommandTarget.position.isValid = true) :
    ∀ call ∈ (m.drive e).2, call.Flyable limits := by
  intro call hcall
  obtain ⟨action, haction, rfl⟩ := List.mem_map.mp hcall
  cases m.handle_cases e with
  | inl hquiet =>
    rw [hquiet.1] at haction
    exact absurd haction List.not_mem_nil
  | inr hdrives =>
    rw [hdrives] at haction
    exact flyable_actionState h _ action haction

/-- An event that brings no target leaves a valid one. -/
theorem isValid_handle (h : m.fssCommandTarget.position.isValid = true) {e : FmuEvent}
    (he : ∀ cmd target, e ≠ .fssNewCommand cmd target) :
    (m.handle e).1.fssCommandTarget.position.isValid = true := by
  rw [(FmuStateMachine.handle_retains he).2]
  exact h

/-- An event is dispatched within the envelope. -/
theorem flyable_dispatch (lowbatThreshold : ℤ)
    (h : m.fssCommandTarget.position.isValid = true) {e : AppEvent} (he : e.Flyable limits) :
    (m.dispatch lowbatThreshold e).1.fssCommandTarget.position.isValid = true ∧
      ∀ call ∈ (m.dispatch lowbatThreshold e).2, call.Flyable limits := by
  have hnone : ∀ call ∈ ([] : List AppCall), call.Flyable limits :=
    fun call hcall => absurd hcall List.not_mem_nil
  have hone (call : AppCall) (hflyable : call.Flyable limits) :
      ∀ other ∈ [call], other.Flyable limits := by
    intro other hother
    rw [List.mem_singleton.mp hother]
    exact hflyable
  have hdriven (event : FmuEvent) (hevent : ∀ cmd target, event ≠ .fssNewCommand cmd target) :
      (m.drive event).1.fssCommandTarget.position.isValid = true ∧
        ∀ call ∈ (m.drive event).2, call.Flyable limits :=
    ⟨isValid_handle h hevent, flyable_drive (isValid_handle h hevent)⟩
  cases e with
  | fssCommand cmd target =>
    have hretained : (m.handle (.fssNewCommand cmd target)).1.fssCommandTarget.position.isValid =
        true := by
      rw [(m.handle_fssNewCommand_retains cmd target).2]
      exact he
    exact ⟨hretained, flyable_drive hretained⟩
  | smmSettings details => exact ⟨h, hone _ trivial⟩
  | position pd fixValid altitudeAglM =>
    obtain ⟨hvalid, hcalls⟩ := hdriven (.setCurrentAltitude fixValid altitudeAglM) (by simp)
    exact ⟨hvalid, List.forall_mem_append.mpr ⟨hcalls, hone _ trivial⟩⟩
  | reachedPoint point loaded =>
    refine ⟨h, ?_⟩
    simp only [FmuStateMachine.dispatch]
    split_ifs
    · exact hone _ trivial
    · exact hnone
  | smmLoadSearch s =>
    simp only [FmuStateMachine.dispatch]
    split_ifs
    · exact ⟨h, hone _ he⟩
    · exact hdriven _ (by simp)
    · exact ⟨h, hnone⟩
  | fssComms _ | mavComms _ | mavAutopilotRestart | smmRtl | smmOperatorCommand _ | battery _ =>
    exact hdriven _ (by simp)

end Machine

namespace App

variable {a b : App}

/-- A command is started within the envelope. -/
theorem Flyable.startCall (h : a.Flyable limits) {command : MavCall}
    (hcommand : command.Flyable limits) : (a.startCall command).Flyable limits where
  mav := ⟨h.mav.conn, hcommand.entry, h.mav.recv, h.mav.wire⟩
  smm := h.smm
  target := h.target
  gotoPosition := h.gotoPosition
  eventQueue := h.eventQueue
  calls := h.calls

/-- The connection takes a step within the envelope. -/
theorem Flyable.withMav (h : a.Flyable limits) {mav : MavSystem} (hmav : mav.Flyable limits)
    (outstanding : List Upload) :
    ({ a with mav := mav, outstanding := outstanding } : App).Flyable limits :=
  ⟨hmav, h.smm, h.target, h.gotoPosition, h.eventQueue, h.calls⟩

/-- The search client is given a task within the envelope. -/
theorem Flyable.withSmm (h : a.Flyable limits) {smm : Smm} (hsmm : smm.Flyable limits)
    (reachedWith : List ReachedWith) :
    ({ a with smm := smm, reachedWith := reachedWith } : App).Flyable limits :=
  ⟨h.mav, hsmm, h.target, h.gotoPosition, h.eventQueue, h.calls⟩

/-- A call is made within the envelope. -/
theorem Flyable.perform (h : a.Flyable limits) (pos : Point) {call : AppCall}
    (hcall : call.Flyable limits) : (a.perform pos call).Flyable limits := by
  cases call with
  | action action =>
    cases action with
    | cancelSearch => exact h.withSmm h.smm.cancelSearch _
    | search => exact h.withSmm (h.smm.search pos) _
    | setMode fm =>
      apply h.startCall
      cases fm with
      | goto => exact h.gotoPosition
      | manual | hold | unknown | rtl => trivial
    | gotoPosition position =>
      exact ⟨h.mav, h.smm, h.target, hcall, h.eventQueue, h.calls⟩
    | disarm => exact h.startCall trivial
    | terminate =>
      apply h.startCall
      cases a.terminateAction <;> trivial
    | setAltitude _ | stateChange _ => exact h
  | loadSearch s =>
    apply h.startCall
    intro q hq
    rw [← Option.some.inj hq]
    exact hcall
  | reportPosition _ | reachedPoint _ _ | connect _ => exact h.withSmm (h.smm.enqueue _) _

/-- An event is queued within the envelope. -/
theorem Flyable.post (h : a.Flyable limits) {events : List AppEvent}
    (hevents : ∀ e ∈ events, e.Flyable limits) :
    ({ a with eventQueue := a.eventQueue ++ events } : App).Flyable limits :=
  ⟨h.mav, h.smm, h.target, h.gotoPosition, List.forall_mem_append.mpr ⟨h.eventQueue, hevents⟩,
    h.calls⟩

/-- The event loop keeps within the envelope. -/
theorem Flyable.stepLoop (h : a.Flyable limits) {pos : Point} (hstep : a.stepLoop pos = some b) :
    b.Flyable limits := by
  obtain ⟨-, call, rest, hcalls, rfl⟩ | ⟨-, -, e, rest, hqueue, rfl⟩ | ⟨-, mav, hmav, rfl⟩ :=
    App.stepLoop_cases hstep
  · have hforall := List.forall_mem_cons.mp (hcalls ▸ h.calls)
    apply Flyable.perform _ pos hforall.1
    exact ⟨h.mav, h.smm, h.target, h.gotoPosition, h.eventQueue, hforall.2⟩
  · have hforall := List.forall_mem_cons.mp (hqueue ▸ h.eventQueue)
    obtain ⟨htarget, hcalls⟩ := flyable_dispatch a.lowbatThreshold h.target hforall.1
    exact ⟨h.mav, h.smm, htarget, h.gotoPosition, hforall.2, hcalls⟩
  · exact h.withMav (h.mav.stepLoop hmav) _

/-- The recv thread keeps within the envelope. -/
theorem Flyable.stepRecv (h : a.Flyable limits) (hstep : a.stepRecv = some b) :
    b.Flyable limits := by
  unfold App.stepRecv at hstep
  split_ifs at hstep
  · cases hstep
    refine ⟨h.mav, h.smm, h.target, h.gotoPosition, ?_, h.calls⟩
    refine List.forall_mem_append.mpr ⟨h.eventQueue, fun e he => ?_⟩
    rw [List.mem_singleton.mp he]
    trivial
  · obtain ⟨mav, hmav, rfl⟩ := Option.map_eq_some_iff.mp hstep
    exact h.withMav (h.mav.stepRecv hmav) _

/-- The worker keeps within the envelope, and so do the events it appends. -/
theorem Flyable.stepWorker (h : a.Flyable limits) {r : SmmReply} (hr : limits.Allows r.altitude)
    (hstep : a.stepWorker r = some b) : b.Flyable limits := by
  obtain ⟨⟨smm, effects⟩, hsection, rfl⟩ := Option.map_eq_some_iff.mp hstep
  obtain ⟨hsmm, hevents⟩ := h.smm.step hr hsection
  have hconn : (effects.foldl SmmEffect.observe a.mav.conn).Flyable limits := by
    obtain ⟨idx, hidx⟩ := observe_foldl effects a.mav.conn
    rw [hidx]
    exact h.mav.conn.congr (fun _ => id) rfl rfl
  exact ⟨⟨hconn, h.mav.loop, h.mav.recv, h.mav.wire⟩, hsmm, h.target, h.gotoPosition,
    List.forall_mem_append.mpr ⟨h.eventQueue, hevents⟩, h.calls⟩

/-- The connection keeps within the envelope as it takes a message. -/
theorem Flyable.receive (h : a.Flyable limits) {message : MavLabel}
    (hcall : ∀ command, message ≠ .call command) (hstep : a.receive message = some b) :
    b.Flyable limits := by
  unfold App.receive at hstep
  split_ifs at hstep
  obtain ⟨mav, hmav, rfl⟩ := Option.map_eq_some_iff.mp hstep
  exact h.withMav (h.mav.step (fun command heq => absurd heq (hcall command)) hmav) _

/-- Every step keeps within the envelope. -/
theorem Flyable.next (h : a.Flyable limits) {e : AppLabel} (he : e.Flyable limits)
    (hstep : a.next e = some b) : b.Flyable limits := by
  cases e with
  | loop pos => exact h.stepLoop hstep
  | recv => exact h.stepRecv hstep
  | worker r => exact h.stepWorker he hstep
  | heartbeat _ | missionRequest _ _ => exact h.receive (by simp) hstep
  | missionAck _ | autopilotRestart _ =>
    obtain ⟨c, hreceive, rfl⟩ := Option.map_eq_some_iff.mp hstep
    obtain ⟨hmav, hsmm, htarget, hgoto, hqueue, hcalls⟩ := h.receive (by simp) hreceive
    exact ⟨hmav, hsmm, htarget, hgoto, hqueue, hcalls⟩
  | uploadDropped =>
    cases hstep
    exact ⟨h.mav, h.smm, h.target, h.gotoPosition, h.eventQueue, h.calls⟩
  | missionItemReached seq =>
    obtain ⟨-, rfl⟩ := App.next_missionItemReached_eq_some.mp hstep
    apply h.post
    intro e he
    rw [List.mem_singleton.mp he]
    trivial
  | mavCommsLost =>
    change (a.mav.step .commsLost).map a.withMav = some b at hstep
    obtain ⟨mav, hmav, rfl⟩ := Option.map_eq_some_iff.mp hstep
    exact h.withMav (h.mav.step (by simp) hmav) _
  | setLink isOpen =>
    change (a.mav.step (.setLink isOpen)).map (fun mav =>
      { a.withMav mav with outstanding := if isOpen then a.outstanding else [] }) = some b at hstep
    obtain ⟨mav, hmav, rfl⟩ := Option.map_eq_some_iff.mp hstep
    exact h.withMav (h.mav.step (by simp) hmav) _
  | post e =>
    obtain ⟨-, hpost⟩ := Option.ite_none_right_eq_some.mp hstep
    cases hpost
    apply h.post
    intro other hother
    rw [List.mem_singleton.mp hother]
    exact he
  | retryPendingSearch pos =>
    cases hstep
    exact h.withSmm (h.smm.enqueue _) _

end App

end Envelope

section Sources

/-- A client reports the command and the target of a message that it can act on. -/
theorem handleCommandFrom_report {Conn Key : Type*} [DecidableEq Key] {code : AssetCommand → ℤ}
    {originKey : Conn → Key} {g : CommandAckGroup Key (PendingCommandAck Conn)} {conn : Conn}
    {msg : AssetCommandMessage} {e : FssCommandEvent}
    (h : (handleCommandFrom code originKey g conn msg).report = some e) :
    msg.actionable = some e.command ∧ e.target = msg.target := by
  unfold handleCommandFrom at h
  split at h
  · cases h
  · next command hactionable =>
    simp only at h
    split at h
    · cases h
    · cases h
    · cases h
    · cases h
      exact ⟨hactionable, rfl⟩

/-- The target of a message that can be acted on is valid. -/
theorem isValid_target {msg : AssetCommandMessage} {command : FssCommand}
    (h : msg.actionable = some command) : msg.target.position.isValid = true := by
  have hdefault : ({} : Point).isValid = true := by norm_num [Point.isValid, withinDegrees]
  unfold AssetCommandMessage.target
  split
  · next hgoto =>
    unfold AssetCommandMessage.actionable at h
    split_ifs at h with hrejected
    exact Bool.of_not_eq_false fun hinvalid => hrejected ⟨hgoto, hinvalid⟩
  · exact hdefault
  · exact hdefault

variable (tan : ℚ → ℚ) (cfg : FmuConfig)

/-- Where altitudes and targets come from: a search is constructed with an altitude derived from
its sweep width and the camera, and a ground-station command is one that a client reports. -/
def AppLabel.Sourced : AppLabel → Prop
  | worker r => ∃ sweepWidth, searchAltitude tan sweepWidth cfg.cameraFovDeg cfg.altitudeFloorM
      cfg.altitudeCapM = some r.altitude
  | post (.fssCommand cmd target) =>
    ∃ (code : AssetCommand → ℤ) (originKey : ℕ → String)
      (g : CommandAckGroup String (PendingCommandAck ℕ)) (conn : ℕ) (msg : AssetCommandMessage)
      (epoch : ℕ), (handleCommandFrom code originKey g conn msg).report =
        some { command := cmd, target := target, epoch := epoch }
  | _ => True

variable {tan cfg}

/-- The limits of a configuration within its bounds. -/
def FmuConfig.limits (h : cfg.InBounds) : AltitudeLimits where
  floorM := cfg.altitudeFloorM
  capM := cfg.altitudeCapM
  gotoM := cfg.gotoAltitudeM
  floor_le_goto := h.floor_le_goto
  goto_le_cap := h.goto_le_cap

/-- What has a source is within the envelope. -/
theorem AppLabel.Sourced.flyable (hcfg : cfg.InBounds) (htan : TangentBounds tan) {fov : ℚ}
    (hfov : cfg.cameraFovDeg = .finite fov) (hrange : FovInRange fov) {e : AppLabel}
    (h : e.Sourced tan cfg) (hexternal : ∀ s, e ≠ .post (.smmLoadSearch s)) :
    e.Flyable (FmuConfig.limits hcfg) := by
  cases e with
  | worker r =>
    obtain ⟨sweepWidth, haltitude⟩ := h
    rw [hfov] at haltitude
    have hle := (FmuConfig.limits hcfg).floor_le_cap
    obtain ⟨m, hm, hvalue⟩ := exists_searchAltitude htan hrange hle sweepWidth
    obtain rfl := Option.some.inj (haltitude.symm.trans hm)
    exact limits_of_saturate hle hvalue
  | post event =>
    cases event with
    | fssCommand cmd target =>
      obtain ⟨code, originKey, g, conn, msg, epoch, hreport⟩ := h
      obtain ⟨hactionable, htarget⟩ := handleCommandFrom_report hreport
      have hvalid := isValid_target hactionable
      rw [← htarget] at hvalid
      exact hvalid
    | smmLoadSearch s => exact absurd rfl (hexternal s)
    | _ => trivial
  | _ => trivial

end Sources

namespace App

/-- A goto is commanded and uploaded, and the autopilot requests its first item. -/
def gotoServed : List AppLabel :=
  [.setLink true, .heartbeat .quadrotor, .recv, .post (.fssComms false),
    .post (.fssCommand .cmdGoto {})] ++ List.replicate 14 (.loop {}) ++ [.missionRequest 0 0, .recv]

/-- What the autopilot gets as its first item is the goto point, at the goto altitude. -/
def gotoItem : MissionItemInt where
  seq := 0
  item := .gotoPoint
  position := some {}
  altitudeM := 50
  missionType := 0

/-- Every label of the commanded goto has a source. -/
theorem sourced_gotoServed : ∀ e ∈ gotoServed, e.Sourced defaultTan {} := by
  intro e he
  simp only [gotoServed, List.mem_append, List.mem_cons, List.not_mem_nil, or_false,
    List.mem_replicate] at he
  rcases he with (((rfl | rfl | rfl | rfl | rfl) | ⟨-, rfl⟩) | (rfl | rfl)) <;> try trivial
  exact ⟨fun _ => 0, fun _ => "", { toleranceMs := 5000 }, 0, { command := .goto, timestamp := 0 },
    1, by decide⟩

end App

end CapFmu
