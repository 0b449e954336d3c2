import CapFmu.Mav.Threads
import CapFmu.Transition.Trace

/-!
# Keeping control after a takeover

A takeover is in control from the moment its packet is written until an upload advertises
its mission. While it is in control nothing may select a mission item or engage AUTO.

A takeover writes its packet first and invalidates the upload in a later section, and an
acknowledgement is decided in one section and acted on in later ones. Two orders of these
sections lose control: the takeover's packet is written between an acknowledgement's
decision and its packets, or an acknowledgement is decided between the takeover's packet
and its invalidation. A search upload has the second window again, between arming and
advertising its mission. In every other order control is kept.
-/

namespace CapFmu

open Transition

/-- Whether a takeover is in control after one more packet. -/
def WireEntry.control (held : Bool) (e : WireEntry) : Bool :=
  match e.packet, e.writer with
  | .missionCount _, _ => false
  | _, .takeover => true
  | _, _ => held

/-- Whether a takeover is in control after what was written. -/
def takeoverInControl (wire : List WireEntry) : Bool := wire.foldl WireEntry.control false

/-- No packet that engages is written while a takeover is in control. -/
def TakeoverHolds (wire : List WireEntry) : Prop :=
  ∀ before e, before ++ [e] <+: wire → e.packet.engages = true → takeoverInControl before = false

@[simp] theorem takeoverInControl_concat (wire : List WireEntry) (e : WireEntry) :
    takeoverInControl (wire ++ [e]) = e.control (takeoverInControl wire) := by
  simp only [takeoverInControl, List.foldl_append, List.foldl_cons, List.foldl_nil]

/-- One more packet keeps the law when it does not engage under a takeover. -/
theorem takeoverHolds_concat {wire : List WireEntry} {e : WireEntry} (hwire : TakeoverHolds wire)
    (he : e.packet.engages = true → takeoverInControl wire = false) :
    TakeoverHolds (wire ++ [e]) := by
  have hlaw : EachAfter
      (fun before e => e.packet.engages = true → takeoverInControl before = false) wire := hwire
  exact eachAfter_concat.mpr ⟨hlaw, he⟩

/-- Whether the event loop's next section writes a takeover's packet. -/
def LoopPc.takesOver : LoopPc → Bool
  | modeSend _ _ .done | directSend _ => true
  | _ => false

/-- Whether the event loop is between a takeover's packet and its invalidation, or between
arming a search upload and advertising it. -/
def LoopPc.unsettled : LoopPc → Bool
  | modeSettle .done | directSettle | searchCount _ => true
  | _ => false

/-- Whether the event loop's next section arms a goto's acknowledgement. -/
def LoopPc.arming : LoopPc → Bool
  | gotoArm => true
  | _ => false

/-- Whether the event loop is deferring a mode command. -/
def LoopPc.deferring : LoopPc → Bool
  | modeDefer _ _ => true
  | _ => false

/-- Whether the acknowledgement being processed still has packets that engage to write. -/
def RecvPc.engaging : RecvPc → Bool
  | selecting _ _ | autoResolve _ | autoSend _ _ => true
  | autoSettle rest | autoDefer rest => !rest.isEmpty
  | _ => false

/-- Whether the recv thread is deferring a mode command or replaying one. -/
def RecvPc.deferring : RecvPc → Bool
  | autoDefer _ | replaySend _ _ | replayClear _ => true
  | _ => false

@[simp] theorem engaging_selectNext (rest : List ℕ) :
    (selectNext rest).engaging = !rest.isEmpty := by
  cases rest <;> rfl

@[simp] theorem deferring_selectNext (rest : List ℕ) : (selectNext rest).deferring = false := by
  cases rest <;> rfl

/-- The link stays open and the vehicle type known. -/
def MavLabel.KeepsLink : MavLabel → Prop
  | heartbeat t => t ≠ .other
  | setLink isOpen => isOpen = true
  | _ => True

namespace MavSystem

/-- The step falls in none of the windows: a takeover's packet is not written while an
acknowledgement still has packets to write, and an acknowledgement accepted in an unsettled
section of a takeover in control finds no upload pending. -/
def Undisturbed (s : MavSystem) : MavLabel → Prop
  | .loop => s.loop.takesOver = true → s.recv.engaging = false
  | .missionAck accepted =>
    accepted = true → takeoverInControl s.wire = true → s.loop.unsettled = true →
      s.conn.uploadPending = false
  | _ => True

instance (s : MavSystem) : ∀ e, Decidable (s.Undisturbed e)
  | .loop => inferInstanceAs (Decidable (_ → _))
  | .missionAck _ => inferInstanceAs (Decidable (_ → _ → _ → _))
  | .recv | .call _ | .heartbeat _ | .missionRequest _ _ | .autopilotRestart | .commsLost
  | .setLink _ | .progress _ _ => isTrue trivial

/-- What holds in every state: the link is open and no mode command is deferred; a takeover
in control is past every decided acknowledgement, and once it is settled no upload is
pending; and the wire keeps the law. -/
structure Contained (s : MavSystem) : Prop where
  linkOpen : s.conn.fdOpen = true
  typeKnown : s.conn.autopilotType ≠ .other
  noneDeferred : s.conn.pendingModeCommand = none
  loopNotDeferring : s.loop.deferring = false
  recvNotDeferring : s.recv.deferring = false
  notArming : s.loop.arming = true → takeoverInControl s.wire = false
  notEngaging : takeoverInControl s.wire = true → s.recv.engaging = false
  settled : takeoverInControl s.wire = true → s.loop.unsettled = false →
    s.conn.uploadPending = false
  holds : TakeoverHolds s.wire

variable {s t : MavSystem}

/-- Writing a packet that does not engage keeps the law. -/
theorem Contained.holds_written (h : s.Contained) {packet : Packet}
    (hengages : packet.engages = false) (writer : Writer) :
    TakeoverHolds (s.wire ++ s.conn.written packet writer) := by
  rw [MavConnection.written_of_open h.linkOpen]
  exact takeoverHolds_concat h.holds fun he => absurd he (by simp [hengages])

/-- Control after a written packet. -/
theorem Contained.control_written (h : s.Contained) (packet : Packet)
    (writer : Writer) : takeoverInControl (s.wire ++ s.conn.written packet writer) =
      WireEntry.control (takeoverInControl s.wire) { packet := packet, writer := writer } := by
  rw [MavConnection.written_of_open h.linkOpen, takeoverInControl_concat]

/-- Settled without an upload pending, when the loop was outside its unsettled sections. -/
theorem Contained.not_pending (h : s.Contained) {pc : LoopPc}
    (hloop : s.loop = pc) (hpc : pc.unsettled = false) (hcontrol : takeoverInControl s.wire = true) :
    s.conn.uploadPending = false := h.settled hcontrol (hloop ▸ hpc)

/-- Nothing left to write for an acknowledgement, while a takeover is in control. -/
theorem Contained.not_engaging (h : s.Contained) {pc : RecvPc}
    (hrecv : s.recv = pc) (hcontrol : takeoverInControl s.wire = true) : pc.engaging = false :=
  hrecv ▸ h.notEngaging hcontrol

/-- The packet of a mode command: a takeover takes control, a preamble leaves it as it is. -/
theorem contained_modeSend (h : s.Contained) {m : TakeoverMode}
    {r : ResolvedMode m.command} {after : AfterMode} (hloop : s.loop = .modeSend m r after)
    (hcond : s.Undisturbed .loop) :
    ({ s with
        loop := .modeSettle after
        wire := s.wire ++ s.conn.written (.setMode r.fmode) after.writer } : MavSystem).Contained := by
  have hquiet : (Packet.setMode r.fmode).engages = false := by
    simp [Packet.engages]
  have hholds := h.holds_written hquiet after.writer
  have hcontrol := h.control_written (.setMode r.fmode) after.writer
  cases after with
  | done =>
    exact { h with
      loopNotDeferring := rfl
      notArming := fun harming => absurd harming Bool.false_ne_true
      notEngaging := fun _ => hcond (by rw [hloop]; rfl)
      settled := fun _ hsettled => absurd hsettled Bool.false_ne_true.symm
      holds := hholds }
  | goto p | search p =>
    exact { h with
      loopNotDeferring := rfl
      notArming := fun harming => absurd harming Bool.false_ne_true
      notEngaging := fun hc => h.notEngaging (hcontrol.symm.trans hc)
      settled := fun hc _ => h.not_pending hloop rfl (hcontrol.symm.trans hc)
      holds := hholds }

/-- The packet of a direct command takes control. -/
theorem contained_directSend (h : s.Contained) {d : DirectCommand}
    (hloop : s.loop = .directSend d) (hcond : s.Undisturbed .loop) :
    ({ s with
        loop := .directSettle
        wire := s.wire ++ s.conn.written d.packet .takeover } : MavSystem).Contained :=
  { h with
    loopNotDeferring := rfl
    notArming := fun harming => absurd harming Bool.false_ne_true
    notEngaging := fun _ => hcond (by rw [hloop]; rfl)
    settled := fun _ hsettled => absurd hsettled Bool.false_ne_true.symm
    holds := h.holds_written d.engages_packet .takeover }

/-- Advertising a mission ends a takeover's control. -/
theorem contained_count (h : s.Contained) (count : ℕ) {pc : LoopPc}
    (hpc : pc.deferring = false) :
    ({ s with
        loop := pc
        wire := s.wire ++ s.conn.written (.missionCount count) .upload } : MavSystem).Contained := by
  have hcontrol : takeoverInControl (s.wire ++ s.conn.written (.missionCount count) .upload) = false :=
    h.control_written (.missionCount count) .upload
  exact { h with
    loopNotDeferring := hpc
    notArming := fun _ => hcontrol
    notEngaging := fun hc => absurd hc (by simp [hcontrol])
    settled := fun hc => absurd hc (by simp [hcontrol])
    holds := h.holds_written rfl .upload }

/-- A section of the event loop keeps the invariant. -/
theorem contained_stepLoop (h : s.Contained) (hcond : s.Undisturbed .loop)
    (hstep : s.stepLoop = some t) : t.Contained := by
  unfold stepLoop at hstep
  cases hloop : s.loop with
  | idle => simp [hloop, loopSection] at hstep
  | resolve m after =>
    obtain ⟨r, hr⟩ := resolveMode_isSome h.typeKnown m.command
    simp only [hloop, loopSection, hr, Option.map_some, List.append_nil] at hstep
    cases hstep
    exact { h with
      loopNotDeferring := rfl
      notArming := fun harming => absurd harming Bool.false_ne_true
      settled := fun hc _ => h.not_pending hloop rfl hc }
  | modeSend m r after =>
    rw [hloop] at hstep
    cases hstep
    exact contained_modeSend h hloop hcond
  | modeSettle after =>
    simp only [hloop, loopSection, Option.map_some, List.append_nil] at hstep
    cases hstep
    exact { h with
      noneDeferred := rfl
      loopNotDeferring := by cases after <;> rfl
      notArming := by cases after <;> rintro ⟨⟩
      settled := fun _ _ => rfl }
  | modeDefer m after => simpa [hloop, LoopPc.deferring] using h.loopNotDeferring
  | directSend d =>
    rw [hloop] at hstep
    cases hstep
    exact contained_directSend h hloop hcond
  | directSettle =>
    simp only [hloop, loopSection, Option.map_some, List.append_nil] at hstep
    cases hstep
    exact { h with
      loopNotDeferring := rfl
      notArming := fun harming => absurd harming Bool.false_ne_true
      settled := fun _ _ => rfl }
  | gotoActivate p =>
    simp only [hloop, loopSection, Option.map_some, List.append_nil] at hstep
    cases hstep
    exact { h with
      loopNotDeferring := rfl
      notArming := fun harming => absurd harming Bool.false_ne_true
      settled := fun hc _ => h.not_pending hloop rfl hc }
  | gotoCount =>
    simp only [hloop, loopSection, h.linkOpen, if_true] at hstep
    cases hstep
    exact contained_count h _ rfl
  | gotoArm =>
    have hcontrol := h.notArming (by rw [hloop]; rfl)
    simp only [hloop, loopSection, Option.map_some, List.append_nil] at hstep
    cases hstep
    exact { h with
      loopNotDeferring := rfl
      notArming := fun harming => absurd harming Bool.false_ne_true
      settled := fun hc => absurd hc (by simp [hcontrol]) }
  | loadCheck q =>
    simp only [hloop, loopSection, Option.map_some, List.append_nil] at hstep
    rw [MavConnection.checkReload_fst] at hstep
    cases hstep
    exact { h with
      loopNotDeferring := by cases (s.conn.checkReload q).2 <;> rfl
      notArming := by cases (s.conn.checkReload q).2 <;> rintro ⟨⟩
      settled := fun hc _ => h.not_pending hloop rfl hc }
  | searchArm q =>
    simp only [hloop, loopSection, Option.map_some, List.append_nil] at hstep
    cases hstep
    exact { h with
      loopNotDeferring := rfl
      notArming := fun harming => absurd harming Bool.false_ne_true
      settled := fun _ hsettled => absurd hsettled Bool.false_ne_true.symm }
  | searchCount q =>
    rw [hloop] at hstep
    cases hstep
    exact contained_count h _ rfl

/-- The packets of an acknowledgement are written with no takeover in control. -/
theorem contained_engage (h : s.Contained) (hengaging : s.recv.engaging = true)
    (packet : Packet) {pc : RecvPc} (hpc : pc.deferring = false) :
    ({ s with
        recv := pc
        wire := s.wire ++ s.conn.written packet .missionAck } : MavSystem).Contained := by
  have hfree : takeoverInControl s.wire = false := by
    cases hc : takeoverInControl s.wire with
    | false => rfl
    | true => simp [h.notEngaging hc] at hengaging
  have hcontrol : takeoverInControl (s.wire ++ s.conn.written packet .missionAck) = false := by
    rw [h.control_written, hfree]
    cases packet <;> rfl
  exact { h with
    recvNotDeferring := hpc
    notArming := fun _ => hcontrol
    notEngaging := fun hc => absurd hc (by simp [hcontrol])
    settled := fun hc => absurd hc (by simp [hcontrol])
    holds := by
      rw [MavConnection.written_of_open h.linkOpen]
      exact takeoverHolds_concat h.holds fun _ => hfree }

/-- A section of the recv thread keeps the invariant. -/
theorem contained_stepRecv (h : s.Contained) (hstep : s.stepRecv = some t) :
    t.Contained := by
  unfold stepRecv at hstep
  cases hrecv : s.recv with
  | idle => simp [hrecv, recvSection] at hstep
  | selecting seq rest =>
    rw [hrecv] at hstep
    cases hstep
    exact contained_engage h (by rw [hrecv]; rfl) _ rfl
  | autoResolve rest =>
    obtain ⟨r, hr⟩ := resolveMode_isSome h.typeKnown .autoMode
    simp only [hrecv, recvSection, hr, Option.map_some, List.append_nil] at hstep
    cases hstep
    exact { h with
      recvNotDeferring := rfl
      notEngaging := fun hc => (h.not_engaging hrecv hc :) }
  | autoSend r rest =>
    rw [hrecv] at hstep
    cases hstep
    exact contained_engage h (by rw [hrecv]; rfl) _ rfl
  | autoSettle rest =>
    simp only [hrecv, recvSection, Option.map_some, List.append_nil] at hstep
    cases hstep
    exact { h with
      noneDeferred := rfl
      recvNotDeferring := deferring_selectNext rest
      notEngaging := fun hc => (engaging_selectNext rest).trans (h.not_engaging hrecv hc) }
  | autoDefer rest => simpa [hrecv, RecvPc.deferring] using h.recvNotDeferring
  | replayCopy vehicle =>
    simp only [hrecv, recvSection, h.noneDeferred, Option.map_some, List.append_nil] at hstep
    cases hstep
    exact { h with recvNotDeferring := rfl, notEngaging := fun _ => rfl }
  | replaySend command r => simpa [hrecv, RecvPc.deferring] using h.recvNotDeferring
  | replayClear command => simpa [hrecv, RecvPc.deferring] using h.recvNotDeferring
  | waypointSend item =>
    rw [hrecv] at hstep
    cases hstep
    have hcontrol := h.control_written (.missionItem item) .waypoint
    exact { h with
      recvNotDeferring := rfl
      notArming := fun harm => hcontrol.trans (h.notArming harm)
      notEngaging := fun _ => rfl
      settled := fun hc => h.settled (hcontrol.symm.trans hc)
      holds := h.holds_written rfl .waypoint }

/-- An acknowledgement decided outside the windows finds no upload pending under a takeover. -/
theorem contained_missionAck (h : s.Contained) (accepted : Bool)
    (hcond : s.Undisturbed (.missionAck accepted)) :
    ({ s with
        conn := (s.conn.ackDecision accepted).1
        recv := selectNext (s.conn.ackDecision accepted).2 } : MavSystem).Contained := by
  refine { h with
    recvNotDeferring := deferring_selectNext _
    notEngaging := fun hc => ?_
    settled := fun _ _ => rfl }
  rw [engaging_selectNext]
  cases accepted with
  | false => simp [MavConnection.ackDecision]
  | true =>
    have hpending : s.conn.uploadPending = false := by
      cases hloop : s.loop.unsettled with
      | false => exact h.settled hc hloop
      | true => exact hcond rfl hc hloop
    simp [MavConnection.ackDecision_of_not_pending hpending]

/-- A message keeps the invariant. -/
theorem contained_receive (h : s.Contained) {e : MavLabel} (hlink : e.KeepsLink)
    (hcond : s.Undisturbed e) (hstep : s.receive e = some t) : t.Contained := by
  cases e with
  | heartbeat vehicle =>
    cases hstep
    exact { h with typeKnown := hlink, recvNotDeferring := rfl, notEngaging := fun _ => rfl }
  | missionAck accepted =>
    cases hstep
    exact contained_missionAck h accepted hcond
  | missionRequest seq missionType =>
    obtain ⟨reply, -, ht⟩ := Option.map_eq_some_iff.mp hstep
    subst ht
    exact { h with
      recvNotDeferring := by cases reply <;> rfl
      notEngaging := fun _ => by cases reply <;> rfl }
  | autopilotRestart =>
    cases hstep
    exact { h with settled := fun _ _ => rfl }
  | loop | recv | call _ | commsLost | setLink _ | progress _ _ => cases hstep

/-- Every step outside the windows keeps the invariant. -/
theorem contained_step (h : s.Contained) {e : MavLabel} (hlink : e.KeepsLink)
    (hcond : s.Undisturbed e) (hstep : s.step e = some t) : t.Contained := by
  cases e with
  | loop => exact contained_stepLoop h hcond hstep
  | recv => exact contained_stepRecv h hstep
  | call command =>
    cases hloop : s.loop <;> simp only [step, hloop, reduceCtorEq] at hstep
    cases hstep
    exact { h with
      loopNotDeferring := by cases command <;> rfl
      notArming := by cases command <;> rintro ⟨⟩
      settled := fun hc _ => h.not_pending hloop rfl hc }
  | commsLost =>
    cases hstep
    refine { h with settled := fun hc hloop => ?_ }
    have hpending := h.settled hc hloop
    simp only [MavConnection.uploadPending, Bool.or_eq_false_iff] at hpending
    simp [MavConnection.uploadPending, hpending.2]
  | setLink isOpen =>
    cases hstep
    exact { h with linkOpen := hlink }
  | progress id pointIdx =>
    cases hstep
    exact { h with }
  | heartbeat _ | missionAck _ | missionRequest _ _ | autopilotRestart =>
    cases hrecv : s.recv <;> simp only [step, hrecv, reduceCtorEq] at hstep
    exact contained_receive h hlink hcond hstep

/-- While the link stays open and the vehicle type known, a takeover stays in control in every
run that falls in none of the windows. -/
theorem takeoverHolds_of_undisturbed {c : MavConnection} (hc : c.Ready) {es : List MavLabel}
    (hlink : ∀ e ∈ es, e.KeepsLink) (hes : Transition.Along step Undisturbed { conn := c } es)
    {s : MavSystem} (hrun : Transition.run step { conn := c } es = some s) :
    TakeoverHolds s.wire := by
  have hstart : Contained { conn := c } :=
    { linkOpen := hc.linkOpen
      typeKnown := hc.typeKnown
      noneDeferred := hc.noneDeferred
      loopNotDeferring := rfl
      recvNotDeferring := rfl
      notArming := fun harming => absurd harming Bool.false_ne_true
      notEngaging := fun hcontrol => absurd hcontrol Bool.false_ne_true
      settled := fun hcontrol => absurd hcontrol Bool.false_ne_true
      holds := fun before e hprefix => by simp at hprefix }
  have hkeep := Transition.along_and (Transition.along_of_forall_mem hlink) hes
  exact (Transition.invariant_of_along _ Contained
    (fun s e t hs he hstep => contained_step hs he.1 he.2 hstep) hstart hkeep hrun).holds

/-- A goto is uploaded, and the packet of a return to launch written. -/
def gotoThenRtl : List MavLabel :=
  [.call (.goto {}), .loop, .loop, .loop, .loop, .loop, .loop, .call .rtl, .loop, .loop]

/-- An acknowledgement decided before the return to launch invalidates the upload engages AUTO
after it. -/
theorem gotoThenRtl_acknowledged_early :
    ∃ s, Transition.run step { conn := .quadrotor }
        (gotoThenRtl ++ [.missionAck true, .loop, .recv, .recv, .recv]) = some s ∧
      s.wire.map WireEntry.packet = [.setMode .copterRtl, .missionCount 3, .setMode .copterRtl,
        .missionSetCurrent 0, .setMode .copterAuto] ∧
      ¬ TakeoverHolds s.wire := by
  refine ⟨_, rfl, by decide, fun h => ?_⟩
  have hfree := h [⟨.setMode .copterRtl, .preamble⟩, ⟨.missionCount 3, .upload⟩,
    ⟨.setMode .copterRtl, .takeover⟩] ⟨.missionSetCurrent 0, .missionAck⟩ (by decide) rfl
  exact absurd hfree (by decide)

/-- One that arrives after it is ignored. -/
theorem gotoThenRtl_acknowledged_late :
    ∃ s, Transition.run step { conn := .quadrotor }
        (gotoThenRtl ++ [.loop, .missionAck true]) = some s ∧
      s.wire.map WireEntry.packet = [.setMode .copterRtl, .missionCount 3, .setMode .copterRtl] ∧
      TakeoverHolds s.wire := by
  have hready : MavConnection.quadrotor.Ready := ⟨rfl, by decide, rfl⟩
  have hlink : ∀ e ∈ gotoThenRtl ++ [.loop, .missionAck true], e.KeepsLink := by
    simp [gotoThenRtl, MavLabel.KeepsLink]
  exact ⟨_, rfl, by decide, takeoverHolds_of_undisturbed hready hlink (by decide) rfl⟩

end MavSystem

end CapFmu
