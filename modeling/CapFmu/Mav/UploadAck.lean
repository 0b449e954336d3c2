import CapFmu.Mav.Takeover

/-!
# One upload and its acknowledgement

The event loop carries out one upload while the recv thread processes the autopilot's
replies. Once the count is on the wire the acknowledgement may come at any time. A search
is loading before its count is written, so its acknowledgement always finds it. A goto is
armed only after its count was written: an acknowledgement that comes in between is
ignored, and the goto stays armed for an acknowledgement that never comes.
-/

namespace CapFmu

/-- The packets that engage, oldest first. -/
def engagedPackets (wire : List WireEntry) : List Packet :=
  (wire.map WireEntry.packet).filter Packet.engages

/-- Whether a packet advertises a mission. -/
def Packet.isCount : Packet → Bool
  | missionCount _ => true
  | _ => false

/-- Whether a mission was advertised. -/
def advertised (wire : List WireEntry) : Bool := wire.any fun e => e.packet.isCount

/-- One item was selected and then AUTO engaged, and nothing else engages. -/
def EngagedOnce (wire : List WireEntry) : Prop :=
  ∃ seq fmode, engagedPackets wire = [.missionSetCurrent seq, .setMode fmode] ∧
    fmode.isAuto = true

/-- The steps of the two threads, the autopilot's replies apart from acknowledgements, and
search progress: no newer command, no restart, and the link stays up. -/
def MavLabel.IsReply : MavLabel → Prop
  | loop | recv | missionRequest _ _ | progress _ _ => True
  | heartbeat t => t ≠ .other
  | call _ | missionAck _ | autopilotRestart | commsLost | setLink _ => False

/-- Whether the recv thread is not processing an acknowledgement. -/
def RecvPc.quiet : RecvPc → Bool
  | idle | replayCopy _ | waypointSend _ => true
  | _ => false

namespace MavSystem

variable {s t : MavSystem}

/-- The engaging packets after a write on an open link. -/
theorem engagedPackets_written {c : MavConnection} (hopen : c.fdOpen = true) (wire : List WireEntry)
    (packet : Packet) (writer : Writer) :
    engagedPackets (wire ++ c.written packet writer) =
      engagedPackets wire ++ if packet.engages then [packet] else [] := by
  rw [MavConnection.written_of_open hopen]
  cases hengages : packet.engages <;> simp [engagedPackets, hengages]

/-- Whether a mission was advertised after a write on an open link. -/
theorem advertised_written {c : MavConnection} (hopen : c.fdOpen = true) (wire : List WireEntry)
    (packet : Packet) (writer : Writer) :
    advertised (wire ++ c.written packet writer) = (advertised wire || packet.isCount) := by
  rw [MavConnection.written_of_open hopen]
  simp [advertised]

/-- Where the event loop can be before the acknowledgement: until the count is written nothing
is advertised; then a goto is not armed yet, or one upload is pending. -/
def UploadStage (c : MavConnection) (wire : List WireEntry) : LoopPc → Prop
  | .resolve _ after | .modeSend _ _ after | .modeSettle after =>
    after.writer = .preamble ∧ advertised wire = false
  | .gotoActivate _ | .gotoCount => c.uploadPending = false ∧ advertised wire = false
  | .gotoArm => c.uploadPending = false
  | .searchArm _ => advertised wire = false
  | .searchCount _ => (c.gotoAckPending = false ∧ c.searchLoading = true) ∧ advertised wire = false
  | .idle => c.gotoAckPending = !c.searchLoading
  | .modeDefer _ _ | .directSend _ | .directSettle | .loadCheck _ => False

/-- What holds until the acknowledgement. -/
structure Opening (s : MavSystem) : Prop where
  ready : s.conn.Ready
  quiet : s.recv.quiet = true
  notEngaged : engagedPackets s.wire = []
  stage : UploadStage s.conn s.wire s.loop

/-- What holds after an acknowledgement that was ignored. -/
structure Missed (s : MavSystem) : Prop where
  ready : s.conn.Ready
  quiet : s.recv.quiet = true
  notEngaged : engagedPackets s.wire = []
  armed : s.loop = .gotoArm ∨ s.loop = .idle ∧ s.conn.gotoAckPending = true

/-- How far the recv thread is with an acknowledgement that found the upload. -/
def AckStage (wire : List WireEntry) : RecvPc → Prop
  | .selecting _ rest => rest = [] ∧ engagedPackets wire = []
  | .autoResolve rest | .autoSend _ rest =>
    rest = [] ∧ ∃ seq, engagedPackets wire = [.missionSetCurrent seq]
  | .autoSettle rest => rest = [] ∧ EngagedOnce wire
  | .idle | .replayCopy _ | .waypointSend _ => EngagedOnce wire
  | .autoDefer _ | .replaySend _ _ | .replayClear _ => False

/-- What holds after an acknowledgement that found the upload. -/
structure Answered (s : MavSystem) : Prop where
  ready : s.conn.Ready
  loopIdle : s.loop = .idle
  notPending : s.conn.uploadPending = false
  stage : AckStage s.wire s.recv

/-- The stage of an upload reads the two flags, and whether a mission was advertised. -/
theorem UploadStage.congr {c c' : MavConnection} {wire wire' : List WireEntry} {pc : LoopPc}
    (h : UploadStage c wire pc) (hgoto : c'.gotoAckPending = c.gotoAckPending)
    (hloading : c'.searchLoading = c.searchLoading) (hwire : advertised wire' = advertised wire) :
    UploadStage c' wire' pc := by
  cases pc <;> simp_all [UploadStage, MavConnection.uploadPending]

/-- A section of the event loop keeps what holds until the acknowledgement. -/
theorem opening_stepLoop (h : s.Opening) (hstep : s.stepLoop = some t) : t.Opening := by
  have hopen := h.ready.linkOpen
  unfold stepLoop at hstep
  cases hloop : s.loop with
  | idle => simp [hloop, loopSection] at hstep
  | resolve m after =>
    have hstage : UploadStage s.conn s.wire (.resolve m after) := hloop ▸ h.stage
    obtain ⟨r, hr⟩ := resolveMode_isSome h.ready.typeKnown m.command
    simp only [hloop, loopSection, hr, Option.map_some, List.append_nil] at hstep
    cases hstep
    exact { h with stage := hstage }
  | modeSend m r after =>
    have hstage : UploadStage s.conn s.wire (.modeSend m r after) := hloop ▸ h.stage
    rw [hloop] at hstep
    cases hstep
    refine { h with notEngaged := ?_, stage := ⟨hstage.1, ?_⟩ }
    · simp [engagedPackets_written hopen, h.notEngaged, Packet.engages]
    · simp [advertised_written hopen, hstage.2, Packet.isCount]
  | modeSettle after =>
    have hstage : UploadStage s.conn s.wire (.modeSettle after) := hloop ▸ h.stage
    simp only [hloop, loopSection, Option.map_some, List.append_nil] at hstep
    cases hstep
    refine { h with ready := ⟨hopen, h.ready.typeKnown, rfl⟩, stage := ?_ }
    cases after with
    | done => exact absurd hstage.1 (by decide)
    | goto p => exact ⟨rfl, hstage.2⟩
    | search q => exact hstage.2
  | gotoActivate p =>
    have hstage : UploadStage s.conn s.wire (.gotoActivate p) := hloop ▸ h.stage
    simp only [hloop, loopSection, Option.map_some, List.append_nil] at hstep
    cases hstep
    exact { h with ready := ⟨hopen, h.ready.typeKnown, h.ready.noneDeferred⟩, stage := hstage }
  | gotoCount =>
    have hstage : UploadStage s.conn s.wire .gotoCount := hloop ▸ h.stage
    simp only [hloop, loopSection, hopen, if_true] at hstep
    cases hstep
    refine { h with notEngaged := ?_, stage := hstage.1 }
    simp [engagedPackets_written hopen, h.notEngaged, MavConnection.gotoCount, Packet.engages]
  | gotoArm =>
    have hstage : UploadStage s.conn s.wire .gotoArm := hloop ▸ h.stage
    simp only [hloop, loopSection, Option.map_some, List.append_nil] at hstep
    cases hstep
    have hclear : s.conn.gotoAckPending = false ∧ s.conn.searchLoading = false :=
      Bool.or_eq_false_iff.mp hstage
    refine { h with ready := ⟨hopen, h.ready.typeKnown, h.ready.noneDeferred⟩, stage := ?_ }
    simp [UploadStage, MavConnection.armGoto, hclear.2]
  | searchArm q =>
    have hstage : UploadStage s.conn s.wire (.searchArm q) := hloop ▸ h.stage
    simp only [hloop, loopSection, Option.map_some, List.append_nil] at hstep
    cases hstep
    exact { h with
      ready := ⟨hopen, h.ready.typeKnown, h.ready.noneDeferred⟩
      stage := ⟨⟨rfl, rfl⟩, hstage⟩ }
  | searchCount q =>
    have hstage : UploadStage s.conn s.wire (.searchCount q) := hloop ▸ h.stage
    rw [hloop] at hstep
    cases hstep
    refine { h with notEngaged := ?_, stage := ?_ }
    · simp [engagedPackets_written hopen, h.notEngaged, MavConnection.searchCount, Packet.engages]
    · simp [UploadStage, hstage.1]
  | modeDefer _ _ | directSend _ | directSettle | loadCheck _ =>
    exact absurd h.stage (by simp [hloop, UploadStage])

/-- A section of a recv thread that is not processing an acknowledgement, with no mode command
deferred, writes no packet that engages or advertises. -/
theorem stepRecv_quiet (hready : s.conn.Ready) (hquiet : s.recv.quiet = true)
    (hstep : s.stepRecv = some t) :
    t.conn = s.conn ∧ t.loop = s.loop ∧ t.recv.quiet = true ∧
      engagedPackets t.wire = engagedPackets s.wire ∧ advertised t.wire = advertised s.wire := by
  unfold stepRecv at hstep
  cases hrecv : s.recv with
  | idle => simp [hrecv, recvSection] at hstep
  | replayCopy vehicle =>
    simp only [hrecv, recvSection, hready.noneDeferred, Option.map_some, List.append_nil] at hstep
    cases hstep
    exact ⟨rfl, rfl, rfl, rfl, rfl⟩
  | waypointSend item =>
    rw [hrecv] at hstep
    cases hstep
    refine ⟨rfl, rfl, rfl, ?_, ?_⟩
    · simp [engagedPackets_written hready.linkOpen, Packet.engages]
    · simp [advertised_written hready.linkOpen, Packet.isCount]
  | selecting _ _ | autoResolve _ | autoSend _ _ | autoSettle _ | autoDefer _ | replaySend _ _
  | replayClear _ => simp [hrecv, RecvPc.quiet] at hquiet

/-- A reply that the recv thread starts on leaves it quiet, and changes no flag. -/
theorem step_message_quiet {e : MavLabel} (hready : s.conn.Ready) (he : e.IsReply)
    (hloop : e ≠ .loop) (hrecv : e ≠ .recv) (hstep : s.step e = some t) :
    t.conn.Ready ∧ t.conn.gotoAckPending = s.conn.gotoAckPending ∧
      t.conn.searchLoading = s.conn.searchLoading ∧ t.loop = s.loop ∧ t.wire = s.wire ∧
      (t.recv = s.recv ∨ s.recv = .idle ∧ t.recv.quiet = true) := by
  cases e with
  | loop => exact absurd rfl hloop
  | recv => exact absurd rfl hrecv
  | heartbeat vehicle =>
    cases hidle : s.recv <;> simp only [step, hidle, reduceCtorEq] at hstep
    cases hstep
    exact ⟨⟨hready.linkOpen, he, hready.noneDeferred⟩, rfl, rfl, rfl, rfl, .inr ⟨rfl, rfl⟩⟩
  | missionRequest seq missionType =>
    cases hidle : s.recv <;> simp only [step, hidle, reduceCtorEq] at hstep
    obtain ⟨reply, -, ht⟩ := Option.map_eq_some_iff.mp hstep
    subst ht
    exact ⟨hready, rfl, rfl, rfl, rfl, .inr ⟨rfl, by cases reply <;> rfl⟩⟩
  | progress id pointIdx =>
    cases hstep
    exact ⟨⟨hready.linkOpen, hready.typeKnown, hready.noneDeferred⟩, rfl, rfl, rfl, rfl, .inl rfl⟩
  | call _ | missionAck _ | autopilotRestart | commsLost | setLink _ => exact absurd he id

/-- Every reply keeps what holds until the acknowledgement. -/
theorem opening_step {e : MavLabel} (h : s.Opening) (he : e.IsReply) (hstep : s.step e = some t) :
    t.Opening := by
  cases e with
  | loop => exact opening_stepLoop h hstep
  | recv =>
    obtain ⟨hconn, hloop, hquiet, hengaged, hwire⟩ := stepRecv_quiet h.ready h.quiet hstep
    refine ⟨hconn ▸ h.ready, hquiet, hengaged.trans h.notEngaged, ?_⟩
    rw [hloop]
    exact h.stage.congr (by rw [hconn]) (by rw [hconn]) hwire
  | heartbeat _ | missionRequest _ _ | progress _ _ | call _ | missionAck _ | autopilotRestart
  | commsLost | setLink _ =>
    obtain ⟨hready, hgoto, hloading, hloop, hwire, hrecv⟩ :=
      step_message_quiet h.ready he (by simp) (by simp) hstep
    refine ⟨hready, ?_, by rw [hwire]; exact h.notEngaged, ?_⟩
    · exact hrecv.elim (fun hsame => hsame ▸ h.quiet) And.right
    · rw [hloop]
      exact h.stage.congr hgoto hloading (by rw [hwire])

/-- Every reply keeps what holds after an ignored acknowledgement. -/
theorem missed_step {e : MavLabel} (h : s.Missed) (he : e.IsReply) (hstep : s.step e = some t) :
    t.Missed := by
  cases e with
  | loop =>
    cases h.armed with
    | inl harm =>
      simp only [step, stepLoop, harm, loopSection, Option.map_some, List.append_nil] at hstep
      cases hstep
      exact { h with
        ready := ⟨h.ready.linkOpen, h.ready.typeKnown, h.ready.noneDeferred⟩
        armed := .inr ⟨rfl, rfl⟩ }
    | inr hidle => simp [step, stepLoop, hidle.1, loopSection] at hstep
  | recv =>
    obtain ⟨hconn, hloop, hquiet, hengaged, -⟩ := stepRecv_quiet h.ready h.quiet hstep
    refine ⟨hconn ▸ h.ready, hquiet, hengaged.trans h.notEngaged, ?_⟩
    rw [hloop, hconn]
    exact h.armed
  | heartbeat _ | missionRequest _ _ | progress _ _ | call _ | missionAck _ | autopilotRestart
  | commsLost | setLink _ =>
    obtain ⟨hready, hgoto, -, hloop, hwire, hrecv⟩ :=
      step_message_quiet h.ready he (by simp) (by simp) hstep
    refine ⟨hready, ?_, by rw [hwire]; exact h.notEngaged, ?_⟩
    · exact hrecv.elim (fun hsame => hsame ▸ h.quiet) And.right
    · rw [hloop, hgoto]
      exact h.armed

/-- A section of the recv thread carries a found acknowledgement on. -/
theorem answered_stepRecv (h : s.Answered) (hstep : s.stepRecv = some t) : t.Answered := by
  have hopen := h.ready.linkOpen
  unfold stepRecv at hstep
  cases hrecv : s.recv with
  | idle => simp [hrecv, recvSection] at hstep
  | selecting seq rest =>
    have hstage : AckStage s.wire (.selecting seq rest) := hrecv ▸ h.stage
    rw [hrecv] at hstep
    cases hstep
    refine { h with stage := ⟨hstage.1, seq, ?_⟩ }
    simp [engagedPackets_written hopen, hstage.2, Packet.engages]
  | autoResolve rest =>
    have hstage : AckStage s.wire (.autoResolve rest) := hrecv ▸ h.stage
    obtain ⟨r, hr⟩ := resolveMode_isSome h.ready.typeKnown .autoMode
    simp only [hrecv, recvSection, hr, Option.map_some, List.append_nil] at hstep
    cases hstep
    exact { h with stage := hstage }
  | autoSend r rest =>
    have hstage : AckStage s.wire (.autoSend r rest) := hrecv ▸ h.stage
    rw [hrecv] at hstep
    cases hstep
    obtain ⟨hrest, seq, hseq⟩ := hstage
    refine { h with stage := ⟨hrest, seq, r.fmode, ?_, by simp⟩ }
    simp [engagedPackets_written hopen, hseq, Packet.engages]
  | autoSettle rest =>
    have hstage : AckStage s.wire (.autoSettle rest) := hrecv ▸ h.stage
    simp only [hrecv, recvSection, hstage.1, Option.map_some, List.append_nil] at hstep
    cases hstep
    exact { h with ready := ⟨hopen, h.ready.typeKnown, rfl⟩, stage := hstage.2 }
  | replayCopy vehicle =>
    have hstage : AckStage s.wire (.replayCopy vehicle) := hrecv ▸ h.stage
    simp only [hrecv, recvSection, h.ready.noneDeferred, Option.map_some, List.append_nil] at hstep
    cases hstep
    exact { h with stage := hstage }
  | waypointSend item =>
    obtain ⟨seq, fmode, hengaged, hauto⟩ : AckStage s.wire (.waypointSend item) := hrecv ▸ h.stage
    rw [hrecv] at hstep
    cases hstep
    refine { h with stage := ⟨seq, fmode, ?_, hauto⟩ }
    simp [engagedPackets_written hopen, hengaged, Packet.engages]
  | autoDefer _ | replaySend _ _ | replayClear _ =>
    exact absurd h.stage (by simp [hrecv, AckStage])

/-- Every reply keeps what holds after a found acknowledgement. -/
theorem answered_step {e : MavLabel} (h : s.Answered) (he : e.IsReply)
    (hstep : s.step e = some t) : t.Answered := by
  cases e with
  | loop => simp [step, stepLoop, h.loopIdle, loopSection] at hstep
  | recv => exact answered_stepRecv h hstep
  | heartbeat _ | missionRequest _ _ | progress _ _ | call _ | missionAck _ | autopilotRestart
  | commsLost | setLink _ =>
    obtain ⟨hready, hgoto, hloading, hloop, hwire, hrecv⟩ :=
      step_message_quiet h.ready he (by simp) (by simp) hstep
    refine ⟨hready, hloop.trans h.loopIdle, ?_, ?_⟩
    · rw [MavConnection.uploadPending, hgoto, hloading]
      exact h.notPending
    · rw [hwire]
      cases hrecv with
      | inl hsame => exact hsame ▸ h.stage
      | inr hstarted =>
        have hdone : AckStage s.wire .idle := hstarted.1 ▸ h.stage
        cases ht : t.recv <;> simp_all [RecvPc.quiet, AckStage]

/-- An accepted acknowledgement of the one pending upload selects one item. -/
theorem ackDecision_of_one_pending {c : MavConnection}
    (hpending : c.gotoAckPending = !c.searchLoading) :
    ∃ seq, (c.ackDecision true).2 = [seq] := by
  cases hloading : c.searchLoading <;>
    simp [MavConnection.ackDecision, hpending, hloading]

/-- An acknowledgement of an advertised upload finds it, or comes before a goto is armed. -/
theorem acknowledged_cases (h : s.Opening) (hcount : advertised s.wire = true)
    (hstep : s.step (.missionAck true) = some t) :
    s.loop.arming = true ∧ t.Missed ∨ s.loop.arming = false ∧ t.Answered := by
  obtain ⟨-, rfl⟩ := step_missionAck_eq_some.mp hstep
  cases hloop : s.loop with
  | gotoArm =>
    have hstage : UploadStage s.conn s.wire .gotoArm := hloop ▸ h.stage
    rw [MavConnection.ackDecision_of_not_pending hstage]
    exact .inl ⟨rfl, { h with quiet := rfl, armed := .inl rfl }⟩
  | idle =>
    have hstage : UploadStage s.conn s.wire .idle := hloop ▸ h.stage
    obtain ⟨seq, hseq⟩ := ackDecision_of_one_pending hstage
    rw [hseq]
    exact .inr ⟨rfl,
      { ready := ⟨h.ready.linkOpen, h.ready.typeKnown, h.ready.noneDeferred⟩
        loopIdle := rfl
        notPending := MavConnection.uploadPending_ackDecision s.conn true
        stage := ⟨rfl, h.notEngaged⟩ }⟩
  | resolve _ _ | modeSend _ _ _ | modeSettle _ | modeDefer _ _ | directSend _ | directSettle
  | gotoActivate _ | gotoCount | loadCheck _ | searchArm _ | searchCount _ =>
    exact absurd h.stage (by simp [hloop, UploadStage, hcount])

/-- One goto or search upload on a link that stays up, and one accepted acknowledgement after
its count was written: when the recv thread is done, one item was selected, AUTO was engaged
once after it and no upload is left pending, exactly when the acknowledgement did not come
between a goto's count and its arming. -/
theorem engagedOnce_iff_not_arming {c : MavConnection} (hc : c.Ready) {upload : LoopPc}
    (hupload : (∃ p, upload = commandGoto p) ∨ ∃ q, upload = uploadSearch q)
    {before after : List MavLabel} (hbefore : ∀ e ∈ before, e.IsReply)
    (hafter : ∀ e ∈ after, e.IsReply)
    (hs : Transition.run step { conn := c, loop := upload } before = some s)
    (hcount : advertised s.wire = true)
    (ht : Transition.run step s (.missionAck true :: after) = some t)
    (hrecv : t.recv = .idle) :
    EngagedOnce t.wire ∧ t.conn.uploadPending = false ↔ s.loop.arming = false := by
  have hstart : Opening { conn := c, loop := upload } := by
    refine ⟨hc, rfl, rfl, ?_⟩
    cases hupload with
    | inl hgoto =>
      obtain ⟨p, rfl⟩ := hgoto
      exact ⟨rfl, rfl⟩
    | inr hsearch =>
      obtain ⟨q, rfl⟩ := hsearch
      exact ⟨rfl, rfl⟩
  have hopening : s.Opening := Transition.invariant_of_forall_mem Opening
    (fun _ _ _ => opening_step) hstart hbefore hs
  obtain ⟨u, hack, hrest⟩ := Transition.run_cons_eq_some.mp ht
  cases acknowledged_cases hopening hcount hack with
  | inl hearly =>
    have hmissed : t.Missed := Transition.invariant_of_forall_mem Missed
      (fun _ _ _ => missed_step) hearly.2 hafter hrest
    refine ⟨fun hdone => ?_, fun hlate => absurd hearly.1 (by simp [hlate])⟩
    obtain ⟨seq, fmode, hengaged, -⟩ := hdone.1
    simp [hmissed.notEngaged] at hengaged
  | inr hfound =>
    have hanswered : t.Answered := Transition.invariant_of_forall_mem Answered
      (fun _ _ _ => answered_step) hfound.2 hafter hrest
    have hstage : AckStage t.wire .idle := hrecv ▸ hanswered.stage
    exact ⟨fun _ => hfound.1, fun _ => ⟨hstage, hanswered.notPending⟩⟩

/-- A goto up to its count. -/
def gotoToCount : List MavLabel := [.loop, .loop, .loop, .loop, .loop]

/-- A goto acknowledged right after its count stays armed, and AUTO is not engaged. -/
theorem goto_acknowledged_before_arming :
    ∃ s t, Transition.run step { conn := .quadrotor, loop := commandGoto {} } gotoToCount = some s ∧
      advertised s.wire = true ∧
      Transition.run step s [.missionAck true, .loop] = some t ∧
      t.loop = .idle ∧ t.recv = .idle ∧ t.conn.gotoAckPending = true ∧ ¬ EngagedOnce t.wire := by
  refine ⟨_, _, rfl, rfl, rfl, rfl, rfl, rfl, fun h => ?_⟩
  obtain ⟨seq, fmode, hengaged, -⟩ := h
  cases hengaged

/-- Acknowledged once it is armed, it engages AUTO. -/
theorem goto_acknowledged_after_arming :
    ∃ s t, Transition.run step { conn := .quadrotor, loop := commandGoto {} }
        (gotoToCount ++ [.loop]) = some s ∧
      Transition.run step s [.missionAck true, .recv, .recv, .recv, .recv] = some t ∧
      EngagedOnce t.wire ∧ t.conn.uploadPending = false := by
  have hready : MavConnection.quadrotor.Ready := ⟨rfl, by decide, rfl⟩
  have hbefore : ∀ e ∈ gotoToCount ++ [.loop], e.IsReply := by
    simp [gotoToCount, MavLabel.IsReply]
  have hafter : ∀ e ∈ [MavLabel.recv, .recv, .recv, .recv], e.IsReply := by
    simp [MavLabel.IsReply]
  refine ⟨_, _, rfl, rfl, ?_⟩
  apply (engagedOnce_iff_not_arming hready (.inl ⟨{}, rfl⟩) hbefore hafter rfl rfl rfl rfl).mpr
  rfl

end MavSystem

end CapFmu
