import CapFmu.Mav.Takeover

/-!
# A deferred mode and the commands after it

A mode command given before the vehicle type is known is kept in the pending slot, and the
recv thread replays it when a heartbeat brings the type: it copies the slot in one section,
writes the packet in another and clears the slot in a third. Setting another mode empties
the slot or takes it over. A disarm, a forced disarm and a termination leave it alone.

Commands are numbered as the event loop is given them, and each packet that changes the mode
is written under its command's number. Three orders write an older command's packet after a
newer one's: the slot still holds the older command after a disarm or a termination was
written, the event loop writes a packet between the copy and the replay's packet, or the
slot is copied between the packet of a newer mode and the section that empties the slot. In
every other order the numbers on the wire never decrease.
-/

namespace CapFmu

open Transition

/-- A packet that changes the mode, disarms or terminates. -/
def Packet.changesMode : Packet → Bool
  | setMode _ | armDisarm _ | flightTermination => true
  | missionCount _ | missionSetCurrent _ | missionItem _ => false

/-- A packet of a disarm or a termination. -/
def Packet.isDirect : Packet → Bool
  | armDisarm _ | flightTermination => true
  | setMode _ | missionCount _ | missionSetCurrent _ | missionItem _ => false

/-- Whether the event loop's next section writes a packet that changes the mode. -/
def LoopPc.writesMode : LoopPc → Bool
  | modeSend _ _ _ | directSend _ => true
  | _ => false

/-- Whether the event loop is between the packet of a mode command and the section that
empties the slot. -/
def LoopPc.settling : LoopPc → Bool
  | modeSettle _ => true
  | _ => false

/-- Whether the recv thread's next section copies the slot, if it holds a command. -/
def RecvPc.copying : RecvPc → Bool
  | replayCopy t => decide (t ≠ .other)
  | _ => false

/-- Whether the recv thread is between copying the slot and writing the copy's packet. -/
def RecvPc.replaying : RecvPc → Bool
  | replaySend _ _ => true
  | _ => false

/-- Whether the recv thread is processing an acknowledgement. -/
def RecvPc.acknowledging : RecvPc → Bool
  | selecting _ _ | autoResolve _ | autoSend _ _ | autoSettle _ | autoDefer _ => true
  | _ => false

/-- While the vehicle type is not known, no command resolves. -/
theorem resolveMode_other (command : MavModeCommand) : resolveMode .other command = none := by
  unfold resolveMode
  split
  · next h => exact absurd h (by simp [resolveMavMode])
  · rfl

/-- The connection's threads with the numbers of the commands: how many were given, the one
deferred last, the one copied last, and the packets that change the mode, each under its
command's number, oldest first. -/
structure NumberedSystem where
  sys : MavSystem
  issued : ℕ := 0
  deferred : ℕ := 0
  copied : ℕ := 0
  modes : List (ℕ × Packet) := []

namespace NumberedSystem

/-- A connection as it is constructed. -/
def init : NumberedSystem := { sys := { conn := {} } }

/-- The packets that change the mode among those written, under their commands' numbers. -/
def numbered (s : NumberedSystem) (written : List WireEntry) : List (ℕ × Packet) :=
  (written.filter fun entry => entry.packet.changesMode).map fun entry =>
    (if entry.writer = .replay then s.copied else s.issued, entry.packet)

/-- The numbers after a step that leads to the given threads. -/
def next (s : NumberedSystem) (e : MavLabel) (sys : MavSystem) : NumberedSystem :=
  { sys := sys
    issued := match e with
      | .call _ => s.issued + 1
      | _ => s.issued
    deferred := match e with
      | .loop => if s.sys.loop.deferring then s.issued else s.deferred
      | _ => s.deferred
    copied := match e with
      | .recv => if sys.recv.replaying then s.deferred else s.copied
      | _ => s.copied
    modes := s.modes ++ s.numbered (sys.wire.drop s.sys.wire.length) }

/-- One step of the threads. -/
def step (s : NumberedSystem) (e : MavLabel) : Option NumberedSystem :=
  (s.sys.step e).map (s.next e)

/-- No packet is written after one of a newer command. -/
def InOrder (s : NumberedSystem) : Prop := s.modes.Pairwise fun earlier later => earlier.1 ≤ later.1

instance : DecidablePred InOrder := fun s => inferInstanceAs (Decidable (s.modes.Pairwise _))

/-- The step falls in none of the windows: the event loop writes no packet between the copy
and the packet of a replay, and the slot is copied neither after the packet of a disarm or a
termination given since, nor between the packet of a newer mode and its settling. -/
def Undisturbed (s : NumberedSystem) : MavLabel → Prop
  | .loop => s.sys.loop.writesMode = true → s.sys.conn.fdOpen = true → s.sys.recv.replaying = false
  | .recv => s.sys.recv.copying = true → s.sys.conn.pendingModeCommand ≠ none →
      (∀ mode ∈ s.modes, mode.2.isDirect = true → mode.1 ≤ s.deferred) ∧
        (s.sys.loop.settling = true → ∀ mode ∈ s.modes, mode.1 ≠ s.issued)
  | _ => True

instance (s : NumberedSystem) : ∀ e, Decidable (s.Undisturbed e)
  | .loop => inferInstanceAs (Decidable (_ → _ → _))
  | .recv => inferInstanceAs (Decidable (_ → _ → _ ∧ _))
  | .call _ | .heartbeat _ | .missionAck _ | .missionRequest _ _ | .autopilotRestart | .commsLost
  | .setLink _ | .progress _ _ => isTrue trivial

/-- What holds in every state: the wire is in order and no packet is newer than the commands
given; of the packets newer than the slot, each is a disarm's or a termination's, or that of
the mode being settled; and a copy about to be written is as new as the wire, and no newer
than the slot. -/
structure Ordered (s : NumberedSystem) : Prop where
  inOrder : s.InOrder
  modes_le : ∀ mode ∈ s.modes, mode.1 ≤ s.issued
  deferred_le : s.deferred ≤ s.issued
  newer : s.sys.conn.pendingModeCommand ≠ none → ∀ mode ∈ s.modes, s.deferred < mode.1 →
    mode.2.isDirect = true ∨ (s.sys.loop.settling = true ∧ mode.1 = s.issued)
  copied_le : s.copied ≤ s.issued
  copied_newest : s.sys.recv.replaying = true → ∀ mode ∈ s.modes, mode.1 ≤ s.copied
  copied_slot : s.sys.recv.replaying = true → s.sys.conn.pendingModeCommand ≠ none →
    s.copied ≤ s.deferred
  notAcknowledging : s.sys.recv.acknowledging = false

variable {s t : NumberedSystem}

/-- Only packets that change the mode are numbered. -/
theorem numbered_written (s : NumberedSystem) (packet : Packet) (writer : Writer) :
    s.numbered (s.sys.conn.written packet writer) =
      if s.sys.conn.fdOpen && packet.changesMode then
        [(if writer = .replay then s.copied else s.issued, packet)]
      else [] := by
  unfold MavConnection.written
  cases s.sys.conn.fdOpen <;> cases hmode : packet.changesMode <;> simp [numbered, hmode]

/-- The packets on the wire after a step that appends to it. -/
theorem modes_next (s : NumberedSystem) (e : MavLabel) {sys : MavSystem} {written : List WireEntry}
    (hwire : sys.wire = s.sys.wire ++ written) :
    (s.next e sys).modes = s.modes ++ s.numbered written := by
  change s.modes ++ s.numbered (sys.wire.drop s.sys.wire.length) = _
  rw [hwire, List.drop_left]

/-- A step that writes no such packet, defers nothing and copies nothing keeps the order. -/
theorem ordered_quiet (h : s.Ordered) (hmodes : t.modes = s.modes) (hissued : s.issued ≤ t.issued)
    (hdeferred : t.deferred = s.deferred) (hcopied : t.copied = s.copied)
    (hslot : t.sys.conn.pendingModeCommand ≠ none → s.sys.conn.pendingModeCommand ≠ none ∧
      (s.sys.loop.settling = true → t.sys.loop.settling = true ∧ t.issued = s.issued))
    (hreplaying : t.sys.recv.replaying = true → s.sys.recv.replaying = true)
    (hack : t.sys.recv.acknowledging = false) : t.Ordered := by
  constructor
  · rw [InOrder, hmodes]
    exact h.inOrder
  · rw [hmodes]
    exact fun mode hmem => (h.modes_le mode hmem).trans hissued
  · rw [hdeferred]
    exact h.deferred_le.trans hissued
  · rw [hmodes, hdeferred]
    intro hpending mode hmem hlt
    obtain ⟨hbefore, hsettling⟩ := hslot hpending
    apply (h.newer hbefore mode hmem hlt).imp_right
    rintro ⟨hsettle, heq⟩
    exact ⟨(hsettling hsettle).1, heq.trans (hsettling hsettle).2.symm⟩
  · rw [hcopied]
    exact h.copied_le.trans hissued
  · rw [hmodes, hcopied]
    exact fun hreplay => h.copied_newest (hreplaying hreplay)
  · rw [hdeferred, hcopied]
    exact fun hreplay hpending => h.copied_slot (hreplaying hreplay) (hslot hpending).1
  · exact hack

/-- The newest command's packet keeps the order, when no copy is about to be written. -/
theorem inOrder_concat (h : s.InOrder) {mode : ℕ × Packet} (hmode : ∀ m ∈ s.modes, m.1 ≤ mode.1) :
    (s.modes ++ [mode]).Pairwise fun earlier later => earlier.1 ≤ later.1 := by
  apply List.pairwise_append.mpr
  refine ⟨h, List.pairwise_singleton _ mode, ?_⟩
  intro m hm n hn
  rw [List.mem_singleton.mp hn]
  exact hmode m hm

/-- The event loop writes the packet of its command: the wire is no older than the command
now, and if the slot is, the packet is a direct command's or the mode's still to settle. -/
theorem ordered_write (h : s.Ordered) {packet : Packet}
    (hmodes : t.modes = s.modes ++ [(s.issued, packet)]) (hissued : t.issued = s.issued)
    (hdeferred : t.deferred = s.deferred) (hcopied : t.copied = s.copied)
    (hslot : t.sys.conn.pendingModeCommand = s.sys.conn.pendingModeCommand)
    (hbefore : s.sys.loop.settling = false)
    (hpacket : packet.isDirect = true ∨ t.sys.loop.settling = true)
    (hreplaying : t.sys.recv.replaying = false)
    (hack : t.sys.recv.acknowledging = false) : t.Ordered := by
  constructor
  · rw [InOrder, hmodes]
    exact inOrder_concat h.inOrder h.modes_le
  · rw [hmodes, hissued]
    intro mode hmem
    rcases List.mem_append.mp hmem with hold | hnew
    · exact h.modes_le mode hold
    · rw [List.mem_singleton.mp hnew]
  · rw [hdeferred, hissued]
    exact h.deferred_le
  · rw [hmodes, hdeferred, hslot, hissued]
    intro hpending mode hmem hlt
    rcases List.mem_append.mp hmem with hold | hnew
    · rcases h.newer hpending mode hold hlt with hdirect | ⟨hsettling, -⟩
      · exact Or.inl hdirect
      · exact absurd hsettling (by simp [hbefore])
    · rw [List.mem_singleton.mp hnew]
      exact hpacket.imp_right fun hsettling => ⟨hsettling, rfl⟩
  · rw [hcopied, hissued]
    exact h.copied_le
  · exact fun hreplay => absurd hreplay (by simp [hreplaying])
  · exact fun hreplay => absurd hreplay (by simp [hreplaying])
  · exact hack

/-- A section of the event loop that writes no such packet and leaves the slot alone, or
empties it, keeps the order. -/
theorem ordered_loop_quiet (h : s.Ordered) {conn : MavConnection} {loop : LoopPc}
    {written : List WireEntry} (hdeferring : s.sys.loop.deferring = false)
    (hwritten : s.numbered written = [])
    (hslot : conn.pendingModeCommand = none ∨
      (conn.pendingModeCommand = s.sys.conn.pendingModeCommand ∧ s.sys.loop.settling = false)) :
    (s.next .loop { s.sys with
      conn := conn, loop := loop, wire := s.sys.wire ++ written }).Ordered := by
  apply ordered_quiet h
  · rw [modes_next s .loop rfl, hwritten, List.append_nil]
  · exact Nat.le_refl s.issued
  · simp [next, hdeferring]
  · rfl
  · intro hpending
    rcases hslot with hnone | ⟨hsame, hsettling⟩
    · exact absurd hnone hpending
    · exact ⟨hsame ▸ hpending, fun hsettle => absurd hsettle (by simp [hsettling])⟩
  · exact id
  · exact h.notAcknowledging

/-- A section of the event loop that writes the packet of its command keeps the order. -/
theorem ordered_loop_write (h : s.Ordered) {packet : Packet} {writer : Writer} {loop : LoopPc}
    (hwrites : s.sys.loop.writesMode = true) (hcond : s.Undisturbed .loop)
    (hmode : packet.changesMode = true) (hwriter : writer ≠ .replay)
    (hpacket : packet.isDirect = true ∨ loop.settling = true) :
    (s.next .loop { s.sys with
      loop := loop, wire := s.sys.wire ++ s.sys.conn.written packet writer }).Ordered := by
  have hdeferring : s.sys.loop.deferring = false := by
    cases hloop : s.sys.loop <;> simp_all [LoopPc.writesMode, LoopPc.deferring]
  have hsettling : s.sys.loop.settling = false := by
    cases hloop : s.sys.loop <;> simp_all [LoopPc.writesMode, LoopPc.settling]
  cases hopen : s.sys.conn.fdOpen with
  | false =>
    apply ordered_loop_quiet h hdeferring
    · simp [numbered_written, hopen]
    · exact Or.inr ⟨rfl, hsettling⟩
  | true =>
    apply ordered_write h
    · rw [modes_next s .loop rfl, numbered_written, hopen, hmode, if_neg hwriter]
      rfl
    · rfl
    · simp [next, hdeferring]
    · rfl
    · rfl
    · exact hsettling
    · exact hpacket
    · exact hcond hwrites hopen
    · exact h.notAcknowledging

/-- Deferring the command puts the newest in the slot. -/
theorem ordered_defer (h : s.Ordered) {m : TakeoverMode} {after : AfterMode} {sys : MavSystem}
    (hloop : s.sys.loop = .modeDefer m after) (hwire : sys.wire = s.sys.wire ++ [])
    (hrecv : sys.recv = s.sys.recv) : (s.next .loop sys).Ordered := by
  have hmodes : (s.next .loop sys).modes = s.modes := by
    rw [modes_next s .loop hwire]
    exact List.append_nil s.modes
  have hdeferred : (s.next .loop sys).deferred = s.issued := by
    simp [next, hloop, LoopPc.deferring]
  constructor
  · rw [InOrder, hmodes]
    exact h.inOrder
  · rw [hmodes]
    exact h.modes_le
  · exact hdeferred.le
  · rw [hmodes, hdeferred]
    exact fun _ mode hmem hlt => absurd (h.modes_le mode hmem) (Nat.not_le.mpr hlt)
  · exact h.copied_le
  · rw [hmodes]
    exact fun hreplay => h.copied_newest (hrecv ▸ hreplay)
  · rw [hdeferred]
    exact fun _ _ => h.copied_le
  · exact (congrArg RecvPc.acknowledging hrecv).trans h.notAcknowledging

/-- A section of the event loop outside the windows keeps the order. -/
theorem ordered_stepLoop (h : s.Ordered) (hcond : s.Undisturbed .loop) {sys : MavSystem}
    (hstep : s.sys.stepLoop = some sys) : (s.next .loop sys).Ordered := by
  unfold MavSystem.stepLoop at hstep
  cases hloop : s.sys.loop with
  | idle => simp [hloop, loopSection] at hstep
  | resolve m after =>
    cases hr : resolveMode s.sys.conn.autopilotType m.command with
    | none =>
      rw [hloop, loopSection, hr] at hstep
      cases hstep
      exact ordered_loop_quiet h (by simp [hloop, LoopPc.deferring]) rfl
        (Or.inr ⟨rfl, by simp [hloop, LoopPc.settling]⟩)
    | some r =>
      rw [hloop, loopSection, hr] at hstep
      cases hstep
      exact ordered_loop_quiet h (by simp [hloop, LoopPc.deferring]) rfl
        (Or.inr ⟨rfl, by simp [hloop, LoopPc.settling]⟩)
  | modeSend m r after =>
    rw [hloop] at hstep
    cases hstep
    apply ordered_loop_write h (by rw [hloop]; rfl) hcond rfl
    · cases after <;> rintro ⟨⟩
    · exact Or.inr rfl
  | modeSettle after =>
    rw [hloop] at hstep
    cases hstep
    exact ordered_loop_quiet h (by simp [hloop, LoopPc.deferring]) rfl (Or.inl rfl)
  | modeDefer m after =>
    rw [hloop] at hstep
    cases hstep
    exact ordered_defer h hloop rfl rfl
  | directSend d =>
    rw [hloop] at hstep
    cases hstep
    apply ordered_loop_write h (by rw [hloop]; rfl) hcond
    · cases d <;> rfl
    · rintro ⟨⟩
    · left
      cases d <;> rfl
  | directSettle | gotoActivate p | gotoArm | searchArm q =>
    rw [hloop] at hstep
    cases hstep
    exact ordered_loop_quiet h (by simp [hloop, LoopPc.deferring]) rfl
      (Or.inr ⟨rfl, by simp [hloop, LoopPc.settling]⟩)
  | gotoCount | searchCount q =>
    rw [hloop] at hstep
    cases hstep
    apply ordered_loop_quiet h (by simp [hloop, LoopPc.deferring])
    · simp [numbered_written, MavConnection.gotoCount, MavConnection.searchCount,
        Packet.changesMode]
    · exact Or.inr ⟨rfl, by simp [hloop, LoopPc.settling]⟩
  | loadCheck q =>
    simp only [hloop, loopSection, Option.map_some] at hstep
    rw [MavConnection.checkReload_fst] at hstep
    cases hstep
    apply ordered_loop_quiet h (by simp [hloop, LoopPc.deferring]) rfl
    exact Or.inr ⟨rfl, by simp [hloop, LoopPc.settling]⟩

/-- A section of the recv thread that writes no such packet, copies nothing and at most
empties the slot keeps the order. -/
theorem ordered_recv_quiet (h : s.Ordered) {conn : MavConnection} {recv : RecvPc}
    {written : List WireEntry} (hwritten : s.numbered written = [])
    (hslot : conn.pendingModeCommand = none ∨
      conn.pendingModeCommand = s.sys.conn.pendingModeCommand)
    (hreplaying : recv.replaying = false) (hack : recv.acknowledging = false) :
    (s.next .recv { s.sys with
      conn := conn, recv := recv, wire := s.sys.wire ++ written }).Ordered := by
  apply ordered_quiet h
  · rw [modes_next s .recv rfl, hwritten, List.append_nil]
  · exact Nat.le_refl s.issued
  · rfl
  · simp [next, hreplaying]
  · intro hpending
    rcases hslot with hnone | hsame
    · exact absurd hnone hpending
    · exact ⟨hsame ▸ hpending, fun hsettling => ⟨hsettling, rfl⟩⟩
  · exact fun hreplay => absurd (hreplaying.symm.trans hreplay) Bool.false_ne_true
  · exact hack

/-- A copy made outside the windows is as new as the wire. -/
theorem ordered_copy (h : s.Ordered) (hcond : s.Undisturbed .recv)
    (hcopying : s.sys.recv.copying = true) (hpending : s.sys.conn.pendingModeCommand ≠ none)
    {recv : RecvPc} (hreplaying : recv.replaying = true) (hack : recv.acknowledging = false) :
    (s.next .recv { s.sys with recv := recv, wire := s.sys.wire ++ [] }).Ordered := by
  have hmodes : (s.next .recv { s.sys with
      recv := recv, wire := s.sys.wire ++ [] }).modes = s.modes := by
    rw [modes_next s .recv rfl]
    exact List.append_nil s.modes
  have hcopied : (s.next .recv { s.sys with
      recv := recv, wire := s.sys.wire ++ [] }).copied = s.deferred := by
    simp [next, hreplaying]
  obtain ⟨hdirects, hsettles⟩ := hcond hcopying hpending
  have hnewest : ∀ mode ∈ s.modes, mode.1 ≤ s.deferred := by
    intro mode hmem
    by_contra hlt
    rcases h.newer hpending mode hmem (Nat.lt_of_not_le hlt) with hdirect | ⟨hsettling, heq⟩
    · exact hlt (hdirects mode hmem hdirect)
    · exact hsettles hsettling mode hmem heq
  constructor
  · rw [InOrder, hmodes]
    exact h.inOrder
  · rw [hmodes]
    exact h.modes_le
  · exact h.deferred_le
  · rw [hmodes]
    exact h.newer
  · rw [hcopied]
    exact h.deferred_le
  · rw [hmodes, hcopied]
    exact fun _ => hnewest
  · exact fun _ _ => hcopied.le
  · exact hack

/-- A replay's packet is the newest on the wire. -/
theorem ordered_replay (h : s.Ordered) {command : MavModeCommand} {r : ResolvedMode command}
    (hrecv : s.sys.recv = .replaySend command r) :
    (s.next .recv { s.sys with
      recv := .replayClear command
      wire := s.sys.wire ++ s.sys.conn.written (.setMode r.fmode) .replay }).Ordered := by
  have hreplaying : s.sys.recv.replaying = true := by rw [hrecv]; rfl
  cases hopen : s.sys.conn.fdOpen with
  | false =>
    apply ordered_recv_quiet h
    · simp [numbered_written, hopen]
    · exact Or.inr rfl
    · rfl
    · rfl
  | true =>
    have hmodes : (s.next .recv { s.sys with
        recv := .replayClear command
        wire := s.sys.wire ++ s.sys.conn.written (.setMode r.fmode) .replay }).modes =
          s.modes ++ [(s.copied, .setMode r.fmode)] := by
      rw [modes_next s .recv rfl, numbered_written, hopen]
      rfl
    constructor
    · rw [InOrder, hmodes]
      exact inOrder_concat h.inOrder (h.copied_newest hreplaying)
    · rw [hmodes]
      intro mode hmem
      rcases List.mem_append.mp hmem with hold | hnew
      · exact h.modes_le mode hold
      · exact List.mem_singleton.mp hnew ▸ h.copied_le
    · exact h.deferred_le
    · rw [hmodes]
      intro hpending mode hmem hlt
      rcases List.mem_append.mp hmem with hold | hnew
      · exact h.newer hpending mode hold hlt
      · rw [List.mem_singleton.mp hnew] at hlt
        exact absurd (h.copied_slot hreplaying hpending) (Nat.not_le.mpr hlt)
    · exact h.copied_le
    · rintro ⟨⟩
    · rintro ⟨⟩
    · rfl

/-- A section of the recv thread outside the windows keeps the order. -/
theorem ordered_stepRecv (h : s.Ordered) (hcond : s.Undisturbed .recv) {sys : MavSystem}
    (hstep : s.sys.stepRecv = some sys) : (s.next .recv sys).Ordered := by
  unfold MavSystem.stepRecv at hstep
  cases hrecv : s.sys.recv with
  | idle => simp [hrecv, recvSection] at hstep
  | selecting _ _ | autoResolve _ | autoSend _ _ | autoSettle _ | autoDefer _ =>
    exact absurd h.notAcknowledging (by simp [hrecv, RecvPc.acknowledging])
  | replayCopy vehicle =>
    cases hpending : s.sys.conn.pendingModeCommand with
    | none =>
      simp only [hrecv, recvSection, hpending, Option.map_some] at hstep
      cases hstep
      exact ordered_recv_quiet h rfl (Or.inr rfl) rfl rfl
    | some command =>
      cases hr : resolveMode vehicle command with
      | none =>
        simp only [hrecv, recvSection, hpending, hr, Option.map_some] at hstep
        cases hstep
        exact ordered_recv_quiet h rfl (Or.inr rfl) rfl rfl
      | some r =>
        have hknown : vehicle ≠ .other := by
          rintro rfl
          exact absurd hr (by simp [resolveMode_other])
        simp only [hrecv, recvSection, hpending, hr, Option.map_some] at hstep
        cases hstep
        apply ordered_copy h hcond
        · simp [hrecv, RecvPc.copying, hknown]
        · simp [hpending]
        · rfl
        · rfl
  | replaySend command r =>
    rw [hrecv] at hstep
    cases hstep
    exact ordered_replay h hrecv
  | replayClear command =>
    rw [hrecv] at hstep
    cases hstep
    have hslot : (s.sys.conn.clearReplayed command).pendingModeCommand =
        if s.sys.conn.pendingModeCommand = some command then none
        else s.sys.conn.pendingModeCommand := rfl
    apply ordered_recv_quiet h rfl
    · rw [hslot]
      exact ite_eq_or_eq _ _ _
    · rfl
    · rfl
  | waypointSend item =>
    rw [hrecv] at hstep
    cases hstep
    apply ordered_recv_quiet h
    · simp [numbered_written, Packet.changesMode]
    · exact Or.inr rfl
    · rfl
    · rfl

/-- A step of neither thread that leaves the event loop and the slot alone keeps the order. -/
theorem ordered_outside (h : s.Ordered) {e : MavLabel} {sys : MavSystem}
    (hissued : (s.next e sys).issued = s.issued) (hdeferred : (s.next e sys).deferred = s.deferred)
    (hcopied : (s.next e sys).copied = s.copied) (hwire : sys.wire = s.sys.wire)
    (hloop : sys.loop = s.sys.loop)
    (hslot : sys.conn.pendingModeCommand = s.sys.conn.pendingModeCommand)
    (hrecv : sys.recv = s.sys.recv ∨
      (sys.recv.replaying = false ∧ sys.recv.acknowledging = false)) :
    (s.next e sys).Ordered := by
  apply ordered_quiet h
  · rw [modes_next s e (hwire.trans (List.append_nil _).symm)]
    exact List.append_nil s.modes
  · exact hissued.ge
  · exact hdeferred
  · exact hcopied
  · exact fun hpending => ⟨hslot ▸ hpending, fun hsettling =>
      ⟨(congrArg LoopPc.settling hloop).trans hsettling, hissued⟩⟩
  · rcases hrecv with hsame | ⟨hreplaying, -⟩
    · exact fun hreplay => (congrArg RecvPc.replaying hsame).symm.trans hreplay
    · exact fun hreplay => absurd (hreplaying.symm.trans hreplay) Bool.false_ne_true
  · rcases hrecv with hsame | ⟨-, hack⟩
    · exact (congrArg RecvPc.acknowledging hsame).trans h.notAcknowledging
    · exact hack

/-- A new command, given when the one before is carried out, keeps the order. -/
theorem ordered_call (h : s.Ordered) (command : MavCall) (hloop : s.sys.loop = .idle) :
    (s.next (.call command) { s.sys with loop := command.entry }).Ordered := by
  apply ordered_quiet h
  · have hwire : ({ s.sys with loop := command.entry } : MavSystem).wire = s.sys.wire ++ [] :=
      (List.append_nil s.sys.wire).symm
    rw [modes_next s (.call command) hwire]
    exact List.append_nil s.modes
  · exact Nat.le_add_right s.issued 1
  · rfl
  · rfl
  · exact fun hpending => ⟨hpending, fun hsettling => absurd hsettling (by simp [hloop,
      LoopPc.settling])⟩
  · exact id
  · exact h.notAcknowledging

/-- A message that is no acknowledgement starts sections that keep the order. -/
theorem ordered_receive (h : s.Ordered) {e : MavLabel}
    (hack : ∀ accepted, e ≠ .missionAck accepted) {sys : MavSystem}
    (hstep : s.sys.receive e = some sys) : (s.next e sys).Ordered := by
  cases e with
  | heartbeat vehicle =>
    cases hstep
    exact ordered_outside h rfl rfl rfl rfl rfl rfl (Or.inr ⟨rfl, rfl⟩)
  | missionAck accepted => exact absurd rfl (hack accepted)
  | missionRequest seq missionType =>
    obtain ⟨reply, -, rfl⟩ := Option.map_eq_some_iff.mp hstep
    cases reply with
    | none => exact ordered_outside h rfl rfl rfl rfl rfl rfl (Or.inr ⟨rfl, rfl⟩)
    | some item => exact ordered_outside h rfl rfl rfl rfl rfl rfl (Or.inr ⟨rfl, rfl⟩)
  | autopilotRestart =>
    cases hstep
    exact ordered_outside h rfl rfl rfl rfl rfl rfl (Or.inl rfl)
  | loop | recv | call _ | commsLost | setLink _ | progress _ _ => cases hstep

/-- A step outside the windows keeps the order. -/
theorem ordered_step (h : s.Ordered) {e : MavLabel} (hcond : s.Undisturbed e)
    (hack : ∀ accepted, e ≠ .missionAck accepted) (hstep : s.step e = some t) : t.Ordered := by
  obtain ⟨sys, hsys, rfl⟩ := Option.map_eq_some_iff.mp hstep
  cases e with
  | loop => exact ordered_stepLoop h hcond hsys
  | recv => exact ordered_stepRecv h hcond hsys
  | call command =>
    cases hloop : s.sys.loop with
    | idle =>
      simp only [MavSystem.step, hloop, Option.some.injEq] at hsys
      exact hsys ▸ ordered_call h command hloop
    | _ => simp [MavSystem.step, hloop] at hsys
  | heartbeat _ | missionAck _ | missionRequest _ _ | autopilotRestart =>
    cases hrecv : s.sys.recv with
    | idle =>
      simp only [MavSystem.step, hrecv] at hsys
      exact ordered_receive h hack hsys
    | _ => simp [MavSystem.step, hrecv] at hsys
  | commsLost | setLink _ | progress _ _ =>
    cases hsys
    exact ordered_outside h rfl rfl rfl rfl rfl rfl (Or.inl rfl)

/-- Nothing is written on a connection as it is constructed. -/
theorem ordered_init : init.Ordered :=
  { inOrder := List.Pairwise.nil
    modes_le := by rintro _ ⟨⟩
    deferred_le := Nat.le_refl 0
    newer := fun hpending => absurd rfl hpending
    copied_le := Nat.le_refl 0
    copied_newest := fun hreplaying => absurd hreplaying Bool.false_ne_true
    copied_slot := fun hreplaying => absurd hreplaying Bool.false_ne_true
    notAcknowledging := rfl }

/-- In every run of the event loop's commands against the replays of the recv thread in which
each step is outside the windows, no packet that changes the mode is written after one of a
newer command, so that the last one on the wire is always the newest. -/
theorem inOrder_of_undisturbed {labels : List MavLabel}
    (hack : ∀ e ∈ labels, ∀ accepted, e ≠ .missionAck accepted)
    (hcond : Along step Undisturbed init labels) :
    ∀ es t, es <+: labels → run step init es = some t → t.InOrder := by
  apply (forall_prefix_iff_along labels ordered_init.inOrder).mpr
  apply along_of_along Ordered _ _ ordered_init (along_and hcond (along_of_forall_mem hack))
  · exact fun s e h hstep t ht => (ordered_step h hstep.1 hstep.2 ht).inOrder
  · exact fun s e t h hstep => ordered_step h hstep.1 hstep.2

/-- A return to launch deferred before the first heartbeat, replayed on it, and a termination
after that. -/
def rtlReplayedThenTerminate : List MavLabel :=
  [.setLink true, .call .rtl, .loop, .loop, .heartbeat .quadrotor, .recv, .recv, .recv,
    .call .terminate, .loop, .loop]

/-- The termination is the last on the wire. -/
theorem rtlReplayedThenTerminate_in_order :
    ∃ t, run step init rtlReplayedThenTerminate = some t ∧
      t.modes = [(1, .setMode .copterRtl), (2, .flightTermination)] ∧ t.InOrder := by
  have hack : ∀ e ∈ rtlReplayedThenTerminate, ∀ accepted, e ≠ .missionAck accepted := by
    simp [rtlReplayedThenTerminate]
  exact ⟨_, rfl, by decide, inOrder_of_undisturbed hack (by decide) _ _ List.prefix_rfl rfl⟩

/-- A return to launch deferred before the first heartbeat, and a termination before it. -/
def rtlThenTerminate : List MavLabel :=
  [.setLink true, .call .rtl, .loop, .loop, .call .terminate, .loop, .loop,
    .heartbeat .quadrotor, .recv, .recv]

/-- The first heartbeat has the return to launch written after the termination. -/
theorem rtlThenTerminate_out_of_order :
    ∃ t, run step init rtlThenTerminate = some t ∧
      t.modes = [(2, .flightTermination), (1, .setMode .copterRtl)] ∧ ¬ t.InOrder :=
  ⟨_, rfl, by decide, by decide⟩

end NumberedSystem

end CapFmu
