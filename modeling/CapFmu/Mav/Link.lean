import CapFmu.StateMachine.Arbitration
import CapFmu.Transition.Run

/-!
# The autopilot link and its reports

The heartbeat thread computes once a second whether the link is up, from the open socket
and the stamp of the last heartbeat, and reports every change to the state machine through
the event queue. The stamp is not reset when the socket is replaced, so for a while after a
fast reconnect it speaks for a socket that is gone.

Sockets are numbered in the order in which they were published. Times are milliseconds of
one clock that never goes back, on which no difference of stamps wraps.
-/

namespace CapFmu

/-- Milliseconds without a heartbeat after which the link is down. -/
def heartbeatTimeoutMs : ℕ := 5000

/-- Whether the link is up. -/
def mavCommsIsUp (fdOpen : Bool) (now lastHeartbeatTs timeoutMs : ℕ) : Bool :=
  if !fdOpen then false
  else if now < lastHeartbeatTs then true
  else decide (now - lastHeartbeatTs ≤ timeoutMs)

/-- Whether an open socket has been silent for so long that it should be replaced. -/
def mavLinkShouldRetire (fdOpen : Bool) (now lastHeartbeatTs connectedSinceTs timeoutMs : ℕ) :
    Bool :=
  if !fdOpen then false
  else if now < max lastHeartbeatTs connectedSinceTs then false
  else decide (timeoutMs < now - max lastHeartbeatTs connectedSinceTs)

/-- The milliseconds after the last dial at which the next one is due. -/
def retryDelayMs : ℕ → ℕ
  | 0 => 1000
  | 1 => 2000
  | 2 => 4000
  | 3 => 8000
  | 4 => 15000
  | _ => 30000

/-- A report on the link. -/
inductive MavCommsStatus
  | ok
  | failure
  deriving DecidableEq, Repr

/-- The report of a computed status. -/
def MavCommsStatus.ofUp (up : Bool) : MavCommsStatus := if up then ok else failure

/-- The event that a report becomes. -/
def MavCommsStatus.event : MavCommsStatus → FmuEvent
  | ok => .setMavCommsFailure false
  | failure => .setMavCommsFailure true

/-- The link: the open socket, the stamps, the reports not yet handled and the state machine
that handles them. Three fields record the run and are read by no operation: when the open
socket was last heard, on which socket the link was last computed as up, and the last report. -/
structure MavLink where
  clock : ℕ
  machine : FmuStateMachine
  fd : Option ℕ := none
  sockets : ℕ := 0
  broken : Bool := false
  lastTried : ℕ := 0
  retryCount : ℕ := 0
  lastHeartbeatTs : ℕ := 0
  connectedSinceTs : ℕ := 0
  mavCommsOk : Bool := true
  queue : List MavCommsStatus := []
  heard : Option ℕ := none
  lastUp : Option ℕ := none
  lastReport : Option MavCommsStatus := none

/-- What can happen; a dial says whether it succeeds. -/
inductive LinkLabel
  | wait (ms : ℕ)
  | connect (dials : Bool)
  | disconnect
  | attemptReconnect (dials : Bool)
  | fault
  | heartbeat
  | tick
  | event (e : FmuEvent)
  | dispatch

namespace MavLink

/-- Dial, and publish the socket if that succeeds. -/
def connectToMav (s : MavLink) (dials : Bool) : MavLink :=
  let tried := { s with lastTried := s.clock }
  if dials then
    { tried with
      retryCount := 0
      broken := false
      connectedSinceTs := s.clock
      fd := some s.sockets
      sockets := s.sockets + 1
      heard := none }
  else tried

/-- Close the socket. -/
def disconnectFromMav (s : MavLink) : MavLink := { s with fd := none, heard := none }

/-- Close a broken socket. -/
def closeBroken (s : MavLink) : MavLink :=
  if s.broken then { s.disconnectFromMav with broken := false } else s

/-- With no socket open, dial once the next dial is due. -/
def dialWhenDue (s : MavLink) (dials : Bool) : MavLink :=
  if s.fd = none ∧ retryDelayMs s.retryCount < s.clock - s.lastTried then
    connectToMav { s with retryCount := (s.retryCount + 1) % 2 ^ 16 } dials
  else s

/-- One pass of the reconnector. -/
def attemptReconnect (s : MavLink) (dials : Bool) : MavLink := s.closeBroken.dialWhenDue dials

/-- A heartbeat of the autopilot. The recv thread of a socket being closed may still process
one, which is not heard on an open socket. -/
def receiveHeartbeat (s : MavLink) : MavLink :=
  { s with lastHeartbeatTs := s.clock, heard := s.fd.map fun _ => s.clock }

/-- Whether the link is up. -/
def up (s : MavLink) : Bool :=
  mavCommsIsUp s.fd.isSome s.clock s.lastHeartbeatTs heartbeatTimeoutMs

/-- Report a change of the computed status. -/
def report (s : MavLink) : MavLink :=
  if s.up ≠ s.mavCommsOk then
    { s with
      mavCommsOk := s.up
      queue := s.queue ++ [.ofUp s.up]
      lastReport := some (.ofUp s.up) }
  else s

/-- One pass of the heartbeat thread. -/
def heartbeatLoop (s : MavLink) : MavLink :=
  { s.report with
    broken := s.broken || mavLinkShouldRetire s.fd.isSome s.clock s.lastHeartbeatTs
      s.connectedSinceTs heartbeatTimeoutMs
    lastUp := if s.up then s.fd else s.lastUp }

/-- One step. Only an unconnected link is connected, a heartbeat needs a socket to have come
from, and the reports reach the state machine through the queue alone. -/
def step (s : MavLink) : LinkLabel → Option MavLink
  | .wait ms => some { s with clock := s.clock + ms }
  | .connect dials => if s.fd = none then some (s.connectToMav dials) else none
  | .disconnect => some s.disconnectFromMav
  | .attemptReconnect dials => some (s.attemptReconnect dials)
  | .fault => some { s with broken := true }
  | .heartbeat => if 0 < s.sockets then some s.receiveHeartbeat else none
  | .tick => some s.heartbeatLoop
  | .event (.setMavCommsFailure _) => none
  | .event e => some { s with machine := (s.machine.handle e).1 }
  | .dispatch =>
    match s.queue with
    | [] => none
    | status :: rest =>
      some { s with machine := (s.machine.handle status.event).1, queue := rest }

/-- Whether the open socket replaced an earlier one. -/
def replacing (s : MavLink) : Bool :=
  match s.fd with
  | none => false
  | some n => decide (0 < n)

/-- What a step promises. A pass that computes the link as up has heard the autopilot on the
open socket within the timeout, and if it is the first such pass on a replacing socket, it
reports the link up after the last report was a failure. The report that the link is back
has the commanded state carried out again. -/
def Sound (s : MavLink) : LinkLabel → Prop
  | .tick => s.up = true →
    (∃ h, s.heard = some h ∧ h ≤ s.clock ∧ s.clock ≤ h + heartbeatTimeoutMs) ∧
    (s.replacing = true → s.lastUp ≠ s.fd →
      s.lastReport = some .failure ∧ s.heartbeatLoop.lastReport = some .ok ∧
        s.heartbeatLoop.queue = s.queue ++ [.ok])
  | .dispatch => ∀ rest, s.queue = .ok :: rest →
    (s.machine.handle (MavCommsStatus.event .ok)).2 =
      (s.machine.handle (MavCommsStatus.event .ok)).1.actionState
        (s.machine.handle (MavCommsStatus.event .ok)).1.currentState
  | _ => True

/-- A socket not yet heard from is down first: no pass runs while the stamp of an earlier
heartbeat is recent, and a replacing socket is first heard only after the link was reported
down. -/
def ReportsDown (s : MavLink) : LinkLabel → Prop
  | .tick => s.fd ≠ none → s.heard = none → s.lastHeartbeatTs + heartbeatTimeoutMs < s.clock
  | .heartbeat => s.replacing = true → s.heard = none → s.mavCommsOk = false
  | _ => True

instance (s : MavLink) : ∀ e, Decidable (s.ReportsDown e)
  | .tick => inferInstanceAs (Decidable (_ → _ → _))
  | .heartbeat => inferInstanceAs (Decidable (_ → _ → _))
  | .wait _ | .connect _ | .disconnect | .attemptReconnect _ | .fault | .event _ | .dispatch =>
    isTrue trivial

/-- From a state machine that believes the link lost or not, the pending reports alternate and
end with the last one made. -/
def Alternates (lost : Bool) : List MavCommsStatus → Bool → Prop
  | [], ok => lost = !ok
  | status :: rest, ok => status = .ofUp lost ∧ Alternates (!lost) rest ok

/-- A report of a change keeps the pending reports alternating. -/
theorem alternates_concat {lost ok : Bool} {queue : List MavCommsStatus}
    (h : Alternates lost queue ok) : Alternates lost (queue ++ [.ofUp (!ok)]) (!ok) := by
  induction queue generalizing lost with
  | nil =>
    obtain rfl : lost = !ok := h
    exact ⟨rfl, rfl⟩
  | cons status rest ih => exact ⟨h.1, ih h.2⟩

/-- What holds in every state: no stamp is ahead of the clock; the open socket, once heard, was
heard at the stamp; a replacing socket is heard before its first pass only under a reported
failure; and the reports alternate on their way to the state machine. -/
structure Reported (s : MavLink) : Prop where
  lastTried_le : s.lastTried ≤ s.clock
  lastHeartbeatTs_le : s.lastHeartbeatTs ≤ s.clock
  connectedSinceTs_le : s.connectedSinceTs ≤ s.clock
  heard_eq : ∀ h, s.heard = some h → s.lastHeartbeatTs = h
  heard_down : s.replacing = true → s.heard ≠ none → s.lastUp ≠ s.fd → s.mavCommsOk = false
  lastReport_eq : s.mavCommsOk = false → s.lastReport = some .failure
  alternates : Alternates s.machine.mavCommsLost s.queue s.mavCommsOk

variable {s t : MavLink}

/-- A link is up on an open socket with a recent stamp. -/
theorem up_eq_true (hup : s.up = true) :
    s.fd ≠ none ∧ s.clock ≤ s.lastHeartbeatTs + heartbeatTimeoutMs := by
  unfold up mavCommsIsUp at hup
  split_ifs at hup with hopen hahead
  · exact ⟨by simpa [Option.isSome_iff_ne_none] using hopen, by omega⟩
  · have hrecent := of_decide_eq_true hup
    exact ⟨by simpa [Option.isSome_iff_ne_none] using hopen, by omega⟩

/-- A pass that reports down first keeps its promise. -/
theorem sound_tick (h : s.Reported) (hcond : s.ReportsDown .tick) : s.Sound .tick := by
  intro hup
  obtain ⟨hopen, hrecent⟩ := up_eq_true hup
  cases hheard : s.heard with
  | none =>
    have hstale := hcond hopen hheard
    omega
  | some since =>
    have hstamp := h.heard_eq since hheard
    have hle := h.lastHeartbeatTs_le
    refine ⟨⟨since, rfl, by omega, by omega⟩, fun hreplacing hnew => ?_⟩
    have hdown := h.heard_down hreplacing (by simp [hheard]) hnew
    have hreport : s.report = { s with
        mavCommsOk := true
        queue := s.queue ++ [.ok]
        lastReport := some .ok } := by
      simp [report, hup, hdown, MavCommsStatus.ofUp]
    exact ⟨h.lastReport_eq hdown, by simp [heartbeatLoop, hreport],
      by simp [heartbeatLoop, hreport]⟩

/-- The report that the link is back finds it believed lost. -/
theorem sound_dispatch (h : s.Reported) : s.Sound .dispatch := by
  intro rest hqueue
  have halternates := h.alternates
  rw [hqueue] at halternates
  apply FmuStateMachine.handle_recovery
  cases hlost : s.machine.mavCommsLost with
  | true => rfl
  | false => exact absurd halternates.1 (by simp [hlost, MavCommsStatus.ofUp])

/-- A dial keeps the invariant: a new socket is not heard yet. -/
theorem reported_connectToMav (h : s.Reported) (dials : Bool) : (s.connectToMav dials).Reported := by
  cases dials with
  | true =>
    exact { h with
      lastTried_le := Nat.le_refl s.clock
      connectedSinceTs_le := Nat.le_refl s.clock
      heard_eq := fun _ hheard => absurd hheard (Option.some_ne_none _).symm
      heard_down := fun _ hheard => absurd rfl hheard }
  | false => exact { h with lastTried_le := Nat.le_refl s.clock }

/-- Closing the socket keeps the invariant. -/
theorem reported_disconnectFromMav (h : s.Reported) : s.disconnectFromMav.Reported :=
  { h with
    heard_eq := fun _ hheard => absurd hheard (Option.some_ne_none _).symm
    heard_down := fun hreplacing => absurd hreplacing Bool.false_ne_true }

/-- A reconnect pass keeps the invariant. -/
theorem reported_attemptReconnect (h : s.Reported) (dials : Bool) :
    (s.attemptReconnect dials).Reported := by
  have hclosed : s.closeBroken.Reported := by
    unfold closeBroken
    split_ifs
    · exact { reported_disconnectFromMav h with }
    · exact h
  unfold attemptReconnect dialWhenDue
  split_ifs
  · have hcounted : ({ s.closeBroken with
        retryCount := (s.closeBroken.retryCount + 1) % 2 ^ 16 } : MavLink).Reported :=
      { hclosed with }
    exact reported_connectToMav hcounted dials
  · exact hclosed

/-- A heartbeat keeps the invariant, if a replacing socket is first heard when down. -/
theorem reported_receiveHeartbeat (h : s.Reported) (hcond : s.ReportsDown .heartbeat) :
    s.receiveHeartbeat.Reported := by
  refine { h with
    lastHeartbeatTs_le := Nat.le_refl s.clock
    heard_eq := fun since hsince => ?_
    heard_down := fun hreplacing _ hnew => ?_ }
  · obtain ⟨_, -, hclock⟩ := Option.map_eq_some_iff.mp hsince
    exact hclock
  · cases hheard : s.heard with
    | none => exact hcond hreplacing hheard
    | some since => exact h.heard_down hreplacing (by simp [hheard]) hnew

/-- A pass keeps the invariant: what it computed is what was last reported. -/
theorem reported_heartbeatLoop (h : s.Reported) : s.heartbeatLoop.Reported := by
  have hdown : (if s.up then s.fd else s.lastUp) ≠ s.fd → s.up = false := by
    intro hnew
    cases hup : s.up with
    | false => rfl
    | true => simp [hup] at hnew
  unfold heartbeatLoop report
  by_cases hchange : s.up = s.mavCommsOk
  · rw [if_neg (not_not.mpr hchange)]
    exact { h with heard_down := fun _ _ hnew => hchange.symm.trans (hdown hnew) }
  · rw [if_pos hchange]
    have hflip : s.up = !s.mavCommsOk := Bool.eq_not_of_ne hchange
    refine { h with
      heard_down := fun _ _ hnew => hdown hnew
      lastReport_eq := fun hfalse => ?_
      alternates := ?_ }
    · rw [show s.up = false from hfalse]
      rfl
    · rw [hflip]
      exact alternates_concat h.alternates

/-- Every step that reports down first keeps the invariant. -/
theorem reported_step {e : LinkLabel} (h : s.Reported) (hcond : s.ReportsDown e)
    (hstep : s.step e = some t) : t.Reported := by
  cases e with
  | wait ms =>
    cases hstep
    exact { h with
      lastTried_le := Nat.le_add_right_of_le h.lastTried_le
      lastHeartbeatTs_le := Nat.le_add_right_of_le h.lastHeartbeatTs_le
      connectedSinceTs_le := Nat.le_add_right_of_le h.connectedSinceTs_le }
  | connect dials =>
    obtain ⟨-, hconnect⟩ := Option.ite_none_right_eq_some.mp hstep
    cases hconnect
    exact reported_connectToMav h dials
  | disconnect =>
    cases hstep
    exact reported_disconnectFromMav h
  | attemptReconnect dials =>
    cases hstep
    exact reported_attemptReconnect h dials
  | fault =>
    cases hstep
    exact { h with }
  | heartbeat =>
    obtain ⟨-, hheartbeat⟩ := Option.ite_none_right_eq_some.mp hstep
    cases hheartbeat
    exact reported_receiveHeartbeat h hcond
  | tick =>
    cases hstep
    exact reported_heartbeatLoop h
  | event e =>
    have hlost : (s.machine.handle e).1.mavCommsLost = s.machine.mavCommsLost :=
      FmuStateMachine.mavCommsLost_handle (by cases e <;> simp [step] at hstep ⊢)
    cases e <;> cases hstep
    all_goals exact { h with alternates := by rw [hlost]; exact h.alternates }
  | dispatch =>
    cases hqueue : s.queue with
    | nil => simp [step, hqueue] at hstep
    | cons status rest =>
      simp only [step, hqueue, Option.some.injEq] at hstep
      subst hstep
      have halternates := h.alternates
      rw [hqueue] at halternates
      obtain ⟨hstatus, hrest⟩ := halternates
      have hlost : (s.machine.handle status.event).1.mavCommsLost = !s.machine.mavCommsLost := by
        rw [hstatus]
        cases hlost : s.machine.mavCommsLost <;>
          exact s.machine.mavCommsLost_setMavCommsFailure _
      exact { h with alternates := by rw [hlost]; exact hrest }

/-- From start-up, if every socket not yet heard from is down first, every pass that computes
the link as up has heard the autopilot on the open socket within the timeout, every replaced
socket is reported as a failure and then as up again, and that report re-drives the state. -/
theorem sound_throughout_of_reportsDown (clock : ℕ) {machine : FmuStateMachine}
    (hmachine : machine.mavCommsLost = false) {es : List LinkLabel}
    (hes : Transition.Along step ReportsDown { clock := clock, machine := machine } es) :
    Transition.Along step Sound { clock := clock, machine := machine } es := by
  have hstart : Reported { clock := clock, machine := machine } :=
    { lastTried_le := Nat.zero_le clock
      lastHeartbeatTs_le := Nat.zero_le clock
      connectedSinceTs_le := Nat.zero_le clock
      heard_eq := fun _ hheard => absurd hheard (Option.some_ne_none _).symm
      heard_down := fun hreplacing => absurd hreplacing Bool.false_ne_true
      lastReport_eq := fun hdown => absurd hdown Bool.false_ne_true.symm
      alternates := hmachine }
  have hlaw (s : MavLink) (e : LinkLabel) (h : s.Reported) (hcond : s.ReportsDown e) :
      s.Sound e := by
    cases e with
    | tick => exact sound_tick h hcond
    | dispatch => exact sound_dispatch h
    | wait _ | connect _ | disconnect | attemptReconnect _ | fault | heartbeat | event _ => trivial
  exact Transition.along_of_along Reported hlaw (fun _ _ _ => reported_step) hstart hes

/-- A link that is up breaks and is reconnected within two seconds. -/
def fastReconnect : List LinkLabel :=
  [.connect true, .heartbeat, .tick, .fault, .wait 1500, .attemptReconnect true]

/-- The pass after it computes the link as up on a socket that was never heard, and reports
nothing. -/
theorem fastReconnect_up_unheard :
    ∃ s, Transition.run step { clock := 10000, machine := {} } fastReconnect = some s ∧
      s.fd = some 1 ∧ s.up = true ∧ s.heard = none ∧ s.heartbeatLoop.lastReport = none ∧
      ¬ s.Sound .tick := by
  refine ⟨_, rfl, rfl, rfl, rfl, rfl, fun h => ?_⟩
  obtain ⟨since, hheard, -⟩ := (h rfl).1
  cases hheard

/-- A slow reconnect is reported down and up, and the state is carried out again. -/
theorem slowReconnect_sound :
    Transition.Along step Sound { clock := 10000, machine := {} }
      [.connect true, .tick, .heartbeat, .tick, .fault, .wait 1500, .disconnect, .tick,
        .connect true, .wait 6000, .heartbeat, .tick, .dispatch, .dispatch, .dispatch, .dispatch] :=
  sound_throughout_of_reportsDown 10000 rfl (by decide)

end MavLink

end CapFmu
