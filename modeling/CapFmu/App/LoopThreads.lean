import CapFmu.Concurrency.Waiter
import CapFmu.Transition.Run

/-!
# The threads of the application

The event loop waits for an event or the end of the program, the reconnector for the end of the
program or its interval, and the signal waiter for a signal. Any thread appends events to the
queue, in a section of its own, and notifies the event loop afterwards. The signal waiter ends
the program by a flag, which it sets under the event loop's mutex alone, and passes through the
reconnector's before it notifies that thread as well.

The application ends with the event loop: it leaves as it finds the queue empty after the flag is
set, joins the two other threads and discards what came in since.
-/

namespace CapFmu

open Concurrency Transition

/-- What is dispatched: an event of any kind, or the last one of the reconnector. -/
inductive LoopEvent (ε : Type*)
  | posted (e : ε)
  | nudge
  deriving DecidableEq

/-- Where the event loop is: in its wait, with an event in hand, between two events, past its
loop, or returned. -/
inductive AppLoopPc (ε : Type*)
  | waiting (w : Waiter)
  | dispatching (e : LoopEvent ε)
  | relocking
  | joiningReconnector
  | joiningSignal
  | draining
  | stopped
  deriving DecidableEq

/-- Where the reconnector is: at the condition of its loop, at work, in its wait, past its loop,
before its notification, or returned. -/
inductive FssReconnectorPc
  | head
  | working
  | waiting (w : Waiter)
  | exiting
  | notifying
  | finished
  deriving DecidableEq

/-- Where the signal waiter is: before the signal, before each of its sections and notifications,
or returned. -/
inductive SignalPc
  | sigwait
  | clearing
  | notifyingMain
  | passing
  | notifyingReconnect
  | finished
  deriving DecidableEq

/-- The queue, the flag, the threads, and the number of other threads between appending an event
and notifying the event loop. What was appended, dispatched and discarded is recorded. -/
structure AppThreads (ε : Type*) where
  eventQueue : List (LoopEvent ε) := []
  running : Bool := true
  loop : AppLoopPc ε := .waiting .awake
  reconnector : FssReconnectorPc := .head
  signalWaiter : SignalPc := .sigwait
  notifying : ℕ := 0
  enqueued : List (LoopEvent ε) := []
  dispatched : List (LoopEvent ε) := []
  discarded : List (LoopEvent ε) := []

/-- The next step of a thread, or what comes from outside: another thread appends an event, the
signal, a wake-up without a notification, and the end of the reconnector's interval. -/
inductive AppThreadsLabel (ε : Type*)
  | loop
  | reconnector
  | signalWaiter
  | notify
  | enqueue (e : ε)
  | signal
  | wakeLoop
  | wakeReconnector
  | timeout
  deriving DecidableEq

/-- Whether the label is a step that a thread makes by itself. -/
def AppThreadsLabel.isOwn {ε : Type*} : AppThreadsLabel ε → Bool
  | loop | reconnector | signalWaiter | notify => true
  | enqueue _ | signal | wakeLoop | wakeReconnector | timeout => false

namespace AppLoopPc

variable {ε : Type*}

/-- A notification of the event loop; it is heard in the wait alone. -/
def wake : AppLoopPc ε → AppLoopPc ε
  | waiting w => waiting w.wake
  | pc => pc

/-- The event loop as a waiter. -/
def waiter : AppLoopPc ε → Waiter
  | waiting w => w
  | _ => .awake

end AppLoopPc

namespace FssReconnectorPc

/-- A notification of the reconnector. -/
def wake : FssReconnectorPc → FssReconnectorPc
  | waiting w => waiting w.wake
  | pc => pc

/-- The reconnector as a waiter. -/
def waiter : FssReconnectorPc → Waiter
  | waiting w => w
  | _ => .awake

end FssReconnectorPc

namespace AppThreads

variable {ε : Type*}

/-- The mutex of the event loop is free. -/
def mainFree (s : AppThreads ε) : Bool := s.loop.waiter != .checked

/-- The mutex of the reconnector is free. -/
def reconnectFree (s : AppThreads ε) : Bool := s.reconnector.waiter != .checked

/-- Append an event. -/
def push (s : AppThreads ε) (e : LoopEvent ε) : AppThreads ε :=
  { s with eventQueue := s.eventQueue ++ [e], enqueued := s.enqueued ++ [e] }

/-- `run`, from the wait on. -/
def stepLoop (s : AppThreads ε) : Option (AppThreads ε) :=
  match s.loop with
  | .waiting .awake =>
    match s.eventQueue with
    | e :: rest => some { s with eventQueue := rest, loop := .dispatching e }
    | [] => some { s with loop := if s.running then .waiting .checked else .joiningReconnector }
  | .waiting .checked => some { s with loop := .waiting .blocked }
  | .waiting .blocked => none
  | .dispatching e => some { s with loop := .relocking, dispatched := s.dispatched ++ [e] }
  | .relocking =>
    match s.eventQueue with
    | e :: rest => some { s with eventQueue := rest, loop := .dispatching e }
    | [] => some { s with loop := .waiting .awake }
  | .joiningReconnector =>
    if s.reconnector = .finished then some { s with loop := .joiningSignal } else none
  | .joiningSignal =>
    if s.signalWaiter = .finished then some { s with loop := .draining } else none
  | .draining => some { s with
      loop := .stopped
      eventQueue := []
      discarded := s.discarded ++ s.eventQueue }
  | .stopped => none

/-- `fss_reconnector`. -/
def stepReconnector (s : AppThreads ε) : Option (AppThreads ε) :=
  match s.reconnector with
  | .head => some { s with reconnector := if s.running then .working else .exiting }
  | .working => some { s with reconnector := .waiting .awake }
  | .waiting .awake =>
    some { s with reconnector := if s.running then .waiting .checked else .head }
  | .waiting .checked => some { s with reconnector := .waiting .blocked }
  | .waiting .blocked => none
  | .exiting =>
    if s.mainFree then some { s.push .nudge with reconnector := .notifying } else none
  | .notifying => some { s with loop := s.loop.wake, reconnector := .finished }
  | .finished => none

/-- `signal_waiter`. -/
def stepSignal (s : AppThreads ε) : Option (AppThreads ε) :=
  match s.signalWaiter with
  | .sigwait => none
  | .clearing =>
    if s.mainFree then some { s with running := false, signalWaiter := .notifyingMain } else none
  | .notifyingMain => some { s with loop := s.loop.wake, signalWaiter := .passing }
  | .passing =>
    if s.reconnectFree then some { s with signalWaiter := .notifyingReconnect } else none
  | .notifyingReconnect =>
    some { s with reconnector := s.reconnector.wake, signalWaiter := .finished }
  | .finished => none

/-- One step. -/
def step (s : AppThreads ε) : AppThreadsLabel ε → Option (AppThreads ε)
  | .loop => s.stepLoop
  | .reconnector => s.stepReconnector
  | .signalWaiter => s.stepSignal
  | .notify =>
    match s.notifying with
    | 0 => none
    | n + 1 => some { s with notifying := n, loop := s.loop.wake }
  | .enqueue e =>
    if s.mainFree then some { s.push (.posted e) with notifying := s.notifying + 1 } else none
  | .signal =>
    if s.signalWaiter = .sigwait then some { s with signalWaiter := .clearing } else none
  | .wakeLoop => some { s with loop := s.loop.wake }
  | .wakeReconnector => some { s with reconnector := s.reconnector.wake }
  | .timeout =>
    if s.reconnector = .waiting .blocked then some { s with reconnector := .head } else none

/-- What the event loop waits for. -/
def LoopReady (s : AppThreads ε) : Prop := s.eventQueue ≠ [] ∨ s.running = false

/-- Somebody is about to notify the event loop. -/
def NotifiesLoop (s : AppThreads ε) : Prop :=
  0 < s.notifying ∨ s.signalWaiter = .notifyingMain ∨ s.reconnector = .notifying

/-- The signal waiter has set the flag and has yet to pass the mutex of the reconnector. -/
def PassesReconnector (s : AppThreads ε) : Prop :=
  s.signalWaiter = .notifyingMain ∨ s.signalWaiter = .passing

/-- Whoever waits, on the event loop or on the reconnector, is attended. The event loop's mutex is
held as what it waits for changes, so nobody has to pass it afterwards. -/
structure NoLostWakeup (s : AppThreads ε) : Prop where
  loop : Attended s.loop.waiter s.LoopReady False s.NotifiesLoop
  reconnector : Attended s.reconnector.waiter (s.running = false) s.PassesReconnector
    (s.signalWaiter = .notifyingReconnect)

variable {s t : AppThreads ε} {e : AppThreadsLabel ε}

theorem mainFree_iff : s.mainFree = true ↔ s.loop.waiter ≠ .checked := by simp [mainFree]

theorem reconnectFree_iff : s.reconnectFree = true ↔ s.reconnector.waiter ≠ .checked := by
  simp [reconnectFree]

@[simp] theorem waiter_wake_loop (pc : AppLoopPc ε) : pc.wake.waiter = pc.waiter.wake := by
  cases pc <;> rfl

@[simp] theorem waiter_wake_reconnector (pc : FssReconnectorPc) :
    pc.wake.waiter = pc.waiter.wake := by
  cases pc <;> rfl

/-! ## No wake-up is lost -/

/-- The reconnector goes on without having had a notification to make. -/
theorem NotifiesLoop.setReconnector (h : s.NotifiesLoop) (hpc : s.reconnector ≠ .notifying)
    (pc : FssReconnectorPc) : NotifiesLoop { s with reconnector := pc } :=
  h.imp_right fun hother => Or.inl (hother.resolve_right hpc)

/-- The signal waiter goes on without having had a notification to make. -/
theorem NotifiesLoop.setSignal (h : s.NotifiesLoop) (hpc : s.signalWaiter ≠ .notifyingMain)
    (pc : SignalPc) : NotifiesLoop { s with signalWaiter := pc } :=
  h.imp_right fun hother => Or.inr (hother.resolve_left hpc)

/-- The event loop waits for nothing new as the threads go on without changing the queue or the
flag, and those about to notify it stay so. -/
theorem noLostWakeup_stepLoop (h : s.NoLostWakeup) (hstep : s.stepLoop = some t) :
    t.NoLostWakeup := by
  have hreconnector := h.reconnector
  unfold stepLoop at hstep
  split at hstep
  · split at hstep
    · cases hstep
      exact ⟨attended_awake, hreconnector⟩
    · next hqueue =>
      cases hstep
      refine ⟨?_, hreconnector⟩
      cases hrunning : s.running with
      | true => exact attended_checked (by simp [LoopReady, hqueue])
      | false => exact attended_awake
  · next hloop =>
    cases hstep
    have hchecked := h.loop
    rw [hloop] at hchecked
    exact ⟨hchecked.block, hreconnector⟩
  · cases hstep
  · cases hstep
    exact ⟨attended_awake, hreconnector⟩
  · split at hstep <;> cases hstep <;> exact ⟨attended_awake, hreconnector⟩
  · split_ifs at hstep
    cases hstep
    exact ⟨attended_awake, hreconnector⟩
  · split_ifs at hstep
    cases hstep
    exact ⟨attended_awake, hreconnector⟩
  · cases hstep
    exact ⟨attended_awake, hreconnector⟩
  · cases hstep

/-- The reconnector notifies after it has appended its last event, in a section of its own. -/
theorem noLostWakeup_stepReconnector (h : s.NoLostWakeup) (hstep : s.stepReconnector = some t) :
    t.NoLostWakeup := by
  have hloop := h.loop
  unfold stepReconnector at hstep
  split at hstep
  · next hpc =>
    cases hstep
    refine ⟨hloop.mono id id fun hnotifies => hnotifies.setReconnector (by simp [hpc]) _, ?_⟩
    split_ifs <;> exact attended_awake
  · next hpc =>
    cases hstep
    exact ⟨hloop.mono id id fun hnotifies => hnotifies.setReconnector (by simp [hpc]) _,
      attended_awake⟩
  · next hpc =>
    cases hstep
    refine ⟨hloop.mono id id fun hnotifies => hnotifies.setReconnector (by simp [hpc]) _, ?_⟩
    cases hrunning : s.running with
    | true => exact attended_checked (by simp)
    | false => exact attended_awake
  · next hpc =>
    cases hstep
    have hchecked := h.reconnector
    rw [hpc] at hchecked
    exact ⟨hloop.mono id id fun hnotifies => hnotifies.setReconnector (by simp [hpc]) _,
      hchecked.block⟩
  · cases hstep
  · split_ifs at hstep with hfree
    cases hstep
    exact ⟨attended_of_section (mainFree_iff.mp hfree) (Or.inr (Or.inr rfl)), attended_awake⟩
  · cases hstep
    refine ⟨?_, attended_awake⟩
    rw [waiter_wake_loop]
    exact hloop.wake
  · cases hstep

/-- The signal waiter passes the mutex of the reconnector before it notifies that thread. -/
theorem noLostWakeup_stepSignal (h : s.NoLostWakeup) (hstep : s.stepSignal = some t) :
    t.NoLostWakeup := by
  unfold stepSignal at hstep
  split at hstep
  · cases hstep
  · split_ifs at hstep with hfree
    cases hstep
    exact ⟨attended_of_section (mainFree_iff.mp hfree) (Or.inr (Or.inl rfl)),
      attended_of_toPass (Or.inl rfl)⟩
  · cases hstep
    refine ⟨?_, attended_of_toPass (Or.inr rfl)⟩
    rw [waiter_wake_loop]
    exact h.loop.wake
  · next hpc =>
    split_ifs at hstep with hfree
    cases hstep
    exact ⟨h.loop.mono id id fun hnotifies => hnotifies.setSignal (by simp [hpc]) _,
      attended_of_section (reconnectFree_iff.mp hfree) rfl⟩
  · next hpc =>
    cases hstep
    refine ⟨h.loop.mono id id fun hnotifies => ?_, ?_⟩
    · refine hnotifies.imp_right fun hother => Or.inr ?_
      have hnotifying := hother.resolve_left (by simp [hpc])
      simp [hnotifying, FssReconnectorPc.wake]
    · have hwoken : Attended s.reconnector.waiter.wake (s.running = false) s.PassesReconnector
          False := h.reconnector.wake
      rw [← waiter_wake_reconnector] at hwoken
      exact hwoken.mono id (fun hpass => by simp [PassesReconnector, hpc] at hpass) False.elim
  · cases hstep

/-- No step leaves a thread that waits unattended. -/
theorem noLostWakeup_step (h : s.NoLostWakeup) (hstep : s.step e = some t) : t.NoLostWakeup := by
  cases e with
  | loop => exact noLostWakeup_stepLoop h hstep
  | reconnector => exact noLostWakeup_stepReconnector h hstep
  | signalWaiter => exact noLostWakeup_stepSignal h hstep
  | notify =>
    simp only [step] at hstep
    split at hstep
    · cases hstep
    · cases hstep
      refine ⟨?_, h.reconnector⟩
      rw [waiter_wake_loop]
      exact h.loop.wake
  | enqueue e =>
    simp only [step] at hstep
    split_ifs at hstep with hfree
    cases hstep
    exact ⟨attended_of_section (mainFree_iff.mp hfree) (Or.inl (Nat.succ_pos _)), h.reconnector⟩
  | signal =>
    simp only [step] at hstep
    split_ifs at hstep with hpc
    cases hstep
    refine ⟨h.loop.mono id id fun hnotifies => hnotifies.setSignal (by simp [hpc]) _, ?_⟩
    exact h.reconnector.mono id (by simp [PassesReconnector, hpc]) (by simp [hpc])
  | wakeLoop =>
    cases hstep
    refine ⟨?_, h.reconnector⟩
    rw [waiter_wake_loop]
    exact h.loop.wake
  | wakeReconnector =>
    cases hstep
    refine ⟨h.loop.mono id id fun hnotifies => ?_, ?_⟩
    · refine hnotifies.imp_right fun hother => hother.imp_right fun hnotifying => ?_
      simp [hnotifying, FssReconnectorPc.wake]
    · rw [waiter_wake_reconnector]
      exact h.reconnector.wake
  | timeout =>
    simp only [step] at hstep
    split_ifs at hstep with hpc
    cases hstep
    exact ⟨h.loop.mono id id fun hnotifies => hnotifies.setReconnector (by simp [hpc]) _,
      attended_awake⟩

/-- At the start neither thread waits. -/
theorem noLostWakeup_init : NoLostWakeup ({} : AppThreads ε) :=
  ⟨attended_awake, attended_awake⟩

/-- No schedule of the threads loses a wake-up: the event loop never blocks, or stays blocked, on
an event or the end of the program without somebody about to notify it, and neither does the
reconnector on the end of the program. -/
theorem noLostWakeup_of_run {es : List (AppThreadsLabel ε)}
    (hrun : run step ({} : AppThreads ε) es = some t) : t.NoLostWakeup :=
  invariant_of_run NoLostWakeup (fun _ _ _ => noLostWakeup_step)
    noLostWakeup_init hrun

/-- The event loop and the reconnector block, and then an event is appended. -/
def blockedThenEnqueue : List (AppThreadsLabel Unit) :=
  [.loop, .loop, .reconnector, .reconnector, .reconnector, .reconnector, .enqueue ()]

/-- The event loop is blocked on an event, and the notification is still to come. -/
theorem blockedThenEnqueue_attended :
    ∃ t, run step ({} : AppThreads Unit) blockedThenEnqueue = some t ∧
      t.loop = .waiting .blocked ∧ t.LoopReady ∧ t.NoLostWakeup := by
  obtain ⟨t, hrun, hloop, hqueue⟩ : ∃ t,
      run step ({} : AppThreads Unit) blockedThenEnqueue = some t ∧
      t.loop = .waiting .blocked ∧ t.eventQueue = [.posted ()] := ⟨_, rfl, rfl, rfl⟩
  exact ⟨t, hrun, hloop, Or.inl (by simp [hqueue]), noLostWakeup_of_run hrun⟩

end AppThreads

end CapFmu
