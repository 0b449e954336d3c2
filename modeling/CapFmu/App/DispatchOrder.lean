import CapFmu.App.LoopThreads

/-!
# Every event is dispatched once and in order

The event loop gives its mutex up while it dispatches an event, so events are appended at any
point, and it looks at the queue in two places. It leaves with the queue empty: what it never
comes to is what was appended after it had left.
-/

namespace CapFmu

open Concurrency Transition

namespace AppLoopPc

variable {ε : Type*}

/-- Whether the event loop is past its loop. -/
def isLeaving : AppLoopPc ε → Bool
  | joiningReconnector | joiningSignal | draining | stopped => true
  | waiting _ | dispatching _ | relocking => false

/-- The event in hand. -/
def inHand : AppLoopPc ε → List (LoopEvent ε)
  | dispatching e => [e]
  | _ => []

@[simp] theorem isLeaving_wake (pc : AppLoopPc ε) : pc.wake.isLeaving = pc.isLeaving := by
  cases pc <;> rfl

@[simp] theorem inHand_wake (pc : AppLoopPc ε) : pc.wake.inHand = pc.inHand := by
  cases pc <;> rfl

end AppLoopPc

namespace AppThreads

variable {ε : Type*} {s t : AppThreads ε} {e : AppThreadsLabel ε}

/-- What was appended was dispatched, is in hand, was discarded, or is queued, in this order. What
had been appended before is dispatched or about to be, and past the loop it is dispatched. -/
structure Booked (before : List (LoopEvent ε)) (s : AppThreads ε) : Prop where
  books : s.dispatched ++ s.loop.inHand ++ s.discarded ++ s.eventQueue = s.enqueued
  discarded : s.loop ≠ .stopped → s.discarded = []
  kept : s.loop.isLeaving = false → before <+: s.dispatched ++ s.loop.inHand ++ s.eventQueue
  dispatched : s.loop.isLeaving = true → before <+: s.dispatched

variable {before : List (LoopEvent ε)}

/-- One more event is queued. -/
theorem booked_push {e : LoopEvent ε} (h : Booked before s) : Booked before (s.push e) where
  books := by
    change _ ++ (s.eventQueue ++ [e]) = s.enqueued ++ [e]
    rw [← h.books, ← List.append_assoc]
    rfl
  discarded := h.discarded
  kept hloop := by
    change before <+: _ ++ (s.eventQueue ++ [e])
    rw [← List.append_assoc]
    exact (h.kept hloop).trans (List.prefix_append _ _)
  dispatched := h.dispatched

/-- A notification changes none of the books. -/
theorem booked_wake (h : Booked before s) : Booked before { s with loop := s.loop.wake } where
  books := by simpa using h.books
  discarded hloop := h.discarded fun hstopped => hloop (by rw [hstopped]; rfl)
  kept hloop := by simpa using h.kept (by simpa using hloop)
  dispatched hloop := h.dispatched (by simpa using hloop)

/-- The event loop takes an event out of the queue. -/
theorem booked_take {e : LoopEvent ε} {rest : List (LoopEvent ε)} (h : Booked before s)
    (hqueue : s.eventQueue = e :: rest) (hhand : s.loop.inHand = [])
    (hloop : s.loop.isLeaving = false) (hstopped : s.loop ≠ .stopped) :
    Booked before { s with eventQueue := rest, loop := .dispatching e } where
  books := by
    have hbooks := h.books
    rw [h.discarded hstopped, hhand, hqueue] at hbooks
    simpa [AppLoopPc.inHand, h.discarded hstopped] using hbooks
  discarded _ := h.discarded hstopped
  kept _ := by
    have hkept := h.kept hloop
    rw [hhand, hqueue] at hkept
    simpa [AppLoopPc.inHand] using hkept
  dispatched hleaving := by cases hleaving

/-- The event loop goes from one place without an event in hand to another, and past its loop with
the queue empty alone. -/
theorem booked_go {pc : AppLoopPc ε} (h : Booked before s) (hhand : s.loop.inHand = [])
    (hstopped : s.loop ≠ .stopped) (hpc : pc.inHand = [])
    (hleaving : pc.isLeaving = true → s.loop.isLeaving = true ∨ s.eventQueue = [])
    (hstays : pc.isLeaving = false → s.loop.isLeaving = false) :
    Booked before { s with loop := pc } where
  books := by
    rw [hpc, ← hhand]
    exact h.books
  discarded _ := h.discarded hstopped
  kept hloop := by
    rw [hpc, ← hhand]
    exact h.kept (hstays hloop)
  dispatched hloop := by
    cases hbefore : s.loop.isLeaving with
    | true => exact h.dispatched hbefore
    | false =>
      have hempty := (hleaving hloop).resolve_left (by simp [hbefore])
      have hkept := h.kept hbefore
      rwa [hhand, hempty, List.append_nil, List.append_nil] at hkept

/-- The books say nothing of the other threads. -/
theorem Booked.setThreads (h : Booked before s) {pc : FssReconnectorPc} {spc : SignalPc}
    {running : Bool} {n : ℕ} : Booked before { s with
      reconnector := pc, signalWaiter := spc, running := running, notifying := n } :=
  ⟨h.books, h.discarded, h.kept, h.dispatched⟩

/-- The event loop keeps the books. -/
theorem booked_stepLoop (h : Booked before s) (hstep : s.stepLoop = some t) :
    Booked before t := by
  unfold stepLoop at hstep
  split at hstep
  · next hpc =>
    split at hstep
    · next hqueue =>
      cases hstep
      exact booked_take h hqueue (by simp [hpc, AppLoopPc.inHand])
        (by simp [hpc, AppLoopPc.isLeaving]) (by simp [hpc])
    · next hqueue =>
      cases hstep
      have hhand : s.loop.inHand = [] := by simp [hpc, AppLoopPc.inHand]
      split_ifs
      · exact booked_go h hhand (by simp [hpc]) rfl (fun _ => Or.inr hqueue)
          fun _ => by simp [hpc, AppLoopPc.isLeaving]
      · exact booked_go h hhand (by simp [hpc]) rfl (fun _ => Or.inr hqueue)
          fun _ => by simp [hpc, AppLoopPc.isLeaving]
  · next hpc =>
    cases hstep
    exact booked_go h (by simp [hpc, AppLoopPc.inHand]) (by simp [hpc]) rfl
      (fun hleaving => by cases hleaving) fun _ => by simp [hpc, AppLoopPc.isLeaving]
  · cases hstep
  · next e hpc =>
    cases hstep
    have hbooks := h.books
    have hkept := h.kept (by simp [hpc, AppLoopPc.isLeaving])
    rw [hpc] at hbooks hkept
    constructor
    · simpa [AppLoopPc.inHand] using hbooks
    · exact fun _ => h.discarded (by simp [hpc])
    · intro _
      simpa [AppLoopPc.inHand] using hkept
    · intro hleaving
      cases hleaving
  · next hpc =>
    split at hstep
    · next hqueue =>
      cases hstep
      exact booked_take h hqueue (by simp [hpc, AppLoopPc.inHand])
        (by simp [hpc, AppLoopPc.isLeaving]) (by simp [hpc])
    · cases hstep
      exact booked_go h (by simp [hpc, AppLoopPc.inHand]) (by simp [hpc]) rfl
        (fun hleaving => by cases hleaving) fun _ => by simp [hpc, AppLoopPc.isLeaving]
  · next hpc =>
    split_ifs at hstep
    cases hstep
    exact booked_go h (by simp [hpc, AppLoopPc.inHand]) (by simp [hpc]) rfl
      (fun _ => Or.inl (by simp [hpc, AppLoopPc.isLeaving])) fun hloop => by cases hloop
  · next hpc =>
    split_ifs at hstep
    cases hstep
    exact booked_go h (by simp [hpc, AppLoopPc.inHand]) (by simp [hpc]) rfl
      (fun _ => Or.inl (by simp [hpc, AppLoopPc.isLeaving])) fun hloop => by cases hloop
  · next hpc =>
    cases hstep
    have hbooks := h.books
    rw [hpc] at hbooks
    constructor
    · simpa [AppLoopPc.inHand] using hbooks
    · exact fun hstopped => absurd rfl hstopped
    · intro hloop
      cases hloop
    · exact fun _ => h.dispatched (by simp [hpc, AppLoopPc.isLeaving])
  · cases hstep

/-- Every step keeps the books. -/
theorem booked_step (h : Booked before s) (hstep : s.step e = some t) : Booked before t := by
  have hwoken := booked_wake h
  cases e with
  | loop => exact booked_stepLoop h hstep
  | reconnector =>
    simp only [step, stepReconnector] at hstep
    split at hstep
    case h_6 =>
      split_ifs at hstep
      cases hstep
      exact (booked_push h).setThreads
    case h_7 =>
      cases hstep
      exact hwoken.setThreads
    all_goals cases hstep
    all_goals exact h.setThreads
  | signalWaiter =>
    simp only [step, stepSignal] at hstep
    split at hstep
    case h_2 | h_4 =>
      split_ifs at hstep
      cases hstep
      exact h.setThreads
    case h_3 =>
      cases hstep
      exact hwoken.setThreads
    all_goals cases hstep
    exact h.setThreads
  | notify =>
    simp only [step] at hstep
    split at hstep
    · cases hstep
    · cases hstep
      exact hwoken.setThreads
  | enqueue e =>
    simp only [step] at hstep
    split_ifs at hstep
    cases hstep
    exact (booked_push h).setThreads
  | signal | timeout =>
    simp only [step] at hstep
    split_ifs at hstep
    cases hstep
    exact h.setThreads
  | wakeLoop =>
    cases hstep
    exact hwoken
  | wakeReconnector =>
    cases hstep
    exact h.setThreads

/-- One event is in hand and another one queued as the signal comes. -/
def twoEvents : List (AppThreadsLabel ℕ) :=
  [.enqueue 1, .loop, .enqueue 2, .signal, .signalWaiter]

/-- The event loop dispatches both and leaves, and a third event comes too late. -/
def thirdTooLate : List (AppThreadsLabel ℕ) :=
  [.loop, .loop, .loop, .loop, .loop, .enqueue 3]

end AppThreads

end CapFmu
