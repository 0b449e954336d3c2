import CapFmu.App.LoopThreads
import CapFmu.Transition.Progress

/-!
# The application ends

A signal ends the application under every schedule that does not starve its threads, without
waiting for the reconnector's interval: what the threads do by themselves is bounded by what comes
from outside, and until the event loop has returned one of them has a step to make.
-/

namespace CapFmu

open Concurrency Transition

/-- The steps left but for what is queued, were nobody to wake the event loop again. -/
def AppLoopPc.rank {ε : Type*} : AppLoopPc ε → ℕ
  | dispatching _ => 6
  | relocking => 5
  | waiting .awake => 4
  | joiningReconnector => 3
  | joiningSignal => 2
  | draining => 1
  | waiting .checked => 1
  | waiting .blocked | stopped => 0

/-- The steps left, were nobody to wake the reconnector again; its last event counts for four. -/
def FssReconnectorPc.rank (running : Bool) : FssReconnectorPc → ℕ
  | head => if running then 13 else 10
  | working => 12
  | waiting .awake => 11
  | exiting => 9
  | notifying => 5
  | waiting .checked => 1
  | waiting .blocked | finished => 0

/-- The steps left of the signal waiter, with those it wakes the others for. -/
def SignalPc.rank : SignalPc → ℕ
  | clearing => 19
  | notifyingMain => 18
  | passing => 13
  | notifyingReconnect => 12
  | sigwait | finished => 0

namespace AppThreads

variable {ε : Type*} {s t : AppThreads ε} {e : AppThreadsLabel ε}

/-- What the threads have left to do, were nothing to come from outside. -/
def work (s : AppThreads ε) : ℕ :=
  3 * s.eventQueue.length + 5 * s.notifying + s.loop.rank + s.reconnector.rank s.running +
    s.signalWaiter.rank

/-- The flag is set once the signal waiter is past the section that sets it. -/
def FlagSet (s : AppThreads ε) : Prop :=
  s.signalWaiter ≠ .sigwait → s.signalWaiter ≠ .clearing → s.running = false

/-- The event loop leaves the flag and the other threads alone. -/
theorem frame_stepLoop (hstep : s.stepLoop = some t) :
    t.running = s.running ∧ t.signalWaiter = s.signalWaiter := by
  unfold stepLoop at hstep
  split at hstep
  case h_1 => split at hstep <;> cases hstep <;> exact ⟨rfl, rfl⟩
  case h_5 => split at hstep <;> cases hstep <;> exact ⟨rfl, rfl⟩
  case h_6 | h_7 =>
    split_ifs at hstep
    cases hstep
    exact ⟨rfl, rfl⟩
  all_goals cases hstep
  all_goals exact ⟨rfl, rfl⟩

/-- The reconnector leaves the flag and the signal waiter alone. -/
theorem frame_stepReconnector (hstep : s.stepReconnector = some t) :
    t.running = s.running ∧ t.signalWaiter = s.signalWaiter := by
  unfold stepReconnector at hstep
  split at hstep
  case h_6 =>
    split_ifs at hstep
    cases hstep
    exact ⟨rfl, rfl⟩
  all_goals cases hstep
  all_goals exact ⟨rfl, rfl⟩

/-- The signal waiter goes on to set the flag, and it stays set. -/
theorem flagSet_stepSignal (h : s.FlagSet) (hstep : s.stepSignal = some t) :
    t.FlagSet ∧ t.signalWaiter ≠ .sigwait := by
  unfold stepSignal at hstep
  split at hstep
  · cases hstep
  · split_ifs at hstep
    cases hstep
    exact ⟨fun _ _ => rfl, by simp⟩
  · next hpc =>
    cases hstep
    exact ⟨fun _ _ => h (by simp [hpc]) (by simp [hpc]), by simp⟩
  · next hpc =>
    split_ifs at hstep
    cases hstep
    exact ⟨fun _ _ => h (by simp [hpc]) (by simp [hpc]), by simp⟩
  · next hpc =>
    cases hstep
    exact ⟨fun _ _ => h (by simp [hpc]) (by simp [hpc]), by simp⟩
  · cases hstep

/-- No step takes the signal back. -/
theorem flagSet_step (h : s.FlagSet) (hstep : s.step e = some t) :
    t.FlagSet ∧ (s.signalWaiter ≠ .sigwait ∨ e = .signal → t.signalWaiter ≠ .sigwait) := by
  have hframe (hrunning : t.running = s.running) (hpc : t.signalWaiter = s.signalWaiter) :
      t.FlagSet ∧ (s.signalWaiter ≠ .sigwait → t.signalWaiter ≠ .sigwait) := by
    unfold FlagSet
    rw [hrunning, hpc]
    exact ⟨h, id⟩
  cases e with
  | loop =>
    obtain ⟨hrunning, hpc⟩ := frame_stepLoop hstep
    simpa using hframe hrunning hpc
  | reconnector =>
    obtain ⟨hrunning, hpc⟩ := frame_stepReconnector hstep
    simpa using hframe hrunning hpc
  | signalWaiter =>
    obtain ⟨hset, hpc⟩ := flagSet_stepSignal h hstep
    exact ⟨hset, fun _ => hpc⟩
  | notify =>
    simp only [step] at hstep
    split at hstep
    · cases hstep
    · cases hstep
      simpa using hframe rfl rfl
  | signal =>
    simp only [step] at hstep
    split_ifs at hstep
    cases hstep
    exact ⟨fun _ hclearing => absurd rfl hclearing, by simp⟩
  | enqueue | timeout =>
    simp only [step] at hstep
    split_ifs at hstep
    cases hstep
    simpa using hframe rfl rfl
  | wakeLoop | wakeReconnector =>
    cases hstep
    simpa using hframe rfl rfl

/-- A run with the signal has left the signal waiter with work or done. -/
theorem signalled_of_run {es : List (AppThreadsLabel ε)} (hs : s.FlagSet)
    (hrun : run step s es = some t) (hsignal : s.signalWaiter ≠ .sigwait ∨ .signal ∈ es) :
    t.signalWaiter ≠ .sigwait := by
  induction es generalizing s with
  | nil =>
    obtain rfl := run_nil_eq_some.mp hrun
    simpa using hsignal
  | cons e es ih =>
    obtain ⟨u, hstep, hrun⟩ := run_cons_eq_some.mp hrun
    obtain ⟨hu, hpc⟩ := flagSet_step hs hstep
    refine ih hu hrun ?_
    rcases hsignal with hsignal | hsignal
    · exact Or.inl (hpc (Or.inl hsignal))
    · exact (List.mem_cons.mp hsignal).imp_left fun he => hpc (Or.inr he.symm)

/-- A notification is worth less than the step that makes it. -/
theorem rank_wake_loop (pc : AppLoopPc ε) : pc.wake.rank ≤ pc.rank + 4 := by
  cases pc with
  | waiting w => cases w <;> simp [AppLoopPc.wake, Waiter.wake, AppLoopPc.rank]
  | dispatching | relocking | joiningReconnector | joiningSignal | draining | stopped =>
    exact Nat.le_add_right _ _

theorem rank_wake_reconnector (pc : FssReconnectorPc) (running : Bool) :
    pc.wake.rank running ≤ pc.rank running + 11 := by
  cases pc with
  | waiting w => cases w <;> simp [FssReconnectorPc.wake, Waiter.wake, FssReconnectorPc.rank]
  | head | working | exiting | notifying | finished => exact Nat.le_add_right _ _

/-- Clearing the flag leaves the reconnector no more to do. -/
theorem rank_reconnector_le (pc : FssReconnectorPc) (running : Bool) :
    pc.rank false ≤ pc.rank running := by
  cases pc with
  | head => cases running <;> simp [FssReconnectorPc.rank]
  | waiting w => cases w <;> exact le_rfl
  | working | exiting | notifying | finished => exact le_rfl

theorem work_stepLoop (hstep : s.stepLoop = some t) : t.work < s.work := by
  unfold stepLoop at hstep
  split at hstep
  · next hpc =>
    split at hstep
    · next hqueue =>
      cases hstep
      simp only [work, hpc, hqueue, AppLoopPc.rank, List.length_cons]
      omega
    · next hqueue =>
      cases hstep
      cases hrunning : s.running <;> simp [work, hpc, hqueue, AppLoopPc.rank, hrunning]
  · next hpc =>
    cases hstep
    simp [work, hpc, AppLoopPc.rank]
  · cases hstep
  · next hpc =>
    cases hstep
    simp [work, hpc, AppLoopPc.rank]
  · next hpc =>
    split at hstep
    · next hqueue =>
      cases hstep
      simp only [work, hpc, hqueue, AppLoopPc.rank, List.length_cons]
      omega
    · next hqueue =>
      cases hstep
      simp [work, hpc, hqueue, AppLoopPc.rank]
  · next hpc =>
    split_ifs at hstep
    cases hstep
    simp [work, hpc, AppLoopPc.rank]
  · next hpc =>
    split_ifs at hstep
    cases hstep
    simp [work, hpc, AppLoopPc.rank]
  · next hpc =>
    cases hstep
    simp only [work, hpc, AppLoopPc.rank, List.length_nil]
    omega
  · cases hstep

theorem work_stepReconnector (hstep : s.stepReconnector = some t) : t.work < s.work := by
  unfold stepReconnector at hstep
  split at hstep
  · next hpc =>
    cases hstep
    cases hrunning : s.running <;> simp [work, hpc, FssReconnectorPc.rank, hrunning]
  · next hpc =>
    cases hstep
    simp [work, hpc, FssReconnectorPc.rank]
  · next hpc =>
    cases hstep
    cases hrunning : s.running <;> simp [work, hpc, FssReconnectorPc.rank]
  · next hpc =>
    cases hstep
    simp [work, hpc, FssReconnectorPc.rank]
  · cases hstep
  · next hpc =>
    split_ifs at hstep
    cases hstep
    simp only [work, push, hpc, FssReconnectorPc.rank, List.length_append, List.length_singleton]
    omega
  · next hpc =>
    cases hstep
    have hwake := rank_wake_loop s.loop
    simp only [work, hpc, FssReconnectorPc.rank]
    omega
  · cases hstep

theorem work_stepSignal (hstep : s.stepSignal = some t) : t.work < s.work := by
  unfold stepSignal at hstep
  split at hstep
  · cases hstep
  · next hpc =>
    split_ifs at hstep
    cases hstep
    have hclear := rank_reconnector_le s.reconnector s.running
    simp only [work, hpc, SignalPc.rank]
    omega
  · next hpc =>
    cases hstep
    have hwake := rank_wake_loop s.loop
    simp only [work, hpc, SignalPc.rank]
    omega
  · next hpc =>
    split_ifs at hstep
    cases hstep
    simp [work, hpc, SignalPc.rank]
  · next hpc =>
    cases hstep
    have hwake := rank_wake_reconnector s.reconnector s.running
    simp only [work, hpc, SignalPc.rank]
    omega
  · cases hstep

/-- A step of a thread leaves less to do. -/
theorem work_own (he : e.isOwn = true) (hstep : s.step e = some t) : t.work < s.work := by
  cases e with
  | loop => exact work_stepLoop hstep
  | reconnector => exact work_stepReconnector hstep
  | signalWaiter => exact work_stepSignal hstep
  | notify =>
    simp only [step] at hstep
    split at hstep
    · cases hstep
    · next n hnotifying =>
      cases hstep
      have hwake := rank_wake_loop s.loop
      simp only [work, hnotifying]
      omega
  | enqueue | signal | wakeLoop | wakeReconnector | timeout => cases he

/-- What comes from outside adds a bounded amount. -/
theorem work_outside (he : e.isOwn = false) (hstep : s.step e = some t) :
    t.work ≤ s.work + 19 := by
  cases e with
  | loop | reconnector | signalWaiter | notify => cases he
  | enqueue e =>
    simp only [step] at hstep
    split_ifs at hstep
    cases hstep
    simp only [work, push, List.length_append, List.length_singleton]
    omega
  | signal =>
    simp only [step] at hstep
    split_ifs at hstep with hpc
    cases hstep
    simp [work, hpc, SignalPc.rank]
  | wakeLoop =>
    cases hstep
    have hwake := rank_wake_loop s.loop
    simp only [work]
    omega
  | wakeReconnector =>
    cases hstep
    have hwake := rank_wake_reconnector s.reconnector s.running
    simp only [work]
    omega
  | timeout =>
    simp only [step] at hstep
    split_ifs at hstep with hpc
    cases hstep
    cases hrunning : s.running <;> simp [work, hpc, FssReconnectorPc.rank] <;> omega

/-- Once the signal waiter has returned, the reconnector is not left in its wait. -/
theorem isSome_stepReconnector (hlost : s.NoLostWakeup) (hset : s.FlagSet)
    (hsignal : s.signalWaiter = .finished) (hfree : s.mainFree = true)
    (hpc : s.reconnector ≠ .finished) : s.stepReconnector.isSome = true := by
  have hrunning : s.running = false := hset (by simp [hsignal]) (by simp [hsignal])
  unfold stepReconnector
  cases hreconnector : s.reconnector with
  | finished => exact absurd hreconnector hpc
  | exiting => simp [hfree]
  | head | working | notifying => rfl
  | waiting w =>
    cases w with
    | awake | checked => rfl
    | blocked =>
      have hblocked := hlost.reconnector
      rw [hreconnector] at hblocked
      exact absurd hrunning
        (hblocked.not_ready (by simp [PassesReconnector, hsignal]) (by simp [hsignal]))

/-- Once the signal waiter has returned, the event loop is not left in its wait without somebody to
go on. -/
theorem exists_own_of_finished (hlost : s.NoLostWakeup) (hset : s.FlagSet)
    (hsignal : s.signalWaiter = .finished) (hstopped : s.loop ≠ .stopped) :
    ∃ e : AppThreadsLabel ε, e.isOwn = true ∧ (s.step e).isSome = true := by
  have hrunning : s.running = false := hset (by simp [hsignal]) (by simp [hsignal])
  have hloop (h : s.stepLoop.isSome = true) :
      ∃ e : AppThreadsLabel ε, e.isOwn = true ∧ (s.step e).isSome = true := ⟨.loop, rfl, h⟩
  cases hpc : s.loop with
  | stopped => exact absurd hpc hstopped
  | dispatching e => exact hloop (by simp [stepLoop, hpc])
  | draining => exact hloop (by simp [stepLoop, hpc])
  | relocking => exact hloop (by cases hqueue : s.eventQueue <;> simp [stepLoop, hpc, hqueue])
  | joiningSignal => exact hloop (by simp [stepLoop, hpc, hsignal])
  | joiningReconnector =>
    by_cases hfinished : s.reconnector = .finished
    · exact hloop (by simp [stepLoop, hpc, hfinished])
    · have hfree : s.mainFree = true := by simp [mainFree, hpc, AppLoopPc.waiter]
      exact ⟨.reconnector, rfl, isSome_stepReconnector hlost hset hsignal hfree hfinished⟩
  | waiting w =>
    cases w with
    | awake => exact hloop (by cases hqueue : s.eventQueue <;> simp [stepLoop, hpc, hqueue])
    | checked => exact hloop (by simp [stepLoop, hpc])
    | blocked =>
      have hblocked := hlost.loop
      rw [hpc] at hblocked
      -- the flag is set, so somebody is about to notify the event loop
      rcases (hblocked.blocked rfl (Or.inr hrunning)).resolve_left id with h | h | h
      · obtain ⟨n, hn⟩ := Nat.exists_eq_succ_of_ne_zero h.ne'
        exact ⟨.notify, rfl, by simp [step, hn]⟩
      · simp [hsignal] at h
      · exact ⟨.reconnector, rfl, by simp [step, stepReconnector, h]⟩

/-- From the signal on some thread has a step to make until the event loop has returned. -/
theorem exists_own (hlost : s.NoLostWakeup) (hset : s.FlagSet)
    (hsignal : s.signalWaiter ≠ .sigwait) (hstopped : s.loop ≠ .stopped) :
    ∃ e : AppThreadsLabel ε, e.isOwn = true ∧ (s.step e).isSome = true := by
  cases hpc : s.signalWaiter with
  | sigwait => exact absurd hpc hsignal
  | finished => exact exists_own_of_finished hlost hset hpc hstopped
  | notifyingMain | notifyingReconnect =>
    exact ⟨.signalWaiter, rfl, by simp [step, stepSignal, hpc]⟩
  | clearing =>
    by_cases hfree : s.mainFree = true
    · exact ⟨.signalWaiter, rfl, by simp [step, stepSignal, hpc, hfree]⟩
    · -- the event loop holds its mutex between its check and its block
      refine ⟨.loop, rfl, ?_⟩
      cases hloop : s.loop with
      | waiting w => cases w <;> simp_all [step, stepLoop, mainFree, AppLoopPc.waiter]
      | dispatching | relocking | joiningReconnector | joiningSignal | draining | stopped =>
        simp [mainFree, hloop, AppLoopPc.waiter] at hfree
  | passing =>
    by_cases hfree : s.reconnectFree = true
    · exact ⟨.signalWaiter, rfl, by simp [step, stepSignal, hpc, hfree]⟩
    · refine ⟨.reconnector, rfl, ?_⟩
      cases hreconnector : s.reconnector with
      | waiting w =>
        cases w <;> simp_all [step, stepReconnector, reconnectFree, FssReconnectorPc.waiter]
      | head | working | exiting | notifying | finished =>
        simp [reconnectFree, hreconnector, FssReconnectorPc.waiter] at hfree

/-- The event loop and the reconnector block, and then the signal comes and its flag is set. -/
def blockedThenSignal : List (AppThreadsLabel Unit) :=
  [.loop, .loop, .reconnector, .reconnector, .reconnector, .reconnector, .signal, .signalWaiter]

end AppThreads

end CapFmu
