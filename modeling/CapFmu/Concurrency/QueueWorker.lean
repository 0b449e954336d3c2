import CapFmu.Concurrency.Waiter
import CapFmu.Transition.Progress

/-!
# A worker thread and its destructor

A worker takes tasks from a queue under a mutex and waits while there is none and it is not to
stop. Other threads append tasks and notify the worker afterwards, unless there is nothing new to
do. A destructor asks it to stop, notifies it and joins it. What the queue does is a parameter:
any system of sections that can be called idle.

Under every schedule no wake-up is lost, and the destructor returns: the threads' own steps are
bounded, and until it has returned one of them has a step to make. Without the waiting the run is
one of the queue alone, so that what is known of the queue's runs carries over.
-/

namespace Concurrency

open Transition

/-- A queue with its worker. Another thread's `act` is a section under the mutex or not, and is
followed by a notification or not. The worker's `work` is its next section, given an answer from
outside; it has none while it waits for a task, and none once it has exited. -/
structure QueueWorker (σ α ρ : Type*) where
  act : σ → α → Option σ
  locks : σ → α → Bool
  notifies : σ → α → Bool
  requestStop : σ → σ
  work : σ → ρ → Option σ
  exited : σ → Bool

/-- A move of the queue without the waiting. -/
inductive QueueMove (α ρ : Type*)
  | act (a : α)
  | stop
  | work (r : ρ)

/-- What a move is of the other threads: a section of theirs, or the request to stop. -/
def QueueMove.outside? {α ρ : Type*} : QueueMove α ρ → Option (Option α)
  | act a => some (some a)
  | stop => some none
  | work _ => none

/-- Where the destructor is: not called, before its notification, joining the worker, or past it. -/
inductive StopPc
  | idle
  | notifying
  | joining
  | joined
  deriving DecidableEq, Repr

/-- The queue, where its worker and its destructor are, and the number of other threads between
their section and their notification. -/
structure WaitingWorker (σ : Type*) where
  queue : σ
  waiter : Waiter := .awake
  notifying : ℕ := 0
  stopper : StopPc := .idle

/-- A section of another thread, its notification, a step of the worker, the call and the next
step of the destructor, and a wake-up without a notification. -/
inductive WorkerLabel (α ρ : Type*)
  | act (a : α)
  | notify
  | worker (r : ρ)
  | stop
  | stopper
  | wake

namespace WorkerLabel

variable {α ρ : Type*}

/-- Whether a thread makes the step by itself. -/
def isOwn : WorkerLabel α ρ → Bool
  | notify | worker _ | stopper => true
  | act _ | stop | wake => false

/-- What a label is of the other threads: a section of theirs, or the request to stop. -/
def outside? : WorkerLabel α ρ → Option (Option α)
  | act a => some (some a)
  | stop => some none
  | notify | worker _ | stopper | wake => none

end WorkerLabel

/-- The steps left of the worker, were nobody to wake it again. -/
def Waiter.rank : Waiter → ℕ
  | awake => 2
  | checked => 1
  | blocked => 0

/-- The steps left of the destructor, with those it wakes the worker for. -/
def StopPc.rank : StopPc → ℕ
  | notifying => 4
  | joining => 1
  | idle | joined => 0

namespace QueueWorker

variable {σ α ρ : Type*} (W : QueueWorker σ α ρ)

/-- One move of the queue. -/
def move (q : σ) : QueueMove α ρ → Option σ
  | .act a => W.act q a
  | .stop => some (W.requestStop q)
  | .work r => W.work q r

/-- The worker has nothing to do. -/
def Idle (q : σ) : Prop := ∀ r, W.work q r = none

/-- One step. -/
def step (s : WaitingWorker σ) : WorkerLabel α ρ → Option (WaitingWorker σ)
  | .act a =>
    if W.locks s.queue a = true ∧ s.waiter = .checked then none
    else (W.act s.queue a).map fun q =>
      { s with queue := q, notifying := s.notifying + (W.notifies s.queue a).toNat }
  | .notify =>
    match s.notifying with
    | 0 => none
    | n + 1 => some { s with notifying := n, waiter := s.waiter.wake }
  | .worker r =>
    match s.waiter with
    | .awake =>
      match W.work s.queue r with
      | some q => some { s with queue := q }
      | none => if W.exited s.queue then none else some { s with waiter := .checked }
    | .checked => some { s with waiter := .blocked }
    | .blocked => none
  | .stop =>
    if s.stopper = .idle ∧ s.waiter ≠ .checked then
      some { s with queue := W.requestStop s.queue, stopper := .notifying }
    else none
  | .stopper =>
    match s.stopper with
    | .notifying => some { s with waiter := s.waiter.wake, stopper := .joining }
    | .joining => if W.exited s.queue then some { s with stopper := .joined } else none
    | .idle | .joined => none
  | .wake => some { s with waiter := s.waiter.wake }

/-- What a queue has to keep to. Whether the worker has something to do does not depend on the
answer it is given; a section that is not followed by a notification, or not under the mutex,
leaves an idle worker idle. A worker that is to stop exits once it is idle. The work left grows
with a section of another thread by a constant at most. -/
structure Lawful (stopped : σ → Prop) (remaining : σ → ℕ) (raise : ℕ) : Prop where
  idle_of_work : ∀ q r, W.work q r = none → W.Idle q
  idle_of_exited : ∀ q, W.exited q = true → W.Idle q
  idle_act : ∀ q a q', W.act q a = some q' → W.notifies q a = false → W.Idle q → W.Idle q'
  quiet_act : ∀ q a, W.locks q a = false → W.notifies q a = false
  exited_act : ∀ q a q', W.act q a = some q' → W.exited q' = W.exited q
  exited_stop : ∀ q, W.exited (W.requestStop q) = W.exited q
  stopped_stop : ∀ q, stopped (W.requestStop q)
  stopped_act : ∀ q a q', W.act q a = some q' → stopped q → stopped q'
  stopped_work : ∀ q r q', W.work q r = some q' → stopped q → stopped q'
  exited_of_idle : ∀ q, stopped q → W.Idle q → W.exited q = true
  remaining_work : ∀ q r q', W.work q r = some q' → remaining q' < remaining q
  remaining_act : ∀ q a q', W.act q a = some q' → remaining q' ≤ remaining q + raise
  remaining_stop : ∀ q, remaining (W.requestStop q) ≤ remaining q

variable {W} {stopped : σ → Prop} {remaining : σ → ℕ} {raise : ℕ} {s t : WaitingWorker σ}

/-- The worker is attended, waits only where it has not exited, and is to stop once the destructor
has been called. -/
structure Sound (W : QueueWorker σ α ρ) (stopped : σ → Prop) (s : WaitingWorker σ) : Prop where
  attended : Attended s.waiter (¬W.Idle s.queue) False (0 < s.notifying ∨ s.stopper = .notifying)
  waits : s.waiter ≠ .awake → W.exited s.queue = false
  stops : s.stopper ≠ .idle → stopped s.queue
  joined : s.stopper = .joined → W.exited s.queue = true

/-- A wake-up leaves the worker attended. -/
theorem sound_wake {n : ℕ} {pc : StopPc} (h : Sound W stopped s)
    (hstops : pc ≠ .idle → s.stopper ≠ .idle) (hjoined : pc ≠ .joined ∨ s.stopper = .joined) :
    Sound W stopped { s with waiter := s.waiter.wake, notifying := n, stopper := pc } where
  attended := h.attended.wake
  waits hwaiter := h.waits fun hawake => hwaiter (by rw [hawake]; rfl)
  stops hpc := h.stops (hstops hpc)
  joined hpc := h.joined (hjoined.resolve_left fun hne => hne hpc)

/-- A section of another thread leaves the worker attended: it is followed by a notification
unless it leaves an idle worker idle. -/
theorem sound_act {a : α} (hW : W.Lawful stopped remaining raise) (h : Sound W stopped s)
    (hstep : W.step s (.act a) = some t) : Sound W stopped t := by
  simp only [step] at hstep
  split_ifs at hstep with hlocked
  obtain ⟨q, hact, rfl⟩ := Option.map_eq_some_iff.mp hstep
  have hexited := hW.exited_act _ _ _ hact
  refine ⟨?_, fun hwaiter => hexited.trans (h.waits hwaiter),
    fun hpc => hW.stopped_act _ _ _ hact (h.stops hpc), fun hpc => hexited.trans (h.joined hpc)⟩
  cases hnotifies : W.notifies s.queue a with
  | false =>
    exact h.attended.mono (fun hready hidle => hready (hW.idle_act _ _ _ hact hnotifies hidle))
      id (by simp)
  | true =>
    have hlocks : W.locks s.queue a = true := by
      cases hlocks : W.locks s.queue a with
      | true => rfl
      | false => simp [hW.quiet_act s.queue a hlocks] at hnotifies
    exact attended_of_section (fun hchecked => hlocked ⟨hlocks, hchecked⟩) (by simp)

/-- The worker blocks on an idle queue alone. -/
theorem sound_worker {r : ρ} (hW : W.Lawful stopped remaining raise) (h : Sound W stopped s)
    (hstep : W.step s (.worker r) = some t) : Sound W stopped t := by
  simp only [step] at hstep
  split at hstep
  · next hawake =>
    split at hstep
    · next q hwork =>
      cases hstep
      refine ⟨?_, fun hwaiter => absurd hawake hwaiter,
        fun hpc => hW.stopped_work _ _ _ hwork (h.stops hpc), fun hpc => ?_⟩
      · rw [hawake]
        exact attended_awake
      · have hidle := hW.idle_of_exited _ (h.joined hpc) r
        rw [hwork] at hidle
        cases hidle
    · next hwork =>
      split_ifs at hstep with hexited
      cases hstep
      exact ⟨attended_checked fun hready => hready (hW.idle_of_work _ _ hwork),
        fun _ => Bool.eq_false_iff.mpr hexited, h.stops, h.joined⟩
  · next hchecked =>
    cases hstep
    have hattended := h.attended
    rw [hchecked] at hattended
    exact ⟨hattended.block, fun _ => h.waits (by simp [hchecked]), h.stops, h.joined⟩
  · cases hstep

/-- Every step leaves the worker attended. -/
theorem sound_step {e : WorkerLabel α ρ} (hW : W.Lawful stopped remaining raise)
    (h : Sound W stopped s) (hstep : W.step s e = some t) : Sound W stopped t := by
  cases e with
  | act a => exact sound_act hW h hstep
  | worker r => exact sound_worker hW h hstep
  | notify =>
    simp only [step] at hstep
    split at hstep
    · cases hstep
    · cases hstep
      exact sound_wake h id (em' _)
  | wake =>
    cases hstep
    exact sound_wake h id (em' _)
  | stop =>
    simp only [step] at hstep
    split_ifs at hstep with hfree
    cases hstep
    have hexited := hW.exited_stop s.queue
    exact ⟨attended_of_section hfree.2 (Or.inr rfl), fun hwaiter => hexited.trans (h.waits hwaiter),
      fun _ => hW.stopped_stop _, fun hpc => by cases hpc⟩
  | stopper =>
    simp only [step] at hstep
    split at hstep
    · next hpc =>
      cases hstep
      exact sound_wake h (fun _ => by simp [hpc]) (Or.inl (by simp))
    · next hpc =>
      split_ifs at hstep with hexited
      cases hstep
      exact ⟨h.attended.mono id id fun hnotify => Or.inl (hnotify.resolve_right (by simp [hpc])),
        h.waits, fun _ => h.stops (by simp [hpc]), fun _ => hexited⟩
    · cases hstep
    · cases hstep

/-- Until the destructor has returned, the worker, whatever it is answered, the destructor or a
thread with a notification to make has a step. -/
theorem exists_own (hW : W.Lawful stopped remaining raise) (h : Sound W stopped s)
    (hcalled : s.stopper ≠ .idle) (hjoined : s.stopper ≠ .joined) :
    (∀ r, (W.step s (.worker r)).isSome = true) ∨ (W.step s .notify).isSome = true ∨
      (W.step s .stopper).isSome = true := by
  cases hpc : s.stopper with
  | idle => exact absurd hpc hcalled
  | joined => exact absurd hpc hjoined
  | notifying => exact Or.inr (Or.inr (by simp [step, hpc]))
  | joining =>
    cases hexited : W.exited s.queue with
    | true => exact Or.inr (Or.inr (by simp [step, hpc, hexited]))
    | false =>
      cases hwaiter : s.waiter with
      | checked => exact Or.inl fun r => by simp [step, hwaiter]
      | awake =>
        refine Or.inl fun r => ?_
        cases hwork : W.work s.queue r <;> simp [step, hwaiter, hwork, hexited]
      | blocked =>
        -- the worker is to stop, so there is something to do and somebody is about to say so
        have hready : ¬W.Idle s.queue := fun hidle => by
          simp [hW.exited_of_idle _ (h.stops hcalled) hidle] at hexited
        have hattended := h.attended
        rw [hwaiter] at hattended
        have hnotifying := (hattended.blocked rfl hready).resolve_left id
        obtain ⟨n, hn⟩ :=
          Nat.exists_eq_succ_of_ne_zero (hnotifying.resolve_right (by simp [hpc])).ne'
        exact Or.inr (Or.inl (by simp [step, hn]))

/-- What the threads have left to do, were nothing to come from outside. -/
def total (remaining : σ → ℕ) (s : WaitingWorker σ) : ℕ :=
  remaining s.queue + s.waiter.rank + 3 * s.notifying + s.stopper.rank

/-- A notification is worth less than the step that makes it. -/
theorem rank_wake (w : Waiter) : w.wake.rank ≤ w.rank + 2 := by
  cases w <;> simp [Waiter.wake, Waiter.rank]

/-- A step of a thread leaves less to do. -/
theorem total_own {e : WorkerLabel α ρ} (hW : W.Lawful stopped remaining raise)
    (he : e.isOwn = true) (hstep : W.step s e = some t) :
    total remaining t < total remaining s := by
  have hwake := rank_wake s.waiter
  cases e with
  | act | stop | wake => cases he
  | notify =>
    simp only [step] at hstep
    split at hstep
    · cases hstep
    · next n hn =>
      cases hstep
      simp only [total, hn]
      omega
  | worker r =>
    simp only [step] at hstep
    split at hstep
    · next hawake =>
      split at hstep
      · next q hwork =>
        cases hstep
        have hlt := hW.remaining_work _ _ _ hwork
        simp only [total]
        omega
      · split_ifs at hstep
        cases hstep
        simp only [total, hawake, Waiter.rank]
        omega
    · next hchecked =>
      cases hstep
      simp only [total, hchecked, Waiter.rank]
      omega
    · cases hstep
  | stopper =>
    simp only [step] at hstep
    split at hstep
    · next hpc =>
      cases hstep
      simp only [total, hpc, StopPc.rank]
      omega
    · next hpc =>
      split_ifs at hstep
      cases hstep
      simp only [total, hpc, StopPc.rank]
      omega
    · cases hstep
    · cases hstep

/-- What comes from outside adds a bounded amount. -/
theorem total_outside {e : WorkerLabel α ρ} (hW : W.Lawful stopped remaining raise)
    (he : e.isOwn = false) (hstep : W.step s e = some t) :
    total remaining t ≤ total remaining s + (raise + 4) := by
  cases e with
  | notify | worker | stopper => cases he
  | act a =>
    simp only [step] at hstep
    split_ifs at hstep
    obtain ⟨q, hact, rfl⟩ := Option.map_eq_some_iff.mp hstep
    have hle := hW.remaining_act _ _ _ hact
    have hone := Bool.toNat_le (W.notifies s.queue a)
    simp only [total]
    omega
  | stop =>
    simp only [step] at hstep
    split_ifs at hstep with hfree
    cases hstep
    have hle := hW.remaining_stop s.queue
    simp only [total, StopPc.rank]
    omega
  | wake =>
    cases hstep
    have hwake := rank_wake s.waiter
    simp only [total]
    omega

/-- Without the waiting a step is a move of the queue or none. -/
theorem exists_moves_step {e : WorkerLabel α ρ} (hstep : W.step s e = some t) :
    ∃ ms, run W.move s.queue ms = some t.queue ∧
      ms.filterMap QueueMove.outside? = [e].filterMap WorkerLabel.outside? := by
  cases e with
  | act a =>
    simp only [step] at hstep
    split_ifs at hstep
    obtain ⟨q, hact, rfl⟩ := Option.map_eq_some_iff.mp hstep
    exact ⟨[.act a], by simp [run, move, hact], rfl⟩
  | stop =>
    simp only [step] at hstep
    split_ifs at hstep
    cases hstep
    exact ⟨[.stop], rfl, rfl⟩
  | worker r =>
    simp only [step] at hstep
    split at hstep
    · split at hstep
      · next q hwork =>
        cases hstep
        exact ⟨[.work r], by simp [run, move, hwork], rfl⟩
      · split_ifs at hstep
        cases hstep
        exact ⟨[], rfl, rfl⟩
    · cases hstep
      exact ⟨[], rfl, rfl⟩
    · cases hstep
  | notify =>
    simp only [step] at hstep
    split at hstep
    · cases hstep
    · cases hstep
      exact ⟨[], rfl, rfl⟩
  | wake =>
    cases hstep
    exact ⟨[], rfl, rfl⟩
  | stopper =>
    simp only [step] at hstep
    split at hstep
    · cases hstep
      exact ⟨[], rfl, rfl⟩
    · split_ifs at hstep
      cases hstep
      exact ⟨[], rfl, rfl⟩
    · cases hstep
    · cases hstep

/-- Without the waiting a run is one of the queue, in which the other threads do the same. -/
theorem exists_moves {es : List (WorkerLabel α ρ)} (hrun : run W.step s es = some t) :
    ∃ ms, run W.move s.queue ms = some t.queue ∧
      ms.filterMap QueueMove.outside? = es.filterMap WorkerLabel.outside? := by
  induction es generalizing s with
  | nil =>
    obtain rfl := run_nil_eq_some.mp hrun
    exact ⟨[], rfl, rfl⟩
  | cons e es ih =>
    obtain ⟨u, hstep, hrun⟩ := run_cons_eq_some.mp hrun
    obtain ⟨ms, hms, hrest⟩ := ih hrun
    obtain ⟨m, hm, hfirst⟩ := exists_moves_step hstep
    refine ⟨m ++ ms, ?_, ?_⟩
    · rw [run_append, hm]
      exact hms
    · rw [List.filterMap_append, hfirst, hrest, ← List.filterMap_append, List.singleton_append]

/-- What holds at the end of a run: the worker is attended; from the call of the destructor on,
until it has returned, some thread has a step, whatever the worker is answered; the threads' own
steps are bounded; and once the destructor has returned the worker has exited. -/
structure Stops (W : QueueWorker σ α ρ) (remaining : σ → ℕ) (raise : ℕ) (t : WaitingWorker σ) :
    Prop where
  attended : Attended t.waiter (¬W.Idle t.queue) False (0 < t.notifying ∨ t.stopper = .notifying)
  goesOn : t.stopper ≠ .idle → t.stopper ≠ .joined →
    (∀ r, (W.step t (.worker r)).isSome = true) ∨ (W.step t .notify).isSome = true ∨
      (W.step t .stopper).isSome = true
  ends : ∀ es u, run W.step t es = some u →
    es.countP WorkerLabel.isOwn + total remaining u ≤
      total remaining t + (raise + 4) * es.countP fun e => !e.isOwn
  exited : t.stopper = .joined → W.exited t.queue = true

/-- A worker of a lawful queue loses no wake-up, and its destructor returns. -/
theorem stops_of_run {q : σ} {es : List (WorkerLabel α ρ)}
    (hW : W.Lawful stopped remaining raise)
    (hrun : run W.step ({ queue := q } : WaitingWorker σ) es = some t) :
    Stops W remaining raise t := by
  have hstart : Sound W stopped ({ queue := q } : WaitingWorker σ) :=
    ⟨attended_awake, fun hwaiter => absurd rfl hwaiter, fun hpc => absurd rfl hpc,
      fun hpc => by cases hpc⟩
  have ht := invariant_of_run (Sound W stopped) (fun _ _ _ => sound_step hW) hstart hrun
  exact { attended := ht.attended
          goesOn := exists_own hW ht
          ends := fun _ _ => countP_le_of_measure WorkerLabel.isOwn (total remaining) (raise + 4)
            (fun _ _ _ => total_own hW) (fun _ _ _ => total_outside hW)
          exited := ht.joined }

/-- A run up to the first call of the destructor and on until it has returned, with nothing from
the other threads after the call. -/
structure JoinedAfter (W : QueueWorker σ α ρ) (q : σ) (before after : List (WorkerLabel α ρ))
    (t : WaitingWorker σ) : Prop where
  noStop : ∀ e ∈ before, e.outside? ≠ some none
  run_stop : run W.step ({ queue := q } : WaitingWorker σ) (before ++ .stop :: after) = some t
  quiet : after.filterMap WorkerLabel.outside? = []
  joined : t.stopper = .joined

/-- Without the waiting it is a run of the queue up to the request to stop, and on by the worker
alone until it has exited. -/
theorem JoinedAfter.exists_moves {q : σ} {before after : List (WorkerLabel α ρ)}
    (hW : W.Lawful stopped remaining raise) (h : JoinedAfter W q before after t) :
    ∃ ms ns u, run W.move q ms = some u ∧ (∀ m ∈ ms, m.outside? ≠ some none) ∧
      run W.move u (.stop :: ns) = some t.queue ∧ (∀ m ∈ ns, m.outside? = none) ∧
      W.exited t.queue = true := by
  have hexited := (stops_of_run hW h.run_stop).exited h.joined
  have hrun := h.run_stop
  rw [run_append] at hrun
  obtain ⟨s, hs, hrest⟩ := Option.bind_eq_some_iff.mp hrun
  obtain ⟨u, hstop, hafter⟩ := run_cons_eq_some.mp hrest
  obtain ⟨ms, hms, houtside⟩ := QueueWorker.exists_moves hs
  obtain ⟨ns, hns, hquiet⟩ := QueueWorker.exists_moves hafter
  refine ⟨ms, ns, s.queue, hms, ?_, ?_, ?_, hexited⟩
  · intro m hm hstop
    have hmem : none ∈ before.filterMap WorkerLabel.outside? := by
      rw [← houtside]
      exact List.mem_filterMap.mpr ⟨m, hm, hstop⟩
    obtain ⟨e, he, hnone⟩ := List.mem_filterMap.mp hmem
    exact h.noStop e he hnone
  · have hqueue : u.queue = W.requestStop s.queue := by
      simp only [step] at hstop
      split_ifs at hstop
      cases hstop
      rfl
    rw [hqueue] at hns
    exact run_cons_eq_some.mpr ⟨_, rfl, hns⟩
  · rw [h.quiet] at hquiet
    exact List.filterMap_eq_nil_iff.mp hquiet

end QueueWorker

end Concurrency
