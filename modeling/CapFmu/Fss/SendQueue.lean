import CapFmu.Core.Types
import CapFmu.Queue.Coalescing
import CapFmu.Transition.Run

/-!
# The send queue of the ground-station client

Every report to the ground station and every resolved acknowledgement is a task of one worker
thread. A position report replaces the one that is still queued; nothing else is ever dropped,
and a worker that is told to stop drains the queue first. Stopping is the destructor's, when no
thread reports any more.
-/

namespace CapFmu

open Numeric (Double)
open Queue

/-- A position report in the units of the wire. -/
structure FssPositionTask where
  lat : Double := .finite 0
  lng : Double := .finite 0
  alt : Int16 := 0
  heading : UInt16 := 0
  horVel : UInt16 := 0
  verVel : Int16 := 0
  fixValid : Bool := true
  deriving DecidableEq

/-- A reached point of the search. -/
structure FssReachedTask where
  point : ℤ := 0
  totalPoints : ℤ := 0
  deriving DecidableEq

/-- A battery report. -/
structure FssBatteryTask where
  remaining : Int8 := 0
  consumed : Int32 := 0
  voltage : Double := .finite 0
  deriving DecidableEq

/-- A resolution for the responder that sends it. -/
structure FssAckTask (Responder : Type*) where
  ack : Responder
  res : FssCommandResolution := {}
  deriving DecidableEq

/-- The tasks of the worker. -/
inductive FssTask (Responder : Type*)
  | position (t : FssPositionTask)
  | reached (t : FssReachedTask)
  | battery (t : FssBatteryTask)
  | ack (t : FssAckTask Responder)
  deriving DecidableEq

/-- The calls that the worker makes: on the client, or of a responder. -/
inductive FssSendCall (Responder : Type*)
  | sendPosition (lat lng : Double) (alt : Int16) (heading horVel : UInt16) (verVel : Int16)
    (fixValid : Bool)
  | reachedPoint (point totalPoints : ℤ)
  | sendBatteryStatus (remaining : Int8) (consumed : Int32) (voltage : Double)
  | ack (ack : Responder) (res : FssCommandResolution)
  deriving DecidableEq

section Send

variable {Responder : Type*}

/-- Send a position. -/
def sendPosition (t : FssPositionTask) : FssSendCall Responder :=
  .sendPosition t.lat t.lng t.alt t.heading t.horVel t.verVel t.fixValid

/-- Send a reached point. -/
def sendReached (t : FssReachedTask) : FssSendCall Responder :=
  .reachedPoint t.point t.totalPoints

/-- Send a battery report. -/
def sendBattery (t : FssBatteryTask) : FssSendCall Responder :=
  .sendBatteryStatus t.remaining t.consumed t.voltage

/-- Have the responder send its resolution. -/
def sendAck (t : FssAckTask Responder) : FssSendCall Responder := .ack t.ack t.res

/-- Carry out a task. -/
def FssTask.send : FssTask Responder → FssSendCall Responder
  | position t => sendPosition t
  | reached t => sendReached t
  | battery t => sendBattery t
  | ack t => sendAck t

/-- The task that a call carries out, with all that the call is told. -/
def FssSendCall.task : FssSendCall Responder → FssTask Responder
  | sendPosition lat lng alt heading horVel verVel fixValid =>
    .position { lat, lng, alt, heading, horVel, verVel, fixValid }
  | reachedPoint point totalPoints => .reached { point, totalPoints }
  | sendBatteryStatus remaining consumed voltage => .battery { remaining, consumed, voltage }
  | ack responder res => .ack { ack := responder, res := res }

/-- The call of a task carries out that task. -/
@[simp] theorem FssTask.task_send (task : FssTask Responder) : task.send.task = task := by
  cases task <;> rfl

end Send

/-- A position report replaces the queued one. -/
def FssTask.coalescing {Responder : Type*} : FssTask Responder → Coalescing
  | position _ => .replace
  | reached _ | battery _ | ack _ => .keep

/-- What the worker does: wait for a task, carry one out, or nothing any more. -/
inductive FssWorkerPc (Responder : Type*)
  | waiting
  | sending (task : FssTask Responder)
  | exited

/-- The queue and its worker. The tasks enqueued and the calls made are recorded. -/
structure FssSender (Responder : Type*) where
  taskQueue : List (FssTask Responder) := []
  workerRunning : Bool := true
  worker : FssWorkerPc Responder := .waiting
  enqueued : List (FssTask Responder) := []
  calls : List (FssSendCall Responder) := []

/-- A task from any thread, a step of the worker, and the request to stop. -/
inductive FssSendLabel (Responder : Type*)
  | enqueue (task : FssTask Responder)
  | worker
  | stopWorker

/-- Whether the label is a task. -/
def FssSendLabel.isEnqueue {Responder : Type*} : FssSendLabel Responder → Bool
  | enqueue _ => true
  | worker | stopWorker => false

/-- Whether the label is the request to stop. -/
def FssSendLabel.isStop {Responder : Type*} : FssSendLabel Responder → Bool
  | stopWorker => true
  | enqueue _ | worker => false

namespace FssSender

variable {Responder : Type*}

/-- Append a task; a position report takes the place of the queued one. -/
def enqueue (s : FssSender Responder) (task : FssTask Responder) : FssSender Responder :=
  { s with
    taskQueue := push FssTask.coalescing s.taskQueue task
    enqueued := s.enqueued ++ [task] }

/-- The worker takes a task, carries out the one it holds, or exits once it is to stop and the
queue is empty; it waits on an empty queue otherwise. -/
def workerLoop (s : FssSender Responder) : Option (FssSender Responder) :=
  match s.worker with
  | .exited => none
  | .sending task => some { s with worker := .waiting, calls := s.calls ++ [task.send] }
  | .waiting =>
    match s.taskQueue with
    | task :: rest => some { s with worker := .sending task, taskQueue := rest }
    | [] => if s.workerRunning then none else some { s with worker := .exited }

/-- One step. -/
def step (s : FssSender Responder) : FssSendLabel Responder → Option (FssSender Responder)
  | .enqueue task => some (s.enqueue task)
  | .worker => s.workerLoop
  | .stopWorker => some { s with workerRunning := false }

/-- The tasks that the calls made so far carry out. -/
def sent (s : FssSender Responder) : List (FssTask Responder) := s.calls.map FssSendCall.task

/-- The tasks taken from the queue. -/
def taken (s : FssSender Responder) : List (FssTask Responder) :=
  match s.worker with
  | .sending task => s.sent ++ [task]
  | .waiting | .exited => s.sent

/-- The books of the queue. -/
def Accounted (s : FssSender Responder) : Prop :=
  Coalesces FssTask.coalescing s.enqueued s.taken s.taskQueue

/-- Before the request to stop the worker runs. -/
structure Running (s : FssSender Responder) : Prop where
  books : s.Accounted
  running : s.workerRunning = true
  notExited : s.worker ≠ .exited

/-- After the request to stop nothing is added, and the worker exits only with the queue empty. -/
structure Stopping (start s : FssSender Responder) : Prop where
  books : s.Accounted
  stopped : s.workerRunning = false
  enqueued : s.enqueued = start.enqueued
  tasks : s.taken ++ s.taskQueue = start.taken ++ start.taskQueue
  drained : s.worker = .exited → s.taskQueue = []

variable {start s t : FssSender Responder}

/-- The call that carries out a task is one more task sent. -/
theorem sent_send (s : FssSender Responder) (task : FssTask Responder) :
    sent { s with worker := .waiting, calls := s.calls ++ [task.send] } = s.sent ++ [task] := by
  simp [sent]

/-- A step of the worker leaves the tasks and the request to stop alone and keeps the books. -/
theorem accounted_workerLoop (h : s.Accounted) (hstep : s.workerLoop = some t) :
    t.Accounted ∧ t.enqueued = s.enqueued ∧ t.workerRunning = s.workerRunning ∧
      t.taken ++ t.taskQueue = s.taken ++ s.taskQueue ∧
      (t.worker = .exited → t.taskQueue = [] ∧ t.workerRunning = false) := by
  unfold workerLoop at hstep
  cases hworker : s.worker with
  | exited => simp [hworker] at hstep
  | sending task =>
    simp only [hworker, Option.some.injEq] at hstep
    subst hstep
    have htaken : s.taken = s.sent ++ [task] := by simp [taken, hworker]
    have hsent :
        taken { s with worker := .waiting, calls := s.calls ++ [task.send] } = s.taken := by
      rw [htaken]
      exact s.sent_send task
    rw [Accounted, ← hsent] at h
    exact ⟨h, rfl, rfl, by rw [hsent], by simp⟩
  | waiting =>
    have htaken : s.taken = s.sent := by simp [taken, hworker]
    rw [Accounted, htaken] at h
    simp only [hworker] at hstep
    cases hqueue : s.taskQueue with
    | cons task rest =>
      simp only [hqueue, Option.some.injEq] at hstep
      subst hstep
      rw [hqueue] at h
      exact ⟨h.pop, rfl, rfl, by simp [taken, hworker, sent], by simp⟩
    | nil =>
      simp only [hqueue] at hstep
      split at hstep
      · cases hstep
      · next hrunning =>
        cases hstep
        rw [hqueue] at h
        exact ⟨by simpa [Accounted, taken, sent, hqueue] using h, rfl, rfl,
          by simp [taken, sent, hworker],
          fun _ => ⟨rfl, by simpa using hrunning⟩⟩

/-- A task is accounted for as it is enqueued. -/
theorem Accounted.enqueue (h : s.Accounted) (task : FssTask Responder) :
    (s.enqueue task).Accounted := Coalesces.push h task

/-- Until the request to stop every step keeps the books. -/
theorem running_step {e : FssSendLabel Responder} (h : s.Running) (he : e.isStop = false)
    (hstep : s.step e = some t) : t.Running := by
  cases e with
  | stopWorker => exact absurd he Bool.false_ne_true.symm
  | enqueue task =>
    cases hstep
    exact { books := h.books.enqueue task, running := h.running, notExited := h.notExited }
  | worker =>
    obtain ⟨hbooks, -, hrunning, -, hexited⟩ := accounted_workerLoop h.books hstep
    have ht := hrunning.trans h.running
    exact { books := hbooks
            running := ht
            notExited := fun hworker => by simp [(hexited hworker).2] at ht }

/-- After the request to stop every step that is no new task keeps the books and the tasks. -/
theorem stopping_step {e : FssSendLabel Responder} (h : Stopping start s)
    (he : e.isEnqueue = false) (hstep : s.step e = some t) : Stopping start t := by
  cases e with
  | enqueue task => exact absurd he Bool.false_ne_true.symm
  | stopWorker =>
    cases hstep
    exact { h with stopped := rfl }
  | worker =>
    obtain ⟨hbooks, henqueued, hrunning, htasks, hexited⟩ := accounted_workerLoop h.books hstep
    exact { books := hbooks
            stopped := hrunning.trans h.stopped
            enqueued := henqueued.trans h.enqueued
            tasks := htasks.trans h.tasks
            drained := fun hworker => (hexited hworker).1 }

/-- The steps the worker has left until it exits. -/
def remaining (s : FssSender Responder) : ℕ :=
  match s.worker with
  | .exited => 0
  | .waiting => 2 * s.taskQueue.length + 1
  | .sending _ => 2 * s.taskQueue.length + 2

/-- A worker that is to stop goes on until it exits. -/
theorem worker_remaining (hstopped : s.workerRunning = false) (hbusy : s.remaining ≠ 0) :
    ∃ t, s.step .worker = some t ∧ t.remaining < s.remaining ∧ t.workerRunning = false := by
  unfold remaining at hbusy
  cases hworker : s.worker with
  | exited => simp [hworker] at hbusy
  | sending task => simp [step, workerLoop, remaining, hworker, hstopped]
  | waiting =>
    cases hqueue : s.taskQueue with
    | nil => simp [step, workerLoop, remaining, hworker, hqueue, hstopped]
    | cons task rest =>
      simp [step, workerLoop, remaining, hworker, hqueue, hstopped]
      omega

/-- A run up to the request to stop, and on from it without new tasks. -/
structure Stops (before after : List (FssSendLabel Responder)) (s t : FssSender Responder) :
    Prop where
  noStop : ∀ e ∈ before, e.isStop = false
  run_before : Transition.run step {} before = some s
  noTask : ∀ e ∈ after, e.isEnqueue = false
  run_after : Transition.run step s (.stopWorker :: after) = some t

/-- The books are kept before the request to stop and after it, between the tasks enqueued, those
that the worker's calls carry out and those queued: every task but a position report is carried
out once and in order, the position reports carried out are some of those reported, the newest
among them, and one is queued at most. What is queued at the request is carried out before the
worker exits, and the worker does exit. -/
structure Drains (s t : FssSender Responder) : Prop where
  books_before : s.Accounted
  books_after : t.Accounted
  enqueued_before : t.enqueued = s.enqueued
  sent_queued : t.worker = .exited → t.sent = s.taken ++ s.taskQueue
  books_sent : t.worker = .exited → Coalesces FssTask.coalescing s.enqueued t.sent []
  exits : ∃ u, Transition.Repeats step .worker t u ∧ u.worker = .exited

/-- The send queue drains, however the tasks of any threads interleave with the worker. -/
theorem drains_of_stops {before after : List (FssSendLabel Responder)}
    (hstops : Stops before after s t) : Drains s t := by
  have hstart : Running ({} : FssSender Responder) :=
    { books := coalesces_nil, running := rfl, notExited := by simp }
  have hrunning := Transition.invariant_of_forall_mem Running
    (fun _ _ _ => running_step) hstart hstops.noStop hstops.run_before
  obtain ⟨stopped, hstop, hrest⟩ := Transition.run_cons_eq_some.mp hstops.run_after
  have hstopping : Stopping s stopped := by
    cases hstop
    exact { books := hrunning.books
            stopped := rfl
            enqueued := rfl
            tasks := rfl
            drained := fun hexited => absurd hexited hrunning.notExited }
  have hdone := Transition.invariant_of_forall_mem (Stopping s)
    (fun _ _ _ => stopping_step) hstopping hstops.noTask hrest
  have htaken (hexited : t.worker = .exited) : t.taken = t.sent := by simp [taken, hexited]
  constructor
  · exact hrunning.books
  · exact hdone.books
  · exact hdone.enqueued
  · intro hexited
    have htasks := hdone.tasks
    rwa [hdone.drained hexited, htaken hexited, List.append_nil] at htasks
  · intro hexited
    have hbooks := hdone.books
    rwa [Accounted, hdone.drained hexited, htaken hexited, hdone.enqueued] at hbooks
  · obtain ⟨u, hrepeats, hzero, -⟩ := Transition.repeats_of_measure_of_invariant remaining
      (fun _ => worker_remaining) hdone.stopped
    refine ⟨u, hrepeats, ?_⟩
    cases hworker : u.worker <;> simp [remaining, hworker] at hzero
    rfl

/-- Position reports on both sides of a reached point, the first of them taken at once. -/
def reportsAroundPoint : List (FssSendLabel Unit) :=
  [.enqueue (.position { lat := .finite 1 }), .worker, .enqueue (.position { lat := .finite 2 }),
    .enqueue (.reached { point := 1, totalPoints := 4 }),
    .enqueue (.position { lat := .finite 3 })]

/-- All but the replaced report are queued, in order, and the worker exits after them. -/
theorem reportsAroundPoint_stops :
    ∃ s t, Stops reportsAroundPoint (List.replicate 6 .worker) s t ∧ t.worker = .exited ∧
      s.taken ++ s.taskQueue = [.position { lat := .finite 1 },
        .reached { point := 1, totalPoints := 4 }, .position { lat := .finite 3 }] := by
  obtain ⟨s, t, hs, ht, hexited, htasks⟩ : ∃ s t,
      Transition.run step {} reportsAroundPoint = some s ∧
      Transition.run step s (.stopWorker :: List.replicate 6 .worker) = some t ∧
      t.worker = .exited ∧ s.taken ++ s.taskQueue = [.position { lat := .finite 1 },
        .reached { point := 1, totalPoints := 4 }, .position { lat := .finite 3 }] :=
    ⟨_, _, rfl, rfl, rfl, rfl⟩
  exact ⟨s, t, ⟨by decide, hs, by decide, ht⟩, hexited, htasks⟩

end FssSender

end CapFmu
