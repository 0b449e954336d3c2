import CapFmu.Concurrency.QueueWorker
import CapFmu.Logging.Logger
import CapFmu.Smm.TaskQueue

/-!
# The worker threads

The send worker of the ground-station client, the worker of the search client and the writer of
the log wait for their tasks in the same way, and their destructors stop them in the same way. A
retry that joins the one queued and a line that is not logged are not followed by a notification.
-/

namespace CapFmu

open Concurrency Transition

/-! ## The send worker of the ground-station client -/

namespace FssSender

variable {Responder : Type*} {s t : FssSender Responder}

/-- Whether the worker has exited. -/
def hasExited (s : FssSender Responder) : Bool :=
  match s.worker with
  | .exited => true
  | .waiting | .sending _ => false

/-- The queue of the ground-station client. -/
def queueWorker : QueueWorker (FssSender Responder) (FssTask Responder) Unit where
  act s task := some (s.enqueue task)
  locks _ _ := true
  notifies _ _ := true
  requestStop s := { s with workerRunning := false }
  work s _ := s.workerLoop
  exited := hasExited

/-- A step of the worker leaves it less to do. -/
theorem remaining_workerLoop (hstep : s.workerLoop = some t) : t.remaining < s.remaining := by
  unfold workerLoop at hstep
  split at hstep
  · cases hstep
  · next hworker =>
    cases hstep
    simp [remaining, hworker]
  · next hworker =>
    split at hstep
    · next hqueue =>
      cases hstep
      simp only [remaining, hworker, hqueue, List.length_cons]
      omega
    · split at hstep
      · cases hstep
      · cases hstep
        simp [remaining, hworker]

/-- A task adds the two steps of taking it and carrying it out at most. -/
theorem remaining_enqueue (s : FssSender Responder) (task : FssTask Responder) :
    (s.enqueue task).remaining ≤ s.remaining + 2 := by
  have hlength := Queue.length_push_le FssTask.coalescing s.taskQueue task
  unfold remaining enqueue
  cases s.worker <;> simp only <;> omega

theorem worker_of_hasExited (h : s.hasExited = true) : s.worker = .exited := by
  unfold hasExited at h
  split at h
  · assumption
  · cases h
  · cases h

/-- The worker has nothing to do once it has exited. -/
theorem workerLoop_of_hasExited (h : s.hasExited = true) : s.workerLoop = none := by
  simp [workerLoop, worker_of_hasExited h]

/-- A worker that is to stop waits for nothing until it has exited. -/
theorem hasExited_of_workerLoop (hstopped : s.workerRunning = false) (h : s.workerLoop = none) :
    s.hasExited = true := by
  unfold workerLoop at h
  split at h
  · next hworker => simp [hasExited, hworker]
  · cases h
  · split at h
    · cases h
    · simp [hstopped] at h

/-- A step of the worker leaves the request to stop alone. -/
theorem workerRunning_workerLoop (hstep : s.workerLoop = some t) :
    t.workerRunning = s.workerRunning := by
  unfold workerLoop at hstep
  split at hstep
  · cases hstep
  · cases hstep
    rfl
  · split at hstep
    · cases hstep
      rfl
    · split at hstep <;> cases hstep
      rfl

/-- The send queue keeps to what a worker's queue has to. -/
theorem queueWorker_lawful :
    (queueWorker : QueueWorker (FssSender Responder) (FssTask Responder) Unit).Lawful
      (fun s => s.workerRunning = false) remaining 2 where
  idle_of_work _ _ hwork _ := hwork
  idle_of_exited _ hexited _ := workerLoop_of_hasExited hexited
  idle_act _ _ _ _ hnotifies := by cases hnotifies
  quiet_act _ _ hlocks := by cases hlocks
  exited_act _ _ _ hact := by
    cases hact
    rfl
  exited_stop _ := rfl
  stopped_stop _ := rfl
  stopped_act _ _ _ hact hstopped := by
    cases hact
    exact hstopped
  stopped_work _ _ _ hwork hstopped := (workerRunning_workerLoop hwork).trans hstopped
  exited_of_idle _ hstopped hidle := hasExited_of_workerLoop hstopped (hidle ())
  remaining_work _ _ _ hwork := remaining_workerLoop hwork
  remaining_act s task _ hact := by
    cases hact
    exact remaining_enqueue s task
  remaining_stop _ := le_rfl

/-- A move of the queue as a step of the command link. -/
def moveLabel : QueueMove (FssTask Responder) Unit → FssSendLabel Responder
  | .act task => .enqueue task
  | .stop => .stopWorker
  | .work _ => .worker

/-- A task, the request to stop and a section of the worker are steps. -/
theorem step_moveLabel (s : FssSender Responder) (m : QueueMove (FssTask Responder) Unit)
    (t : FssSender Responder) (hmove : queueWorker.move s m = some t) :
    s.step (moveLabel m) = some t := by
  cases m <;> exact hmove

/-- The books at the end of a run that the destructor ends. -/
theorem drains_of_joined {before after : List (WorkerLabel (FssTask Responder) Unit)}
    {w : WaitingWorker (FssSender Responder)} (h : queueWorker.JoinedAfter {} before after w) :
    w.queue.hasExited = true ∧ ∃ s, Drains s w.queue := by
  obtain ⟨ms, ns, s, hbefore, hnoStop, hafter, hquiet, hexited⟩ :=
    h.exists_moves queueWorker_lawful
  suffices hstops : Stops (ms.map moveLabel) (ns.map moveLabel) s w.queue from
    ⟨hexited, s, drains_of_stops hstops⟩
  constructor
  · intro e he
    obtain ⟨m, hm, rfl⟩ := List.mem_map.mp he
    have hstop := hnoStop m hm
    cases m with
    | stop => exact absurd rfl hstop
    | act | work => rfl
  · exact run_map step_moveLabel hbefore
  · intro e he
    obtain ⟨m, hm, rfl⟩ := List.mem_map.mp he
    have hwork := hquiet m hm
    cases m with
    | act | stop => cases hwork
    | work => rfl
  · exact run_map step_moveLabel hafter

end FssSender

/-! ## The worker of the search client -/

namespace SmmSender

variable {s t : SmmSender} {r : SmmReply}

/-- Whether a call takes the mutex of the queue; revoking the role does not. -/
def locks : SmmLabel → Bool
  | .enqueue _ | .search _ => true
  | .cancelSearch | .worker _ => false

/-- Whether a call is followed by a notification. A retry that joins the one queued is not. -/
def notifies (s : SmmSender) : SmmLabel → Bool
  | .enqueue task => !(task.isRetryPending && s.smm.taskQueue.any SmmTask.isRetryPending)
  | .search _ => true
  | .cancelSearch | .worker _ => false

/-- A call of another thread. -/
def call (s : SmmSender) : SmmLabel → Option SmmSender
  | .worker _ => none
  | e => s.step (.smm e)

/-- The queue of the search client. -/
def queueWorker : QueueWorker SmmSender SmmLabel SmmReply where
  act := call
  locks _ := locks
  notifies := notifies
  requestStop s := { s with workerRunning := false }
  work := workerLoop
  exited := exited

/-- A call leaves the life of the worker and what it carries out alone. -/
theorem call_frame {e : SmmLabel} (hcall : s.call e = some t) :
    t.exited = s.exited ∧ t.workerRunning = s.workerRunning ∧ t.smm.pc = s.smm.pc := by
  cases e with
  | worker => cases hcall
  | cancelSearch =>
    cases hcall
    exact ⟨rfl, rfl, rfl⟩
  | enqueue task =>
    cases hcall
    exact ⟨rfl, rfl, by rw [Smm.enqueue_frame]⟩
  | search pos =>
    cases hcall
    refine ⟨rfl, rfl, ?_⟩
    change (Smm.enqueue _ _).pc = _
    rw [Smm.enqueue_frame]

/-- The worker has nothing to do when it has exited, and when it is to go on and has no task. -/
theorem workerLoop_eq_none_iff :
    s.workerLoop r = none ↔
      s.exited = true ∨ s.smm.pc = .idle ∧ s.smm.taskQueue = [] ∧ s.workerRunning = true := by
  cases hexited : s.exited with
  | true => simp [workerLoop, hexited]
  | false =>
    by_cases hidle : s.smm.pc = .idle
    · cases hqueue : s.smm.taskQueue with
      | nil => simp [workerLoop, hexited, hidle, hqueue]
      | cons task rest => simp [workerLoop, Smm.step, hexited, hidle, hqueue]
    · obtain ⟨next, effects, hnext, -⟩ := s.smm.step_sections r hidle
      simp [workerLoop_of_busy hexited hidle, hnext, hidle]

/-- A step of the worker leaves it less to do, and the request to stop alone. -/
theorem remaining_workerLoop (hstep : s.workerLoop r = some t) :
    t.remaining < s.remaining ∧ t.workerRunning = s.workerRunning := by
  cases hexited : s.exited with
  | true => simp [workerLoop, hexited] at hstep
  | false =>
    by_cases hidle : s.smm.pc = .idle
    · simp only [workerLoop, hexited, hidle, Bool.false_eq_true, if_false] at hstep
      cases hqueue : s.smm.taskQueue with
      | nil =>
        simp only [hqueue] at hstep
        split at hstep <;> cases hstep
        exact ⟨by simp [remaining, hexited], rfl⟩
      | cons task rest =>
        have hentry := Smm.sections_entry task
        simp only [hqueue, Smm.step, hidle, Option.map_some, Option.some.injEq] at hstep
        subst hstep
        refine ⟨?_, rfl⟩
        simp only [remaining, hexited, hqueue, Bool.false_eq_true, if_false, List.length_cons]
        omega
    · obtain ⟨next, effects, hnext, hlt⟩ := s.smm.step_sections r hidle
      have hqueue := Smm.taskQueue_step_of_busy hidle hnext
      rw [workerLoop_of_busy hexited hidle, hnext] at hstep
      cases hstep
      obtain ⟨hsmm, -, hrunning, hexit⟩ := s.goOn_frame (next, effects)
      refine ⟨?_, hrunning⟩
      simp only [remaining, hsmm, hexit, hexited, hqueue, Bool.false_eq_true, if_false]
      omega

/-- A call adds one task at most. -/
theorem length_call {e : SmmLabel} (hcall : s.call e = some t) :
    t.smm.taskQueue.length ≤ s.smm.taskQueue.length + 1 := by
  cases e with
  | worker => cases hcall
  | cancelSearch =>
    cases hcall
    exact Nat.le_succ _
  | enqueue task =>
    cases hcall
    rw [Smm.taskQueue_enqueue]
    exact Queue.length_push_le _ _ _
  | search pos =>
    cases hcall
    change (Smm.enqueue _ _).taskQueue.length ≤ _
    rw [Smm.taskQueue_enqueue]
    exact Queue.length_push_le _ _ _

/-- A call that is not followed by a notification leaves the queue alone. -/
theorem taskQueue_call {e : SmmLabel} (hcall : s.call e = some t)
    (hnotifies : s.notifies e = false) : t.smm.taskQueue = s.smm.taskQueue := by
  cases e with
  | worker => cases hcall
  | search => cases hnotifies
  | cancelSearch =>
    cases hcall
    rfl
  | enqueue task =>
    cases hcall
    have hjoins : (task.isRetryPending && s.smm.taskQueue.any SmmTask.isRetryPending) = true := by
      simpa [notifies] using hnotifies
    have hreport : task.isReportPosition = false := by
      cases task with
      | retryPending => rfl
      | connect | reportPosition | reachedPoint | search => simp [SmmTask.isRetryPending] at hjoins
    change (Smm.enqueue _ _).taskQueue = _
    rw [Smm.enqueue, if_neg (Bool.eq_false_iff.mp hreport), if_pos hjoins]

/-- The queue of the search client keeps to what a worker's queue has to. -/
theorem queueWorker_lawful :
    queueWorker.Lawful (fun s => s.workerRunning = false) remaining 31 where
  idle_of_work _ _ hwork _ := workerLoop_eq_none_iff.mpr (workerLoop_eq_none_iff.mp hwork)
  idle_of_exited _ hexited _ := workerLoop_eq_none_iff.mpr (Or.inl hexited)
  idle_act s e t hcall hnotifies hidle r := by
    obtain ⟨hexited, hrunning, hpc⟩ := call_frame hcall
    have hqueue := taskQueue_call hcall hnotifies
    have hnone := workerLoop_eq_none_iff.mp (hidle r)
    refine workerLoop_eq_none_iff.mpr ?_
    rwa [hexited, hrunning, hpc, hqueue]
  quiet_act _ e hlocks := by cases e <;> first | rfl | cases hlocks
  exited_act _ _ _ hcall := (call_frame hcall).1
  exited_stop _ := rfl
  stopped_stop _ := rfl
  stopped_act _ _ _ hcall hstopped := (call_frame hcall).2.1.trans hstopped
  stopped_work _ _ _ hwork hstopped := (remaining_workerLoop hwork).2.trans hstopped
  exited_of_idle s hstopped hidle := by
    refine (workerLoop_eq_none_iff.mp (hidle {})).resolve_right ?_
    simp [hstopped]
  remaining_work _ _ _ hwork := (remaining_workerLoop hwork).1
  remaining_act s e t hcall := by
    obtain ⟨hexited, -, hpc⟩ := call_frame hcall
    have hlength := length_call hcall
    simp only [remaining, hexited, hpc]
    split <;> omega
  remaining_stop _ := le_rfl

/-- A move of the queue as a step of the search client. -/
def moveLabel : QueueMove SmmLabel SmmReply → SmmSendLabel
  | .act e => .smm e
  | .stop => .stopWorker
  | .work r => .smm (.worker r)

/-- A call, the request to stop and a section of the worker are steps. -/
theorem step_moveLabel (s : SmmSender) (m : QueueMove SmmLabel SmmReply) (t : SmmSender)
    (hmove : queueWorker.move s m = some t) : s.step (moveLabel m) = some t := by
  cases m with
  | stop | work => exact hmove
  | act e =>
    cases e with
    | worker => cases hmove
    | enqueue | search | cancelSearch => exact hmove

/-- The books at the end of a run that the destructor ends. -/
theorem drains_of_joined {before after : List (WorkerLabel SmmLabel SmmReply)}
    {w : WaitingWorker SmmSender} {intervalMs : ℕ}
    (h : queueWorker.JoinedAfter { smm := .init intervalMs } before after w) :
    w.queue.exited = true ∧ ∃ s, Drains intervalMs s w.queue := by
  obtain ⟨ms, ns, s, hbefore, hnoStop, hafter, hquiet, hexited⟩ :=
    h.exists_moves queueWorker_lawful
  suffices hstops : Stops intervalMs (ms.map moveLabel) (ns.map moveLabel) s w.queue from
    ⟨hexited, s, drains_of_stops hstops⟩
  constructor
  · intro e he
    obtain ⟨m, hm, rfl⟩ := List.mem_map.mp he
    have hstop := hnoStop m hm
    cases m with
    | stop => exact absurd rfl hstop
    | act | work => rfl
  · exact run_map step_moveLabel hbefore
  · intro e he
    obtain ⟨m, hm, rfl⟩ := List.mem_map.mp he
    have hwork := hquiet m hm
    cases m with
    | act | stop => cases hwork
    | work => rfl
  · exact run_map step_moveLabel hafter

end SmmSender

/-! ## The writer of the log -/

namespace Logger

variable {s t : Logger}

/-- Whether the worker has exited. -/
def hasExited (s : Logger) : Bool :=
  match s.worker with
  | .exited => true
  | .waiting | .writing _ _ => false

/-- The queue of the log; a line that is not logged is not queued at all. -/
def queueWorker : QueueWorker Logger LogLine String where
  act s l := some (s.log l)
  locks := accepts
  notifies := accepts
  requestStop s := { s with workerRunning := false }
  work := workerLoop
  exited := hasExited

/-- The worker has nothing to do when it has exited, and when it is to go on and has no line. -/
theorem workerLoop_eq_none_iff {timestamp : String} :
    s.workerLoop timestamp = none ↔
      s.hasExited = true ∨ s.worker = .waiting ∧ s.lineQueue = [] ∧ s.workerRunning = true := by
  unfold workerLoop hasExited
  cases hworker : s.worker with
  | exited => simp
  | writing dropped line => cases dropped <;> simp
  | waiting => cases hqueue : s.lineQueue <;> simp

/-- A step of the worker leaves it less to do, and the request to stop alone. -/
theorem remaining_workerLoop {timestamp : String} (hstep : s.workerLoop timestamp = some t) :
    t.remaining < s.remaining ∧ t.workerRunning = s.workerRunning := by
  unfold workerLoop at hstep
  split at hstep
  · cases hstep
  · next hworker =>
    split at hstep
    · next hqueue =>
      cases hstep
      refine ⟨?_, rfl⟩
      simp only [remaining, hworker, hqueue, List.length_cons]
      split <;> omega
    · split at hstep <;> cases hstep
      exact ⟨by simp [remaining, hworker], rfl⟩
  · next hworker =>
    cases hstep
    exact ⟨by simp [remaining, hworker], rfl⟩
  · next hdropped hworker =>
    cases hstep
    refine ⟨?_, rfl⟩
    simp only [remaining, hworker]
    rw [if_neg hdropped, if_pos trivial]
    omega

/-- Dropping the oldest line at the bound makes the queue no longer. -/
theorem length_dropOldest_le (s : Logger) :
    s.dropOldest.lineQueue.length ≤ s.lineQueue.length := by
  unfold dropOldest
  split
  · split
    · exact le_rfl
    · next hqueue =>
      rw [hqueue]
      exact Nat.le_succ _
  · exact le_rfl

/-- A line adds three steps at most. -/
theorem remaining_log (s : Logger) (l : LogLine) : (s.log l).remaining ≤ s.remaining + 3 := by
  have hdrop := s.length_dropOldest_le
  have hlength : (s.log l).lineQueue.length ≤ s.lineQueue.length + 1 := by
    unfold Logger.log
    split
    · simpa using hdrop
    · exact Nat.le_succ _
  have hworker := (s.log_frame l).2.2.1
  unfold remaining
  rw [hworker]
  split <;> omega

/-- The queue of the log keeps to what a worker's queue has to. -/
theorem queueWorker_lawful :
    queueWorker.Lawful (fun s => s.workerRunning = false) remaining 3 where
  idle_of_work _ _ hwork _ := workerLoop_eq_none_iff.mpr (workerLoop_eq_none_iff.mp hwork)
  idle_of_exited _ hexited _ := workerLoop_eq_none_iff.mpr (Or.inl hexited)
  idle_act s l t hlog hnotifies hidle := by
    cases hlog
    have hsame : s.log l = s := if_neg (Bool.eq_false_iff.mp hnotifies)
    rwa [hsame]
  quiet_act _ _ hlocks := hlocks
  exited_act s l t hlog := by
    cases hlog
    have hworker := (s.log_frame l).2.2.1
    change hasExited _ = hasExited _
    unfold hasExited
    rw [hworker]
  exited_stop _ := rfl
  stopped_stop _ := rfl
  stopped_act s l t hlog hstopped := by
    cases hlog
    exact (s.log_frame l).2.2.2.1.trans hstopped
  stopped_work _ _ _ hwork hstopped := (remaining_workerLoop hwork).2.trans hstopped
  exited_of_idle s hstopped hidle := by
    refine (workerLoop_eq_none_iff.mp (hidle "")).resolve_right ?_
    simp [hstopped]
  remaining_work _ _ _ hwork := (remaining_workerLoop hwork).1
  remaining_act s l t hlog := by
    cases hlog
    exact remaining_log s l
  remaining_stop _ := le_rfl

end Logger

/-- Under every schedule no wake-up of a worker is lost and its destructor returns, for each of the
three. -/
theorem workers_stop {Responder : Type*}
    {fssRun : List (WorkerLabel (FssTask Responder) Unit)}
    {smmRun : List (WorkerLabel SmmLabel SmmReply)} {logRun : List (WorkerLabel LogLine String)}
    {fss : WaitingWorker (FssSender Responder)} {smm : WaitingWorker SmmSender}
    {log : WaitingWorker Logger} {intervalMs : ℕ} {level : LogLevel} {maxQueued : ℕ}
    {fileOpen : Bool} (hfss : run FssSender.queueWorker.step { queue := {} } fssRun = some fss)
    (hsmm : run SmmSender.queueWorker.step { queue := { smm := .init intervalMs } } smmRun =
      some smm)
    (hlog : run Logger.queueWorker.step { queue := .new level maxQueued fileOpen } logRun =
      some log) :
    FssSender.queueWorker.Stops FssSender.remaining 2 fss ∧
      SmmSender.queueWorker.Stops SmmSender.remaining 31 smm ∧
        Logger.queueWorker.Stops Logger.remaining 3 log :=
  ⟨QueueWorker.stops_of_run FssSender.queueWorker_lawful hfss,
    QueueWorker.stops_of_run SmmSender.queueWorker_lawful hsmm,
    QueueWorker.stops_of_run Logger.queueWorker_lawful hlog⟩

/-- Each worker has blocked by the time its destructor is called, and is woken. -/
theorem workers_stop_blocked :
    ∃ (fss : WaitingWorker (FssSender Unit)) (smm : WaitingWorker SmmSender)
      (log : WaitingWorker Logger),
      fss.waiter = .blocked ∧ smm.waiter = .blocked ∧ log.waiter = .blocked ∧
      FssSender.queueWorker.Stops FssSender.remaining 2 fss ∧
      SmmSender.queueWorker.Stops SmmSender.remaining 31 smm ∧
      Logger.queueWorker.Stops Logger.remaining 3 log := by
  obtain ⟨fss, hfss, hfssBlocked⟩ : ∃ fss, run FssSender.queueWorker.step
      { queue := ({} : FssSender Unit) } [.worker (), .worker (), .stop] = some fss ∧
      fss.waiter = .blocked := ⟨_, rfl, rfl⟩
  obtain ⟨smm, hsmm, hsmmBlocked⟩ : ∃ smm, run SmmSender.queueWorker.step
      { queue := { smm := .init 1000 } } [.worker {}, .worker {}, .stop] = some smm ∧
      smm.waiter = .blocked := ⟨_, rfl, rfl⟩
  obtain ⟨log, hlog, hlogBlocked⟩ : ∃ log, run Logger.queueWorker.step
      { queue := .new .info 2 true } [.worker "", .worker "", .stop] = some log ∧
      log.waiter = .blocked := ⟨_, rfl, rfl⟩
  exact ⟨fss, smm, log, hfssBlocked, hsmmBlocked, hlogBlocked, workers_stop hfss hsmm hlog⟩

end CapFmu
