import CapFmu.Fss.SendQueue
import CapFmu.Smm.Execution

/-!
# The task queue of the search client

The search client's queue treats a position report as the send queue of the ground-station
client does, and drops a retry of a pending search while another one is queued. A task is
carried out in several sections, whatever the server answers, and the worker looks at the queue
and at the request to stop only between two tasks. What the worker has done by the time it exits
is to carry out the tasks that it took, one after the other and each as a whole.
-/

namespace CapFmu

open Queue

/-- A position report replaces the queued one, and a retry joins it. -/
def SmmTask.coalescing : SmmTask → Coalescing
  | reportPosition _ => .replace
  | retryPending _ => .join
  | connect _ | reachedPoint _ | search _ => .keep

/-- The task that a label enqueues. -/
def SmmLabel.task? : SmmLabel → Option SmmTask
  | enqueue task => some task
  | search pos => some (.search pos)
  | worker _ | cancelSearch => none

/-- The sections a task has left, at most, whatever the server answers. -/
def SmmPc.sections : SmmPc → ℕ
  | idle => 0
  | connect _ | reachedPoint _ | rtl _ _ => 1
  | rejected _ retries _ => 6 * (acquireAttempts - retries) + 2
  | commit _ retries _ => 6 * (acquireAttempts - retries) + 3
  | grant _ retries _ => 6 * (acquireAttempts - retries) + 4
  | construct _ retries _ => 6 * (acquireAttempts - retries) + 5
  | fetched _ retries _ => 6 * (acquireAttempts - retries) + 6
  | fetch _ retries => 6 * (acquireAttempts - retries) + 7
  | tryAcquire _ => 26
  | maybeAcquire _ | search _ => 27
  | sendReport _ _ => 28
  | checkOperatorCommand _ _ => 29
  | reportPosition _ => 30

/-- A task that is being carried out or was: the worker's fields as it was taken, and the effects
of its sections. -/
structure SmmExecution where
  task : SmmTask
  before : Smm
  effects : List SmmEffect := []

/-- The search client with its worker's life. The tasks enqueued are recorded, and what the worker
did for the one that it is at and for those that it is done with. -/
structure SmmSender where
  smm : Smm := {}
  workerRunning : Bool := true
  exited : Bool := false
  enqueued : List SmmTask := []
  current : Option SmmExecution := none
  executed : List SmmExecution := []

/-- A step of the search client, and the request to stop. -/
inductive SmmSendLabel
  | smm (e : SmmLabel)
  | stopWorker

/-- Whether the label enqueues a task. -/
def SmmSendLabel.isEnqueue : SmmSendLabel → Bool
  | smm e => e.task?.isSome
  | stopWorker => false

/-- Whether the label is the request to stop. -/
def SmmSendLabel.isStop : SmmSendLabel → Bool
  | stopWorker => true
  | smm _ => false

/-- The tasks carried out one after the other lead from one state of the worker's fields to
another: each finds what the one before it left, and does as a whole what it is to do. -/
inductive Executes (start : Smm) : List SmmExecution → Smm → Prop
  | nil : Executes start [] start
  | concat {executed : List SmmExecution} {x : SmmExecution} {w : Smm}
      (h : Executes start executed x.before) (hcarries : x.before.CarriesOut x.task x.effects w) :
      Executes start (executed ++ [x]) w

namespace SmmSender

/-- The worker's next section has these effects, and is the last one of its task if the worker is
idle after it. -/
def goOn (s : SmmSender) (next : Smm × List SmmEffect) : SmmSender :=
  let advanced := s.current.map fun x => { x with effects := x.effects ++ next.2 }
  match next.1.pc with
  | .idle =>
    { s with smm := next.1, current := none, executed := s.executed ++ advanced.toList }
  | _ => { s with smm := next.1, current := advanced }

/-- The worker takes a task, goes on with the one it holds, or exits once it is to stop and the
queue is empty; it waits on an empty queue otherwise. -/
def workerLoop (s : SmmSender) (r : SmmReply) : Option SmmSender :=
  if s.exited then none
  else
    match s.smm.pc, s.smm.taskQueue with
    | .idle, [] => if s.workerRunning then none else some { s with exited := true }
    | .idle, task :: _ => (s.smm.step r).map fun next =>
        { s with smm := next.1, current := some { task := task, before := s.smm.own } }
    | _, _ => (s.smm.step r).map s.goOn

/-- One step. -/
def step (s : SmmSender) : SmmSendLabel → Option SmmSender
  | .stopWorker => some { s with workerRunning := false }
  | .smm (.worker r) => s.workerLoop r
  | .smm e => (s.smm.next e).map fun smm =>
      { s with smm := smm, enqueued := s.enqueued ++ e.task?.toList }

/-- The tasks that were carried out. -/
def done (s : SmmSender) : List SmmTask := s.executed.map SmmExecution.task

/-- The tasks taken from the queue. -/
def taken (s : SmmSender) : List SmmTask := s.done ++ (s.current.map SmmExecution.task).toList

/-- What the worker has done so far: it has carried out tasks one after the other, and has begun
the one that it is at, such that what is left of that task will make it a whole. -/
def Executing (start : Smm) (s : SmmSender) : Prop :=
  match s.current with
  | none => s.smm.pc = .idle ∧ Executes start s.executed s.smm.own
  | some x => s.smm.pc ≠ .idle ∧ Executes start s.executed x.before ∧
    ∀ effects v, s.smm.own.Completes s.smm.pc effects v →
      x.before.CarriesOut x.task (x.effects ++ effects) v

/-- The books of the queue. -/
def Accounted (s : SmmSender) : Prop :=
  Coalesces SmmTask.coalescing s.enqueued s.taken s.smm.taskQueue

/-- Before the request to stop the worker runs. -/
structure Running (initial : Smm) (s : SmmSender) : Prop where
  books : s.Accounted
  executing : s.Executing initial
  running : s.workerRunning = true
  notExited : s.exited = false

/-- After the request to stop nothing is added, and the worker exits only with every task carried
out. -/
structure Stopping (initial : Smm) (start s : SmmSender) : Prop where
  books : s.Accounted
  executing : s.Executing initial
  stopped : s.workerRunning = false
  enqueued : s.enqueued = start.enqueued
  tasks : s.taken ++ s.smm.taskQueue = start.taken ++ start.smm.taskQueue
  drained : s.exited = true → s.smm.taskQueue = [] ∧ s.smm.pc = .idle

end SmmSender

namespace Smm

/-- A task is pushed on the queue. -/
theorem taskQueue_enqueue (w : Smm) (task : SmmTask) :
    (w.enqueue task).taskQueue = push SmmTask.coalescing w.taskQueue task := by
  have hretry : SmmTask.isRetryPending = fun queued => decide (queued.coalescing = .join) := by
    funext queued
    cases queued <;> rfl
  have hreport : (fun queued => !queued.isReportPosition) =
      fun queued : SmmTask => !decide (queued.coalescing = .replace) := by
    funext queued
    cases queued <;> rfl
  cases task with
  | reportPosition pd =>
    change w.taskQueue.filter (fun queued => !queued.isReportPosition) ++ _ = _
    rw [hreport]
    rfl
  | retryPending pos =>
    change (if w.taskQueue.any SmmTask.isRetryPending = true then w
      else { w with taskQueue := w.taskQueue ++ [.retryPending pos] }).taskQueue = _
    rw [hretry, apply_ite taskQueue]
    rfl
  | connect | reachedPoint | search => rfl

/-- A busy worker has a next section, which brings it closer to the end of its task. -/
theorem step_sections (w : Smm) (r : SmmReply) (hbusy : w.pc ≠ .idle) :
    ∃ t effects, w.step r = some (t, effects) ∧ t.pc.sections < w.pc.sections := by
  rw [step]
  cases hpc : w.pc with
  | idle => exact absurd hpc hbusy
  | connect details | reachedPoint point | rtl currTs dropped => exact ⟨_, _, rfl, Nat.one_pos⟩
  | checkOperatorCommand pd nowMs | sendReport pd nowMs => exact ⟨_, _, rfl, Nat.lt_succ_self _⟩
  | construct pos retries handle => exact ⟨_, _, rfl, Nat.lt_succ_self _⟩
  | reportPosition pd =>
    cases w.asset with
    | none => exact ⟨_, _, rfl, by simp [SmmPc.sections]⟩
    | some asset =>
      refine ⟨_, _, rfl, ?_⟩
      split_ifs <;> simp [SmmPc.sections]
  | search pos =>
    cases w.currentSearch <;> exact ⟨_, _, rfl, by simp [SmmPc.sections]⟩
  | maybeAcquire pos =>
    refine ⟨_, _, rfl, ?_⟩
    dsimp only
    split_ifs <;> simp [SmmPc.sections]
  | tryAcquire pos =>
    refine ⟨_, _, rfl, ?_⟩
    cases searchAcquireAction w.asset.isSome w.searchRetryTs r.nowMs <;>
      simp [SmmPc.sections, acquireAttempts]
  | fetch pos retries =>
    dsimp only
    split_ifs <;> exact ⟨_, _, rfl, Nat.lt_succ_self _⟩
  | fetched pos retries handle =>
    dsimp only
    split_ifs
    · exact ⟨_, _, rfl, Nat.succ_pos _⟩
    · refine ⟨_, _, rfl, ?_⟩
      cases handle <;> simp [SmmPc.sections]
  | grant pos retries candidate =>
    refine ⟨_, _, rfl, ?_⟩
    dsimp only
    split_ifs <;> simp [SmmPc.sections]
  | commit pos retries candidate =>
    dsimp only
    split_ifs
    · exact ⟨_, _, rfl, Nat.succ_pos _⟩
    · exact ⟨_, _, rfl, Nat.lt_succ_self _⟩
    · exact ⟨_, _, rfl, Nat.lt_succ_self _⟩
  | rejected pos retries candidate =>
    dsimp only
    split_ifs with hrole hlast
    · exact ⟨_, _, rfl, Nat.succ_pos _⟩
    · refine ⟨_, _, rfl, ?_⟩
      simp only [SmmPc.sections]
      omega
    · refine ⟨_, _, rfl, ?_⟩
      simp only [SmmPc.sections]
      omega

/-- How many sections a task has at most. -/
theorem sections_entry (task : SmmTask) : task.entry.sections ≤ 30 := by
  cases task <;> simp [SmmTask.entry, SmmPc.sections]

end Smm

namespace SmmSender

variable {start s t : SmmSender} {initial : Smm}

/-- A worker that carries out a task goes on with it. -/
theorem workerLoop_of_busy {r : SmmReply} (hexited : s.exited = false)
    (hbusy : s.smm.pc ≠ .idle) : s.workerLoop r = (s.smm.step r).map s.goOn := by
  unfold workerLoop
  rw [hexited, if_neg Bool.false_ne_true]
  split
  · next hidle _ => exact absurd hidle hbusy
  · next hidle _ => exact absurd hidle hbusy
  · rfl

/-- The state after the worker has taken a task. -/
def take (s : SmmSender) (task : SmmTask) (rest : List SmmTask) : SmmSender :=
  { s with
    smm := { s.smm with taskQueue := rest, pc := task.entry }
    current := some { task := task, before := s.smm.own } }

/-- A step of the worker ends its life, takes a task, or is a section of the one it has taken. -/
theorem workerLoop_cases {r : SmmReply} (hstep : s.workerLoop r = some t) :
    (s.smm.pc = .idle ∧ s.smm.taskQueue = [] ∧ s.workerRunning = false ∧
      t = { s with exited := true }) ∨
    (∃ task rest, s.smm.pc = .idle ∧ s.smm.taskQueue = task :: rest ∧ t = s.take task rest) ∨
    ∃ v effects, s.smm.pc ≠ .idle ∧ s.smm.step r = some (v, effects) ∧ t = s.goOn (v, effects) := by
  cases hexited : s.exited with
  | true => simp [workerLoop, hexited] at hstep
  | false =>
    by_cases hidle : s.smm.pc = .idle
    · simp only [workerLoop, hexited, hidle, Bool.false_eq_true, if_false] at hstep
      cases hqueue : s.smm.taskQueue with
      | nil =>
        simp only [hqueue] at hstep
        split at hstep
        · cases hstep
        · next hrunning =>
          cases hstep
          exact Or.inl ⟨hidle, rfl, Bool.eq_false_iff.mpr hrunning, rfl⟩
      | cons task rest =>
        simp only [hqueue, Smm.step, hidle, Option.map_some, Option.some.injEq] at hstep
        refine Or.inr (Or.inl ⟨task, rest, hidle, rfl, ?_⟩)
        rw [take, hexited]
        exact hstep.symm
    · rw [workerLoop_of_busy hexited hidle] at hstep
      obtain ⟨⟨v, effects⟩, hnext, rfl⟩ := Option.map_eq_some_iff.mp hstep
      exact Or.inr (Or.inr ⟨v, effects, hidle, hnext, rfl⟩)

/-- An idle worker is at no task. -/
theorem Executing.current_of_idle (h : s.Executing initial) (hidle : s.smm.pc = .idle) :
    s.current = none := by
  cases hcurrent : s.current with
  | none => rfl
  | some x =>
    rw [Executing, hcurrent] at h
    exact absurd hidle h.1

/-- A busy worker is at a task, and the tasks before it are carried out. -/
theorem Executing.current_of_busy (h : s.Executing initial) (hbusy : s.smm.pc ≠ .idle) :
    ∃ x, s.current = some x ∧ Executes initial s.executed x.before ∧
      ∀ effects v, s.smm.own.Completes s.smm.pc effects v →
        x.before.CarriesOut x.task (x.effects ++ effects) v := by
  cases hcurrent : s.current with
  | none =>
    rw [Executing, hcurrent] at h
    exact absurd h.1 hbusy
  | some x =>
    rw [Executing, hcurrent] at h
    exact ⟨x, rfl, h.2⟩

/-- An idle worker has carried out all the tasks it has taken. -/
theorem Executing.executes (h : s.Executing initial) (hidle : s.smm.pc = .idle) :
    Executes initial s.executed s.smm.own := by
  have hcurrent := h.current_of_idle hidle
  rw [Executing, hcurrent] at h
  exact h.2

/-- An idle worker is done with the tasks it has taken. -/
theorem taken_of_idle (h : s.Executing initial) (hidle : s.smm.pc = .idle) : s.taken = s.done := by
  rw [taken, h.current_of_idle hidle, Option.map_none, Option.toList_none, List.append_nil]

/-- A section takes no task. -/
theorem taken_goOn (s : SmmSender) (next : Smm × List SmmEffect) :
    (s.goOn next).taken = s.taken := by
  unfold goOn
  cases hcurrent : s.current with
  | none => split <;> simp [taken, done, hcurrent]
  | some x => split <;> simp [taken, done, hcurrent]

/-- What a section leaves of the queue, the tasks enqueued and the request to stop. -/
theorem goOn_frame (s : SmmSender) (next : Smm × List SmmEffect) :
    (s.goOn next).smm = next.1 ∧ (s.goOn next).enqueued = s.enqueued ∧
      (s.goOn next).workerRunning = s.workerRunning ∧ (s.goOn next).exited = s.exited := by
  unfold goOn
  split <;> exact ⟨rfl, rfl, rfl, rfl⟩

/-- A step of the worker leaves the tasks and the request to stop alone and keeps the books. -/
theorem accounted_workerLoop {r : SmmReply} (h : s.Accounted) (hexecuting : s.Executing initial)
    (hnotExited : s.exited = false) (hstep : s.workerLoop r = some t) :
    t.Accounted ∧ t.enqueued = s.enqueued ∧ t.workerRunning = s.workerRunning ∧
      t.taken ++ t.smm.taskQueue = s.taken ++ s.smm.taskQueue ∧
      (t.exited = true →
        (t.smm.taskQueue = [] ∧ t.smm.pc = .idle) ∧ t.workerRunning = false) := by
  rcases workerLoop_cases hstep with
    ⟨hidle, hqueue, hrunning, rfl⟩ | ⟨task, rest, hidle, hqueue, rfl⟩ |
    ⟨v, effects, hbusy, hnext, rfl⟩
  · exact ⟨h, rfl, rfl, rfl, fun _ => ⟨⟨hqueue, hidle⟩, hrunning⟩⟩
  · have htaken : (s.take task rest).taken = s.taken ++ [task] := by
      rw [taken_of_idle hexecuting hidle]
      rfl
    rw [Accounted, hqueue] at h
    refine ⟨?_, rfl, rfl, ?_, ?_⟩
    · rw [Accounted, htaken]
      exact h.pop
    · rw [htaken, hqueue, List.append_assoc]
      rfl
    · exact fun hexited => absurd (hnotExited.symm.trans hexited) Bool.false_ne_true
  · obtain ⟨hsmm, henqueued, hrunning, hexited⟩ := s.goOn_frame (v, effects)
    have hqueue : (s.goOn (v, effects)).smm.taskQueue = s.smm.taskQueue := by
      rw [hsmm]
      exact Smm.taskQueue_step_of_busy hbusy hnext
    refine ⟨?_, henqueued, hrunning, ?_, ?_⟩
    · rwa [Accounted, henqueued, taken_goOn, hqueue]
    · rw [taken_goOn, hqueue]
    · intro hexit
      rw [hexited, hnotExited] at hexit
      exact absurd hexit Bool.false_ne_true

/-- A worker that takes a task has all of it left. -/
theorem executing_take {task : SmmTask} {rest : List SmmTask} (h : s.Executing initial)
    (hidle : s.smm.pc = .idle) : (s.take task rest).Executing initial := by
  refine ⟨?_, h.executes hidle, ?_⟩
  · change task.entry ≠ .idle
    cases task <;> simp [SmmTask.entry]
  · intro effects v hcompletes
    exact .of_completes hcompletes

/-- A section of a task leaves what comes after it, and with the last one the task is carried
out. -/
theorem executing_goOn {r : SmmReply} {v : Smm} {effects : List SmmEffect}
    (h : s.Executing initial) (hbusy : s.smm.pc ≠ .idle)
    (hnext : s.smm.step r = some (v, effects)) : (s.goOn (v, effects)).Executing initial := by
  obtain ⟨x, hcurrent, hbefore, hleft⟩ := h.current_of_busy hbusy
  have hrest (more : List SmmEffect) (u : Smm) (hmore : v.own.Completes v.pc more u) :
      x.before.CarriesOut x.task ((x.effects ++ effects) ++ more) u := by
    rw [List.append_assoc]
    exact hleft _ u (Smm.completes_step hbusy hnext hmore)
  by_cases hidle : v.pc = .idle
  · have hdone := hrest [] v.own (by rw [hidle]; exact ⟨rfl, rfl⟩)
    rw [List.append_nil] at hdone
    simp only [goOn, hidle, hcurrent]
    exact ⟨hidle, hbefore.concat (x := { x with effects := x.effects ++ effects }) hdone⟩
  · have hgoOn : s.goOn (v, effects) =
        { s with smm := v, current := some { x with effects := x.effects ++ effects } } := by
      unfold goOn
      split
      · next hpc => exact absurd hpc hidle
      · rw [hcurrent]
        rfl
    rw [hgoOn]
    exact ⟨hidle, hbefore, hrest⟩

/-- The worker carries out its tasks one after the other and each as a whole. -/
theorem executing_workerLoop {r : SmmReply} (h : s.Executing initial)
    (hstep : s.workerLoop r = some t) : t.Executing initial := by
  rcases workerLoop_cases hstep with
    ⟨-, -, -, rfl⟩ | ⟨task, rest, hidle, -, rfl⟩ | ⟨v, effects, hbusy, hnext, rfl⟩
  · exact h
  · exact executing_take h hidle
  · exact executing_goOn h hbusy hnext

/-- What another thread does to the search client leaves what the worker is at. -/
theorem executing_next {smm : Smm} {enqueued : List SmmTask} (h : s.Executing initial)
    (hown : smm.own = s.smm.own) (hpc : smm.pc = s.smm.pc) :
    Executing initial { s with smm := smm, enqueued := enqueued } := by
  simpa only [Executing, hown, hpc] using h

/-- What another thread does to the search client keeps the books. -/
theorem accounted_next {e : SmmLabel} {next : Smm} (h : s.Accounted)
    (he : ∀ r, e ≠ .worker r) (hnext : s.smm.next e = some next) :
    Accounted { s with smm := next, enqueued := s.enqueued ++ e.task?.toList } := by
  cases e with
  | worker r => exact absurd rfl (he r)
  | enqueue task =>
    cases hnext
    rw [Accounted, Smm.taskQueue_enqueue]
    exact Coalesces.push h task
  | search pos =>
    cases hnext
    rw [Accounted, Smm.search, Smm.taskQueue_enqueue]
    exact Coalesces.push h _
  | cancelSearch =>
    cases hnext
    simpa [Accounted, taken, done, SmmLabel.task?, Smm.cancelSearch] using h

/-- Until the request to stop every step keeps the books. -/
theorem running_step {e : SmmSendLabel} (h : s.Running initial) (he : e.isStop = false)
    (hstep : s.step e = some t) : t.Running initial := by
  cases e with
  | stopWorker => exact absurd he Bool.false_ne_true.symm
  | smm e =>
    cases e with
    | worker r =>
      obtain ⟨hbooks, -, hrunning, -, hexited⟩ :=
        accounted_workerLoop h.books h.executing h.notExited hstep
      have ht := hrunning.trans h.running
      exact { books := hbooks
              executing := executing_workerLoop h.executing hstep
              running := ht
              notExited := Bool.eq_false_iff.mpr fun hexit => by simp [(hexited hexit).2] at ht }
    | enqueue task =>
      cases hstep
      exact { books := accounted_next h.books (e := .enqueue task) (by simp) rfl
              executing := executing_next h.executing (s.smm.own_enqueue task)
                (s.smm.pc_enqueue task)
              running := h.running
              notExited := h.notExited }
    | search pos =>
      cases hstep
      exact { books := accounted_next h.books (e := .search pos) (by simp) rfl
              executing := executing_next h.executing (s.smm.own_search pos)
                (Smm.pc_enqueue _ _)
              running := h.running
              notExited := h.notExited }
    | cancelSearch =>
      cases hstep
      exact { books := accounted_next h.books (e := .cancelSearch) (by simp) rfl
              executing := executing_next h.executing s.smm.own_cancelSearch rfl
              running := h.running
              notExited := h.notExited }

/-- After the request to stop every step that is no new task keeps the books and the tasks. -/
theorem stopping_step {e : SmmSendLabel} (h : Stopping initial start s) (he : e.isEnqueue = false)
    (hstep : s.step e = some t) : Stopping initial start t := by
  cases e with
  | stopWorker =>
    cases hstep
    exact { h with stopped := rfl }
  | smm e =>
    cases e with
    | enqueue | search => exact absurd he Bool.false_ne_true.symm
    | worker r =>
      have hnotExited : s.exited = false := by
        cases hexited : s.exited with
        | false => rfl
        | true => simp [step, workerLoop, hexited] at hstep
      obtain ⟨hbooks, henqueued, hrunning, htasks, hexited⟩ :=
        accounted_workerLoop h.books h.executing hnotExited hstep
      exact { books := hbooks
              executing := executing_workerLoop h.executing hstep
              stopped := hrunning.trans h.stopped
              enqueued := henqueued.trans h.enqueued
              tasks := htasks.trans h.tasks
              drained := fun hexit => (hexited hexit).1 }
    | cancelSearch =>
      cases hstep
      exact { books := accounted_next h.books (by simp) rfl
              executing := executing_next h.executing rfl rfl
              stopped := h.stopped
              enqueued := (List.append_nil _).trans h.enqueued
              tasks := h.tasks
              drained := h.drained }

/-- The steps the worker has left until it exits, at most. -/
def remaining (s : SmmSender) : ℕ :=
  if s.exited then 0 else s.smm.pc.sections + 31 * s.smm.taskQueue.length + 1

/-- A worker that is to stop goes on until it exits, whatever the server answers. -/
theorem worker_remaining (hstopped : s.workerRunning = false) (r : SmmReply)
    (hbusy : s.remaining ≠ 0) :
    ∃ t, s.step (.smm (.worker r)) = some t ∧ t.remaining < s.remaining ∧
      t.workerRunning = false := by
  cases hexited : s.exited with
  | true => simp [remaining, hexited] at hbusy
  | false =>
    by_cases hidle : s.smm.pc = .idle
    · cases hqueue : s.smm.taskQueue with
      | nil => simp [step, workerLoop, remaining, hexited, hidle, hqueue, hstopped]
      | cons task rest =>
        have hentry := Smm.sections_entry task
        refine ⟨s.take task rest, ?_, ?_, hstopped⟩
        · simp [step, workerLoop, Smm.step, take, hexited, hidle, hqueue]
        · simp only [remaining, take, hexited, hqueue, Bool.false_eq_true, if_false,
            List.length_cons]
          omega
    · obtain ⟨next, effects, hnext, hlt⟩ := s.smm.step_sections r hidle
      have hqueue := Smm.taskQueue_step_of_busy hidle hnext
      obtain ⟨hsmm, -, hrunning, hexit⟩ := s.goOn_frame (next, effects)
      refine ⟨s.goOn (next, effects), ?_, ?_, hrunning.trans hstopped⟩
      · rw [step, workerLoop_of_busy hexited hidle, hnext]
        rfl
      · simp only [remaining, hsmm, hexit, hexited, hqueue, Bool.false_eq_true, if_false]
        omega

/-- A run up to the request to stop, and on from it without new tasks. -/
structure Stops (intervalMs : ℕ) (before after : List SmmSendLabel) (s t : SmmSender) : Prop where
  noStop : ∀ e ∈ before, e.isStop = false
  run_before : Transition.run step { smm := .init intervalMs } before = some s
  noTask : ∀ e ∈ after, e.isEnqueue = false
  run_after : Transition.run step s (.stopWorker :: after) = some t

/-- The books are kept before the request to stop and after it: every task but a position report
and a retry is carried out once and in order, the position reports carried out are some of those
reported, the newest among them, and one report and one retry are queued at most. What the worker
did by the time it exits is to carry out the tasks one after the other and each as a whole, those
queued at the request among them, and whatever the server answers it does exit. -/
structure Drains (intervalMs : ℕ) (s t : SmmSender) : Prop where
  books_before : s.Accounted
  books_after : t.Accounted
  enqueued_before : t.enqueued = s.enqueued
  executes : t.exited = true → Executes (.init intervalMs) t.executed t.smm.own
  done_queued : t.exited = true → t.done = s.taken ++ s.smm.taskQueue
  books_done : t.exited = true → Coalesces SmmTask.coalescing s.enqueued t.done []
  exits : ∀ replies : ℕ → SmmReply, ∃ n u, Transition.run step t
    ((List.range n).map fun i => .smm (.worker (replies i))) = some u ∧ u.exited = true

/-- The task queue drains, however the tasks of any threads interleave with the worker. -/
theorem drains_of_stops {intervalMs : ℕ} {before after : List SmmSendLabel}
    (hstops : Stops intervalMs before after s t) : Drains intervalMs s t := by
  have hstart : Running (.init intervalMs) { smm := .init intervalMs } :=
    { books := coalesces_nil, executing := ⟨rfl, .nil⟩, running := rfl, notExited := rfl }
  have hrunning := Transition.invariant_of_forall_mem (Running (.init intervalMs))
    (fun _ _ _ => running_step) hstart hstops.noStop hstops.run_before
  obtain ⟨stopped, hstop, hrest⟩ := Transition.run_cons_eq_some.mp hstops.run_after
  have hstopping : Stopping (.init intervalMs) s stopped := by
    cases hstop
    exact { books := hrunning.books
            executing := hrunning.executing
            stopped := rfl
            enqueued := rfl
            tasks := rfl
            drained := fun hexited => by simp [hrunning.notExited] at hexited }
  have hdone := Transition.invariant_of_forall_mem (Stopping (.init intervalMs) s)
    (fun _ _ _ => stopping_step) hstopping hstops.noTask hrest
  have htaken (hexited : t.exited = true) : t.taken = t.done :=
    taken_of_idle hdone.executing (hdone.drained hexited).2
  constructor
  · exact hrunning.books
  · exact hdone.books
  · exact hdone.enqueued
  · exact fun hexited => hdone.executing.executes (hdone.drained hexited).2
  · intro hexited
    have htasks := hdone.tasks
    rwa [(hdone.drained hexited).1, List.append_nil, htaken hexited] at htasks
  · intro hexited
    have hbooks := hdone.books
    rwa [Accounted, (hdone.drained hexited).1, htaken hexited, hdone.enqueued] at hbooks
  · intro replies
    obtain ⟨n, u, hrun, hzero, -⟩ := Transition.run_of_measure remaining
      (fun _ i hstopped => worker_remaining hstopped (replies i)) hdone.stopped
    exact ⟨n, u, hrun, by simpa [remaining] using hzero⟩

/-- Reports and retries on both sides of a reached point, while the first report is sent. -/
def reportsAndRetries : List SmmSendLabel :=
  [.smm (.enqueue (.reportPosition {})), .smm (.worker {}), .smm (.enqueue (.retryPending {})),
    .smm (.enqueue (.reportPosition { heading := 1 })), .smm (.enqueue (.reachedPoint 1)),
    .smm (.enqueue (.retryPending {})), .smm (.enqueue (.reportPosition { heading := 2 }))]

/-- All but the replaced report and the second retry are queued, and the worker exits after
them. -/
theorem reportsAndRetries_stops :
    ∃ s t, Stops 1000 reportsAndRetries (List.replicate 10 (.smm (.worker {}))) s t ∧
      t.exited = true ∧ s.taken ++ s.smm.taskQueue = [.reportPosition {}, .retryPending {},
        .reachedPoint 1, .reportPosition { heading := 2 }] := by
  obtain ⟨s, t, hs, ht, hexited, htasks⟩ : ∃ s t,
      Transition.run step { smm := .init 1000 } reportsAndRetries = some s ∧
      Transition.run step s (.stopWorker :: List.replicate 10 (.smm (.worker {}))) = some t ∧
      t.exited = true ∧ s.taken ++ s.smm.taskQueue = [.reportPosition {}, .retryPending {},
        .reachedPoint 1, .reportPosition { heading := 2 }] :=
    ⟨_, _, rfl, rfl, rfl, rfl⟩
  exact ⟨s, t, ⟨by decide, hs, by decide, ht⟩, hexited, htasks⟩

end SmmSender

/-- Both task queues lose and reorder nothing that matters and drain before they stop, in every
interleaving of their tasks with their workers. -/
theorem taskQueues_drain {Responder : Type*} {fssBefore fssAfter : List (FssSendLabel Responder)}
    {fss fssStopped : FssSender Responder} {intervalMs : ℕ}
    {smmBefore smmAfter : List SmmSendLabel} {smm smmStopped : SmmSender}
    (hfss : FssSender.Stops fssBefore fssAfter fss fssStopped)
    (hsmm : SmmSender.Stops intervalMs smmBefore smmAfter smm smmStopped) :
    FssSender.Drains fss fssStopped ∧ SmmSender.Drains intervalMs smm smmStopped :=
  ⟨FssSender.drains_of_stops hfss, SmmSender.drains_of_stops hsmm⟩

/-- What is left of reports on both sides of a reached point is carried out in order: the client is
called for each, and so are the worker's functions. -/
theorem reportsAndRetries_drained :
    ∃ (fss : FssSender Unit) (smm : SmmSender),
      fss.sent = [.position { lat := .finite 1 }, .reached { point := 1, totalPoints := 4 },
        .position { lat := .finite 3 }] ∧
      smm.done = [.reportPosition {}, .retryPending {}, .reachedPoint 1,
        .reportPosition { heading := 2 }] ∧
      Executes (.init 1000) smm.executed smm.smm.own := by
  obtain ⟨fss, fssStopped, hfss, hfssExited, hfssTasks⟩ := FssSender.reportsAroundPoint_stops
  obtain ⟨smm, smmStopped, hsmm, hsmmExited, hsmmTasks⟩ := SmmSender.reportsAndRetries_stops
  obtain ⟨hfssDrains, hsmmDrains⟩ := taskQueues_drain hfss hsmm
  exact ⟨fssStopped, smmStopped, (hfssDrains.sent_queued hfssExited).trans hfssTasks,
    (hsmmDrains.done_queued hsmmExited).trans hsmmTasks, hsmmDrains.executes hsmmExited⟩

end CapFmu
