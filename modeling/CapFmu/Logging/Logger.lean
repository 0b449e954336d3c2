import CapFmu.Queue.DropOldest
import CapFmu.Transition.Run

/-!
# The logger

A line is formatted on the thread that logs it and queued for a worker thread, which writes it
to the file. At the bound the oldest queued line is dropped, and the worker writes how many were
before the next line it takes. A write is taken to succeed, and the files that the log rotates
through are read as one.
-/

namespace CapFmu

open Queue

/-- The levels of a line, the more verbose the higher. -/
inductive LogLevel
  | error
  | warning
  | info
  | debug
  deriving DecidableEq, Repr

/-- The verbosity of a level. -/
def LogLevel.verbosity : LogLevel → ℕ
  | error => 0
  | warning => 1
  | info => 2
  | debug => 3

/-- The name of a level in a line. -/
def LogLevel.name : LogLevel → String
  | error => "ERROR"
  | warning => "WARNING"
  | info => "INFO"
  | debug => "DEBUG"

/-- A line with the time it was logged at. -/
structure LogLine where
  timestamp : String
  level : LogLevel
  msg : String
  deriving DecidableEq

/-- The text of a line. -/
def LogLine.text (l : LogLine) : String := l.timestamp ++ " " ++ l.level.name ++ " " ++ l.msg ++ "\n"

/-- What is written: a line, or how many were dropped before the next one. -/
inductive LogEntry
  | line (l : LogLine)
  | dropped (timestamp : String) (count : ℕ)
  deriving DecidableEq

/-- The text of an entry. -/
def LogEntry.text : LogEntry → String
  | line l => l.text
  | dropped timestamp count =>
    LogLine.text { timestamp := timestamp, level := .error,
                   msg := "LOG dropped " ++ toString count ++
                     " line(s): the write queue reached its bound" }

/-- The places an entry stands for. -/
def LogEntry.places : LogEntry → List (Option LogLine)
  | line l => [some l]
  | dropped _ count => List.replicate count none

/-- What the worker does: wait, write what it has taken, or nothing any more. -/
inductive LoggerPc
  | waiting
  | writing (dropped : ℕ) (line : LogLine)
  | exited

/-- The logger. The accepted lines are recorded, and whether they were dropped from the queue. -/
structure Logger where
  level : LogLevel
  maxQueuedLines : ℕ
  bound_pos : 0 < maxQueuedLines
  loggingEnabled : Bool
  lineQueue : List LogLine := []
  droppedLines : ℕ := 0
  workerRunning : Bool := true
  worker : LoggerPc := .waiting
  written : List LogEntry := []
  accepted : List (Accepted LogLine) := []

/-- A line of any thread, a step of the worker, and the request to stop. The steps that write a
timestamp read the clock. -/
inductive LoggerLabel
  | log (l : LogLine)
  | worker (timestamp : String)
  | stopWorker

/-- The line of a label. -/
def LoggerLabel.line? : LoggerLabel → Option LogLine
  | log l => some l
  | worker _ | stopWorker => none

/-- Whether a label is the request to stop. -/
def LoggerLabel.isStop : LoggerLabel → Bool
  | stopWorker => true
  | log _ | worker _ => false

namespace Logger

/-- A logger with a requested bound, at least one; without a file there is no worker. -/
def new (level : LogLevel) (maxQueued : ℕ) (fileOpen : Bool) : Logger where
  level := level
  maxQueuedLines := if 0 < maxQueued then maxQueued else 1
  bound_pos := by split_ifs <;> omega
  loggingEnabled := fileOpen
  worker := if fileOpen then .waiting else .exited

/-- Whether a line is accepted. -/
def accepts (s : Logger) (l : LogLine) : Bool :=
  s.loggingEnabled && l.level.verbosity ≤ s.level.verbosity

/-- At the bound the oldest line is dropped. -/
def dropOldest (s : Logger) : Logger :=
  if s.maxQueuedLines ≤ s.lineQueue.length then
    match s.lineQueue with
    | [] => s
    | oldest :: rest => { s with
        lineQueue := rest
        droppedLines := s.droppedLines + 1
        accepted := markDropped s.accepted s.lineQueue oldest }
  else s

/-- Queue an accepted line. -/
def log (s : Logger) (l : LogLine) : Logger :=
  if s.accepts l then
    { s.dropOldest with
      lineQueue := s.dropOldest.lineQueue ++ [l]
      accepted := s.dropOldest.accepted ++ [{ item := l }] }
  else s

/-- The worker takes a line with the count of those dropped before it, writes the count if there
are any and then the line, or exits once it is to stop and the queue is empty; it waits on an
empty queue otherwise. -/
def workerLoop (s : Logger) (timestamp : String) : Option Logger :=
  match s.worker with
  | .exited => none
  | .waiting =>
    match s.lineQueue with
    | line :: rest => some { s with
        lineQueue := rest
        droppedLines := 0
        worker := .writing s.droppedLines line }
    | [] => if s.workerRunning then none else some { s with worker := .exited }
  | .writing 0 line => some { s with written := s.written ++ [.line line], worker := .waiting }
  | .writing dropped line => some { s with
      written := s.written ++ [.dropped timestamp dropped]
      worker := .writing 0 line }

/-- One step. -/
def step (s : Logger) : LoggerLabel → Option Logger
  | .log l => some (s.log l)
  | .worker timestamp => s.workerLoop timestamp
  | .stopWorker => some { s with workerRunning := false }

/-- The places of what is written, a marker standing for as many as it counts. -/
def writtenPlaces (s : Logger) : List (Option LogLine) := s.written.flatMap LogEntry.places

/-- The places of what the worker is writing. -/
def takenPlaces (s : Logger) : List (Option LogLine) :=
  match s.worker with
  | .writing dropped line => List.replicate dropped none ++ [some line]
  | .waiting | .exited => []

/-- The queue is within its bound and the books are kept; a gap is followed by a queued line. -/
structure Accounted (s : Logger) : Prop where
  bounded : s.lineQueue.length ≤ s.maxQueuedLines
  books : DropsOldest s.accepted (s.writtenPlaces ++ s.takenPlaces) s.droppedLines s.lineQueue
  gapBeforeLine : s.lineQueue = [] → s.droppedLines = 0

variable {s t : Logger}

/-- A new logger has nothing to account for. -/
theorem accounted_new (level : LogLevel) (maxQueued : ℕ) (fileOpen : Bool) :
    (new level maxQueued fileOpen).Accounted where
  bounded := Nat.zero_le _
  books := by
    cases fileOpen <;> exact dropsOldest_nil
  gapBeforeLine := fun _ => rfl

/-- Dropping the oldest line changes the queue, the count and the record alone. -/
theorem dropOldest_frame (s : Logger) :
    s.dropOldest = { s with
      lineQueue := s.dropOldest.lineQueue
      droppedLines := s.dropOldest.droppedLines
      accepted := s.dropOldest.accepted } := by
  unfold dropOldest
  split
  · split <;> rfl
  · rfl

/-- After dropping the oldest line at the bound there is room for another. -/
theorem length_dropOldest (h : s.Accounted) :
    s.dropOldest.lineQueue.length < s.maxQueuedLines := by
  have hpos := s.bound_pos
  have hbounded := h.bounded
  unfold dropOldest
  split
  · split
    · next hqueue =>
      rw [hqueue]
      exact hpos
    · next hqueue =>
      rw [hqueue, List.length_cons] at hbounded
      exact hbounded
  · omega

/-- Dropping the oldest line at the bound keeps the books. -/
theorem books_dropOldest (h : s.Accounted) :
    DropsOldest s.dropOldest.accepted (s.writtenPlaces ++ s.takenPlaces)
      s.dropOldest.droppedLines s.dropOldest.lineQueue := by
  have hbooks := h.books
  unfold dropOldest
  split
  · split
    · exact hbooks
    · next hqueue =>
      rw [hqueue] at hbooks ⊢
      exact hbooks.drop
  · exact hbooks

/-- Logging a line keeps the books: dropping the oldest makes room for it. -/
theorem Accounted.log (h : s.Accounted) (l : LogLine) : (s.log l).Accounted := by
  unfold Logger.log
  split
  · rw [dropOldest_frame]
    have hroom := length_dropOldest h
    exact { bounded := by rw [List.length_append]; exact hroom
            books := (books_dropOldest h).push l
            gapBeforeLine := by simp }
  · exact h

/-- A step of the worker keeps the books, and it exits only on an empty queue. -/
theorem accounted_workerLoop {timestamp : String} (h : s.Accounted)
    (hstep : s.workerLoop timestamp = some t) :
    t.Accounted ∧ t.accepted = s.accepted ∧ t.workerRunning = s.workerRunning ∧
      (t.worker = .exited → t.lineQueue = [] ∧ t.workerRunning = false) := by
  obtain ⟨hbounded, hbooks, hgap⟩ := h
  unfold workerLoop at hstep
  split at hstep
  · cases hstep
  · next hworker =>
    have htaken : s.takenPlaces = [] := by simp [takenPlaces, hworker]
    rw [htaken, List.append_nil] at hbooks
    split at hstep
    · next line rest hqueue =>
      cases hstep
      rw [hqueue] at hbounded hbooks
      refine ⟨⟨(Nat.le_succ _).trans hbounded, ?_, fun _ => rfl⟩, rfl, rfl, by simp⟩
      have htake := hbooks.take
      rwa [List.append_assoc] at htake
    · next hqueue =>
      split at hstep
      · cases hstep
      · next hrunning =>
        cases hstep
        refine ⟨⟨hbounded, ?_, hgap⟩, rfl, rfl, fun _ => ⟨hqueue, Bool.eq_false_iff.mpr hrunning⟩⟩
        simpa [takenPlaces, writtenPlaces] using hbooks
  · next line hworker =>
    cases hstep
    refine ⟨⟨hbounded, ?_, hgap⟩, rfl, rfl, by simp⟩
    simpa [takenPlaces, writtenPlaces, hworker, LogEntry.places] using hbooks
  · next dropped line _ hworker =>
    cases hstep
    refine ⟨⟨hbounded, ?_, hgap⟩, rfl, rfl, by simp⟩
    simpa [takenPlaces, writtenPlaces, hworker, LogEntry.places] using hbooks

/-- Dropping the oldest line at the bound leaves the accepted lines as they are. -/
theorem items_dropOldest (h : s.Accounted) :
    s.dropOldest.accepted.map Accepted.item = s.accepted.map Accepted.item := by
  have hbooks := h.books
  unfold dropOldest
  split
  · split
    · rfl
    · next hqueue =>
      rw [hqueue] at hbooks ⊢
      exact hbooks.items_markDropped
  · rfl

/-- The settings and the life of a logger are not changed by logging a line. -/
theorem log_frame (s : Logger) (l : LogLine) :
    (s.log l).accepts = s.accepts ∧ (s.log l).maxQueuedLines = s.maxQueuedLines ∧
      (s.log l).worker = s.worker ∧ (s.log l).workerRunning = s.workerRunning ∧
      (s.log l).loggingEnabled = s.loggingEnabled := by
  unfold Logger.log
  split
  · rw [dropOldest_frame]
    exact ⟨rfl, rfl, rfl, rfl, rfl⟩
  · exact ⟨rfl, rfl, rfl, rfl, rfl⟩

/-- The settings of a logger and what it accepts are not changed by a step of the worker. -/
theorem workerLoop_frame {timestamp : String} (hstep : s.workerLoop timestamp = some t) :
    t.accepts = s.accepts ∧ t.maxQueuedLines = s.maxQueuedLines ∧
      t.loggingEnabled = s.loggingEnabled := by
  unfold workerLoop at hstep
  repeat' split at hstep
  all_goals cases hstep <;> exact ⟨rfl, rfl, rfl⟩

/-- The lines that a step accepts, and the settings it keeps. -/
theorem items_step {e : LoggerLabel} (h : s.Accounted) (hstep : s.step e = some t) :
    t.Accounted ∧ t.accepts = s.accepts ∧ t.maxQueuedLines = s.maxQueuedLines ∧
      t.accepted.map Accepted.item =
        s.accepted.map Accepted.item ++ e.line?.toList.filter s.accepts := by
  cases e with
  | log l =>
    cases hstep
    have hframe := s.log_frame l
    refine ⟨h.log l, hframe.1, hframe.2.1, ?_⟩
    unfold Logger.log
    split
    · next haccepts => simp [items_dropOldest h, LoggerLabel.line?, haccepts]
    · next haccepts => simp [LoggerLabel.line?, haccepts]
  | worker timestamp =>
    obtain ⟨haccounted, haccepted, -⟩ := accounted_workerLoop h hstep
    obtain ⟨haccepts, hbound, -⟩ := workerLoop_frame hstep
    exact ⟨haccounted, haccepts, hbound, by simp [haccepted, LoggerLabel.line?]⟩
  | stopWorker =>
    cases hstep
    exact ⟨{ h with }, rfl, rfl, (List.append_nil _).symm⟩

/-- The lines that a run accepts are those logged that pass the filter, in order. -/
theorem items_run {es : List LoggerLabel} (h : s.Accounted)
    (hrun : Transition.run step s es = some t) :
    t.Accounted ∧ t.maxQueuedLines = s.maxQueuedLines ∧
      t.accepted.map Accepted.item =
        s.accepted.map Accepted.item ++ (es.filterMap LoggerLabel.line?).filter s.accepts := by
  induction es generalizing s with
  | nil =>
    obtain rfl := Transition.run_nil_eq_some.mp hrun
    exact ⟨h, rfl, (List.append_nil _).symm⟩
  | cons e es ih =>
    obtain ⟨u, hstep, hrest⟩ := Transition.run_cons_eq_some.mp hrun
    obtain ⟨hu, haccepts, hbound, hitems⟩ := items_step h hstep
    obtain ⟨ht, hboundRest, hitemsRest⟩ := ih hu hrest
    refine ⟨ht, hboundRest.trans hbound, ?_⟩
    rw [hitemsRest, hitems, haccepts, List.append_assoc, ← List.filter_append]
    cases he : e.line? <;> simp [he]

/-- Until the request to stop the worker of an open log runs. -/
structure Running (s : Logger) : Prop where
  running : s.workerRunning = true
  exited_disabled : s.worker = .exited → s.loggingEnabled = false ∧ s.lineQueue = []

/-- After the request to stop, with nothing logged any more, the worker exits only on an empty
queue. -/
structure Stopping (s : Logger) : Prop where
  accounted : s.Accounted
  stopped : s.workerRunning = false
  drained : s.worker = .exited → s.lineQueue = []

/-- Until the request to stop every step keeps the worker running. -/
theorem running_step {e : LoggerLabel} (h : s.Accounted ∧ s.Running) (he : e.isStop = false)
    (hstep : s.step e = some t) : t.Accounted ∧ t.Running := by
  obtain ⟨haccounted, hrunning, hdisabled⟩ := h
  have ht := (items_step haccounted hstep).1
  refine ⟨ht, ?_⟩
  cases e with
  | stopWorker => exact absurd he Bool.false_ne_true.symm
  | log l =>
    cases hstep
    obtain ⟨-, -, hworker, hlife, henabled⟩ := s.log_frame l
    refine ⟨hlife.trans hrunning, fun hexited => ?_⟩
    obtain ⟨hclosed, hempty⟩ := hdisabled (hworker.symm.trans hexited)
    have hrejected : s.accepts l = false := by simp [accepts, hclosed]
    have hsame : s.log l = s := if_neg (Bool.eq_false_iff.mp hrejected)
    rw [hsame]
    exact ⟨hclosed, hempty⟩
  | worker timestamp =>
    obtain ⟨-, -, hlife, hexited⟩ := accounted_workerLoop haccounted hstep
    have hlife' := hlife.trans hrunning
    exact ⟨hlife', fun hexit => by simp [(hexited hexit).2] at hlife'⟩

/-- After the request to stop every step that logs nothing keeps the worker draining. -/
theorem stopping_step {e : LoggerLabel} (h : s.Stopping) (he : e.line? = none)
    (hstep : s.step e = some t) : t.Stopping := by
  have ht := (items_step h.accounted hstep).1
  cases e with
  | log l => cases he
  | stopWorker =>
    cases hstep
    exact { h with accounted := ht, stopped := rfl }
  | worker timestamp =>
    obtain ⟨-, -, hlife, hexited⟩ := accounted_workerLoop h.accounted hstep
    exact { accounted := ht
            stopped := hlife.trans h.stopped
            drained := fun hexit => (hexited hexit).1 }

/-- The steps the worker has left until it exits, at most. -/
def remaining (s : Logger) : ℕ :=
  match s.worker with
  | .exited => 0
  | .waiting => 3 * s.lineQueue.length + 1
  | .writing dropped _ => 3 * s.lineQueue.length + if dropped = 0 then 2 else 3

/-- A worker that is to stop goes on until it exits. -/
theorem worker_remaining (hstopped : s.workerRunning = false) (timestamp : String)
    (hbusy : s.remaining ≠ 0) :
    ∃ t, s.step (.worker timestamp) = some t ∧ t.remaining < s.remaining ∧
      t.workerRunning = false := by
  unfold remaining at hbusy
  cases hworker : s.worker with
  | exited => simp [hworker] at hbusy
  | writing dropped line =>
    cases dropped <;> simp [step, workerLoop, remaining, hworker, hstopped]
  | waiting =>
    cases hqueue : s.lineQueue with
    | nil => simp [step, workerLoop, remaining, hworker, hqueue, hstopped]
    | cons line rest =>
      have hwrites : (if s.droppedLines = 0 then 2 else 3) ≤ 3 := by split <;> omega
      refine ⟨{ s with
        lineQueue := rest
        droppedLines := 0
        worker := .writing s.droppedLines line }, ?_, ?_, hstopped⟩
      · simp [step, workerLoop, hworker, hqueue]
      · simp only [remaining, hworker, hqueue, List.length_cons]
        omega

/-- A run of a new logger up to the request to stop, and on from it with nothing logged. -/
structure Stops (start : Logger) (before after : List LoggerLabel) (s t : Logger) : Prop where
  noStop : ∀ e ∈ before, e.isStop = false
  run_before : Transition.run step start before = some s
  noLine : ∀ e ∈ after, e.line? = none
  run_after : Transition.run step s (.stopWorker :: after) = some t

/-- At every moment the queue is within its bound and each accepted line has its place: written,
counted in a marker where it is missing, taken by the worker or queued. -/
structure Accounts (bound : ℕ) (s : Logger) : Prop where
  bounded : s.lineQueue.length ≤ bound
  places : s.accepted.map Accepted.place = s.writtenPlaces ++ s.takenPlaces ++
    List.replicate s.droppedLines none ++ s.lineQueue.map some

/-- The books at a state are the accounts of its lines. -/
theorem Accounted.accounts (h : s.Accounted) : Accounts s.maxQueuedLines s where
  bounded := h.bounded
  places := h.books.places

/-- In every interleaving of the lines of any threads with the worker the accounts are kept, up to
the request to stop and after it. The accepted lines are those logged that pass the filter, in
order. When the worker exits, what is written has a line for each of them that was not dropped
and markers that count the others in their places, and the worker does exit. -/
theorem log_accounts {level : LogLevel} {maxQueued : ℕ} {fileOpen : Bool}
    {before after : List LoggerLabel}
    (hstops : Stops (new level maxQueued fileOpen) before after s t) :
    Accounts (max 1 maxQueued) s ∧ Accounts (max 1 maxQueued) t ∧
      t.accepted.map Accepted.item =
        (before.filterMap LoggerLabel.line?).filter (new level maxQueued fileOpen).accepts ∧
      (t.worker = .exited → t.writtenPlaces = t.accepted.map Accepted.place) ∧
      ∀ timestamps : ℕ → String, ∃ n u, Transition.run step t
        ((List.range n).map fun i => .worker (timestamps i)) = some u ∧ u.worker = .exited := by
  have hbound : (new level maxQueued fileOpen).maxQueuedLines = max 1 maxQueued := by
    simp only [new]
    split <;> omega
  have hstart := accounted_new level maxQueued fileOpen
  obtain ⟨hs, hboundBefore, hitemsBefore⟩ := items_run hstart hstops.run_before
  obtain ⟨ht, hboundAfter, hitemsAfter⟩ := items_run hs hstops.run_after
  rw [hbound] at hboundBefore
  rw [hboundBefore] at hboundAfter
  have hnone : (LoggerLabel.stopWorker :: after).filterMap LoggerLabel.line? = [] := by
    simpa [LoggerLabel.line?] using hstops.noLine
  have hopen : Running (new level maxQueued fileOpen) :=
    { running := rfl
      exited_disabled := by cases fileOpen <;> simp [new] }
  have hrunning := Transition.invariant_of_forall_mem (fun s => s.Accounted ∧ s.Running)
    (fun _ _ _ => running_step) ⟨hstart, hopen⟩ hstops.noStop hstops.run_before
  obtain ⟨stopped, hstop, hrest⟩ := Transition.run_cons_eq_some.mp hstops.run_after
  have hstopping : stopped.Stopping := by
    cases hstop
    exact { accounted := { hs with }
            stopped := rfl
            drained := fun hexited => (hrunning.2.exited_disabled hexited).2 }
  have hdone := Transition.invariant_of_forall_mem Stopping
    (fun _ _ _ => stopping_step) hstopping hstops.noLine hrest
  refine ⟨hboundBefore ▸ hs.accounts, hboundAfter ▸ ht.accounts, ?_, fun hexited => ?_, ?_⟩
  · rw [hitemsAfter, hitemsBefore, hnone]
    simp [new]
  · have hempty := hdone.drained hexited
    have htaken : t.takenPlaces = [] := by simp [takenPlaces, hexited]
    simpa [hempty, htaken, ht.gapBeforeLine hempty] using ht.accounts.places.symm
  · intro timestamps
    obtain ⟨n, u, hrun, hzero, -⟩ := Transition.run_of_measure remaining
      (fun _ i hstopped => worker_remaining hstopped (timestamps i)) hdone.stopped
    refine ⟨n, u, hrun, ?_⟩
    cases hworker : u.worker with
    | exited => rfl
    | waiting => simp [remaining, hworker] at hzero
    | writing dropped line =>
      simp only [remaining, hworker] at hzero
      split at hzero <;> omega

/-- An information line with a message. -/
def infoLine (msg : String) : LogLine := { timestamp := "", level := .info, msg := msg }

/-- The first line is taken at once, and then the queue of two is overrun by one line. -/
def overrunByOne : List LoggerLabel :=
  [.log (infoLine "first"), .worker "", .log (infoLine "drop"), .log (infoLine "keep-1"),
    .log (infoLine "keep-2")]

/-- The dropped line leaves one empty place behind the first. -/
theorem overrunByOne_accounts :
    ∃ s t, Stops (new .info 2 true) overrunByOne (List.replicate 7 (.worker "")) s t ∧
      t.writtenPlaces =
        [some (infoLine "first"), none, some (infoLine "keep-1"), some (infoLine "keep-2")] := by
  obtain ⟨s, t, hs, ht, hexited, hplaces⟩ : ∃ s t,
      Transition.run step (new .info 2 true) overrunByOne = some s ∧
      Transition.run step s (.stopWorker :: List.replicate 7 (.worker "")) = some t ∧
      t.worker = .exited ∧ t.accepted.map Accepted.place =
        [some (infoLine "first"), none, some (infoLine "keep-1"), some (infoLine "keep-2")] :=
    ⟨_, _, rfl, rfl, rfl, rfl⟩
  have hstops : Stops (new .info 2 true) overrunByOne (List.replicate 7 (.worker "")) s t :=
    { noStop := by decide, run_before := hs, noLine := by decide, run_after := ht }
  exact ⟨s, t, hstops, ((log_accounts hstops).2.2.2.1 hexited).trans hplaces⟩

end Logger

end CapFmu
