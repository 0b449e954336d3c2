import CapFmu.Fss.SendQueue
import CapFmu.Signal.RateLimit

/-!
# The rate of the own position reports

The autopilot's position comes several times a second, and the servers are sent it once a second
at most. Two things hold a report back: a newer one replaces it in the queue, or the client
was handed it less than a second after the last one it sent. What the servers see is a selection
of what was reported, in its order, with the coordinates marked valid only where they come with a
fix.
-/

namespace CapFmu

open Numeric (Double)
open Queue Signal Transition

/-- The position report that the servers are sent. -/
structure FssPositionReport where
  lat : Double
  lng : Double
  alt : Int16
  heading : UInt16
  horVel : UInt16
  verVel : Int16
  icaoAddress : UInt32
  callsign : String
  squawk : UInt16
  tslc : UInt8
  flags : UInt32
  altType : UInt8
  emitterType : UInt8
  timestamp : UInt64
  deriving DecidableEq

/-- A second of the steady clock, which counts nanoseconds. -/
def ts1SecInterval : ℕ := 1000000000

/-- The squawk code of a flight under visual rules. -/
def squawkVfr : UInt16 := 1200

/-- Coordinates, altitude, heading, velocity, callsign and squawk are valid. -/
def validFieldsAll : UInt32 := 1 ||| 2 ||| 4 ||| 8 ||| 16 ||| 32

/-- All but the coordinates are. -/
def validFieldsNoFix : UInt32 := validFieldsAll &&& ~~~1

/-- The emitter type of an unmanned aircraft. -/
def aircraftType : UInt8 := 14

/-- A position that the worker hands to the client, with the readings of the clocks. -/
structure HandedPosition where
  task : FssPositionTask
  nowNs : ℕ
  timestamp : UInt64
  deriving DecidableEq

/-- The report of a position. -/
def HandedPosition.report (assetName : String) (p : HandedPosition) : FssPositionReport where
  lat := p.task.lat
  lng := p.task.lng
  alt := p.task.alt
  heading := p.task.heading
  horVel := p.task.horVel
  verVel := p.task.verVel
  icaoAddress := 0
  callsign := assetName
  squawk := squawkVfr
  tslc := 0
  flags := if p.task.fixValid then validFieldsAll else validFieldsNoFix
  altType := 1
  emitterType := aircraftType
  timestamp := p.timestamp

/-- The coordinates are marked valid with a fix only, and the other fields always. -/
theorem HandedPosition.flags_report (assetName : String) (p : HandedPosition) :
    (p.report assetName).flags &&& 1 = (if p.task.fixValid then 1 else 0) ∧
      (p.report assetName).flags ||| 1 = validFieldsAll := by
  have hfields : ∀ fixValid : Bool,
      ((if fixValid then validFieldsAll else validFieldsNoFix) &&& 1 =
          if fixValid then (1 : UInt32) else 0) ∧
        (if fixValid then validFieldsAll else validFieldsNoFix) ||| 1 = validFieldsAll := by
    decide
  exact hfields p.task.fixValid

/-- The client as far as it reports positions. -/
structure FssPositionClient where
  assetName : String
  positionLastSent : ℕ := 0
  wire : List FssPositionReport := []

/-- Send a position, unless the last one was sent less than a second ago. -/
def FssPositionClient.sendPosition (c : FssPositionClient) (p : HandedPosition) :
    FssPositionClient :=
  if ts1SecInterval ≤ p.nowNs - c.positionLastSent then
    { c with wire := c.wire ++ [p.report c.assetName], positionLastSent := p.nowNs }
  else c

/-- The position of a task. -/
def FssTask.position? {Responder : Type*} : FssTask Responder → Option FssPositionTask
  | position t => some t
  | reached _ | battery _ | ack _ => none

/-- The queue, the client that its worker sends with, and the steady clock. The positions handed
over are recorded. -/
structure PositionReporter (Responder : Type*) where
  sender : FssSender Responder := {}
  client : FssPositionClient
  clockNs : ℕ := 0
  handed : List HandedPosition := []

/-- A task from any thread, a step of the worker that reads the clocks, and the request to stop. -/
inductive PositionReporterLabel (Responder : Type*)
  | enqueue (task : FssTask Responder)
  | worker (nowNs : ℕ) (timestamp : UInt64)
  | stopWorker

namespace PositionReporter

variable {Responder : Type*}

/-- The position that the worker is about to hand over. -/
def position? (s : PositionReporter Responder) : Option FssPositionTask :=
  match s.sender.worker with
  | .sending task => task.position?
  | .waiting | .exited => none

/-- The worker hands over a position. -/
def hand (s : PositionReporter Responder) (p : HandedPosition) : PositionReporter Responder :=
  { s with client := s.client.sendPosition p, handed := s.handed ++ [p] }

/-- A step of a client; the steady clock does not go back. -/
def step (s : PositionReporter Responder) :
    PositionReporterLabel Responder → Option (PositionReporter Responder)
  | .enqueue task => some { s with sender := s.sender.enqueue task }
  | .stopWorker => (s.sender.step .stopWorker).map fun sender => { s with sender := sender }
  | .worker nowNs timestamp =>
    if s.clockNs ≤ nowNs then
      s.sender.workerLoop.map fun sender =>
        match s.position? with
        | some task =>
          { s.hand { task := task, nowNs := nowNs, timestamp := timestamp } with
            sender := sender, clockNs := nowNs }
        | none => { s with sender := sender, clockNs := nowNs }
    else none

/-- Before anything was reported. -/
def init (assetName : String) : PositionReporter Responder :=
  { client := { assetName := assetName } }

/-- The positions among the tasks. -/
def positions (tasks : List (FssTask Responder)) : List FssPositionTask :=
  tasks.filterMap FssTask.position?

/-- What the client has sent of the positions handed over. -/
def passed (s : PositionReporter Responder) : List HandedPosition :=
  limit HandedPosition.nowNs ts1SecInterval 0 s.handed

/-- The books of the queue, of the positions handed over and of those sent. -/
structure Reports (s : PositionReporter Responder) : Prop where
  books : s.sender.Accounted
  handed : s.handed.map HandedPosition.task = positions s.sender.sent
  sorted : s.handed.Pairwise fun p q => p.nowNs ≤ q.nowNs
  clock : ∀ p ∈ s.handed, p.nowNs ≤ s.clockNs
  wire : s.client.wire = s.passed.map (HandedPosition.report s.client.assetName)
  last : s.client.positionLastSent = lastPassed HandedPosition.nowNs 0 s.passed

variable {s t : PositionReporter Responder}

/-- Only positions replace each other. -/
theorem coalescing_eq_replace_iff (task : FssTask Responder) :
    task.coalescing = .replace ↔ ∃ p, task.position? = some p := by
  cases task <;> simp [FssTask.coalescing, FssTask.position?]

/-- The positions are those of the tasks that do. -/
theorem positions_ofKind (tasks : List (FssTask Responder)) :
    positions (ofKind FssTask.coalescing .replace tasks) = positions tasks := by
  unfold positions ofKind
  induction tasks with
  | nil => rfl
  | cons task tasks ih =>
    have hkind := coalescing_eq_replace_iff task
    cases hposition : task.position? with
    | none =>
      have hother : ¬task.coalescing = .replace := by simp [hkind, hposition]
      simp [hother, hposition, ih]
    | some p =>
      have hreplaces : task.coalescing = .replace := hkind.mpr ⟨p, hposition⟩
      simp [hreplaces, hposition, ih]

/-- The last position is that of the last of these tasks. -/
theorem getLast?_positions (tasks : List (FssTask Responder)) :
    (positions tasks).getLast? =
      (ofKind FssTask.coalescing .replace tasks).getLast?.bind FssTask.position? := by
  rw [← positions_ofKind]
  have hall : ∀ task ∈ ofKind FssTask.coalescing .replace tasks,
      ∃ p, task.position? = some p := by
    intro task htask
    exact (coalescing_eq_replace_iff task).mp (of_decide_eq_true (List.mem_filter.mp htask).2)
  obtain hnil | ⟨before, task, hconcat⟩ :=
    List.eq_nil_or_concat' (ofKind FssTask.coalescing .replace tasks)
  · rw [hnil]
    rfl
  · rw [hconcat] at hall ⊢
    obtain ⟨p, hp⟩ := hall task (List.mem_append_right _ (List.mem_singleton.mpr rfl))
    simp [positions, hp]

@[simp] theorem positions_append (tasks tasks' : List (FssTask Responder)) :
    positions (tasks ++ tasks') = positions tasks ++ positions tasks' :=
  List.filterMap_append

/-- Nothing has been reported at first. -/
theorem reports_init (assetName : String) :
    (init assetName : PositionReporter Responder).Reports where
  books := coalesces_nil
  handed := rfl
  sorted := List.Pairwise.nil
  clock _ hp := absurd hp List.not_mem_nil
  wire := rfl
  last := rfl

/-- A position is sent if the last one sent is a second old. -/
theorem sendPosition_eq (c : FssPositionClient) (p : HandedPosition) :
    c.sendPosition p =
      if c.positionLastSent + ts1SecInterval ≤ p.nowNs then
        { c with wire := c.wire ++ [p.report c.assetName], positionLastSent := p.nowNs }
      else c := by
  have hsecond : 0 < ts1SecInterval := by decide
  have hold : ts1SecInterval ≤ p.nowNs - c.positionLastSent ↔
      c.positionLastSent + ts1SecInterval ≤ p.nowNs := by omega
  simp only [FssPositionClient.sendPosition, hold]

/-- A step of the worker carries out the task it holds. -/
theorem positions_workerLoop {sender : FssSender Responder}
    (h : s.sender.workerLoop = some sender) :
    positions sender.sent = positions s.sender.sent ++ s.position?.toList := by
  unfold FssSender.workerLoop at h
  unfold position?
  cases hworker : s.sender.worker with
  | exited => simp [hworker] at h
  | sending task =>
    simp only [hworker, Option.some.injEq] at h
    subst h
    rw [FssSender.sent_send, positions_append]
    cases hposition : task.position? <;> simp [positions, hposition]
  | waiting =>
    simp only [hworker] at h
    split at h
    · cases h
      simp [FssSender.sent]
    · split at h
      · cases h
      · cases h
        simp [FssSender.sent]

/-- Handing over a position keeps the books of what is sent. -/
theorem Reports.hand (h : s.Reports) {p : HandedPosition} (hclock : s.clockNs ≤ p.nowNs)
    {sender : FssSender Responder} (hbooks : sender.Accounted)
    (hsent : positions sender.sent = positions s.sender.sent ++ [p.task]) :
    Reports { s.hand p with sender := sender, clockNs := p.nowNs } := by
  have hpassed : passed { s.hand p with sender := sender, clockNs := p.nowNs } = s.passed ++
      if s.client.positionLastSent + ts1SecInterval ≤ p.nowNs then [p] else [] := by
    rw [h.last]
    exact limit_concat s.handed p
  constructor
  · exact hbooks
  · simp only [PositionReporter.hand, List.map_append, h.handed, hsent]
    rfl
  · refine List.pairwise_append.mpr ⟨h.sorted, List.pairwise_singleton _ _, fun q hq r hr => ?_⟩
    rw [List.mem_singleton.mp hr]
    exact (h.clock q hq).trans hclock
  · intro q hq
    cases List.mem_append.mp hq with
    | inl hold => exact (h.clock q hold).trans hclock
    | inr hnew => rw [List.mem_singleton.mp hnew]
  · rw [hpassed]
    simp only [PositionReporter.hand, sendPosition_eq]
    split_ifs <;> simp [h.wire]
  · rw [hpassed]
    simp only [PositionReporter.hand, sendPosition_eq]
    split_ifs
    · simp [lastPassed]
    · simpa using h.last

/-- Every step keeps the books. -/
theorem reports_step {label : PositionReporterLabel Responder} (h : s.Reports)
    (hstep : s.step label = some t) : t.Reports := by
  cases label with
  | enqueue task =>
    obtain rfl := Option.some.inj hstep
    exact { h with books := h.books.enqueue task }
  | stopWorker =>
    obtain rfl := Option.some.inj hstep
    exact { h with books := h.books }
  | worker nowNs timestamp =>
    simp only [step] at hstep
    split_ifs at hstep with hclock
    obtain ⟨sender, hworker, rfl⟩ := Option.map_eq_some_iff.mp hstep
    have hbooks := (FssSender.accounted_workerLoop h.books hworker).1
    have hsent := positions_workerLoop hworker
    cases hposition : s.position? with
    | none =>
      rw [hposition, Option.toList_none, List.append_nil] at hsent
      exact { h with
        books := hbooks
        handed := h.handed.trans hsent.symm
        clock := fun p hp => (h.clock p hp).trans hclock }
    | some task =>
      rw [hposition] at hsent
      exact h.hand (p := { task := task, nowNs := nowNs, timestamp := timestamp }) hclock hbooks
        hsent

/-- What the servers see of the positions reported. Every report sent is of a position that was
reported, in the order of the reports, and a second after the one before. A position handed to
the client is sent unless it comes within a second after one that was, or after the start of the
clock. Once the queue is empty and the worker waits, the newest position reported is the last one
handed over. -/
structure SeenByServers (s : PositionReporter Responder) (sent : List HandedPosition) : Prop where
  wire : s.client.wire = sent.map (HandedPosition.report s.client.assetName)
  selected : (sent.map HandedPosition.task).Sublist (positions s.sender.enqueued)
  spaced : sent.Pairwise fun p q => p.nowNs + ts1SecInterval ≤ q.nowNs
  complete : ∀ p ∈ s.handed, p ∈ sent ∨ p.nowNs < ts1SecInterval ∨
    ∃ q ∈ sent, q.nowNs ≤ p.nowNs ∧ p.nowNs < q.nowNs + ts1SecInterval
  newest : s.sender.taskQueue = [] → s.sender.worker = .waiting →
    s.handed.getLast?.map HandedPosition.task = (positions s.sender.enqueued).getLast?

/-- The books say what the servers see. -/
theorem Reports.seenByServers (h : s.Reports) : s.SeenByServers s.passed := by
  have hbooks : Coalesces FssTask.coalescing s.sender.enqueued s.sender.taken s.sender.taskQueue :=
    h.books
  have htaken : s.sender.sent <+: s.sender.taken := by
    unfold FssSender.taken
    split
    · exact List.prefix_append _ _
    · exact List.prefix_rfl
    · exact List.prefix_rfl
  refine ⟨h.wire, ?_, (spaced_limit s.handed).1, fun p hp => ?_, fun hqueue hworker => ?_⟩
  · have hpassed : (s.passed.map HandedPosition.task).Sublist (positions s.sender.sent) := by
      rw [← h.handed]
      exact (limit_sublist s.handed).map _
    have hsent : (positions s.sender.sent).Sublist
        (positions (s.sender.taken ++ s.sender.taskQueue)) :=
      (htaken.sublist.trans (List.sublist_append_left _ _)).filterMap _
    have hreplaced : (positions (s.sender.taken ++ s.sender.taskQueue)).Sublist
        (positions s.sender.enqueued) := by
      rw [← positions_ofKind, ← positions_ofKind s.sender.enqueued]
      exact hbooks.replaced.filterMap _
    exact hpassed.trans (hsent.trans hreplaced)
  · have hlimit : p ∈ s.passed ∨ p.nowNs < 0 + ts1SecInterval ∨ _ := mem_limit_or h.sorted hp
    rwa [Nat.zero_add] at hlimit
  · have hsent : s.sender.taken = s.sender.sent := by simp [FssSender.taken, hworker]
    have hnewest := hbooks.newest
    rw [hqueue, hsent, List.append_nil] at hnewest
    rw [← List.getLast?_map, h.handed, getLast?_positions, getLast?_positions, hnewest]

/-- In every run the servers see a position once a second at most, and none is held back without
a newer one or one less than a second before. -/
theorem positions_limited (assetName : String) {labels : List (PositionReporterLabel Responder)}
    (hrun : run step (init assetName : PositionReporter Responder) labels = some s) :
    ∃ sent, s.SeenByServers sent :=
  ⟨s.passed, (invariant_of_run Reports (fun _ _ _ h hstep => reports_step h hstep)
    (reports_init assetName) hrun).seenByServers⟩

/-- Three positions that are handed over a fifth of a second and then a second apart. -/
def threePositions : List (PositionReporterLabel Unit) :=
  [.enqueue (.position { heading := 1 }), .worker 5000000000 1, .worker 5000000000 1,
    .enqueue (.position { heading := 2 }), .worker 5100000000 2, .worker 5200000000 2,
    .enqueue (.battery { remaining := 90 }), .enqueue (.position { heading := 3 }),
    .worker 6100000000 3, .worker 6100000000 3, .worker 6200000000 3, .worker 6200000000 3]

/-- The second of the three positions is held back. -/
theorem threePositions_limited :
    ∃ s : PositionReporter Unit, run step (init "asset") threePositions = some s ∧
      s.client.wire.map (fun report => report.heading) = [1, 3] ∧ ∃ sent, s.SeenByServers sent := by
  obtain ⟨s, hrun, hwire⟩ : ∃ s : PositionReporter Unit,
      run step (init "asset") threePositions = some s ∧
      s.client.wire.map (fun report => report.heading) = [1, 3] := ⟨_, rfl, by decide⟩
  exact ⟨s, hrun, hwire, positions_limited "asset" hrun⟩

end PositionReporter

end CapFmu
