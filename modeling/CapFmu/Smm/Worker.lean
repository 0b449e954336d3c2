import CapFmu.Mav.Types
import CapFmu.Transition.Run

/-!
# The worker of the search client

All calls to the search server are made by one worker thread, which takes its tasks from a
queue. The worker alone touches the connection, the asset, the held search and the retry
time; the event loop flips the searching role and appends tasks, so these two are what a
section of the worker can find changed. A section reads the role at most once, and the
callbacks it makes are its last visible effect.

What the server, the library and the clock answer is not determined here: a section is given
a reply and reads from it what it asks for. Connections and searches are numbered as they are
made, so that a handle says which connection it was fetched on.
-/

namespace CapFmu

open Numeric (Double)

/-- The commands a server's answer to a position report can carry. -/
inductive SmmAssetCommand
  | none
  | circle
  | rtl
  | goto
  | resume
  | abandonSearch
  | missionComplete
  | unknown
  deriving DecidableEq, Repr

/-- The fields of an own-ship position that the search client reports. -/
structure PositionData where
  position : Point := {}
  altitudeMetres : Double := .finite 0
  heading : UInt16 := 0
  deriving DecidableEq

/-- What a connection is made with. -/
structure ConnectTask where
  host : String := ""
  user : String := ""
  pass : String := ""
  assetName : String := ""
  deriving DecidableEq, Repr

/-- The tasks of the worker. -/
inductive SmmTask
  | connect (details : ConnectTask)
  | reportPosition (pd : PositionData)
  | reachedPoint (point : ℕ)
  | search (pos : Point)
  | retryPending (pos : Point)
  deriving DecidableEq

/-- Whether a task is a position report. -/
def SmmTask.isReportPosition : SmmTask → Bool
  | reportPosition _ => true
  | _ => false

/-- Whether a task is a retry of a pending search. -/
def SmmTask.isRetryPending : SmmTask → Bool
  | retryPending _ => true
  | _ => false

/-- A fetched search with its waypoints, and the connection its handle belongs to. -/
structure SmmCandidate where
  search : SmmSearch
  valid : Bool
  conn : ℕ
  deriving DecidableEq

/-- What the server and the clock answer, as far as a section asks. The answers to a login and
to the request for the assets are only there when the one before them was positive. -/
structure SmmReply where
  nowMs : ℕ := 0
  stillConnected : Bool := false
  connection : Bool := false
  loggedIn : Bool := false
  assets : Option (List String) := none
  lastCommand : SmmAssetCommand := .unknown
  fetched : Bool := false
  waypoints : Option (List Point) := none
  altitude : UInt16 := 0
  accepted : Bool := false

/-- What the worker does that another party sees, and what it reads of the role and the clock,
in order. -/
inductive SmmEffect
  | close (conn : ℕ)
  | readClock (nowMs : ℕ)
  | readRole (active : Bool)
  | reportPosition (asset : Option ℕ) (pd : PositionData)
  | fetch (asset : Option ℕ) (pos : Point) (handle : Option ℕ)
  | accept (candidate : SmmCandidate) (accepted : Bool)
  | publish (candidate : Option SmmCandidate)
  | destroy (handle : ℕ)
  | complete (candidate : SmmCandidate)
  | progress (handle : ℕ) (point : ℕ)
  | loadSearchCb (candidate : SmmCandidate)
  | rtlCb
  | operatorCommandCb (command : SmmCommand)
  deriving DecidableEq

/-- The next section of the worker. The sections of an acquisition carry the failed attempts so
far and the search they own. -/
inductive SmmPc
  | idle
  | connect (details : ConnectTask)
  | reportPosition (pd : PositionData)
  | checkOperatorCommand (pd : PositionData) (nowMs : ℕ)
  | sendReport (pd : PositionData) (nowMs : ℕ)
  | reachedPoint (point : ℕ)
  | search (pos : Point)
  | maybeAcquire (pos : Point)
  | tryAcquire (pos : Point)
  | fetch (pos : Point) (retries : ℕ)
  | fetched (pos : Point) (retries : ℕ) (handle : Option ℕ)
  | construct (pos : Point) (retries : ℕ) (handle : ℕ)
  | grant (pos : Point) (retries : ℕ) (candidate : SmmCandidate)
  | commit (pos : Point) (retries : ℕ) (candidate : SmmCandidate)
  | rejected (pos : Point) (retries : ℕ) (candidate : SmmCandidate)
  | rtl (currTs : Option ℕ) (dropped : Option SmmCandidate)
  deriving DecidableEq

/-- The section a task starts with. -/
def SmmTask.entry : SmmTask → SmmPc
  | connect details => .connect details
  | reportPosition pd => .reportPosition pd
  | reachedPoint point => .reachedPoint point
  | search pos => .search pos
  | retryPending pos => .maybeAcquire pos

/-- The pause after a failed acquisition, in milliseconds. -/
def searchRetryIntervalMs : ℕ := 5000

/-- The attempts of one acquisition. -/
def acquireAttempts : ℕ := 3

/-- What to do before a fetch. -/
inductive SearchAcquireAction
  | backoff
  | disconnectedRtl
  | fetch
  deriving DecidableEq, Repr

/-- A search is fetched from a present asset, once the retry time has come. -/
def searchAcquireAction (assetPresent : Bool) (retryTs nowMs : ℕ) : SearchAcquireAction :=
  if nowMs < retryTs then .backoff
  else if !assetPresent then .disconnectedRtl
  else .fetch

/-- The fetched search is valid if it has waypoints and all of them are valid coordinates. -/
def waypointsValid (waypoints : Option (List Point)) : Bool :=
  match waypoints with
  | none => false
  | some points => !points.isEmpty && points.all Point.isValid

/-- The search client. -/
structure Smm where
  pc : SmmPc := .idle
  taskQueue : List SmmTask := []
  searchActive : Bool := false
  conn : Option ℕ := none
  details : ConnectTask := {}
  asset : Option ℕ := none
  currentSearch : Option SmmCandidate := none
  searchRetryTs : ℕ := 0
  positionReportLastTs : ℕ := 0
  positionReportIntervalMs : ℕ := 1000
  lastSeenOperatorCommand : SmmAssetCommand := .unknown
  nextConn : ℕ := 0
  nextHandle : ℕ := 0

namespace Smm

/-- Append a task. A position report replaces the queued one, and a retry joins it. -/
def enqueue (w : Smm) (task : SmmTask) : Smm :=
  if task.isReportPosition then
    { w with taskQueue := w.taskQueue.filter (fun queued => !queued.isReportPosition) ++ [task] }
  else if task.isRetryPending && w.taskQueue.any SmmTask.isRetryPending then w
  else { w with taskQueue := w.taskQueue ++ [task] }

/-- Grant the searching role and have the worker act on it. -/
def search (w : Smm) (pos : Point) : Smm := enqueue { w with searchActive := true } (.search pos)

/-- Revoke the searching role. -/
def cancelSearch (w : Smm) : Smm := { w with searchActive := false }

/-- Let go of the asset and close the connection. -/
def disconnect (w : Smm) : Smm × List SmmEffect :=
  ({ w with asset := none, conn := none }, (w.conn.map SmmEffect.close).toList)

/-- Make a connection with the stored details; it is kept if it finds the asset. -/
def connect (w : Smm) (r : SmmReply) : Smm × List SmmEffect :=
  if r.connection then
    let connected := { w with conn := some w.nextConn, nextConn := w.nextConn + 1 }
    match r.loggedIn, r.assets with
    | true, some names =>
      if w.details.assetName ∈ names then ({ connected with asset := some w.nextConn }, [])
      else connected.disconnect
    | _, _ => connected.disconnect
  else (w, [])

/-- Connect, or reconnect when the details have changed or the connection has failed. -/
def doConnect (w : Smm) (details : ConnectTask) (r : SmmReply) : Smm × List SmmEffect :=
  match w.conn with
  | none => connect { w with details := details } r
  | some _ =>
    if w.details ≠ details ∨ r.stillConnected = false then
      let reconnected := connect { w.disconnect.1 with details := details } r
      (reconnected.1, w.disconnect.2 ++ reconnected.2)
    else (w, [])

/-- Act on an operator command once, when it is first seen; an abandoned search is dropped. -/
def checkOperatorCommand (w : Smm) (command : SmmAssetCommand) : Smm × List SmmEffect :=
  if command = w.lastSeenOperatorCommand then (w, [])
  else
    let seen := { w with lastSeenOperatorCommand := command }
    match command with
    | .abandonSearch =>
      ({ seen with currentSearch := none, searchRetryTs := 0 },
        [.publish none, .operatorCommandCb .cmdAbandonSearch])
    | .missionComplete => (seen, [.operatorCommandCb .cmdMissionComplete])
    | _ => (seen, [])

/-- Take progress on the held search, and complete it past its last point. -/
def doReachedPoint (w : Smm) (point : ℕ) : Smm × List SmmEffect :=
  match w.currentSearch with
  | none => (w, [])
  | some held =>
    if held.search.points.length ≤ point then
      ({ w with currentSearch := none },
        [.complete held, .destroy held.search.id, .publish none, .rtlCb])
    else (w, [.progress held.search.id point])

/-- The search with the waypoints the server gave for a handle. -/
def candidate (w : Smm) (handle : ℕ) (r : SmmReply) : SmmCandidate :=
  { search := { id := handle, points := r.waypoints.getD [], altitude := r.altitude }
    valid := waypointsValid r.waypoints
    conn := w.asset.getD 0 }

/-- One section of the worker: the fields after it, with the section that follows, and what it
did. -/
def step (w : Smm) (r : SmmReply) : Option (Smm × List SmmEffect) :=
  match w.pc with
  | .idle =>
    match w.taskQueue with
    | [] => none
    | task :: rest => some ({ w with taskQueue := rest, pc := task.entry }, [])
  | .connect details =>
    let (next, effects) := w.doConnect details r
    some ({ next with pc := .idle }, effects)
  | .reportPosition pd =>
    match w.asset with
    | none => some ({ w with pc := .maybeAcquire pd.position }, [])
    | some _ =>
      let pc := if w.positionReportLastTs + w.positionReportIntervalMs ≤ r.nowMs then
          .checkOperatorCommand pd r.nowMs
        else .maybeAcquire pd.position
      some ({ w with pc := pc }, [.readClock r.nowMs])
  | .checkOperatorCommand pd nowMs =>
    let (next, effects) := w.checkOperatorCommand r.lastCommand
    some ({ next with pc := .sendReport pd nowMs }, effects)
  | .sendReport pd nowMs =>
    some ({ w with positionReportLastTs := nowMs, pc := .maybeAcquire pd.position },
      [.reportPosition w.asset pd])
  | .reachedPoint point =>
    let (next, effects) := w.doReachedPoint point
    some ({ next with pc := .idle }, effects)
  | .search pos =>
    match w.currentSearch with
    | some held => some ({ w with searchRetryTs := 0, pc := .idle }, [.loadSearchCb held])
    | none => some ({ w with searchRetryTs := 0, pc := .tryAcquire pos }, [])
  | .maybeAcquire pos =>
    let pc := if w.searchActive ∧ w.currentSearch = none then .tryAcquire pos else .idle
    some ({ w with pc := pc }, [.readRole w.searchActive])
  | .tryAcquire pos =>
    let pc := match searchAcquireAction w.asset.isSome w.searchRetryTs r.nowMs with
      | .backoff => .idle
      | .disconnectedRtl => .rtl (some r.nowMs) none
      | .fetch => .fetch pos 0
    some ({ w with pc := pc }, [.readClock r.nowMs])
  | .fetch pos retries =>
    if r.fetched then
      some ({ w with nextHandle := w.nextHandle + 1, pc := .fetched pos retries (some w.nextHandle) },
        [.fetch w.asset pos (some w.nextHandle)])
    else some ({ w with pc := .fetched pos retries none }, [.fetch w.asset pos none])
  | .fetched pos retries handle =>
    if w.searchActive = false then
      some ({ w with pc := .idle }, .readRole false :: (handle.map SmmEffect.destroy).toList)
    else
      let pc := match handle with
        | none => .rtl none none
        | some handle => .construct pos retries handle
      some ({ w with pc := pc }, [.readRole true])
  | .construct pos retries handle =>
    some ({ w with pc := .grant pos retries (w.candidate handle r) }, [])
  | .grant pos retries candidate =>
    let pc := if w.searchActive then .commit pos retries candidate
      else .rejected pos retries candidate
    some ({ w with pc := pc }, [.readRole w.searchActive])
  | .commit pos retries candidate =>
    if candidate.valid then
      if r.accepted then
        some ({ w with currentSearch := some candidate, searchRetryTs := 0, pc := .idle },
          [.accept candidate true, .publish (some candidate), .loadSearchCb candidate])
      else some ({ w with pc := .rejected pos retries candidate }, [.accept candidate false])
    else some ({ w with pc := .rejected pos retries candidate }, [])
  | .rejected pos retries candidate =>
    if w.searchActive = false then
      some ({ w with pc := .idle }, [.readRole false, .destroy candidate.search.id])
    else if acquireAttempts ≤ retries + 1 then
      some ({ w with pc := .rtl none (some candidate) }, [.readRole true])
    else
      some ({ w with pc := .fetch pos (retries + 1) },
        [.readRole true, .destroy candidate.search.id])
  | .rtl currTs dropped =>
    let effects := match currTs with
      | some _ => [.rtlCb]
      | none => [.rtlCb, .readClock r.nowMs]
    some ({ w with searchRetryTs := currTs.getD r.nowMs + searchRetryIntervalMs, pc := .idle },
      effects ++ (dropped.map fun c => SmmEffect.destroy c.search.id).toList)

section Frame

variable {w t : Smm} {r : SmmReply} {effects : List SmmEffect}

/-- A new task changes the queue alone. -/
theorem enqueue_frame (w : Smm) (task : SmmTask) :
    w.enqueue task = { w with taskQueue := (w.enqueue task).taskQueue } := by
  unfold enqueue
  split_ifs <;> rfl

@[simp] theorem currentSearch_enqueue (w : Smm) (task : SmmTask) :
    (w.enqueue task).currentSearch = w.currentSearch := by
  rw [enqueue_frame]

@[simp] theorem pc_enqueue (w : Smm) (task : SmmTask) : (w.enqueue task).pc = w.pc := by
  rw [enqueue_frame]

@[simp] theorem lastSeenOperatorCommand_enqueue (w : Smm) (task : SmmTask) :
    (w.enqueue task).lastSeenOperatorCommand = w.lastSeenOperatorCommand := by
  rw [enqueue_frame]

/-- A connect task leaves the queue, the role, the searches and the command seen last alone. -/
theorem doConnect_frame (w : Smm) (details : ConnectTask) (r : SmmReply) :
    (w.doConnect details r).1.taskQueue = w.taskQueue ∧
      (w.doConnect details r).1.searchActive = w.searchActive ∧
      (w.doConnect details r).1.currentSearch = w.currentSearch ∧
      (w.doConnect details r).1.nextHandle = w.nextHandle ∧
      (w.doConnect details r).1.lastSeenOperatorCommand = w.lastSeenOperatorCommand := by
  unfold doConnect connect disconnect
  grind

/-- All that others see of a connect task is a closed connection. -/
theorem close_of_mem_doConnect (w : Smm) (details : ConnectTask) (r : SmmReply)
    {effect : SmmEffect} (heffect : effect ∈ (w.doConnect details r).2) :
    ∃ n, effect = .close n := by
  unfold doConnect connect disconnect at heffect
  grind [Option.map_eq_some_iff]

/-- Only a connect task touches the connection and the asset. -/
theorem step_frame (hconnect : ∀ details, w.pc ≠ .connect details)
    (hstep : w.step r = some (t, effects)) :
    t.conn = w.conn ∧ t.asset = w.asset ∧ t.nextConn = w.nextConn := by
  unfold step at hstep
  split at hstep <;> grind [checkOperatorCommand, doReachedPoint]

/-- Only an idle worker takes a task from the queue. -/
theorem taskQueue_step_of_busy (hbusy : w.pc ≠ .idle) (hstep : w.step r = some (t, effects)) :
    t.taskQueue = w.taskQueue := by
  unfold step at hstep
  split at hstep <;> grind [doConnect_frame, checkOperatorCommand, doReachedPoint]

/-- A section keeps the held search, drops it, or publishes the valid candidate it has
accepted. -/
theorem step_held (hstep : w.step r = some (t, effects)) :
    t.currentSearch = w.currentSearch ∨ t.currentSearch = none ∨
      ∃ pos retries candidate, w.pc = .commit pos retries candidate ∧
        candidate.valid = true ∧ r.accepted = true ∧ t.currentSearch = some candidate := by
  unfold step at hstep
  split at hstep <;> grind [doConnect_frame, checkOperatorCommand, doReachedPoint]

end Frame

/-- A search client as it is constructed. -/
def init (positionReportIntervalMs : ℕ) : Smm :=
  { positionReportIntervalMs := positionReportIntervalMs }

end Smm

/-- What can happen to the search client: a section of its worker, a task from another thread,
and the event loop granting and revoking the role. -/
inductive SmmLabel
  | worker (r : SmmReply)
  | enqueue (task : SmmTask)
  | search (pos : Point)
  | cancelSearch

namespace Smm

/-- One step, with what the worker did. -/
def stepWith (w : Smm) : SmmLabel → Option (Smm × List SmmEffect)
  | .worker r => w.step r
  | .enqueue task => some (w.enqueue task, [])
  | .search pos => some (w.search pos, [])
  | .cancelSearch => some (w.cancelSearch, [])

/-- One step of the search client. -/
def next (w : Smm) (e : SmmLabel) : Option Smm := (w.stepWith e).map Prod.fst

end Smm

end CapFmu
