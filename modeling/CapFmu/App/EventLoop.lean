import CapFmu.Mav.Upload
import CapFmu.Smm.Worker
import CapFmu.StateMachine.Arbitration

/-!
# The event loop between the state machine, the search client and the autopilot

Everything that can change the flight goes through one queue of events. The event loop takes
them in turn: an event updates the state machine, which asks for calls, and the dispatcher
makes calls of its own. A call on the autopilot interface is a sequence of lock sections and
the next event is taken only after the last of them, while the worker of the search client and
the recv thread of the connection go on, and append events as they do.

Reports to the ground station and the rebroadcast of other aircraft have no effect on this
side, so the calls that make them are left out.

The autopilot is seen through what it is sent and answers. It takes the missions whose counts it
received in turn, has a mission from its acceptance on until another is accepted, and has none
after a restart. With the link the missions that it has not answered are lost.
-/

namespace CapFmu

open Numeric (Double)

/-- What a termination does to the aircraft. -/
inductive TerminateAction
  | none
  | disarm
  | terminate
  deriving DecidableEq, Repr

/-- What was loaded on the autopilot as a mission item was reached: the search that the
connection's flags name, and the mission that the autopilot had. -/
structure ReachedWith where
  loaded : Option SmmSearch
  mission : Option Upload
  deriving DecidableEq

/-- The events of the loop. A reached point records what was loaded on the autopilot; no operation
reads it. -/
inductive AppEvent
  | fssCommand (cmd : FssCommand) (target : FssCommandTarget)
  | fssComms (failed : Bool)
  | mavComms (failed : Bool)
  | mavAutopilotRestart
  | smmSettings (details : ConnectTask)
  | position (pd : PositionData) (fixValid : Bool) (altitudeAglM : Double)
  | reachedPoint (point : ℕ) (reached : ReachedWith)
  | smmLoadSearch (search : SmmSearch)
  | smmRtl
  | smmOperatorCommand (command : SmmCommand)
  | battery (remaining : ℤ)
  deriving DecidableEq

/-- The calls of the event loop on the other components. -/
inductive AppCall
  | action (a : Action)
  | loadSearch (search : SmmSearch)
  | reportPosition (pd : PositionData)
  | reachedPoint (point : ℕ) (reached : ReachedWith)
  | connect (details : ConnectTask)
  deriving DecidableEq

/-- Apply an event to the state machine, and make the calls it asks for. -/
def FmuStateMachine.drive (m : FmuStateMachine) (e : FmuEvent) : FmuStateMachine × List AppCall :=
  ((m.handle e).1, (m.handle e).2.map .action)

/-- Dispatch an event. -/
def FmuStateMachine.dispatch (m : FmuStateMachine) (lowbatThreshold : ℤ) :
    AppEvent → FmuStateMachine × List AppCall
  | .fssCommand cmd target => m.drive (.fssNewCommand cmd target)
  | .fssComms failed => m.drive (.setCommsFailure failed)
  | .mavComms failed => m.drive (.setMavCommsFailure failed)
  | .mavAutopilotRestart => m.drive .reassertState
  | .smmSettings details => (m, [.connect details])
  | .position pd fixValid altitudeAglM =>
    let (next, calls) := m.drive (.setCurrentAltitude fixValid altitudeAglM)
    (next, calls ++ [.reportPosition pd])
  | .reachedPoint point reached =>
    (m, if m.currentState = .searching then [.reachedPoint point reached] else [])
  | .smmLoadSearch search =>
    if m.currentState = .searching then (m, [.loadSearch search])
    else if m.currentState = .waitingForTasking then m.drive (.smmNewCommand .cmdNone)
    else (m, [])
  | .smmRtl => m.drive (.smmNewCommand .cmdMissionComplete)
  | .smmOperatorCommand command => m.drive (.smmNewCommand command)
  | .battery remaining =>
    m.drive (.setLowBattery (decide (0 ≤ remaining ∧ remaining < lowbatThreshold)))

/-- The event a worker's callback appends to the queue. -/
def SmmEffect.event? : SmmEffect → Option AppEvent
  | loadSearchCb candidate => some (.smmLoadSearch candidate.search)
  | rtlCb => some .smmRtl
  | operatorCommandCb command => some (.smmOperatorCommand command)
  | _ => none

/-- The point of a search that progress is taken on, as the autopilot connection sees it. -/
def SmmEffect.observe (conn : MavConnection) : SmmEffect → MavConnection
  | progress handle point =>
    { conn with currentPointIdx := Function.update conn.currentPointIdx handle point }
  | _ => conn

/-- The command of a flight mode. -/
def flightModeCall (gotoPosition : Point) : FlightMode → MavCall
  | .manual => .manual
  | .goto => .goto gotoPosition
  | .hold => .hold
  | .unknown | .rtl => .rtl

/-- The command of a termination. -/
def TerminateAction.call : TerminateAction → MavCall
  | none => .rtl
  | disarm => .forceDisArm
  | terminate => .terminate

/-- Whether a packet opens a mission upload. -/
def Packet.isMissionCount : Packet → Bool
  | missionCount _ => true
  | _ => false

/-- The search-point index to resume from after a mission item is reached. -/
def nextSearchPointAfterReachedSeq (seq : ℕ) : ℕ := seq - searchFirstPointSeq + 1

/-- The upload whose mission count a section of the event loop writes. -/
def LoopPc.upload? (c : MavConnection) : LoopPc → Option Upload
  | gotoCount => some (.goto c.gotoPosition)
  | searchCount s => some (.search s)
  | _ => none

/-- The uploads that a section of the event loop opens with the mission counts it wrote. -/
def LoopPc.opened (c : MavConnection) (pc : LoopPc) (written : List WireEntry) : List Upload :=
  written.filterMap fun entry => if entry.packet.isMissionCount then pc.upload? c else none

/-- The components, the queue of events and the calls that the event being dispatched still
asks for. A restart that the recv thread has detected is reported in a section of its own. Three
fields record the run: the uploads that the autopilot has yet to answer, oldest first, the
mission that it has, and for each reached point in the worker's queue what was loaded as it was
reached. -/
structure App where
  terminateAction : TerminateAction := .none
  lowbatThreshold : ℤ := 0
  machine : FmuStateMachine := {}
  smm : Smm := {}
  mav : MavSystem := { conn := {} }
  gotoPosition : Point := {}
  eventQueue : List AppEvent := []
  calls : List AppCall := []
  restarting : Bool := false
  outstanding : List Upload := []
  mission : Option Upload := none
  reachedWith : List ReachedWith := []

/-- What can happen: the event loop, the recv thread and the worker execute their next section,
the autopilot sends a message or is lost, another thread appends an event or a task. An autopilot
may start on an upload without an answer to the one before, which it drops, and one that restarts
has forgotten the oldest of the uploads that it has yet to answer, or none. -/
inductive AppLabel
  | loop (pos : Point)
  | recv
  | worker (r : SmmReply)
  | heartbeat (t : MavType)
  | missionAck (accepted : Bool)
  | uploadDropped
  | missionRequest (seq missionType : ℕ)
  | missionItemReached (seq : ℕ)
  | autopilotRestart (forgotten : ℕ)
  | mavCommsLost
  | setLink (isOpen : Bool)
  | post (e : AppEvent)
  | retryPendingSearch (pos : Point)

/-- The events that come from neither the worker nor the autopilot's missions. -/
def AppEvent.isExternal : AppEvent → Bool
  | fssCommand _ _ | fssComms _ | mavComms _ | smmSettings _ | position _ _ _ | battery _ => true
  | mavAutopilotRestart | reachedPoint _ _ | smmLoadSearch _ | smmRtl | smmOperatorCommand _ =>
    false

namespace App

/-- The search that the connection's flags name as loaded on the autopilot. -/
def loadedSearch (a : App) : Option SmmSearch :=
  if a.mav.conn.searchLoaded then a.mav.conn.search else none

/-- Start a command on the autopilot. -/
def startCall (a : App) (command : MavCall) : App :=
  { a with mav := { a.mav with loop := command.entry } }

/-- Make a call; a search starts from the given position. A change of altitude and the log of
a new state have no effect here. -/
def perform (a : App) (pos : Point) : AppCall → App
  | .action .cancelSearch => { a with smm := a.smm.cancelSearch }
  | .action .search => { a with smm := a.smm.search pos }
  | .action (.setMode fm) => a.startCall (flightModeCall a.gotoPosition fm)
  | .action (.gotoPosition position) => { a with gotoPosition := position }
  | .action .disarm => a.startCall .disArm
  | .action .terminate => a.startCall a.terminateAction.call
  | .action (.setAltitude _) | .action (.stateChange _) => a
  | .loadSearch search => a.startCall (.loadSearch (some search))
  | .reportPosition pd => { a with smm := a.smm.enqueue (.reportPosition pd) }
  | .reachedPoint point reached =>
    { a with
      smm := a.smm.enqueue (.reachedPoint point)
      reachedWith := a.reachedWith ++ [reached] }
  | .connect details => { a with smm := a.smm.enqueue (.connect details) }

/-- The application after a step of its connection. -/
def withMav (a : App) (mav : MavSystem) : App := { a with mav := mav }

/-- The connection after a section of the event loop, and the upload that the section opened. -/
def withSection (a : App) (mav : MavSystem) : App :=
  { a.withMav mav with
    outstanding := a.outstanding ++
      a.mav.loop.opened a.mav.conn (mav.wire.drop a.mav.wire.length) }

/-- The oldest upload is answered, and is the mission of the autopilot if it was accepted. -/
def answered (a : App) (accepted : Bool) : App :=
  { a with
    outstanding := a.outstanding.tail
    mission := if accepted then a.outstanding.head?.or a.mission else a.mission }

/-- The event loop goes on with the command it has started, or makes the next call, or takes
the next event. -/
def stepLoop (a : App) (pos : Point) : Option App :=
  match a.mav.loop with
  | .idle =>
    match a.calls with
    | call :: rest => some ({ a with calls := rest }.perform pos call)
    | [] =>
      match a.eventQueue with
      | [] => none
      | e :: rest =>
        let (machine, calls) := a.machine.dispatch a.lowbatThreshold e
        some { a with machine := machine, calls := calls, eventQueue := rest }
  | _ => a.mav.stepLoop.map a.withSection

/-- The recv thread reports the restart it has detected, or goes on with its message. -/
def stepRecv (a : App) : Option App :=
  if a.restarting then
    some { a with restarting := false, eventQueue := a.eventQueue ++ [.mavAutopilotRestart] }
  else a.mav.stepRecv.map a.withMav

/-- The worker executes a section, and its callbacks append events. -/
def stepWorker (a : App) (r : SmmReply) : Option App :=
  (a.smm.step r).map fun (smm, effects) =>
    { a with
      smm := smm
      mav := { a.mav with conn := effects.foldl SmmEffect.observe a.mav.conn }
      eventQueue := a.eventQueue ++ effects.filterMap SmmEffect.event?
      reachedWith :=
        match a.smm.pc with
        | .reachedPoint _ => a.reachedWith.tail
        | _ => a.reachedWith }

/-- The recv thread takes a message, once the one before is processed. -/
def receive (a : App) (message : MavLabel) : Option App :=
  if a.restarting then none else (a.mav.step message).map a.withMav

/-- One step; `none` when the label is not enabled. -/
def next (a : App) : AppLabel → Option App
  | .loop pos => a.stepLoop pos
  | .recv => a.stepRecv
  | .worker r => a.stepWorker r
  | .heartbeat t => a.receive (.heartbeat t)
  | .missionAck accepted =>
    (a.receive (.missionAck accepted)).map fun b => b.answered accepted
  | .uploadDropped => some { a with outstanding := a.outstanding.tail }
  | .missionRequest seq missionType => a.receive (.missionRequest seq missionType)
  | .missionItemReached seq =>
    if a.restarting = false ∧ searchFirstPointSeq ≤ seq then
      match a.mav.recv with
      | .idle => some { a with eventQueue := a.eventQueue ++
          [.reachedPoint (nextSearchPointAfterReachedSeq seq)
            { loaded := a.loadedSearch, mission := a.mission }] }
      | _ => none
    else none
  | .autopilotRestart forgotten =>
    (a.receive .autopilotRestart).map fun b =>
      { b with
        restarting := true
        outstanding := b.outstanding.drop forgotten
        mission := none }
  | .mavCommsLost => (a.mav.step .commsLost).map a.withMav
  | .setLink isOpen => (a.mav.step (.setLink isOpen)).map fun mav =>
      { a.withMav mav with outstanding := if isOpen then a.outstanding else [] }
  | .post e => if e.isExternal then some { a with eventQueue := a.eventQueue ++ [e] } else none
  | .retryPendingSearch pos => some { a with smm := a.smm.enqueue (.retryPending pos) }

/-- The event loop makes the next call or takes the next event, and with a command started goes on
with its next section. -/
theorem stepLoop_cases {a b : App} {pos : Point} (hstep : a.stepLoop pos = some b) :
    (a.mav.loop = .idle ∧ ∃ call rest, a.calls = call :: rest ∧
      { a with calls := rest }.perform pos call = b) ∨
    (a.mav.loop = .idle ∧ a.calls = [] ∧ ∃ e rest, a.eventQueue = e :: rest ∧
      { a with
        machine := (a.machine.dispatch a.lowbatThreshold e).1
        calls := (a.machine.dispatch a.lowbatThreshold e).2
        eventQueue := rest } = b) ∨
    (a.mav.loop ≠ .idle ∧ ∃ mav, a.mav.stepLoop = some mav ∧ a.withSection mav = b) := by
  unfold stepLoop at hstep
  split at hstep
  · next hidle =>
    cases hcalls : a.calls with
    | cons call rest => exact .inl ⟨hidle, call, rest, rfl, by simpa [hcalls] using hstep⟩
    | nil =>
      cases hqueue : a.eventQueue with
      | nil => simp [hcalls, hqueue] at hstep
      | cons e rest =>
        exact .inr (.inl ⟨hidle, rfl, e, rest, rfl, by simpa [hcalls, hqueue] using hstep⟩)
  · next hbusy => exact .inr (.inr ⟨hbusy, Option.map_eq_some_iff.mp hstep⟩)

/-- A message is taken with no restart left to report. -/
theorem receive_eq_some {a b : App} {message : MavLabel} (hstep : a.receive message = some b) :
    a.restarting = false ∧ ∃ mav, a.mav.step message = some mav ∧ a.withMav mav = b := by
  unfold receive at hstep
  split_ifs at hstep with hrestarting
  exact ⟨Bool.eq_false_iff.mpr hrestarting, Option.map_eq_some_iff.mp hstep⟩

/-- An item reached past the setup items is reported with the recv thread at rest. -/
theorem next_missionItemReached_eq_some {a b : App} {seq : ℕ} :
    a.next (.missionItemReached seq) = some b ↔
      (a.restarting = false ∧ searchFirstPointSeq ≤ seq ∧ a.mav.recv = .idle) ∧
        { a with eventQueue := a.eventQueue ++
            [.reachedPoint (nextSearchPointAfterReachedSeq seq)
              { loaded := a.loadedSearch, mission := a.mission }] } = b := by
  cases hrecv : a.mav.recv <;> simp [next, hrecv, and_assoc]

/-- The application as it is constructed, over a connection as it is. -/
def init (terminateAction : TerminateAction) (lowbatThreshold : ℤ) (machine : FmuStateMachine)
    (positionReportIntervalMs : ℕ) (conn : MavConnection) : App :=
  { terminateAction := terminateAction
    lowbatThreshold := lowbatThreshold
    machine := machine
    smm := .init positionReportIntervalMs
    mav := { conn := conn } }

/-- A search client that connects and is granted the role acquires a search of one point. -/
def acquired : List AppLabel :=
  [.post (.smmSettings { assetName := "uav" }), .loop {}, .loop {}, .worker {},
    .worker { connection := true, loggedIn := true, assets := some ["uav"] },
    .post (.fssComms false), .loop {}, .loop {}, .loop {}, .worker {}, .worker {}, .worker {},
    .worker { fetched := true }, .worker {}, .worker { waypoints := some [{}] }, .worker {},
    .worker { accepted := true }]

/-- The event loop uploads it, and the autopilot accepts. -/
def uploaded : List AppLabel :=
  List.replicate 8 (AppLabel.loop {}) ++ AppLabel.missionAck true :: List.replicate 4 AppLabel.recv

end App

end CapFmu
