import CapFmu.Core.Types

/-!
# The flight state machine

The arbitration between ground-station commands, search-server commands and the four
latches, as `FMUStateMachine` computes it. Every event handler runs on the event-loop
thread, so an event is one step: it updates the fields and returns, in order, the calls
made on the autopilot interface, the search client and the state-change callback.
-/

namespace CapFmu

open Numeric (Double)

/-- Default number of consecutive low readings that engage the low-battery latch. -/
def defaultLowBatteryLatchCount : ℤ := 4

/-- Default number of consecutive readings that engage or clear the altitude latch. -/
def defaultAltitudeBreachLatchCount : ℤ := 5

/-- Default regulatory ceiling in metres above ground. -/
def defaultAltitudeCapM : UInt16 := 122

/-- The fields of the state machine, with the values its constructor gives them. -/
structure FmuStateMachine where
  lowBatteryLatchCount : ℤ := defaultLowBatteryLatchCount
  altitudeCapM : UInt16 := defaultAltitudeCapM
  altitudeBreachLatchCount : ℤ := defaultAltitudeBreachLatchCount
  currentState : FmuState := .manual
  fssCommand : FssCommand := .cmdUnknown
  fssCommandTarget : FssCommandTarget := {}
  smmCommand : SmmCommand := .cmdNone
  lowBatteryCount : ℤ := 0
  lowBattery : Bool := false
  altitudeBreachCount : ℤ := 0
  altitudeClearCount : ℤ := 0
  altitudeBreach : Bool := false
  terminated : Bool := false
  fssCommsLost : Bool := true
  mavCommsLost : Bool := false
  deriving DecidableEq, Repr

/-- A call made while carrying out a state. A search starts from the autopilot's position. -/
inductive Action
  | cancelSearch
  | search
  | setMode (fm : FlightMode)
  | gotoPosition (position : Point)
  | setAltitude (alt : UInt32)
  | disarm
  | terminate
  | stateChange (state : FmuState)
  deriving DecidableEq, Repr

/-- The events the event loop applies to the state machine. -/
inductive FmuEvent
  | fssNewCommand (cmd : FssCommand) (target : FssCommandTarget)
  | smmNewCommand (cmd : SmmCommand)
  | setLowBattery (low : Bool)
  | setCurrentAltitude (fixValid : Bool) (altitudeAglM : Double)
  | setCommsFailure (failed : Bool)
  | setMavCommsFailure (failed : Bool)
  | reassertState
  deriving DecidableEq, Repr

/-- The state a search-server command maps to. -/
def mapSmmState : SmmCommand → FmuState
  | .cmdAbandonSearch | .cmdNone => .searching
  | .cmdMissionComplete => .waitingForTasking

/-- The state a ground-station command maps to; no command yet means search. -/
def mapFssState : FssCommand → FmuState
  | .cmdRtl => .rtl
  | .cmdGoto => .goto
  | .cmdHold => .hold
  | .cmdAltitude => .altitudeAdjust
  | .cmdDisarm => .disarmed
  | .cmdManual => .manual
  | .cmdTerminate => .terminate
  | .cmdContinue | .cmdUnknown => .searching

/-- Whether a finite altitude above ground exceeds the ceiling; at the ceiling is allowed. -/
def overAltitudeCap (altitudeAglM : ℚ) (altitudeCapM : UInt16) : Bool :=
  decide ((altitudeCapM.toNat : ℚ) < altitudeAglM)

namespace FmuStateMachine

/-- The state the retained commands alone map to, ignoring the latches. -/
def commandedState (m : FmuStateMachine) : FmuState :=
  if mapFssState m.fssCommand = .searching then mapSmmState m.smmCommand
  else mapFssState m.fssCommand

/-- Latch a termination; nothing ever releases it. -/
def engageTermination (m : FmuStateMachine) : FmuStateMachine :=
  { m with terminated := m.terminated || decide (m.fssCommand = .cmdTerminate) }

/-- The state the priority order selects. -/
def selectState (m : FmuStateMachine) : FmuState :=
  if m.terminated then .terminate
  else if m.lowBattery then .lowBattery
  else if !m.fssCommsLost && !m.mavCommsLost then
    if m.altitudeBreach then .rtl else m.commandedState
  else .failsafe

/-- Select a state and report it when it is a new one. -/
def updateState (m : FmuStateMachine) : FmuStateMachine × Option FmuState :=
  let latched := m.engageTermination
  if latched.selectState ≠ latched.currentState then
    ({ latched with currentState := latched.selectState }, some latched.selectState)
  else (latched, none)

/-- Classify how the most recent ground-station command resolved. -/
def resolveFssCommand (m : FmuStateMachine) (desired : FmuState) (changed : Option FmuState) :
    FssCommandResolution :=
  if m.currentState = desired then
    { outcome := .actioned, transitioned := changed.isSome }
  else
    { outcome := .superseded, supersedingState := some m.currentState,
      transitioned := changed.isSome }

/-- The call that carries a state to the autopilot or the search client. -/
def driveState (m : FmuStateMachine) : FmuState → List Action
  | .manual => [.setMode .manual]
  | .searching => [.search]
  | .rtl | .failsafe | .lowBattery | .waitingForTasking => [.setMode .rtl]
  | .goto => [.gotoPosition m.fssCommandTarget.position, .setMode .goto]
  | .hold => [.setMode .hold]
  | .altitudeAdjust => [.setAltitude m.fssCommandTarget.altitude]
  | .disarmed => [.disarm]
  | .terminate => [.terminate]

/-- The side effects of entering a state: every state but the two that are waiting for
search work revokes the searching role first. -/
def actionState (m : FmuStateMachine) (state : FmuState) : List Action :=
  (if state ≠ .searching ∧ state ≠ .waitingForTasking then [.cancelSearch] else []) ++
    m.driveState state ++ [.stateChange state]

/-- Update the state and carry out a change. -/
def updateAndAction (m : FmuStateMachine) : FmuStateMachine × List Action :=
  match m.updateState with
  | (next, some state) => (next, next.actionState state)
  | (next, none) => (next, [])

/-- Retain a command with its target. -/
def retainFssCommand (m : FmuStateMachine) (cmd : FssCommand) (target : FssCommandTarget) :
    FmuStateMachine :=
  { m with fssCommand := cmd, fssCommandTarget := target }

/-- Apply a ground-station command and report how it resolved. -/
def fssNewCommand (m : FmuStateMachine) (cmd : FssCommand) (target : FssCommandTarget) :
    (FmuStateMachine × List Action) × FssCommandResolution :=
  let retained := m.retainFssCommand cmd target
  let changed := retained.updateState
  (retained.updateAndAction, changed.1.resolveFssCommand retained.commandedState changed.2)

/-- Apply a search-server command. -/
def smmNewCommand (m : FmuStateMachine) (cmd : SmmCommand) : FmuStateMachine × List Action :=
  updateAndAction { m with smmCommand := cmd }

/-- One more low reading, saturating at the latch count. -/
def countLow (m : FmuStateMachine) : FmuStateMachine :=
  if m.lowBatteryCount < m.lowBatteryLatchCount then
    { m with lowBatteryCount := m.lowBatteryCount + 1 }
  else m

/-- Apply a battery reading; a healthy one ends the run but never clears the latch. -/
def setLowBattery (m : FmuStateMachine) (low : Bool) : FmuStateMachine × List Action :=
  if low then
    if m.countLow.lowBatteryLatchCount ≤ m.countLow.lowBatteryCount ∧
        m.countLow.lowBattery = false then
      updateAndAction { m.countLow with lowBattery := true }
    else (m.countLow, [])
  else ({ m with lowBatteryCount := 0 }, [])

/-- One more reading over the ceiling; the clearing run starts again. -/
def countBreach (m : FmuStateMachine) : FmuStateMachine :=
  { m with
    altitudeBreachCount :=
      if m.altitudeBreachCount < m.altitudeBreachLatchCount then m.altitudeBreachCount + 1
      else m.altitudeBreachCount
    altitudeClearCount := 0 }

/-- One more reading under the ceiling; the breach run starts again. -/
def countClear (m : FmuStateMachine) : FmuStateMachine :=
  { m with
    altitudeClearCount :=
      if m.altitudeClearCount < m.altitudeBreachLatchCount then m.altitudeClearCount + 1
      else m.altitudeClearCount
    altitudeBreachCount := 0 }

/-- Apply an altitude reading; without a fix, or not finite, it changes nothing. -/
def setCurrentAltitude (m : FmuStateMachine) (fixValid : Bool) :
    Double → FmuStateMachine × List Action
  | .nonFinite => (m, [])
  | .finite altitudeAglM =>
    if fixValid then
      if overAltitudeCap altitudeAglM m.altitudeCapM then
        if m.countBreach.altitudeBreachLatchCount ≤ m.countBreach.altitudeBreachCount ∧
            m.countBreach.altitudeBreach = false then
          updateAndAction { m.countBreach with altitudeBreach := true }
        else (m.countBreach, [])
      else
        if m.countClear.altitudeBreachLatchCount ≤ m.countClear.altitudeClearCount ∧
            m.countClear.altitudeBreach = true then
          updateAndAction { m.countClear with altitudeBreach := false }
        else (m.countClear, [])
    else (m, [])

/-- Apply a report on the ground-station link. -/
def setCommsFailure (m : FmuStateMachine) (failed : Bool) : FmuStateMachine × List Action :=
  updateAndAction { m with fssCommsLost := failed }

/-- Apply a report on the autopilot link; a recovery without a change re-commands the state. -/
def setMavCommsFailure (m : FmuStateMachine) (failed : Bool) : FmuStateMachine × List Action :=
  match updateState { m with mavCommsLost := failed } with
  | (next, some state) => (next, next.actionState state)
  | (next, none) =>
    if m.mavCommsLost && !failed then (next, next.actionState next.currentState) else (next, [])

/-- Re-apply the current state after an autopilot restart. -/
def reassertState (m : FmuStateMachine) : FmuStateMachine × List Action :=
  (m, m.actionState m.currentState)

/-- The event loop's step. -/
def handle (m : FmuStateMachine) : FmuEvent → FmuStateMachine × List Action
  | .fssNewCommand cmd target => (m.fssNewCommand cmd target).1
  | .smmNewCommand cmd => m.smmNewCommand cmd
  | .setLowBattery low => m.setLowBattery low
  | .setCurrentAltitude fixValid altitudeAglM => m.setCurrentAltitude fixValid altitudeAglM
  | .setCommsFailure failed => m.setCommsFailure failed
  | .setMavCommsFailure failed => m.setMavCommsFailure failed
  | .reassertState => m.reassertState

/-- A state machine as the constructor leaves it, for the given configuration. -/
def new (lowBatteryLatchCount : ℤ) (altitudeCapM : UInt16) (altitudeBreachLatchCount : ℤ) :
    FmuStateMachine :=
  { lowBatteryLatchCount := lowBatteryLatchCount, altitudeCapM := altitudeCapM,
    altitudeBreachLatchCount := altitudeBreachLatchCount }

end FmuStateMachine

end CapFmu
