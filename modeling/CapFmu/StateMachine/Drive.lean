import CapFmu.StateMachine.Arbitration
import CapFmu.Transition.Run

/-!
# The state machine with what it drives

The calls an event makes land on the search client, which holds the searching role, and
on the autopilot interface, which stashes a goto position until the goto mode is set. The
last target handed over is the one a goto mode or an altitude call carried.
-/

namespace CapFmu

/-- A target as the autopilot interface receives it. -/
inductive HandedTarget
  | goto (position : Point)
  | altitude (alt : UInt32)
  deriving DecidableEq, Repr

/-- The state machine, the searching role and the autopilot interface's targets. -/
structure Fmu where
  machine : FmuStateMachine := {}
  searchActive : Bool := false
  gotoPosition : Point := {}
  handed : Option HandedTarget := none
  deriving DecidableEq, Repr

namespace Fmu

/-- The effect of one call. -/
def perform (f : Fmu) : Action → Fmu
  | .cancelSearch => { f with searchActive := false }
  | .search => { f with searchActive := true }
  | .gotoPosition position => { f with gotoPosition := position }
  | .setMode .goto => { f with handed := some (.goto f.gotoPosition) }
  | .setAltitude alt => { f with handed := some (.altitude alt) }
  | .setMode _ | .disarm | .terminate | .stateChange _ => f

/-- The system after one event. -/
def next (f : Fmu) (e : FmuEvent) : Fmu :=
  (f.machine.handle e).2.foldl perform { f with machine := (f.machine.handle e).1 }

/-- The event loop takes any event at any time. -/
def step (f : Fmu) (e : FmuEvent) : Option Fmu := some (f.next e)

/-- The system at start-up, for the given configuration. -/
def init (lowBatteryLatchCount : ℤ) (altitudeCapM : UInt16) (altitudeBreachLatchCount : ℤ) : Fmu :=
  { machine := .new lowBatteryLatchCount altitudeCapM altitudeBreachLatchCount }

/-- The target a command hands over when it is carried out. -/
def targetOf (state : FmuState) (target : FssCommandTarget) : Option HandedTarget :=
  match state with
  | .goto => some (.goto target.position)
  | .altitudeAdjust => some (.altitude target.altitude)
  | _ => none

/-- Carrying out a state hands over the retained target, or nothing, and settles the role. -/
theorem foldl_perform_actionState (f : Fmu) (m : FmuStateMachine) (state : FmuState) :
    (m.actionState state).foldl perform f =
      { f with
        searchActive := decide (state = .searching) ||
          (f.searchActive && decide (state = .waitingForTasking))
        gotoPosition := if state = .goto then m.fssCommandTarget.position else f.gotoPosition
        handed := (targetOf state m.fssCommandTarget).or f.handed } := by
  cases state <;>
    simp [FmuStateMachine.actionState, FmuStateMachine.driveState, perform, targetOf]

/-- Calls never touch the state machine. -/
theorem next_machine (f : Fmu) (e : FmuEvent) : (f.next e).machine = (f.machine.handle e).1 := by
  rcases f.machine.handle_cases e with ⟨hquiet, -⟩ | hdrive
  · simp [next, hquiet]
  · rw [next, hdrive, foldl_perform_actionState]

/-- An event leaves the role and the targets with the state, or carries out the state. -/
theorem next_cases (f : Fmu) (e : FmuEvent) :
    ((f.next e).machine.currentState = f.machine.currentState ∧
        (f.next e).searchActive = f.searchActive ∧ (f.next e).handed = f.handed) ∨
      ((f.next e).searchActive =
          (decide ((f.next e).machine.currentState = .searching) ||
            (f.searchActive && decide ((f.next e).machine.currentState = .waitingForTasking))) ∧
        (f.next e).handed = (targetOf (f.next e).machine.currentState
          (f.next e).machine.fssCommandTarget).or f.handed) := by
  rw [next_machine]
  rcases f.machine.handle_cases e with ⟨hquiet, hstate⟩ | hdrive
  · exact Or.inl ⟨hstate, by simp [next, hquiet], by simp [next, hquiet]⟩
  · right
    rw [next, hdrive, foldl_perform_actionState]
    exact ⟨rfl, rfl⟩

end Fmu

end CapFmu
