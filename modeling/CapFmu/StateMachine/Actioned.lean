import CapFmu.StateMachine.SearchRole

/-!
# What is carried out, and when

Carrying out a state ends by reporting it, so the reports of an event are the states it has
carried out, in order. An event carries out the state it ends in when it changes the state,
when it is the recovery of the autopilot link, or when it asks for the state again, and in
no other case. The last state carried out is therefore always the current one, and the
searching role, which only carrying out a state that wants it leaves granted, is granted in
no other state.

Carrying out a state returns whether its command was transmitted. No caller looks at it, so
the log below keeps the returned value of each call and nothing depends on it.
-/

namespace CapFmu

open Transition

/-- The state whose carrying out ends with this call. -/
def Action.actionedState? : Action → Option FmuState
  | stateChange state => some state
  | _ => none

/-- The states carried out by a list of calls, in order. -/
def actionedStates (calls : List Action) : List FmuState := calls.filterMap Action.actionedState?

/-- What carrying out a state returns: the search client's part is not a tracked
transmission and counts as sent. -/
def actionSent (state : FmuState) (transmitted : Bool) : Bool :=
  if state = .searching then true else transmitted

/-- The event is to have a state carried out: it changes the state, or the autopilot link
comes back, or the state is to be applied again. -/
def FmuStateMachine.Redrives (m : FmuStateMachine) (e : FmuEvent) : Prop :=
  (m.handle e).1.currentState ≠ m.currentState ∨
    (e = .setMavCommsFailure false ∧ m.mavCommsLost = true) ∨ e = .reassertState

instance (m : FmuStateMachine) : DecidablePred m.Redrives := fun _ =>
  inferInstanceAs (Decidable (_ ∨ _ ∨ _))

/-- The state machine with what it drives, and the log of the states carried out, each with
what carrying it out returned. -/
structure ActionedFmu where
  fmu : Fmu
  actioned : List (FmuState × Bool) := []
  deriving DecidableEq, Repr

namespace ActionedFmu

/-- The system after one event, whose command is transmitted or not. -/
def next (a : ActionedFmu) (e : FmuEvent × Bool) : ActionedFmu :=
  { fmu := a.fmu.next e.1
    actioned := a.actioned ++
      (actionedStates (a.fmu.machine.handle e.1).2).map fun state =>
        (state, actionSent state e.2) }

/-- The event loop takes any event at any time. -/
def step (a : ActionedFmu) (e : FmuEvent × Bool) : Option ActionedFmu := some (a.next e)

/-- The system at start-up, for the given configuration. -/
def init (lowBatteryLatchCount : ℤ) (altitudeCapM : UInt16) (altitudeBreachLatchCount : ℤ) :
    ActionedFmu :=
  { fmu := .init lowBatteryLatchCount altitudeCapM altitudeBreachLatchCount }

/-- The states carried out so far, in order. -/
def states (a : ActionedFmu) : List FmuState := a.actioned.map Prod.fst

/-- The last state carried out, or the initial one before any was, is the current one, and
the searching role is granted only in a state that wants it. -/
structure Tracks (a : ActionedFmu) : Prop where
  last_eq : a.states.getLastD .manual = a.fmu.machine.currentState
  role : a.fmu.searchActive = true → wantsSearch a.fmu.machine.currentState

/-- The event has the state it ends in carried out once, if it is to have one carried out,
and otherwise has none carried out. -/
def ActionsOnce (a : ActionedFmu) (e : FmuEvent × Bool) : Prop :=
  ∀ t, step a e = some t →
    t.states = a.states ++
      if a.fmu.machine.Redrives e.1 then [t.fmu.machine.currentState] else []

end ActionedFmu

/-- Carrying out a state carries out that state once. -/
@[simp] theorem actionedStates_actionState (m : FmuStateMachine) (state : FmuState) :
    actionedStates (m.actionState state) = [state] := by
  cases state <;> rfl

/-- An event that is to have a state carried out calls exactly what carries out the state it
ends in, and another event calls nothing. -/
theorem FmuStateMachine.handle_snd (m : FmuStateMachine) (e : FmuEvent) :
    (m.handle e).2 =
      if m.Redrives e then (m.handle e).1.actionState (m.handle e).1.currentState else [] := by
  by_cases hmav : ∃ failed, e = .setMavCommsFailure failed
  · obtain ⟨failed, rfl⟩ := hmav
    rw [handle_snd_setMavCommsFailure]
    apply if_congr _ rfl rfl
    cases failed <;> simp [Redrives]
  · by_cases hreassert : e = .reassertState
    · subst hreassert
      exact (if_pos (Or.inr (Or.inr rfl))).symm
    · rw [handle_snd_of_ordinary (fun failed he => hmav ⟨failed, he⟩) hreassert]
      apply if_congr _ rfl rfl
      have hedge : ¬ (e = .setMavCommsFailure false ∧ m.mavCommsLost = true) :=
        fun h => hmav ⟨false, h.1⟩
      simp [Redrives, hedge, hreassert]

/-- The searching role is granted after an event only in a state that wants it, if it was so
before. -/
theorem wantsSearch_next {f : Fmu} {e : FmuEvent}
    (hrole : f.searchActive = true → wantsSearch f.machine.currentState)
    (hactive : (f.next e).searchActive = true) : wantsSearch (f.next e).machine.currentState := by
  rcases f.next_cases e with ⟨hsame, hkept, -⟩ | ⟨hdriven, -⟩
  · rw [hsame]
    exact hrole (hkept ▸ hactive)
  · rw [hdriven] at hactive
    simp only [Bool.or_eq_true, Bool.and_eq_true, decide_eq_true_eq] at hactive
    exact hactive.imp_right And.right

namespace ActionedFmu

/-- The states carried out after an event. -/
theorem states_next (a : ActionedFmu) (e : FmuEvent × Bool) :
    (a.next e).states = a.states ++
      if a.fmu.machine.Redrives e.1 then [(a.next e).fmu.machine.currentState] else [] := by
  have hstates : (a.next e).states =
      a.states ++ actionedStates (a.fmu.machine.handle e.1).2 := by
    simp [states, next, Function.comp_def]
  have hmachine : (a.next e).fmu.machine = (a.fmu.machine.handle e.1).1 :=
    Fmu.next_machine a.fmu e.1
  rw [hstates, hmachine, FmuStateMachine.handle_snd]
  split_ifs with hredrives
  · rw [actionedStates_actionState]
  · rfl

/-- An event keeps what was carried out in step with the state. -/
theorem tracks_next {a : ActionedFmu} (h : a.Tracks) (e : FmuEvent × Bool) :
    (a.next e).Tracks := by
  constructor
  · rw [states_next]
    split_ifs with hredrives
    · exact List.getLastD_concat
    · have hkept : (a.next e).fmu.machine.currentState = a.fmu.machine.currentState := by
        have hsame := not_not.mp fun hne => hredrives (Or.inl hne)
        exact (congrArg FmuStateMachine.currentState (Fmu.next_machine a.fmu e.1)).trans hsame
      rw [List.append_nil, h.last_eq, hkept]
  · exact wantsSearch_next h.role

/-- In every run the state last carried out is the current one, the searching role is granted
only in a state that wants it, and each event has the state it ends in carried out once if
it changes the state, brings the autopilot link back or asks for the state again, and none
otherwise, whatever the earlier and the present transmissions come to. -/
theorem actioned_tracks_state (lowBatteryLatchCount : ℤ) (altitudeCapM : UInt16)
    (altitudeBreachLatchCount : ℤ) (events : List (FmuEvent × Bool)) :
    (∀ es a, es <+: events →
        run step (init lowBatteryLatchCount altitudeCapM altitudeBreachLatchCount) es = some a →
          a.Tracks) ∧
      Along step ActionsOnce
        (init lowBatteryLatchCount altitudeCapM altitudeBreachLatchCount) events := by
  constructor
  · intro es a _ hrun
    apply invariant_of_run Tracks _ _ hrun
    · intro a e t h hstep
      obtain rfl := Option.some.inj hstep
      exact tracks_next h e
    · exact ⟨rfl, fun hactive => absurd hactive Bool.false_ne_true⟩
  · apply along_of_forall
    intro a e t hstep
    obtain rfl := Option.some.inj hstep
    exact states_next a e

/-- A link that is lost and comes back while the battery latch holds the state has the return
carried out again, though the first one was not transmitted; the redundant report after it
does nothing. -/
example :
    (run step (init 1 122 5)
      [(.setCommsFailure false, true), (.setMavCommsFailure true, true),
        (.setLowBattery true, false), (.setMavCommsFailure false, true),
        (.setMavCommsFailure false, true)]).map actioned =
      some [(.searching, true), (.failsafe, true), (.lowBattery, false), (.lowBattery, true)] := by
  decide

end ActionedFmu

end CapFmu
