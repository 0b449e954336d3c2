import CapFmu.StateMachine.Drive

/-!
# The searching role while waiting for tasking

Searching grants the role, every state but waiting for tasking revokes it, and waiting
for tasking leaves it as it finds it. The role is therefore granted in both states
throughout a run exactly when waiting for tasking is never entered from a third state. The
mission-complete command is retained across a hold or a failsafe, so an event that gives
control back to it enters waiting for tasking from there with the role revoked.
-/

namespace CapFmu

open Numeric (Double)
open Transition

/-- The two states in which the search client is to look for work. -/
def wantsSearch (state : FmuState) : Prop := state = .searching ∨ state = .waitingForTasking

instance : DecidablePred wantsSearch := fun _ => inferInstanceAs (Decidable (_ ∨ _))

/-- The searching role is granted whenever the search client is to look for work. -/
def RoleAlive (f : Fmu) : Prop := wantsSearch f.machine.currentState → f.searchActive = true

/-- A retained mission-complete command is in control: the ground station defers to the
search server and no latch is engaged. -/
def FmuStateMachine.awaitsTasking (m : FmuStateMachine) : Prop :=
  mapFssState m.fssCommand = .searching ∧ m.smmCommand = .cmdMissionComplete ∧ m.latched = false

/-- The event puts a mission-complete command in control. -/
def FmuStateMachine.resumesTasking (m : FmuStateMachine) (e : FmuEvent) : Prop :=
  ∃ u, m.evaluated e = some u ∧ u.awaitsTasking

/-- Waiting for tasking is only entered from the states that keep the role. -/
def EntersWithRole (f : Fmu) (e : FmuEvent) : Prop :=
  f.machine.resumesTasking e → wantsSearch f.machine.currentState

/-- The role is granted in exactly the two states that want it. -/
def RoleFollowsState (f : Fmu) : Prop :=
  f.searchActive = true ↔ wantsSearch f.machine.currentState

/-- The retained commands map to waiting for tasking exactly under a deferred
mission-complete command. -/
theorem commandedState_eq_waitingForTasking {m : FmuStateMachine} :
    m.commandedState = .waitingForTasking ↔
      mapFssState m.fssCommand = .searching ∧ m.smmCommand = .cmdMissionComplete := by
  unfold FmuStateMachine.commandedState
  cases m.fssCommand <;> cases m.smmCommand <;> simp [mapFssState, mapSmmState]

/-- An update selects waiting for tasking exactly when a mission-complete command is in
control. -/
theorem selectState_eq_waitingForTasking {m : FmuStateMachine} :
    m.engageTermination.selectState = .waitingForTasking ↔ m.awaitsTasking := by
  constructor
  · intro h
    have hunlatched := FmuStateMachine.unlatched_of_selectState _ h (by simp)
    rw [FmuStateMachine.selectState_of_unlatched _ hunlatched] at h
    obtain ⟨hfss, hsmm⟩ := commandedState_eq_waitingForTasking.mp h
    refine ⟨hfss, hsmm, ?_⟩
    simp only [FmuStateMachine.latched, FmuStateMachine.engageTermination,
      Bool.or_eq_false_iff] at hunlatched ⊢
    tauto
  · rintro ⟨hfss, hsmm, hunlatched⟩
    have hne : m.fssCommand ≠ .cmdTerminate := by
      intro h
      simp [h, mapFssState] at hfss
    rw [FmuStateMachine.engageTermination_of_ne _ hne,
      FmuStateMachine.selectState_of_unlatched _ hunlatched]
    exact commandedState_eq_waitingForTasking.mpr ⟨hfss, hsmm⟩

/-- An event that puts a mission-complete command in control ends waiting for tasking. -/
theorem handle_currentState_of_resumesTasking {m : FmuStateMachine} {e : FmuEvent}
    (h : m.resumesTasking e) : (m.handle e).1.currentState = .waitingForTasking := by
  obtain ⟨u, hu, hawaits⟩ := h
  rw [FmuStateMachine.handle_fst_of_evaluated hu, FmuStateMachine.updateState_fst]
  exact selectState_eq_waitingForTasking.mpr hawaits

/-- Only such an event enters waiting for tasking. -/
theorem resumesTasking_of_handle {m : FmuStateMachine} {e : FmuEvent}
    (h : (m.handle e).1.currentState = .waitingForTasking)
    (hne : m.currentState ≠ .waitingForTasking) : m.resumesTasking e := by
  cases hu : m.evaluated e with
  | none =>
    obtain ⟨low, breach, clear, hcounters⟩ := FmuStateMachine.handle_fst_of_not_evaluated hu
    rw [hcounters] at h
    exact absurd h hne
  | some u =>
    rw [FmuStateMachine.handle_fst_of_evaluated hu, FmuStateMachine.updateState_fst] at h
    exact ⟨u, hu, selectState_eq_waitingForTasking.mp h⟩

/-- Where the role follows the state, an event keeps the role alive exactly when it does not
enter waiting for tasking from a third state. -/
theorem roleAlive_next_iff {f : Fmu} {e : FmuEvent} (hinv : RoleFollowsState f) :
    RoleAlive (f.next e) ↔ EntersWithRole f e := by
  constructor
  · intro halive hresumes
    have hstate : (f.next e).machine.currentState = .waitingForTasking := by
      rw [Fmu.next_machine]
      exact handle_currentState_of_resumesTasking hresumes
    have hactive := halive (Or.inr hstate)
    rcases f.next_cases e with ⟨hsame, hrole, -⟩ | ⟨hrole, -⟩
    · exact hsame ▸ Or.inr hstate
    · rw [hrole, hstate] at hactive
      exact hinv.mp (by simpa using hactive)
  · intro henters hwants
    rcases f.next_cases e with ⟨hsame, hrole, -⟩ | ⟨hrole, -⟩
    · rw [hrole]
      exact hinv.mpr (hsame ▸ hwants)
    · rcases hwants with hsearching | hwaiting
      · simp [hrole, hsearching]
      · have hbefore : wantsSearch f.machine.currentState := by
          by_cases hne : f.machine.currentState = .waitingForTasking
          · exact Or.inr hne
          · rw [Fmu.next_machine] at hwaiting
            exact henters (resumesTasking_of_handle hwaiting hne)
        simp [hrole, hwaiting, hinv.mpr hbefore]

/-- An event that keeps the role alive keeps the role following the state. -/
theorem roleFollowsState_next {f : Fmu} {e : FmuEvent} (hinv : RoleFollowsState f)
    (henters : EntersWithRole f e) : RoleFollowsState (f.next e) := by
  refine ⟨fun hactive => ?_, (roleAlive_next_iff hinv).mpr henters⟩
  rcases f.next_cases e with ⟨hsame, hrole, -⟩ | ⟨hrole, -⟩
  · rw [hsame]
    exact hinv.mp (hrole ▸ hactive)
  · rw [hrole] at hactive
    simp only [Bool.or_eq_true, Bool.and_eq_true, decide_eq_true_eq] at hactive
    exact hactive.imp_right And.right

/-- In every run the searching role is granted in every searching or waiting state reached
exactly when no event puts a mission-complete command in control from a third state. -/
theorem roleAlive_throughout_iff (lowBatteryLatchCount : ℤ) (altitudeCapM : UInt16)
    (altitudeBreachLatchCount : ℤ) (events : List FmuEvent) :
    (∀ es f, es <+: events →
        run Fmu.step (Fmu.init lowBatteryLatchCount altitudeCapM altitudeBreachLatchCount) es
          = some f → RoleAlive f) ↔
      Along Fmu.step EntersWithRole
        (Fmu.init lowBatteryLatchCount altitudeCapM altitudeBreachLatchCount) events := by
  have hinit : RoleFollowsState
      (Fmu.init lowBatteryLatchCount altitudeCapM altitudeBreachLatchCount) := by
    simp [RoleFollowsState, Fmu.init, FmuStateMachine.new, wantsSearch]
  refine forall_prefix_iff_of_invariant RoleFollowsState ?_ ?_ hinit hinit.mpr events
  · intro f e hinv
    simpa [Fmu.step] using roleAlive_next_iff hinv
  · intro f e t hinv henters hstep
    obtain rfl := Option.some.inj hstep
    exact roleFollowsState_next hinv henters

/-- A hold given while waiting for tasking, then released by a continue. -/
def holdThenContinue : List FmuEvent :=
  [.setCommsFailure false, .smmNewCommand .cmdMissionComplete, .fssNewCommand .cmdHold {},
    .fssNewCommand .cmdContinue {}]

/-- After a hold and a continue the machine waits for tasking without the searching role. -/
theorem holdThenContinue_role_revoked :
    ∃ f, run Fmu.step (Fmu.init 4 122 5) holdThenContinue = some f ∧
      f.machine.currentState = .waitingForTasking ∧ f.searchActive = false ∧ ¬ RoleAlive f :=
  ⟨_, rfl, by decide, by decide, fun h => absurd (h (by decide)) (by decide)⟩

end CapFmu
