import CapFmu.StateMachine.History

/-!
# How a ground-station command resolves

A command is to be reported as superseded when a latch with priority over it determines the
state, and as actioned when the command does. The code infers this from the state it ends
in: it reports superseded when that is not the state the command maps to. The two agree as
long as a latch's state is not the commanded one. Three of the latches have a state of their
own, which no lower command maps to, but a sustained breach flies the state of a commanded
return to launch.
-/

namespace CapFmu

namespace FmuStateMachine

/-- The state of the latch that has priority over a command and is in control. -/
def controllingLatch (m : FmuStateMachine) (cmd : FssCommand) : Option FmuState :=
  if m.terminated then if cmd = .cmdTerminate then none else some .terminate
  else if m.lowBattery then some .lowBattery
  else if m.fssCommsLost || m.mavCommsLost then some .failsafe
  else if m.altitudeBreach then some .rtl
  else none

/-- The resolution names the latch in control after the command is applied, and without one
the command is actioned and the machine is in the state it maps to. -/
def ReportsControl (m : FmuStateMachine) (cmd : FssCommand) (target : FssCommandTarget) : Prop :=
  let applied := (m.fssNewCommand cmd target).1.1
  let resolution := (m.fssNewCommand cmd target).2
  match applied.controllingLatch cmd with
  | some state => resolution.outcome = .superseded ∧ resolution.supersedingState = some state
  | none => resolution.outcome = .actioned ∧ applied.currentState = applied.commandedState

/-- A sustained breach is in control. -/
def breachInControl (m : FmuStateMachine) : Prop :=
  m.terminated = false ∧ m.lowBattery = false ∧ m.fssCommsLost = false ∧
    m.mavCommsLost = false ∧ m.altitudeBreach = true

variable {m : FmuStateMachine} {cmd : FssCommand}

/-- The priority order selects the latch in control, or else the commanded state. -/
theorem selectState_eq_getD (hcmd : m.fssCommand = cmd) :
    m.selectState = (m.controllingLatch cmd).getD m.commandedState := by
  unfold selectState controllingLatch
  rw [← Bool.not_or]
  cases hlost : m.fssCommsLost || m.mavCommsLost with
  | true => split_ifs <;> simp_all [commandedState, mapFssState]
  | false => split_ifs <;> simp_all [commandedState, mapFssState]

/-- A command leaves the machine in the selected state, and is resolved against the state the
retained commands map to. -/
theorem fssNewCommand_resolves (m : FmuStateMachine) (cmd : FssCommand)
    (target : FssCommandTarget) :
    (m.fssNewCommand cmd target).1.1.currentState =
        (m.fssNewCommand cmd target).1.1.selectState ∧
      (m.fssNewCommand cmd target).2 =
        (m.fssNewCommand cmd target).1.1.resolveFssCommand
          (m.fssNewCommand cmd target).1.1.commandedState
          (m.retainFssCommand cmd target).updateState.2 := by
  have hfst := (m.retainFssCommand cmd target).updateAndAction_fst
  simp only [fssNewCommand, hfst, updateState_fst]
  exact ⟨rfl, rfl⟩

/-- A latch's state is the commanded one only when a breach is in control of a return to
launch. -/
theorem controllingLatch_eq_commandedState {state : FmuState} (hcmd : m.fssCommand = cmd)
    (hlatch : m.controllingLatch cmd = some state) :
    state = m.commandedState ↔ cmd = .cmdRtl ∧ m.breachInControl := by
  have hcommanded : (m.commandedState = .terminate → cmd = .cmdTerminate) ∧
      m.commandedState ≠ .lowBattery ∧ m.commandedState ≠ .failsafe ∧
      (m.commandedState = .rtl ↔ cmd = .cmdRtl) := by
    rw [← hcmd]
    unfold commandedState
    cases m.fssCommand <;> cases m.smmCommand <;> decide
  unfold controllingLatch at hlatch
  unfold breachInControl
  split_ifs at hlatch with hterminated hterminate hbattery hlost hbreach <;>
    obtain rfl := Option.some.inj hlatch
  · simp only [hterminated, Bool.true_eq_false, false_and, and_false, iff_false]
    exact fun h => hterminate (hcommanded.1 h.symm)
  · simp only [hbattery, Bool.true_eq_false, false_and, and_false, iff_false]
    exact fun h => hcommanded.2.1 h.symm
  · have hup : ¬ (m.fssCommsLost = false ∧ m.mavCommsLost = false) := by
      simpa [Bool.or_eq_true, imp_iff_not_or] using hlost
    exact ⟨fun h => absurd h.symm hcommanded.2.2.1, fun h => absurd ⟨h.2.2.2.1, h.2.2.2.2.1⟩ hup⟩
  · rw [eq_comm, hcommanded.2.2.2]
    simp_all

/-- The update of a command engages no latch but termination, by that command. -/
theorem breachInControl_fssNewCommand (hne : cmd ≠ .cmdTerminate) (target : FssCommandTarget) :
    (m.fssNewCommand cmd target).1.1.breachInControl ↔ m.breachInControl := by
  have hfst := (m.retainFssCommand cmd target).updateAndAction_fst
  have hengage := (m.retainFssCommand cmd target).engageTermination_of_ne hne
  simp only [fssNewCommand, hfst, updateState_fst, hengage]
  rfl

/-- In every state a command is reported as it is controlled exactly when it is not a return
to launch given while a sustained breach is in control. -/
theorem reportsControl_iff (m : FmuStateMachine) (cmd : FssCommand) (target : FssCommandTarget) :
    m.ReportsControl cmd target ↔ ¬ (cmd = .cmdRtl ∧ m.breachInControl) := by
  obtain ⟨hstate, hresolution⟩ := m.fssNewCommand_resolves cmd target
  have hcmd := (m.handle_fssNewCommand_retains cmd target).1
  have hselect := selectState_eq_getD hcmd
  change (m.fssNewCommand cmd target).1.1.fssCommand = cmd at hcmd
  change (m.fssNewCommand cmd target).1.1.selectState =
    ((m.fssNewCommand cmd target).1.1.controllingLatch cmd).getD
      (m.fssNewCommand cmd target).1.1.commandedState at hselect
  unfold ReportsControl
  rw [hresolution]
  generalize happlied : (m.fssNewCommand cmd target).1.1 = applied at *
  simp only [resolveFssCommand, hstate]
  cases hlatch : applied.controllingLatch cmd with
  | none =>
    have hcommanded : applied.selectState = applied.commandedState := by
      rw [hselect, hlatch, Option.getD_none]
    have hnot : ¬ (cmd = .cmdRtl ∧ m.breachInControl) := by
      rintro ⟨rfl, hbreach⟩
      have hne : FssCommand.cmdRtl ≠ .cmdTerminate := by decide
      rw [← breachInControl_fssNewCommand hne target, happlied] at hbreach
      simp [controllingLatch, hbreach.1, hbreach.2.1, hbreach.2.2.1, hbreach.2.2.2.1,
        hbreach.2.2.2.2] at hlatch
    simp [hcommanded, hnot]
  | some state =>
    have hselected : applied.selectState = state := by
      rw [hselect, hlatch, Option.getD_some]
    have hbreach : cmd = .cmdRtl ∧ m.breachInControl ↔ cmd = .cmdRtl ∧ applied.breachInControl := by
      refine and_congr_right fun hrtl => ?_
      rw [← happlied, breachInControl_fssNewCommand (by rw [hrtl]; decide) target]
    rw [hbreach, ← controllingLatch_eq_commandedState hcmd hlatch, hselected]
    split_ifs with hsame <;> simp [hsame]

/-- The ground station comes up, and five readings are over the ceiling. -/
def sustainedBreach : List FmuEvent :=
  .setCommsFailure false :: List.replicate 5 (.setCurrentAltitude true (.finite 200))

/-- A return to launch given while the breach is in control is reported as actioned. -/
theorem sustainedBreach_rtl_actioned :
    ((new 4 122 5).after sustainedBreach).breachInControl ∧
      (((new 4 122 5).after sustainedBreach).fssNewCommand .cmdRtl {}).2.outcome = .actioned ∧
      ¬ ((new 4 122 5).after sustainedBreach).ReportsControl .cmdRtl {} := by
  have houtcome : (((new 4 122 5).after sustainedBreach).fssNewCommand .cmdRtl {}).2.outcome =
      .actioned := rfl
  refine ⟨⟨rfl, rfl, rfl, rfl, by decide⟩, houtcome, fun h => ?_⟩
  have hsuperseded : _ = FssCommandOutcome.superseded := h.1
  rw [houtcome] at hsuperseded
  cases hsuperseded

end FmuStateMachine

end CapFmu
