import CapFmu.StateMachine.Model

/-!
# What one event can do

Each handler either leaves the current state alone and calls nothing, or carries out the
state it ends in. The state it ends in is the one the priority order selects from the
updated fields, so a state that only the retained commands can select is entered exactly
when no latch is engaged.
-/

namespace CapFmu

open Numeric (Double)

namespace FmuStateMachine

/-- Whether some latch is in control. -/
def latched (m : FmuStateMachine) : Bool :=
  m.terminated || m.lowBattery || m.fssCommsLost || m.mavCommsLost || m.altitudeBreach

/-- The fields on which an event has the priority order evaluated, when it does. -/
def evaluated (m : FmuStateMachine) : FmuEvent → Option FmuStateMachine
  | .fssNewCommand cmd target => some (m.retainFssCommand cmd target)
  | .smmNewCommand cmd => some { m with smmCommand := cmd }
  | .setLowBattery low =>
    if low = true ∧ m.countLow.lowBatteryLatchCount ≤ m.countLow.lowBatteryCount ∧
        m.countLow.lowBattery = false then
      some { m.countLow with lowBattery := true }
    else none
  | .setCurrentAltitude _ .nonFinite => none
  | .setCurrentAltitude fixValid (.finite altitudeAglM) =>
    if fixValid = true ∧ overAltitudeCap altitudeAglM m.altitudeCapM = true ∧
        m.altitudeBreachLatchCount ≤ m.countBreach.altitudeBreachCount ∧
        m.altitudeBreach = false then
      some { m.countBreach with altitudeBreach := true }
    else if fixValid = true ∧ overAltitudeCap altitudeAglM m.altitudeCapM = false ∧
        m.altitudeBreachLatchCount ≤ m.countClear.altitudeClearCount ∧
        m.altitudeBreach = true then
      some { m.countClear with altitudeBreach := false }
    else none
  | .setCommsFailure failed => some { m with fssCommsLost := failed }
  | .setMavCommsFailure failed => some { m with mavCommsLost := failed }
  | .reassertState => none

section Update

variable (m : FmuStateMachine)

/-- The fields an update leaves are those before it, with the termination latch and the
selected state. -/
theorem updateState_fst :
    m.updateState.1 =
      { m.engageTermination with currentState := m.engageTermination.selectState } := by
  by_cases h : m.engageTermination.selectState = m.engageTermination.currentState
  · simp only [updateState, h, ne_eq, not_true_eq_false, if_false]
  · simp only [updateState, h, ne_eq, not_false_eq_true, if_true]

/-- An update reports the selected state exactly when it is a new one. -/
theorem updateState_snd :
    m.updateState.2 =
      if m.engageTermination.selectState = m.currentState then none
      else some m.engageTermination.selectState := by
  change _ = if m.engageTermination.selectState = m.engageTermination.currentState then _ else _
  by_cases h : m.engageTermination.selectState = m.engageTermination.currentState
  · simp only [updateState, h, ne_eq, not_true_eq_false, if_false, if_true]
  · simp only [updateState, h, ne_eq, not_false_eq_true, if_true, if_false]

/-- The fields after an update that is carried out are those of the update. -/
theorem updateAndAction_fst : m.updateAndAction.1 = m.updateState.1 := by
  unfold updateAndAction
  split <;> simp [*]

/-- An update calls nothing unless it changes the state, and then carries that state out. -/
theorem updateAndAction_snd :
    m.updateAndAction.2 =
      if m.updateState.1.currentState = m.currentState then []
      else m.updateState.1.actionState m.updateState.1.currentState := by
  have hsnd := m.updateState_snd
  unfold updateAndAction
  split
  next next state h =>
    rw [h] at hsnd
    simp only [updateState_fst]
    split_ifs at hsnd ⊢ with hsame
    rw [Option.some.inj hsnd, ← updateState_fst, h]
  next next h =>
    rw [h] at hsnd
    simp only [updateState_fst]
    split_ifs at hsnd ⊢ with hsame
    rfl

/-- The update of an autopilot-link report is the plain one. -/
theorem setMavCommsFailure_fst (failed : Bool) :
    (m.setMavCommsFailure failed).1 = (updateState { m with mavCommsLost := failed }).1 := by
  unfold setMavCommsFailure
  split
  · simp [*]
  · split_ifs <;> simp [*]

/-- With no latch engaged the retained commands select the state. -/
theorem selectState_of_unlatched (h : m.latched = false) : m.selectState = m.commandedState := by
  simp only [latched, Bool.or_eq_false_iff] at h
  simp [selectState, h]

/-- A command that is not a termination engages nothing. -/
theorem engageTermination_of_ne (h : m.fssCommand ≠ .cmdTerminate) : m.engageTermination = m := by
  simp [engageTermination, h]

/-- A state that no latch maps to is selected only with no latch engaged. -/
theorem unlatched_of_selectState {state : FmuState} (hselect : m.selectState = state)
    (hstate : state ∉ [.terminate, .lowBattery, .failsafe, .rtl]) : m.latched = false := by
  unfold selectState at hselect
  split_ifs at hselect with hterminated hbattery hcomms hbreach
  · simp [← hselect] at hstate
  · simp [← hselect] at hstate
  · simp [← hselect] at hstate
  · simp only [Bool.and_eq_true, Bool.not_eq_true'] at hcomms
    simp [latched, hterminated, hbattery, hcomms, hbreach]
  · simp [← hselect] at hstate

end Update

/-- An event that has the priority order evaluated is the update of its fields; a report on
the autopilot link does more than update. -/
theorem handle_of_evaluated {m u : FmuStateMachine} {e : FmuEvent}
    (hmav : ∀ failed, e ≠ .setMavCommsFailure failed) (h : m.evaluated e = some u) :
    m.handle e = u.updateAndAction := by
  cases e with
  | fssNewCommand cmd target =>
    obtain rfl := Option.some.inj h
    rfl
  | smmNewCommand cmd =>
    obtain rfl := Option.some.inj h
    rfl
  | setLowBattery low =>
    simp only [evaluated] at h
    split_ifs at h with hlow
    obtain rfl := Option.some.inj h
    simp only [handle, setLowBattery, hlow, and_self, if_true]
  | setCurrentAltitude fixValid altitudeAglM =>
    cases altitudeAglM with
    | nonFinite => exact absurd h (by simp [evaluated])
    | finite altitudeAglM =>
      simp only [evaluated] at h
      split_ifs at h with hover hunder
      · obtain rfl := Option.some.inj h
        obtain ⟨hfix, hcap, hcount, hbreach⟩ := hover
        simp only [handle, setCurrentAltitude, hfix, hcap, if_true]
        exact if_pos ⟨hcount, hbreach⟩
      · obtain rfl := Option.some.inj h
        obtain ⟨hfix, hcap, hcount, hbreach⟩ := hunder
        simp only [handle, setCurrentAltitude, hfix, hcap, if_true, Bool.false_eq_true, if_false]
        exact if_pos ⟨hcount, hbreach⟩
  | setCommsFailure failed =>
    obtain rfl := Option.some.inj h
    rfl
  | setMavCommsFailure failed => exact absurd rfl (hmav failed)
  | reassertState => exact absurd h (by simp [evaluated])

/-- An event that has the priority order evaluated leaves the updated fields. -/
theorem handle_fst_of_evaluated {m u : FmuStateMachine} {e : FmuEvent}
    (h : m.evaluated e = some u) : (m.handle e).1 = u.updateState.1 := by
  by_cases hmav : ∃ failed, e = .setMavCommsFailure failed
  · obtain ⟨failed, rfl⟩ := hmav
    obtain rfl := Option.some.inj h
    exact m.setMavCommsFailure_fst failed
  · rw [handle_of_evaluated (fun failed he => hmav ⟨failed, he⟩) h, updateAndAction_fst]

/-- Counting a low reading leaves everything else alone. -/
theorem countLow_eq (m : FmuStateMachine) :
    m.countLow = { m with lowBatteryCount := m.countLow.lowBatteryCount } := by
  unfold countLow
  split_ifs <;> rfl

/-- An event that has nothing evaluated only moves the debounce counters, and calls nothing
unless it asks for the state again. -/
theorem handle_of_not_evaluated {m : FmuStateMachine} {e : FmuEvent}
    (hreassert : e ≠ .reassertState) (h : m.evaluated e = none) :
    ∃ low breach clear, m.handle e =
      ({ m with lowBatteryCount := low, altitudeBreachCount := breach,
                altitudeClearCount := clear }, []) := by
  cases e with
  | fssNewCommand cmd target => exact absurd h (by simp [evaluated])
  | smmNewCommand cmd => exact absurd h (by simp [evaluated])
  | setLowBattery low =>
    simp only [evaluated] at h
    split_ifs at h with hlow
    cases low with
    | false => exact ⟨_, _, _, rfl⟩
    | true =>
      simp only [handle, setLowBattery, if_true]
      rw [if_neg (fun hlatch => hlow ⟨rfl, hlatch⟩), countLow_eq]
      exact ⟨_, _, _, rfl⟩
  | setCurrentAltitude fixValid altitudeAglM =>
    cases altitudeAglM with
    | nonFinite => exact ⟨_, _, _, rfl⟩
    | finite altitudeAglM =>
      simp only [evaluated] at h
      split_ifs at h with hover hunder
      simp only [handle, setCurrentAltitude]
      split_ifs with hfix hcap hlatch hlatch
      · exact absurd ⟨hfix, hcap, hlatch⟩ hover
      · exact ⟨_, _, _, rfl⟩
      · exact absurd ⟨hfix, Bool.eq_false_of_not_eq_true hcap, hlatch⟩ hunder
      · exact ⟨_, _, _, rfl⟩
      · exact ⟨_, _, _, rfl⟩
  | setCommsFailure failed => exact absurd h (by simp [evaluated])
  | setMavCommsFailure failed => exact absurd h (by simp [evaluated])
  | reassertState => exact absurd rfl hreassert

/-- An event that has nothing evaluated only moves the debounce counters. -/
theorem handle_fst_of_not_evaluated {m : FmuStateMachine} {e : FmuEvent}
    (h : m.evaluated e = none) :
    ∃ low breach clear, (m.handle e).1 =
      { m with lowBatteryCount := low, altitudeBreachCount := breach,
               altitudeClearCount := clear } := by
  by_cases hreassert : e = .reassertState
  · subst hreassert
    exact ⟨_, _, _, rfl⟩
  · obtain ⟨low, breach, clear, hcounters⟩ := handle_of_not_evaluated hreassert h
    exact ⟨low, breach, clear, by rw [hcounters]⟩

/-- A ground-station command is retained with its target, whatever state is selected. -/
theorem handle_fssNewCommand_retains (m : FmuStateMachine) (cmd : FssCommand)
    (target : FssCommandTarget) :
    (m.handle (.fssNewCommand cmd target)).1.fssCommand = cmd ∧
      (m.handle (.fssNewCommand cmd target)).1.fssCommandTarget = target := by
  have h : m.evaluated (.fssNewCommand cmd target) = some (m.retainFssCommand cmd target) := rfl
  rw [handle_fst_of_evaluated h, updateState_fst]
  exact ⟨rfl, rfl⟩

/-- A ground-station command calls nothing unless it changes the state. -/
theorem handle_fssNewCommand_snd (m : FmuStateMachine) (cmd : FssCommand)
    (target : FssCommandTarget) :
    (m.handle (.fssNewCommand cmd target)).2 =
      if (m.handle (.fssNewCommand cmd target)).1.currentState = m.currentState then []
      else (m.handle (.fssNewCommand cmd target)).1.actionState
        (m.handle (.fssNewCommand cmd target)).1.currentState := by
  have h := (m.retainFssCommand cmd target).updateAndAction_snd
  rw [← updateAndAction_fst] at h
  exact h

/-- The fields of an event that are to be evaluated hold the current state; the retained
command changes only for a command, and what was reported on the autopilot link only for such
a report. -/
theorem evaluated_frame {m u : FmuStateMachine} {e : FmuEvent} (hu : m.evaluated e = some u) :
    u.currentState = m.currentState ∧
    ((∀ cmd target, e ≠ .fssNewCommand cmd target) →
      u.fssCommand = m.fssCommand ∧ u.fssCommandTarget = m.fssCommandTarget) ∧
    ((∀ failed, e ≠ .setMavCommsFailure failed) → u.mavCommsLost = m.mavCommsLost) := by
  cases e with
  | fssNewCommand cmd target =>
    cases hu
    exact ⟨rfl, fun he => absurd rfl (he cmd target), fun _ => rfl⟩
  | setMavCommsFailure failed =>
    cases hu
    exact ⟨rfl, fun _ => ⟨rfl, rfl⟩, fun he => absurd rfl (he failed)⟩
  | smmNewCommand _ | setCommsFailure _ =>
    cases hu
    exact ⟨rfl, fun _ => ⟨rfl, rfl⟩, fun _ => rfl⟩
  | setLowBattery low =>
    simp only [evaluated] at hu
    split_ifs at hu
    cases hu
    rw [countLow_eq]
    exact ⟨rfl, fun _ => ⟨rfl, rfl⟩, fun _ => rfl⟩
  | setCurrentAltitude fixValid altitudeAglM =>
    cases altitudeAglM with
    | nonFinite => exact absurd hu (by simp [evaluated])
    | finite altitudeAglM =>
      simp only [evaluated] at hu
      split_ifs at hu
      · cases hu
        exact ⟨rfl, fun _ => ⟨rfl, rfl⟩, fun _ => rfl⟩
      · cases hu
        exact ⟨rfl, fun _ => ⟨rfl, rfl⟩, fun _ => rfl⟩
  | reassertState => exact absurd hu (by simp [evaluated])

/-- An event that is no command touches neither the retained command nor its target. -/
theorem handle_retains {m : FmuStateMachine} {e : FmuEvent}
    (he : ∀ cmd target, e ≠ .fssNewCommand cmd target) :
    (m.handle e).1.fssCommand = m.fssCommand ∧
      (m.handle e).1.fssCommandTarget = m.fssCommandTarget := by
  cases hu : m.evaluated e with
  | none =>
    obtain ⟨low, breach, clear, h⟩ := handle_fst_of_not_evaluated hu
    rw [h]
    exact ⟨rfl, rfl⟩
  | some u =>
    rw [handle_fst_of_evaluated hu, updateState_fst]
    exact (evaluated_frame hu).2.1 he

/-- An update that starts in the current state carries out a change, and nothing else. -/
theorem updateAndAction_snd_of_same {m u : FmuStateMachine}
    (hu : u.currentState = m.currentState) :
    u.updateAndAction.2 =
      if u.updateAndAction.1.currentState ≠ m.currentState then
        u.updateAndAction.1.actionState u.updateAndAction.1.currentState
      else [] := by
  rw [updateAndAction_snd, updateAndAction_fst, hu, ite_not]

/-- Of the events that are no report on the autopilot link and do not ask for the state again,
each carries out a change of the state, and nothing else. -/
theorem handle_snd_of_ordinary {m : FmuStateMachine} {e : FmuEvent}
    (hmav : ∀ failed, e ≠ .setMavCommsFailure failed) (hreassert : e ≠ .reassertState) :
    (m.handle e).2 =
      if (m.handle e).1.currentState ≠ m.currentState then
        (m.handle e).1.actionState (m.handle e).1.currentState
      else [] := by
  cases hu : m.evaluated e with
  | none =>
    obtain ⟨low, breach, clear, hcounters⟩ := handle_of_not_evaluated hreassert hu
    rw [hcounters]
    exact (if_neg (not_not_intro rfl)).symm
  | some u =>
    rw [handle_of_evaluated hmav hu]
    exact updateAndAction_snd_of_same (evaluated_frame hu).1

/-- A report on the autopilot link carries out a change of the state, and a recovery the state
it ends in, and nothing else. -/
theorem handle_snd_setMavCommsFailure (m : FmuStateMachine) (failed : Bool) :
    (m.handle (.setMavCommsFailure failed)).2 =
      if (m.handle (.setMavCommsFailure failed)).1.currentState ≠ m.currentState ∨
          (m.mavCommsLost && !failed) = true then
        (m.handle (.setMavCommsFailure failed)).1.actionState
          (m.handle (.setMavCommsFailure failed)).1.currentState
      else [] := by
  have hsnd := updateState_snd { m with mavCommsLost := failed }
  have hfst := updateState_fst { m with mavCommsLost := failed }
  cases hupdate : updateState { m with mavCommsLost := failed } with
  | mk next changed =>
    rw [hupdate] at hsnd hfst
    cases changed with
    | some state =>
      have hhandle : m.handle (.setMavCommsFailure failed) = (next, next.actionState state) := by
        rw [handle, setMavCommsFailure, hupdate]
      split_ifs at hsnd with hsame
      have hstate : state = next.currentState := by
        rw [show next = _ from hfst]
        exact Option.some.inj hsnd
      have hchange : next.currentState ≠ m.currentState := by
        rw [show next = _ from hfst]
        exact hsame
      rw [hhandle, if_pos (Or.inl hchange), hstate]
    | none =>
      have hhandle : m.handle (.setMavCommsFailure failed) =
          if m.mavCommsLost && !failed then (next, next.actionState next.currentState)
          else (next, []) := by
        rw [handle, setMavCommsFailure, hupdate]
      split_ifs at hsnd with hsame
      have hkept : next.currentState = m.currentState := by
        rw [show next = _ from hfst]
        exact hsame
      by_cases hrecovered : (m.mavCommsLost && !failed) = true
      · rw [if_pos hrecovered] at hhandle
        rw [hhandle, if_pos (Or.inr hrecovered)]
      · rw [if_neg hrecovered] at hhandle
        rw [hhandle, if_neg (not_or.mpr ⟨not_not_intro hkept, hrecovered⟩)]

/-- An event calls nothing and keeps the state, or carries out the state it ends in. -/
theorem handle_cases (m : FmuStateMachine) (e : FmuEvent) :
    ((m.handle e).2 = [] ∧ (m.handle e).1.currentState = m.currentState) ∨
      (m.handle e).2 = (m.handle e).1.actionState (m.handle e).1.currentState := by
  by_cases hmav : ∃ failed, e = .setMavCommsFailure failed
  · obtain ⟨failed, rfl⟩ := hmav
    rw [handle_snd_setMavCommsFailure]
    split_ifs with hdrives
    · exact Or.inr rfl
    · exact Or.inl ⟨rfl, not_not.mp fun hchange => hdrives (Or.inl hchange)⟩
  · by_cases hreassert : e = .reassertState
    · exact Or.inr (hreassert ▸ rfl)
    · rw [handle_snd_of_ordinary (fun failed he => hmav ⟨failed, he⟩) hreassert]
      split_ifs with hchange
      · exact Or.inr rfl
      · exact Or.inl ⟨rfl, not_not.mp hchange⟩

/-- A report on the autopilot link is remembered. -/
theorem mavCommsLost_setMavCommsFailure (m : FmuStateMachine) (failed : Bool) :
    (m.handle (.setMavCommsFailure failed)).1.mavCommsLost = failed := by
  rw [handle, setMavCommsFailure_fst, updateState_fst]
  rfl

/-- An event that is no report on the autopilot link leaves what was reported on it. -/
theorem mavCommsLost_handle {m : FmuStateMachine} {e : FmuEvent}
    (he : ∀ failed, e ≠ .setMavCommsFailure failed) :
    (m.handle e).1.mavCommsLost = m.mavCommsLost := by
  cases hu : m.evaluated e with
  | none =>
    obtain ⟨low, breach, clear, h⟩ := handle_fst_of_not_evaluated hu
    rw [h]
  | some u =>
    rw [handle_fst_of_evaluated hu, updateState_fst]
    exact (evaluated_frame hu).2.2 he

/-- The report that a lost autopilot link is back carries the current state out again. -/
theorem handle_recovery {m : FmuStateMachine} (h : m.mavCommsLost = true) :
    (m.handle (.setMavCommsFailure false)).2 =
      (m.handle (.setMavCommsFailure false)).1.actionState
        (m.handle (.setMavCommsFailure false)).1.currentState := by
  rw [handle_snd_setMavCommsFailure, if_pos (Or.inr (by simp [h]))]

end FmuStateMachine

end CapFmu
