import CapFmu.Signal.Debounce
import CapFmu.StateMachine.Arbitration

/-!
# The state as a function of the history

What the handlers keep in latches, counters and retained commands can be read off the
events alone: whether a termination was ever commanded, whether enough low readings ever
came in a row, what each link reported last, on which side of the ceiling the most recent
long enough run of readings was, and what was commanded last. The priority order over these
facts is the state the machine is in, once an event has had it evaluated.
-/

namespace CapFmu

open Numeric (Double)
open Signal

/-- What the events carried, by kind, oldest first: the commands, whether each battery
reading was low, whether each altitude reading that counts was over the ceiling, and whether
each link report was one of a loss. -/
structure EventHistory where
  fssCommands : List FssCommand := []
  smmCommands : List SmmCommand := []
  lowReadings : List Bool := []
  overCapReadings : List Bool := []
  fssReports : List Bool := []
  mavReports : List Bool := []

/-- Record one event. An altitude reading without a fix, or not finite, does not count. -/
def EventHistory.record (altitudeCapM : UInt16) (past : EventHistory) : FmuEvent → EventHistory
  | .fssNewCommand cmd _ => { past with fssCommands := past.fssCommands ++ [cmd] }
  | .smmNewCommand cmd => { past with smmCommands := past.smmCommands ++ [cmd] }
  | .setLowBattery low => { past with lowReadings := past.lowReadings ++ [low] }
  | .setCurrentAltitude true (.finite altitudeAglM) =>
    { past with
      overCapReadings := past.overCapReadings ++ [overAltitudeCap altitudeAglM altitudeCapM] }
  | .setCurrentAltitude _ _ => past
  | .setCommsFailure failed => { past with fssReports := past.fssReports ++ [failed] }
  | .setMavCommsFailure failed => { past with mavReports := past.mavReports ++ [failed] }
  | .reassertState => past

/-- The history of a list of events. -/
def historyOf (altitudeCapM : UInt16) (es : List FmuEvent) : EventHistory :=
  es.foldl (EventHistory.record altitudeCapM) {}

/-- The state that the priority order gives to a history. The ground-station link counts as
lost before its first report, and the autopilot link as up. -/
def EventHistory.arbitrated (lowBatteryLatchCount altitudeBreachLatchCount : ℕ)
    (past : EventHistory) : FmuState :=
  if .cmdTerminate ∈ past.fssCommands then .terminate
  else if HasRun true lowBatteryLatchCount past.lowReadings then .lowBattery
  else if past.fssReports.getLastD true || past.mavReports.getLastD false then .failsafe
  else if Settled true altitudeBreachLatchCount past.overCapReadings then .rtl
  else if mapFssState (past.fssCommands.getLastD .cmdUnknown) = .searching then
    mapSmmState (past.smmCommands.getLastD .cmdNone)
  else mapFssState (past.fssCommands.getLastD .cmdUnknown)

namespace FmuStateMachine

/-- The machine after a list of events. -/
def after (m : FmuStateMachine) (es : List FmuEvent) : FmuStateMachine :=
  es.foldl (fun m e => (m.handle e).1) m

/-- Whether some event of the list has the priority order evaluated. -/
def evaluates (m : FmuStateMachine) : List FmuEvent → Bool
  | [] => false
  | e :: es => (m.evaluated e).isSome || (m.handle e).1.evaluates es

/-- The fields say of the machine what its history says. -/
structure Reflects (N M : ℕ) (altitudeCapM : UInt16) (past : EventHistory)
    (m : FmuStateMachine) : Prop where
  lowBatteryLatchCount : m.lowBatteryLatchCount = N
  altitudeBreachLatchCount : m.altitudeBreachLatchCount = M
  altitudeCap : m.altitudeCapM = altitudeCapM
  fssCommand : m.fssCommand = past.fssCommands.getLastD .cmdUnknown
  smmCommand : m.smmCommand = past.smmCommands.getLastD .cmdNone
  fssCommsLost : m.fssCommsLost = past.fssReports.getLastD true
  mavCommsLost : m.mavCommsLost = past.mavReports.getLastD false
  terminated : m.terminated = decide (.cmdTerminate ∈ past.fssCommands)
  latched : m.fssCommand = .cmdTerminate → m.terminated = true
  lowBatteryCount : m.lowBatteryCount = (min N (lastRun true past.lowReadings) : ℕ)
  lowBattery : m.lowBattery = decide (HasRun true N past.lowReadings)
  altitudeBreachCount : m.altitudeBreachCount = (min M (lastRun true past.overCapReadings) : ℕ)
  altitudeClearCount : m.altitudeClearCount = (min M (lastRun false past.overCapReadings) : ℕ)
  altitudeBreach : m.altitudeBreach = decide (Settled true M past.overCapReadings)

variable {N M : ℕ} {altitudeCapM : UInt16} {past : EventHistory} {m u : FmuStateMachine}

/-- The new machine has no history. -/
theorem reflects_new (hN : N ≠ 0) (hM : M ≠ 0) :
    Reflects N M altitudeCapM {} (new N altitudeCapM M) where
  lowBatteryLatchCount := rfl
  altitudeBreachLatchCount := rfl
  altitudeCap := rfl
  fssCommand := rfl
  smmCommand := rfl
  fssCommsLost := rfl
  mavCommsLost := rfl
  terminated := rfl
  latched := fun hlatched => absurd hlatched (by simp [new])
  lowBatteryCount := by simp [new]
  lowBattery := by simp [new, hN]
  altitudeBreachCount := by simp [new]
  altitudeClearCount := by simp [new]
  altitudeBreach := by simp [new, hM]

/-- An update only touches the termination latch and the state. -/
theorem reflects_updateAndAction (h : Reflects N M altitudeCapM past u.engageTermination) :
    Reflects N M altitudeCapM past u.updateAndAction.1 := by
  rw [updateAndAction_fst, updateState_fst]
  exact { h with }

/-- Where the latch is in step with the retained command, an update engages nothing. -/
theorem Reflects.engageTermination (h : Reflects N M altitudeCapM past u) :
    u.engageTermination = u := by
  by_cases hcommand : u.fssCommand = .cmdTerminate
  · have hterminated := h.latched hcommand
    simp only [FmuStateMachine.engageTermination, hterminated, Bool.true_or]
    rw [← hterminated]
  · exact u.engageTermination_of_ne hcommand

/-- An update of the state keeps the reflection of the history. -/
theorem Reflects.update (h : Reflects N M altitudeCapM past u) :
    Reflects N M altitudeCapM past u.updateAndAction.1 :=
  reflects_updateAndAction (h.engageTermination.symm ▸ h)

/-- A ground-station command becomes the last one, and a termination latches. -/
theorem Reflects.fssNewCommand (h : Reflects N M altitudeCapM past m) (cmd : FssCommand)
    (target : FssCommandTarget) :
    Reflects N M altitudeCapM (past.record altitudeCapM (.fssNewCommand cmd target))
      (m.handle (.fssNewCommand cmd target)).1 := by
  apply reflects_updateAndAction (u := m.retainFssCommand cmd target)
  exact
    { h with
      fssCommand := by simp [FmuStateMachine.engageTermination, retainFssCommand,
        EventHistory.record]
      terminated := by
        simp [FmuStateMachine.engageTermination, retainFssCommand, EventHistory.record,
          h.terminated, eq_comm]
      latched := by simp +contextual [FmuStateMachine.engageTermination, retainFssCommand] }

/-- A search-server command becomes the last one. -/
theorem Reflects.smmNewCommand (h : Reflects N M altitudeCapM past m) (cmd : SmmCommand) :
    Reflects N M altitudeCapM (past.record altitudeCapM (.smmNewCommand cmd))
      (m.handle (.smmNewCommand cmd)).1 := by
  apply Reflects.update
  exact { h with smmCommand := by simp [EventHistory.record] }

/-- A report on the ground-station link becomes the last one. -/
theorem Reflects.setCommsFailure (h : Reflects N M altitudeCapM past m) (failed : Bool) :
    Reflects N M altitudeCapM (past.record altitudeCapM (.setCommsFailure failed))
      (m.handle (.setCommsFailure failed)).1 := by
  apply Reflects.update
  exact { h with fssCommsLost := by simp [EventHistory.record] }

/-- A report on the autopilot link becomes the last one. -/
theorem Reflects.setMavCommsFailure (h : Reflects N M altitudeCapM past m) (failed : Bool) :
    Reflects N M altitudeCapM (past.record altitudeCapM (.setMavCommsFailure failed))
      (m.handle (.setMavCommsFailure failed)).1 := by
  have hreport : Reflects N M altitudeCapM (past.record altitudeCapM (.setMavCommsFailure failed))
      { m with mavCommsLost := failed } :=
    { h with mavCommsLost := by simp [EventHistory.record] }
  rw [handle, setMavCommsFailure_fst, ← updateAndAction_fst]
  exact hreport.update

/-- A battery reading continues or ends the run of low readings, and a long enough run
engages the latch. -/
theorem Reflects.setLowBattery (hN : N ≠ 0) (h : Reflects N M altitudeCapM past m) (low : Bool) :
    Reflects N M altitudeCapM (past.record altitudeCapM (.setLowBattery low))
      (m.handle (.setLowBattery low)).1 := by
  cases low with
  | false =>
    have hcount : (0 : ℤ) = (min N (lastRun true (past.lowReadings ++ [false])) : ℕ) := by simp
    have hlow : m.lowBattery = decide (HasRun true N (past.lowReadings ++ [false])) := by
      simp [hasRun_concat, hN, h.lowBattery]
    exact { h with lowBatteryCount := hcount, lowBattery := hlow }
  | true =>
    have hcount : m.countLow.lowBatteryCount =
        (min N (lastRun true (past.lowReadings ++ [true])) : ℕ) := by
      rw [countRun, if_pos rfl]
      simp only [countLow, h.lowBatteryCount, h.lowBatteryLatchCount]
      split_ifs <;> simp only [h.lowBatteryCount] <;> omega
    have hcounted (latch : Bool)
        (hlatch : latch = decide (HasRun true N (past.lowReadings ++ [true]))) :
        Reflects N M altitudeCapM (past.record altitudeCapM (.setLowBattery true))
          { m.countLow with lowBattery := latch } := by
      rw [countLow_eq]
      exact { h with lowBatteryCount := hcount, lowBattery := hlatch }
    have hlimit : m.countLow.lowBatteryLatchCount = N := by
      rw [countLow_eq]
      exact h.lowBatteryLatchCount
    have hbefore : m.countLow.lowBattery = decide (HasRun true N past.lowReadings) := by
      rw [countLow_eq]
      exact h.lowBattery
    simp only [handle, FmuStateMachine.setLowBattery, if_true]
    split_ifs with hengages
    · apply Reflects.update
      apply hcounted
      rw [hcount, hlimit] at hengages
      simp only [hasRun_concat]
      rw [eq_comm, decide_eq_true_iff]
      exact Or.inr (by omega)
    · apply hcounted m.countLow.lowBattery
      rw [hcount, hlimit, hbefore, decide_eq_false_iff_not] at hengages
      rw [hbefore, decide_eq_decide, hasRun_concat]
      refine ⟨Or.inl, fun hrun => ?_⟩
      by_contra hnone
      have hreached := hrun.resolve_left hnone
      exact hengages ⟨by omega, hnone⟩

/-- With its counts those of the runs that end in an altitude reading, and its latch the value
settled by it, the machine reflects the reading. -/
theorem Reflects.counted (h : Reflects N M altitudeCapM past m) {altitudeAglM : ℚ} {isOver : Bool}
    (hover : overAltitudeCap altitudeAglM altitudeCapM = isOver) {breachCount clearCount : ℤ}
    (hbreach : breachCount = (min M (lastRun true (past.overCapReadings ++ [isOver])) : ℕ))
    (hclear : clearCount = (min M (lastRun false (past.overCapReadings ++ [isOver])) : ℕ))
    (latch : Bool) (hlatch : latch = decide (Settled true M (past.overCapReadings ++ [isOver]))) :
    Reflects N M altitudeCapM
      (past.record altitudeCapM (.setCurrentAltitude true (.finite altitudeAglM)))
      { m with
        altitudeBreachCount := breachCount
        altitudeClearCount := clearCount
        altitudeBreach := latch } := by
  simp only [EventHistory.record, hover]
  exact
    { h with
      altitudeBreachCount := hbreach
      altitudeClearCount := hclear
      altitudeBreach := hlatch }

/-- A reading over the ceiling continues the breach run, and a long enough run engages the
latch. -/
theorem Reflects.overCap (hM : M ≠ 0) (h : Reflects N M altitudeCapM past m) {altitudeAglM : ℚ}
    (hover : overAltitudeCap altitudeAglM altitudeCapM = true) :
    Reflects N M altitudeCapM
      (past.record altitudeCapM (.setCurrentAltitude true (.finite altitudeAglM)))
      (m.handle (.setCurrentAltitude true (.finite altitudeAglM))).1 := by
  have hbreach : m.countBreach.altitudeBreachCount =
      (min M (lastRun true (past.overCapReadings ++ [true])) : ℕ) := by
    rw [countRun, if_pos rfl]
    simp only [countBreach, h.altitudeBreachCount, h.altitudeBreachLatchCount]
    split_ifs <;> omega
  have hclear : (0 : ℤ) = (min M (lastRun false (past.overCapReadings ++ [true])) : ℕ) := by
    simp
  have hlimit : m.countBreach.altitudeBreachLatchCount = M := h.altitudeBreachLatchCount
  have hbefore : m.countBreach.altitudeBreach = decide (Settled true M past.overCapReadings) :=
    h.altitudeBreach
  have hother : lastRun (!true) (past.overCapReadings ++ [true]) < M := by
    rw [lastRun_concat, if_neg (by simp)]
    omega
  simp only [handle, FmuStateMachine.setCurrentAltitude, if_true, h.altitudeCap, hover]
  split_ifs with hengages
  · apply Reflects.update
    apply h.counted hover hbreach hclear true
    rw [hbreach, hlimit] at hengages
    rw [eq_comm, decide_eq_true_iff, settled_concat true hM]
    exact Or.inl (by omega)
  · apply h.counted hover hbreach hclear m.altitudeBreach
    rw [hbreach, hlimit, hbefore, decide_eq_false_iff_not] at hengages
    rw [h.altitudeBreach, decide_eq_decide, settled_concat true hM]
    refine ⟨fun hsettled => Or.inr ⟨hsettled, hother⟩, fun hsettled => ?_⟩
    by_contra hnone
    have hreached := hsettled.resolve_right fun hold => hnone hold.1
    exact hengages ⟨by omega, hnone⟩

/-- A reading under the ceiling continues the clear run, and a long enough run clears the
latch. -/
theorem Reflects.underCap (hM : M ≠ 0) (h : Reflects N M altitudeCapM past m) {altitudeAglM : ℚ}
    (hunder : overAltitudeCap altitudeAglM altitudeCapM = false) :
    Reflects N M altitudeCapM
      (past.record altitudeCapM (.setCurrentAltitude true (.finite altitudeAglM)))
      (m.handle (.setCurrentAltitude true (.finite altitudeAglM))).1 := by
  have hclear : m.countClear.altitudeClearCount =
      (min M (lastRun false (past.overCapReadings ++ [false])) : ℕ) := by
    rw [countRun, if_pos rfl]
    simp only [countClear, h.altitudeClearCount, h.altitudeBreachLatchCount]
    split_ifs <;> omega
  have hbreach : (0 : ℤ) = (min M (lastRun true (past.overCapReadings ++ [false])) : ℕ) := by
    simp
  have hlimit : m.countClear.altitudeBreachLatchCount = M := h.altitudeBreachLatchCount
  have hbefore : m.countClear.altitudeBreach = decide (Settled true M past.overCapReadings) :=
    h.altitudeBreach
  have hended : ¬ M ≤ lastRun true (past.overCapReadings ++ [false]) := by
    rw [lastRun_concat, if_neg (by simp)]
    omega
  simp only [handle, FmuStateMachine.setCurrentAltitude, if_true, h.altitudeCap, hunder,
    Bool.false_eq_true, if_false]
  split_ifs with hclears
  · apply Reflects.update
    apply h.counted hunder hbreach hclear false
    rw [hclear, hlimit] at hclears
    rw [eq_comm, decide_eq_false_iff_not, settled_concat true hM, Bool.not_true]
    omega
  · apply h.counted hunder hbreach hclear m.altitudeBreach
    rw [hclear, hlimit, hbefore, decide_eq_true_iff] at hclears
    rw [h.altitudeBreach, decide_eq_decide, settled_concat true hM, Bool.not_true]
    refine ⟨fun hsettled => Or.inr ⟨hsettled, ?_⟩, fun hsettled => ?_⟩
    · by_contra hreached
      exact hclears ⟨by omega, hsettled⟩
    · exact (hsettled.resolve_left hended).1

/-- An altitude reading continues one of the two runs and ends the other; without a fix, or not
finite, it is none. -/
theorem Reflects.setCurrentAltitude (hM : M ≠ 0) (h : Reflects N M altitudeCapM past m)
    (fixValid : Bool) (altitudeAglM : Double) :
    Reflects N M altitudeCapM
      (past.record altitudeCapM (.setCurrentAltitude fixValid altitudeAglM))
      (m.handle (.setCurrentAltitude fixValid altitudeAglM)).1 := by
  cases altitudeAglM with
  | nonFinite => cases fixValid <;> exact h
  | finite altitudeAglM =>
    cases fixValid with
    | false => exact h
    | true =>
      cases hover : overAltitudeCap altitudeAglM altitudeCapM with
      | true => exact h.overCap hM hover
      | false => exact h.underCap hM hover

/-- Every event keeps the fields saying what the history says. -/
theorem Reflects.handle (hN : N ≠ 0) (hM : M ≠ 0) (h : Reflects N M altitudeCapM past m)
    (e : FmuEvent) : Reflects N M altitudeCapM (past.record altitudeCapM e) (m.handle e).1 := by
  cases e with
  | fssNewCommand cmd target => exact h.fssNewCommand cmd target
  | smmNewCommand cmd => exact h.smmNewCommand cmd
  | setLowBattery low => exact h.setLowBattery hN low
  | setCurrentAltitude fixValid altitudeAglM => exact h.setCurrentAltitude hM fixValid altitudeAglM
  | setCommsFailure failed => exact h.setCommsFailure failed
  | setMavCommsFailure failed => exact h.setMavCommsFailure failed
  | reassertState => exact h

/-- The fields say what the history says after every list of events. -/
theorem reflects_after (hN : N ≠ 0) (hM : M ≠ 0) (es : List FmuEvent) :
    Reflects N M altitudeCapM (historyOf altitudeCapM es) ((new N altitudeCapM M).after es) := by
  induction es using List.reverseRecOn with
  | nil => exact reflects_new hN hM
  | append_singleton es e ih =>
    simp only [historyOf, after, List.foldl_append, List.foldl_cons, List.foldl_nil]
    exact ih.handle hN hM e

/-- The priority order over the fields is the one over the history. -/
theorem Reflects.selectState (h : Reflects N M altitudeCapM past m) :
    m.selectState = past.arbitrated N M := by
  simp only [FmuStateMachine.selectState, EventHistory.arbitrated, commandedState, h.terminated,
    h.lowBattery, h.fssCommsLost, h.mavCommsLost, h.altitudeBreach, h.fssCommand, h.smmCommand,
    decide_eq_true_eq]
  cases past.fssReports.getLastD true <;> cases past.mavReports.getLastD false <;> rfl

/-- An event that has the priority order evaluated ends in the selected state. -/
theorem currentState_of_evaluated {e : FmuEvent} (he : (m.evaluated e).isSome = true) :
    (m.handle e).1.currentState = (m.handle e).1.selectState := by
  obtain ⟨u, hu⟩ := Option.isSome_iff_exists.mp he
  rw [handle_fst_of_evaluated hu, updateState_fst]
  rfl

/-- Once the machine is in the selected state, it stays in the selected one. -/
theorem currentState_handle (h : m.currentState = m.selectState) (e : FmuEvent) :
    (m.handle e).1.currentState = (m.handle e).1.selectState := by
  cases hu : m.evaluated e with
  | none =>
    obtain ⟨low, breach, clear, hcounters⟩ := handle_fst_of_not_evaluated hu
    rw [hcounters]
    exact h
  | some u => exact currentState_of_evaluated (by rw [hu]; rfl)

/-- A machine in the selected state is in the selected one after every list of events. -/
theorem currentState_after (h : m.currentState = m.selectState) (es : List FmuEvent) :
    (m.after es).currentState = (m.after es).selectState := by
  induction es generalizing m with
  | nil => exact h
  | cons e es ih => exact ih (currentState_handle h e)

/-- After every list of events of which one has the priority order evaluated the machine is in the
selected state. -/
theorem currentState_of_evaluates {es : List FmuEvent} (h : m.evaluates es = true) :
    (m.after es).currentState = (m.after es).selectState := by
  induction es generalizing m with
  | nil => exact absurd h (by simp [evaluates])
  | cons e es ih =>
    rw [evaluates, Bool.or_eq_true] at h
    cases h with
    | inl hhead => exact currentState_after (currentState_of_evaluated hhead) es
    | inr htail => exact ih htail

/-- Until the priority order is evaluated the machine stays where it started. -/
theorem currentState_of_not_evaluates {es : List FmuEvent} (h : m.evaluates es = false) :
    (m.after es).currentState = m.currentState := by
  induction es generalizing m with
  | nil => rfl
  | cons e es ih =>
    simp only [evaluates, Bool.or_eq_false_iff, Option.isSome_eq_false_iff,
      Option.isNone_iff_eq_none] at h
    obtain ⟨low, breach, clear, hcounters⟩ := handle_fst_of_not_evaluated h.1
    have hhead : (m.handle e).1.currentState = m.currentState := by rw [hcounters]
    exact (ih h.2).trans hhead

/-- Evaluating the priority order early counts for the longer list. -/
theorem evaluates_append {es : List FmuEvent} (later : List FmuEvent)
    (h : m.evaluates es = true) : m.evaluates (es ++ later) = true := by
  induction es generalizing m with
  | nil => exact absurd h (by simp [evaluates])
  | cons e es ih =>
    rw [evaluates, Bool.or_eq_true] at h
    rw [List.cons_append, evaluates, Bool.or_eq_true]
    exact h.imp_right ih

/-- The history only grows. -/
theorem historyOf_append (altitudeCapM : UInt16) (es later : List FmuEvent) :
    (historyOf altitudeCapM es).fssCommands <+:
        (historyOf altitudeCapM (es ++ later)).fssCommands ∧
      (historyOf altitudeCapM es).lowReadings <+:
        (historyOf altitudeCapM (es ++ later)).lowReadings := by
  induction later using List.reverseRecOn with
  | nil => simp
  | append_singleton later e ih =>
    have hrecord (past : EventHistory) :
        past.fssCommands <+: (past.record altitudeCapM e).fssCommands ∧
          past.lowReadings <+: (past.record altitudeCapM e).lowReadings := by
      unfold EventHistory.record
      split <;> simp
    have hnext : historyOf altitudeCapM (es ++ (later ++ [e])) =
        (historyOf altitudeCapM (es ++ later)).record altitudeCapM e := by
      simp only [historyOf, ← List.append_assoc, List.foldl_append, List.foldl_cons,
        List.foldl_nil]
    rw [hnext]
    exact ⟨ih.1.trans (hrecord _).1, ih.2.trans (hrecord _).2⟩

/-- The search server only commands the two searching states. -/
theorem mapSmmState_cases (cmd : SmmCommand) :
    mapSmmState cmd = .searching ∨ mapSmmState cmd = .waitingForTasking := by
  cases cmd <;> decide

/-- Only a termination maps to terminate, and nothing maps to low battery. -/
theorem mapFssState_latch (cmd : FssCommand) :
    (mapFssState cmd = .terminate → cmd = .cmdTerminate) ∧ mapFssState cmd ≠ .lowBattery := by
  cases cmd <;> decide

/-- The state is terminate exactly when a termination was ever commanded. -/
theorem arbitrated_eq_terminate :
    past.arbitrated N M = .terminate ↔ .cmdTerminate ∈ past.fssCommands := by
  unfold EventHistory.arbitrated
  constructor
  · intro h
    split_ifs at h with hterminated
    · exact hterminated
    · cases mapSmmState_cases (past.smmCommands.getLastD .cmdNone) <;> simp_all
    · have hlast := (mapFssState_latch _).1 h
      rw [List.getLastD_eq_getLast?] at hlast
      cases hlist : past.fssCommands.getLast? with
      | none => simp [hlist] at hlast
      | some cmd =>
        rw [hlist, Option.getD_some] at hlast
        exact hlast ▸ List.mem_of_getLast? hlist
  · intro h
    rw [if_pos h]

/-- The state is low battery exactly when nothing terminated the flight and enough low
readings ever came in a row. -/
theorem arbitrated_eq_lowBattery :
    past.arbitrated N M = .lowBattery ↔
      .cmdTerminate ∉ past.fssCommands ∧ HasRun true N past.lowReadings := by
  unfold EventHistory.arbitrated
  constructor
  · intro h
    split_ifs at h with hterminated hrun
    · exact ⟨hterminated, hrun⟩
    · cases mapSmmState_cases (past.smmCommands.getLastD .cmdNone) <;> simp_all
    · exact absurd h (mapFssState_latch _).2
  · rintro ⟨hterminated, hrun⟩
    rw [if_neg hterminated, if_pos hrun]

/-- Once an event has had the priority order evaluated, the state is the one that the order
gives to the whole history; terminate is never left, and low battery is left for terminate
alone; and no counter exceeds its bound. -/
theorem currentState_eq_arbitrated (N M : ℤ) (hN : 1 ≤ N) (hM : 1 ≤ M) (altitudeCapM : UInt16)
    (es : List FmuEvent) :
    ((new N altitudeCapM M).evaluates es = true →
        ((new N altitudeCapM M).after es).currentState =
          (historyOf altitudeCapM es).arbitrated N.toNat M.toNat) ∧
      (∀ later, ((new N altitudeCapM M).after es).currentState = .terminate →
        ((new N altitudeCapM M).after (es ++ later)).currentState = .terminate) ∧
      (∀ later, ((new N altitudeCapM M).after es).currentState = .lowBattery →
        ((new N altitudeCapM M).after (es ++ later)).currentState ∈
          [FmuState.lowBattery, .terminate]) ∧
      ((new N altitudeCapM M).after es).lowBatteryCount ≤ N ∧
      ((new N altitudeCapM M).after es).altitudeBreachCount ≤ M ∧
      ((new N altitudeCapM M).after es).altitudeClearCount ≤ M := by
  obtain ⟨n, rfl⟩ := Int.eq_ofNat_of_zero_le (by omega : 0 ≤ N)
  obtain ⟨k, rfl⟩ := Int.eq_ofNat_of_zero_le (by omega : 0 ≤ M)
  simp only [Int.toNat_natCast]
  have hreflects (es : List FmuEvent) :
      Reflects n k altitudeCapM (historyOf altitudeCapM es) ((new n altitudeCapM k).after es) :=
    reflects_after (by omega) (by omega) es
  have hstate (es : List FmuEvent) (h : (new n altitudeCapM k).evaluates es = true) :
      ((new n altitudeCapM k).after es).currentState =
        (historyOf altitudeCapM es).arbitrated n k :=
    (currentState_of_evaluates h).trans (hreflects es).selectState
  have hevaluates (es : List FmuEvent)
      (h : ((new n altitudeCapM k).after es).currentState ≠ .manual) :
      (new n altitudeCapM k).evaluates es = true := by
    by_contra hnone
    exact h (currentState_of_not_evaluates (Bool.eq_false_of_not_eq_true hnone))
  refine ⟨hstate es, fun later h => ?_, fun later h => ?_, ?_⟩
  · have hbefore := hevaluates es (by rw [h]; decide)
    have hmem := arbitrated_eq_terminate.mp ((hstate es hbefore).symm.trans h)
    rw [hstate _ (evaluates_append later hbefore), arbitrated_eq_terminate]
    exact (historyOf_append altitudeCapM es later).1.subset hmem
  · have hbefore := hevaluates es (by rw [h]; decide)
    have hrun := (arbitrated_eq_lowBattery.mp ((hstate es hbefore).symm.trans h)).2
    rw [hstate _ (evaluates_append later hbefore), List.mem_cons, List.mem_singleton,
      arbitrated_eq_lowBattery, arbitrated_eq_terminate]
    have hlater := hrun.trans (historyOf_append altitudeCapM es later).2.isInfix
    tauto
  · have h := hreflects es
    rw [h.lowBatteryCount, h.altitudeBreachCount, h.altitudeClearCount]
    omega

/-- At the default latch counts, after a breach that engages at the fifth reading, the state is the
one that the order gives to the history. -/
theorem currentState_eq_arbitrated_breach :
    ((new 4 122 5).after (.setCommsFailure false ::
      List.replicate 5 (.setCurrentAltitude true (.finite 200)))).currentState =
        (historyOf 122 (.setCommsFailure false ::
          List.replicate 5 (.setCurrentAltitude true (.finite 200)))).arbitrated 4 5 :=
  (currentState_eq_arbitrated 4 5 (by decide) (by decide) 122 _).1 (by decide)

/-- Four low readings, and then a termination. -/
def lowBatteryThenTerminate : List FmuEvent :=
  List.replicate 4 (FmuEvent.setLowBattery true) ++ [FmuEvent.fssNewCommand .cmdTerminate {}]

/-- Low battery is left when the ground station terminates. -/
theorem lowBatteryThenTerminate_leaves :
    ((new 4 122 5).after (lowBatteryThenTerminate.take 4)).currentState = .lowBattery ∧
      ((new 4 122 5).after lowBatteryThenTerminate).currentState = .terminate :=
  ⟨rfl, rfl⟩

end FmuStateMachine

end CapFmu
