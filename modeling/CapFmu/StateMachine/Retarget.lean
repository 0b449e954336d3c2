import CapFmu.StateMachine.Drive

/-!
# Handing a new target to the autopilot

A goto or altitude target reaches the autopilot interface when its state is carried out,
and a state is carried out on entering it or on a link recovery. A command that only
changes the target of the state the machine is already in is resolved as actioned, but
the update sees no new state and nothing is handed over. Until that happens, the target
last handed over is the retained one.
-/

namespace CapFmu

open Transition

/-- The two commands that carry a target. -/
def carriesTarget (cmd : FssCommand) : Prop := cmd = .cmdGoto ∨ cmd = .cmdAltitude

instance : DecidablePred carriesTarget := fun _ => inferInstanceAs (Decidable (_ ∨ _))

/-- What a ground-station command is to hand over. -/
def commandTarget (cmd : FssCommand) (target : FssCommandTarget) : Option HandedTarget :=
  Fmu.targetOf (mapFssState cmd) target

/-- A goto or altitude command that is resolved as actioned leaves its own target as the
last one handed to the autopilot interface. -/
def HandsTarget (f : Fmu) (e : FmuEvent) : Prop :=
  ∀ cmd target, e = .fssNewCommand cmd target → carriesTarget cmd →
    (f.machine.fssNewCommand cmd target).2.outcome = .actioned →
    (f.next e).handed = commandTarget cmd target

/-- A goto or altitude command given in its own state repeats the retained target. -/
def KeepsTarget (f : Fmu) (e : FmuEvent) : Prop :=
  ∀ cmd target, e = .fssNewCommand cmd target → carriesTarget cmd →
    f.machine.currentState = mapFssState cmd →
    commandTarget cmd target = commandTarget cmd f.machine.fssCommandTarget

/-- In a state that carries a target, the retained command is that state's, no latch is
engaged and the retained target is the one handed over. -/
def TargetInEffect (f : Fmu) : Prop :=
  f.machine.currentState = .goto ∨ f.machine.currentState = .altitudeAdjust →
    f.machine.latched = false ∧ mapFssState f.machine.fssCommand = f.machine.currentState ∧
      f.handed = Fmu.targetOf f.machine.currentState f.machine.fssCommandTarget

/-- A command that carries a target maps to its own state and hands that target over. -/
theorem carriesTarget_cases {cmd : FssCommand} (h : carriesTarget cmd) :
    (mapFssState cmd = .goto ∨ mapFssState cmd = .altitudeAdjust) ∧
      ∀ target, (commandTarget cmd target).isSome = true := by
  obtain rfl | rfl := h
  · exact ⟨Or.inl rfl, fun _ => rfl⟩
  · exact ⟨Or.inr rfl, fun _ => rfl⟩

/-- A state that carries a target is commanded by its own ground-station command. -/
theorem mapFssState_of_commandedState {m : FmuStateMachine} {state : FmuState}
    (h : m.commandedState = state) (hstate : state = .goto ∨ state = .altitudeAdjust) :
    mapFssState m.fssCommand = state := by
  unfold FmuStateMachine.commandedState at h
  split_ifs at h with hsearch
  · obtain rfl | rfl := hstate <;> cases hsmm : m.smmCommand <;> simp [hsmm, mapSmmState] at h
  · exact h

/-- A state that carries a target hands it over whatever was handed over before. -/
theorem targetOf_or {state : FmuState} (hstate : state = .goto ∨ state = .altitudeAdjust)
    (target : FssCommandTarget) (before : Option HandedTarget) :
    (Fmu.targetOf state target).or before = Fmu.targetOf state target := by
  obtain rfl | rfl := hstate <;> rfl

/-- A ground-station command hands over the target of the state it enters, or nothing. -/
theorem next_handed_fssNewCommand (f : Fmu) (cmd : FssCommand) (target : FssCommandTarget) :
    (f.next (.fssNewCommand cmd target)).handed =
      if (f.next (.fssNewCommand cmd target)).machine.currentState = f.machine.currentState then
        f.handed
      else (Fmu.targetOf (f.next (.fssNewCommand cmd target)).machine.currentState target).or
        f.handed := by
  have hretains := (f.machine.handle_fssNewCommand_retains cmd target).2
  rw [Fmu.next_machine, Fmu.next, FmuStateMachine.handle_fssNewCommand_snd]
  split_ifs with hsame
  · rfl
  · rw [Fmu.foldl_perform_actionState, hretains]

/-- A command resolves as actioned exactly when the machine ends in the commanded state. -/
theorem fssNewCommand_actioned_iff {f : Fmu} {cmd : FssCommand} (hcmd : carriesTarget cmd)
    (target : FssCommandTarget) :
    (f.machine.fssNewCommand cmd target).2.outcome = .actioned ↔
      (f.next (.fssNewCommand cmd target)).machine.currentState = mapFssState cmd := by
  have hcommanded : (f.machine.retainFssCommand cmd target).commandedState = mapFssState cmd := by
    obtain rfl | rfl := hcmd <;> rfl
  have hfst := (f.machine.retainFssCommand cmd target).updateAndAction_fst
  rw [Fmu.next_machine]
  simp only [FmuStateMachine.handle, FmuStateMachine.fssNewCommand, hfst, hcommanded,
    FmuStateMachine.resolveFssCommand]
  split_ifs with h <;> simp [h]

/-- Given in its own state, such a command leaves the machine there. -/
theorem next_currentState_of_same {f : Fmu} {cmd : FssCommand} (hcmd : carriesTarget cmd)
    (target : FssCommandTarget) (hinv : TargetInEffect f)
    (hsame : f.machine.currentState = mapFssState cmd) :
    (f.next (.fssNewCommand cmd target)).machine.currentState = mapFssState cmd := by
  have hunlatched := (hinv (hsame ▸ (carriesTarget_cases hcmd).1)).1
  have hevaluated : f.machine.evaluated (.fssNewCommand cmd target) =
      some (f.machine.retainFssCommand cmd target) := rfl
  have hne : (f.machine.retainFssCommand cmd target).fssCommand ≠ .cmdTerminate := by
    obtain rfl | rfl := hcmd <;> simp [FmuStateMachine.retainFssCommand]
  rw [Fmu.next_machine, FmuStateMachine.handle_fst_of_evaluated hevaluated,
    FmuStateMachine.updateState_fst, FmuStateMachine.engageTermination_of_ne _ hne]
  change FmuStateMachine.selectState _ = _
  rw [FmuStateMachine.selectState_of_unlatched (f.machine.retainFssCommand cmd target) hunlatched]
  obtain rfl | rfl := hcmd <;> rfl

/-- Where the retained target is in effect, a command hands its target over exactly when it
is not a changed target for the state the machine is already in. -/
theorem handsTarget_iff {f : Fmu} {e : FmuEvent} (hinv : TargetInEffect f) :
    HandsTarget f e ↔ KeepsTarget f e := by
  refine ⟨fun hhands cmd target he hcmd hsame => ?_, fun hkeeps cmd target he hcmd hact => ?_⟩
  · subst he
    have hnext := next_currentState_of_same hcmd target hinv hsame
    have hhanded := hhands cmd target rfl hcmd ((fssNewCommand_actioned_iff hcmd target).mpr hnext)
    rw [next_handed_fssNewCommand, if_pos (hnext.trans hsame.symm)] at hhanded
    rw [← hhanded, (hinv (hsame ▸ (carriesTarget_cases hcmd).1)).2.2, hsame]
    rfl
  · subst he
    have hnext := (fssNewCommand_actioned_iff hcmd target).mp hact
    rw [next_handed_fssNewCommand, hnext]
    split_ifs with hsame
    · rw [hkeeps cmd target rfl hcmd hsame.symm,
        (hinv (hsame ▸ (carriesTarget_cases hcmd).1)).2.2, ← hsame]
      rfl
    · exact targetOf_or (carriesTarget_cases hcmd).1 target f.handed

/-- An event that does not change the target in its own state keeps the retained target in
effect. -/
theorem targetInEffect_next {f : Fmu} {e : FmuEvent} (hinv : TargetInEffect f)
    (hkeeps : KeepsTarget f e) : TargetInEffect (f.next e) := by
  intro hstate
  have hmachine : (f.next e).machine.latched = false ∧
      mapFssState (f.next e).machine.fssCommand = (f.next e).machine.currentState := by
    rw [Fmu.next_machine] at hstate ⊢
    cases hu : f.machine.evaluated e with
    | none =>
      obtain ⟨low, breach, clear, h⟩ := FmuStateMachine.handle_fst_of_not_evaluated hu
      rw [h] at hstate ⊢
      exact ⟨(hinv hstate).1, (hinv hstate).2.1⟩
    | some u =>
      rw [FmuStateMachine.handle_fst_of_evaluated hu, FmuStateMachine.updateState_fst] at hstate ⊢
      change u.engageTermination.selectState = .goto ∨
        u.engageTermination.selectState = .altitudeAdjust at hstate
      have hunlatched := FmuStateMachine.unlatched_of_selectState u.engageTermination rfl
        (by obtain h | h := hstate <;> simp [h])
      have hcommanded := FmuStateMachine.selectState_of_unlatched _ hunlatched
      exact ⟨hunlatched, mapFssState_of_commandedState hcommanded.symm hstate⟩
  refine ⟨hmachine.1, hmachine.2, ?_⟩
  obtain ⟨hsame, -, hhanded⟩ | ⟨-, hhanded⟩ := f.next_cases e
  · rw [hhanded, (hinv (hsame ▸ hstate)).2.2, ← hsame]
    by_cases he : ∃ cmd target, e = .fssNewCommand cmd target
    · obtain ⟨cmd, target, rfl⟩ := he
      have hretains := f.machine.handle_fssNewCommand_retains cmd target
      rw [← Fmu.next_machine] at hretains
      rw [hretains.1] at hmachine
      have hcmd : carriesTarget cmd := by
        rw [← hmachine.2] at hstate
        cases cmd <;> simp [mapFssState, carriesTarget] at hstate ⊢
      rw [hretains.2, ← hmachine.2]
      exact (hkeeps cmd target rfl hcmd (hmachine.2.trans hsame).symm).symm
    · have hretains := FmuStateMachine.handle_retains (m := f.machine) (e := e)
        fun cmd target h => he ⟨cmd, target, h⟩
      rw [Fmu.next_machine f e, hretains.2]
  · rw [hhanded]
    exact targetOf_or hstate _ _

/-- In every run each actioned goto or altitude command hands its own target over exactly
when none of them changes the target of the state the machine is already in. -/
theorem handsTarget_throughout_iff (lowBatteryLatchCount : ℤ) (altitudeCapM : UInt16)
    (altitudeBreachLatchCount : ℤ) (events : List FmuEvent) :
    Along Fmu.step HandsTarget
        (Fmu.init lowBatteryLatchCount altitudeCapM altitudeBreachLatchCount) events ↔
      Along Fmu.step KeepsTarget
        (Fmu.init lowBatteryLatchCount altitudeCapM altitudeBreachLatchCount) events := by
  refine along_iff_along TargetInEffect (fun f e => handsTarget_iff) ?_ ?_ events
  · intro f e t hinv hkeeps hstep
    obtain rfl := Option.some.inj hstep
    exact targetInEffect_next hinv hkeeps
  · intro hstate
    simp [Fmu.init, FmuStateMachine.new] at hstate

/-- The ground station comes up and sends the aircraft to one altitude, then to another. -/
def altitudeThenAltitude : List FmuEvent :=
  [.setCommsFailure false, .fssNewCommand .cmdAltitude { altitude := 200 },
    .fssNewCommand .cmdAltitude { altitude := 300 }]

/-- The second altitude is resolved as actioned and never reaches the autopilot. -/
theorem altitudeThenAltitude_not_handed :
    ∃ f, run Fmu.step (Fmu.init 4 122 5) (altitudeThenAltitude.take 2) = some f ∧
      (f.machine.fssNewCommand .cmdAltitude { altitude := 300 }).2.outcome = .actioned ∧
      (f.next (.fssNewCommand .cmdAltitude { altitude := 300 })).handed = some (.altitude 200) ∧
      ¬ Along Fmu.step HandsTarget (Fmu.init 4 122 5) altitudeThenAltitude := by
  refine ⟨_, rfl, by decide, by decide, fun h => ?_⟩
  have hlaw := (((h.2 _ rfl).2 _ rfl).1 .cmdAltitude { altitude := 300 } rfl (Or.inr rfl)) (by decide)
  exact absurd hlaw (by decide)

end CapFmu
