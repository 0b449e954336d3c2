import CapFmu.Failsafe.Params
import CapFmu.Mav.Restart
import CapFmu.Validation.Except
import Mathlib.Data.Int.Bitwise

/-!
# The ground tool's check of the autopilot's configuration

On the ground a tool reads the same parameters and judges them by its own table, which covers the
timeouts and one parameter more. The two tables are to be kept in step, and agree on every natural
number but for two parameters: the tool requires AFS to be enabled by a one, where the flight
computer takes any value but zero, and the flight computer converts the options of a copter to 32
bits. Nothing that the tool passes is warned about in flight.
-/

namespace CapFmu

open Numeric (Binary32 IsBinary32)

namespace Apconfig

/-- An expectation: a parameter, the rule in words, the rule, and why it matters. There is no
verdict where the conversion of the value to an integer raises an error. -/
structure Check where
  param : String
  expected : String
  accept : Binary32 → Verdict
  why : String

/-- The system id that the flight computer heartbeats as. -/
def fmuSystemId : ℕ := 200

/-- The longest acceptable time to detect a failsafe, in seconds. -/
def maxFailsafeTimeoutS : ℕ := 5

/-- A rule on the integer of the value. -/
def intSatisfies (rule : ℤ → Bool) (value : Binary32) : Verdict := value.truncate.map rule

/-- A bit of the integer is clear. -/
def bitClear (bit : ℕ) : Binary32 → Verdict := intSatisfies fun i => !i.testBit bit

/-- The checks of every family. -/
def commonChecks : List Check :=
  [{ param := "SYSID_MYGCS"
     expected := "== " ++ toString fmuSystemId
     accept := intSatisfies (· == fmuSystemId)
     why := "cap-fmu heartbeats as this system id; the GCS failsafe must watch it, " ++
       "not the ground station, or an FMU failure is invisible to the autopilot" },
   { param := "SYSID_ENFORCE"
     expected := "== 0"
     accept := intSatisfies (· == 0)
     why := "enforcing would reject every packet from any other system id, " ++
       "including the pilot's own GCS" }]

/-- A check of a timeout. -/
def timeoutCheck (param why : String) : Check :=
  { param := param
    expected := "<= " ++ toString maxFailsafeTimeoutS
    accept := fun value => some (value.atMost maxFailsafeTimeoutS)
    why := why }

/-- The checks of a family by its name. -/
def familyChecks : String → Option (List Check)
  | "plane" => some
    [{ param := "FS_GCS_ENABL"
       expected := "1 or 2"
       accept := intSatisfies ([1, 2].contains ·)
       why := "GCS failsafe enable; 3 only fails safe in AUTO, and cap-fmu also " ++
         "flies GUIDED and LOITER" },
     { param := "FS_LONG_ACTN"
       expected := "== 1 (RTL)"
       accept := intSatisfies (· == 1)
       why := "the default (0, Continue) means the failsafe fires and the aircraft " ++
         "carries on flying the mission in AUTO/GUIDED" },
     timeoutCheck "FS_LONG_TIMEOUT"
       "how long the FMU can be silent before the aircraft returns to launch"]
  | "copter" => some
    [{ param := "FS_GCS_ENABLE"
       expected := "1 or 3"
       accept := intSatisfies ([1, 3].contains ·)
       why := "GCS failsafe action: RTL, or SmartRTL falling back to RTL" },
     timeoutCheck "FS_GCS_TIMEOUT"
       "how long the FMU can be silent before the aircraft returns to launch",
     { param := "FS_OPTIONS"
       expected := "bit 1 clear"
       accept := bitClear 1
       why := "bit 1 continues the mission in AUTO on a GCS failsafe, which is the " ++
         "same trap as FS_LONG_ACTN=0 on Plane" }]
  | "rover" => some
    [{ param := "FS_GCS_ENABLE"
       expected := "== 1"
       accept := intSatisfies (· == 1)
       why := "2 continues the mission in Auto instead of failing safe" },
     { param := "FS_ACTION"
       expected := "1 or 3"
       accept := intSatisfies ([1, 3].contains ·)
       why := "the default is Hold; RTL (or SmartRTL falling back to RTL) is what " ++
         "the safety case assumes" },
     timeoutCheck "FS_TIMEOUT"
       "how long the FMU can be silent before the vehicle fails safe"]
  | _ => none

/-- The checks for an aircraft that is flown with a termination. -/
def terminateChecks : List Check :=
  [{ param := "AFS_ENABLE"
     expected := "== 1"
     accept := intSatisfies (· == 1)
     why := "MAV_CMD_DO_FLIGHTTERMINATION has no effect unless AFS is enabled" },
   { param := "AFS_TERM_ACTION"
     expected := "!= 0"
     accept := intSatisfies (· != 0)
     why := "the termination action itself must be configured" }]

/-- The errors of the tool: a family without expectations, or a value that is no integer. -/
inductive Error
  | noExpectations (family : String)
  | notAnInteger
  deriving DecidableEq, Repr

/-- Every check that applies to a family and to what a termination does. -/
def checksFor (family : String) (terminateAction : Option String) : Except Error (List Check) :=
  match familyChecks family with
  | none => .error (.noExpectations family)
  | some checks =>
    .ok (commonChecks ++ checks ++
      if terminateAction = some "terminate" then terminateChecks else [])

/-- The outcome of a check on an aircraft. -/
structure Result where
  param : String
  expected : String
  why : String
  value : Option Binary32
  passed : Bool

/-- Judge a value; a parameter that was not answered fails. -/
def Check.judge (check : Check) (value : Option Binary32) : Except Error Result :=
  let result (passed : Bool) : Result :=
    { param := check.param, expected := check.expected, why := check.why,
      value := value, passed := passed }
  match value with
  | none => .ok (result false)
  | some v => match check.accept v with
    | none => .error .notAnInteger
    | some accepted => .ok (result accepted)

/-- Judge the values that were fetched. -/
def evaluate (family : String) (params : String → Option Binary32)
    (terminateAction : Option String) : Except Error (List Result) := do
  let checks ← checksFor family terminateAction
  checks.mapM fun check => check.judge (params check.param)

/-- The family of a type of vehicle, as heartbeats number them. -/
def familyByMavType (type : ℕ) : Option String :=
  [(1, "plane"), (2, "copter"), (3, "copter"), (4, "copter"), (13, "copter"), (14, "copter"),
    (15, "copter"), (10, "rover")].lookup type

end Apconfig

/-- The name of a family in the tool. -/
def VehicleFamily.name : VehicleFamily → String
  | plane => "plane"
  | copter => "copter"
  | rover => "rover"

/-- The name of what a termination does, on the command lines of both programs. -/
def TerminateAction.name : TerminateAction → String
  | none => "none"
  | disarm => "disarm"
  | terminate => "terminate"

namespace Apconfig

/-- The flight computer and the tool reach the same verdict. -/
def SameVerdict (flight ground : Verdict) : Prop :=
  ∃ accepted, flight = some accepted ∧ ground = some accepted

/-- The values of a parameter that both tables judge alike. -/
def JudgedAlike (param : String) (n : ℕ) : Prop :=
  (param = "AFS_ENABLE" → n < 2) ∧ (param = "FS_OPTIONS" → n < 2 ^ 32)

/-- Two rules for a parameter are in step on the natural numbers: they reach the same verdict
exactly on the values judged alike, and what the tool accepts the flight computer does, as far as
it can convert it. -/
structure InStep (param : String) (flight ground : Binary32 → Verdict) : Prop where
  sameVerdict_iff : ∀ (n : ℕ) (hn : IsBinary32 n),
    SameVerdict (flight (.ofNat n hn)) (ground (.ofNat n hn)) ↔ JudgedAlike param n
  accepts : ∀ (n : ℕ) (hn : IsBinary32 n), n < 2 ^ 32 →
    ground (.ofNat n hn) = some true → flight (.ofNat n hn) = some true

section Verdicts

variable {n : ℕ} {h : IsBinary32 n}

/-- A rule is applied to the number itself. -/
@[simp] theorem intSatisfies_ofNat (rule : ℤ → Bool) :
    intSatisfies rule (.ofNat n h) = some (rule n) := by
  rw [intSatisfies, Binary32.truncate_ofNat, Option.map_some]

/-- The bit is a bit of the number. -/
@[simp] theorem bitClear_ofNat (bit : ℕ) : bitClear bit (.ofNat n h) = some (!n.testBit bit) :=
  intSatisfies_ofNat _

/-- Two verdicts are the same if they are equal. -/
@[simp] theorem sameVerdict_some_iff (a b : Bool) : SameVerdict (some a) (some b) ↔ a = b := by
  simp [SameVerdict, eq_comm]

/-- A missing verdict is not the same as any. -/
@[simp] theorem not_sameVerdict_none (v : Verdict) : ¬ SameVerdict none v := by
  simp [SameVerdict]

end Verdicts

section Tables

/-- Where AFS is not judged, checks with the same verdicts are in step. -/
theorem inStep_of_sameVerdict_iff {param : String} {flight ground : Binary32 → Verdict}
    (hsame : ∀ (n : ℕ) (hn : IsBinary32 n),
      SameVerdict (flight (.ofNat n hn)) (ground (.ofNat n hn)) ↔ JudgedAlike param n)
    (hafs : param ≠ "AFS_ENABLE") : InStep param flight ground where
  sameVerdict_iff := hsame
  accepts := by
    intro n hn hlt hground
    have halike : JudgedAlike param n := ⟨fun hparam => absurd hparam hafs, fun _ => hlt⟩
    obtain ⟨accepted, hflight, hsame⟩ := (hsame n hn).mpr halike
    rw [hflight, ← hsame, hground]

/-- Rules on the same values are in step, unless the parameter is one of the two judged apart. -/
theorem inStep_isOneOf {param : String} {accepted : List ℕ} {rule : ℤ → Bool}
    (hrule : ∀ n : ℕ, rule n = decide (n ∈ accepted)) (hafs : param ≠ "AFS_ENABLE")
    (hoptions : param ≠ "FS_OPTIONS") : InStep param (isOneOf accepted) (intSatisfies rule) := by
  apply inStep_of_sameVerdict_iff _ hafs
  intro n hn
  simp [JudgedAlike, hrule, hafs, hoptions]

/-- An integer that is one number. -/
theorem beq_natCast (k n : ℕ) : ((n : ℤ) == k) = decide (n ∈ [k]) := by
  rw [Bool.eq_iff_iff, beq_iff_eq, decide_eq_true_eq, Nat.cast_inj, List.mem_singleton]

/-- An integer that is one of two numbers. -/
theorem contains_pair (j k n : ℕ) : [(j : ℤ), k].contains n = decide (n ∈ [j, k]) := by
  rw [Bool.eq_iff_iff, List.contains_iff_mem, decide_eq_true_eq, List.mem_pair, List.mem_pair,
    Nat.cast_inj, Nat.cast_inj]

/-- The tool enables AFS by a one, the flight computer by any value but zero. -/
theorem inStep_afsEnable : InStep "AFS_ENABLE" isNonzero (intSatisfies (· == 1)) where
  sameVerdict_iff := by
    intro n hn
    have hone : JudgedAlike "AFS_ENABLE" n ↔ n < 2 := by simp [JudgedAlike]
    rw [intSatisfies_ofNat, isNonzero_ofNat, sameVerdict_some_iff, hone, Bool.eq_iff_iff,
      decide_eq_true_eq, beq_iff_eq]
    omega
  accepts := by
    intro n hn _ hground
    rw [intSatisfies_ofNat, Option.some_inj, beq_iff_eq] at hground
    rw [isNonzero_ofNat, Option.some_inj, decide_eq_true_eq]
    omega

/-- The flight computer and the tool take any termination action but none. -/
theorem inStep_afsTermAction : InStep "AFS_TERM_ACTION" isNonzero (intSatisfies (· != 0)) := by
  apply inStep_of_sameVerdict_iff _ (by decide)
  intro n hn
  have halike : JudgedAlike "AFS_TERM_ACTION" n := by simp [JudgedAlike]
  rw [intSatisfies_ofNat, isNonzero_ofNat, sameVerdict_some_iff]
  apply iff_of_true _ halike
  rw [Bool.eq_iff_iff, decide_eq_true_eq, bne_iff_ne]
  omega

/-- The flight computer has a verdict on the options of 32 bits only. -/
theorem inStep_fsOptions : InStep "FS_OPTIONS" continueInAutoClear (bitClear 1) := by
  apply inStep_of_sameVerdict_iff _ (by decide)
  intro n hn
  have hbits : JudgedAlike "FS_OPTIONS" n ↔ n < 2 ^ 32 := by simp [JudgedAlike]
  rw [hbits]
  by_cases hlt : n < 2 ^ 32
  · rw [continueInAutoClear_ofNat_of_lt hlt, bitClear_ofNat, sameVerdict_some_iff]
    exact iff_of_true rfl hlt
  · rw [continueInAutoClear_ofNat_of_le (Nat.not_lt.mp hlt)]
    exact iff_of_false (not_sameVerdict_none _) hlt

/-- What the tool has for a check of the flight computer. -/
def Counterpart (checks : List Check) (expected : FailsafeParamCheck) : Prop :=
  ∃ check ∈ checks, check.param = expected.name ∧
    InStep expected.name expected.accept check.accept

/-- A check stays a counterpart in a longer list. -/
theorem Counterpart.mono {checks more : List Check} {expected : FailsafeParamCheck}
    (h : Counterpart checks expected) (hsub : checks ⊆ more) : Counterpart more expected := by
  obtain ⟨check, hcheck, hstep⟩ := h
  exact ⟨check, hsub hcheck, hstep⟩

/-- The tool checks whose heartbeat is watched, of every family. -/
theorem counterpart_sysidMygcs : Counterpart commonChecks sysidMygcs := by
  exact ⟨_, List.mem_cons_self, rfl,
    inStep_isOneOf (beq_natCast 200) (by decide) (by decide)⟩

/-- The tool checks every parameter that a termination needs. -/
theorem counterpart_terminateParams :
    ∀ expected ∈ terminateParams, Counterpart terminateChecks expected := by
  unfold terminateParams
  simp only [List.forall_mem_cons]
  refine ⟨⟨_, List.mem_cons_self, rfl, inStep_afsEnable⟩,
    ⟨_, List.mem_cons_of_mem _ List.mem_cons_self, rfl, inStep_afsTermAction⟩, ?_⟩
  intro expected hexpected
  exact absurd hexpected List.not_mem_nil

/-- The tool checks every parameter that the failsafe of the family needs. -/
theorem counterpart_familyParams (family : VehicleFamily) :
    ∀ expected ∈ familyParams family,
      Counterpart ((familyChecks family.name).getD []) expected := by
  cases family with
  | plane =>
    refine List.forall_mem_cons.mpr ⟨?_, List.forall_mem_singleton.mpr ?_⟩
    · exact ⟨_, List.mem_cons_self, rfl,
        inStep_isOneOf (contains_pair 1 2) (by decide) (by decide)⟩
    · exact ⟨_, List.mem_cons_of_mem _ List.mem_cons_self, rfl,
        inStep_isOneOf (beq_natCast 1) (by decide) (by decide)⟩
  | copter =>
    refine List.forall_mem_cons.mpr ⟨?_, List.forall_mem_singleton.mpr ?_⟩
    · exact ⟨_, List.mem_cons_self, rfl,
        inStep_isOneOf (contains_pair 1 3) (by decide) (by decide)⟩
    · exact ⟨_, List.mem_cons_of_mem _ (List.mem_cons_of_mem _ List.mem_cons_self), rfl,
        inStep_fsOptions⟩
  | rover =>
    refine List.forall_mem_cons.mpr ⟨?_, List.forall_mem_singleton.mpr ?_⟩
    · exact ⟨_, List.mem_cons_self, rfl,
        inStep_isOneOf (beq_natCast 1) (by decide) (by decide)⟩
    · exact ⟨_, List.mem_cons_of_mem _ List.mem_cons_self, rfl,
        inStep_isOneOf (contains_pair 1 3) (by decide) (by decide)⟩

/-- The checks of the tool for a family and what a termination does. -/
def groundChecks (family : VehicleFamily) (action : TerminateAction) : List Check :=
  commonChecks ++ (familyChecks family.name).getD [] ++
    if action = .terminate then terminateChecks else []

/-- The tool has checks for every family. -/
theorem checksFor_name (family : VehicleFamily) (action : TerminateAction) :
    checksFor family.name (some action.name) = .ok (groundChecks family action) := by
  cases family <;> cases action <;> rfl

/-- The tool checks every parameter once. -/
theorem nodup_groundChecks (family : VehicleFamily) (action : TerminateAction) :
    ((groundChecks family action).map Check.param).Nodup := by
  cases family <;> cases action <;> decide

/-- The tool checks every parameter that the flight computer checks. -/
theorem counterpart_expectedFailsafeParams {t : MavType} {family : VehicleFamily}
    (ht : resolveVehicleFamily t = some family) (action : TerminateAction) :
    ∀ expected ∈ expectedFailsafeParams t action,
      Counterpart (groundChecks family action) expected := by
  intro expected hexpected
  unfold expectedFailsafeParams at hexpected
  rw [ht] at hexpected
  rcases List.mem_append.mp hexpected with hexpected | hsysid
  · rcases List.mem_append.mp hexpected with hterminate | hfamily
    · by_cases haction : action = .terminate
      · rw [if_pos haction] at hterminate
        apply (counterpart_terminateParams expected hterminate).mono
        unfold groundChecks
        rw [if_pos haction]
        exact List.subset_append_right _ _
      · rw [if_neg haction] at hterminate
        exact absurd hterminate List.not_mem_nil
    · apply (counterpart_familyParams family expected hfamily).mono
      exact List.Subset.trans (List.subset_append_right _ _) (List.subset_append_left _ _)
  · rw [List.mem_singleton.mp hsysid]
    apply counterpart_sysidMygcs.mono
    exact List.Subset.trans (List.subset_append_left _ _) (List.subset_append_left _ _)

end Tables

/-- For every family and every termination, two checks of one parameter reach the same verdict on
a natural number exactly if it is judged alike: every value is but an AFS that is enabled by more
than a one, and options of more than 32 bits. -/
theorem sameVerdict_iff {t : MavType} {family : VehicleFamily} {action : TerminateAction}
    {expected : FailsafeParamCheck} {checks : List Check} {check : Check} {n : ℕ}
    (ht : resolveVehicleFamily t = some family)
    (hexpected : expected ∈ expectedFailsafeParams t action)
    (hchecks : checksFor family.name (some action.name) = .ok checks) (hcheck : check ∈ checks)
    (hparam : check.param = expected.name) (hn : IsBinary32 n) :
    SameVerdict (expected.accept (.ofNat n hn)) (check.accept (.ofNat n hn)) ↔
      JudgedAlike expected.name n := by
  obtain ⟨counterpart, hcounterpart, hname, hstep⟩ :=
    counterpart_expectedFailsafeParams ht action expected hexpected
  rw [checksFor_name] at hchecks
  obtain rfl := Except.ok.inj hchecks
  have hsame : check = counterpart := List.inj_on_of_nodup_map (nodup_groundChecks family action)
    hcheck hcounterpart (hparam.trans hname.symm)
  rw [hsame]
  exact hstep.sameVerdict_iff n hn

/-- Options without the bit get the same verdict. -/
theorem fsOptions_four_judged_alike :
    SameVerdict (continueInAutoClear (.ofNat 4 (Numeric.isBinary32_of_lt (by decide))))
      (bitClear 1 (.ofNat 4 (Numeric.isBinary32_of_lt (by decide)))) := by
  have hexpected : (⟨"FS_OPTIONS", continueInAutoClear, _⟩ : FailsafeParamCheck) ∈
      expectedFailsafeParams .quadrotor .none := List.mem_cons_of_mem _ List.mem_cons_self
  have hcheck : (⟨"FS_OPTIONS", "bit 1 clear", bitClear 1, _⟩ : Check) ∈
      groundChecks .copter .none :=
    List.mem_append_left _ (List.mem_append_right _
      (List.mem_cons_of_mem _ (List.mem_cons_of_mem _ List.mem_cons_self)))
  have halike : JudgedAlike "FS_OPTIONS" 4 := ⟨by decide, by decide⟩
  have hfour : IsBinary32 (4 : ℕ) := Numeric.isBinary32_of_lt (by decide)
  exact (sameVerdict_iff rfl hexpected (checksFor_name .copter .none) hcheck rfl hfour).mpr halike

/-- AFS that is enabled by a two passes in flight and fails on the ground. -/
theorem afsEnable_two_judged_apart :
    ¬ ∀ (t : MavType) (family : VehicleFamily) (action : TerminateAction)
      (expected : FailsafeParamCheck) (checks : List Check) (check : Check) (n : ℕ)
      (hn : IsBinary32 n), resolveVehicleFamily t = some family →
      expected ∈ expectedFailsafeParams t action →
      checksFor family.name (some action.name) = .ok checks → check ∈ checks →
      check.param = expected.name →
      SameVerdict (expected.accept (.ofNat n hn)) (check.accept (.ofNat n hn)) := by
  intro h
  have htwo : IsBinary32 (2 : ℕ) := Numeric.isBinary32_of_lt (by decide)
  obtain ⟨check, hcheck, hparam, hstep⟩ :=
    counterpart_terminateParams _ List.mem_cons_self
  have hsame := h .quadrotor .copter .terminate _ _ check 2 htwo rfl List.mem_cons_self
    (checksFor_name .copter .terminate) (List.mem_append_right _ hcheck) hparam
  exact absurd (((hstep.sameVerdict_iff 2 htwo).mp hsame).1 rfl) (by decide)

section Evaluation

variable {check : Check} {value : Option Binary32} {result : Result}

/-- A check passes on a value that it accepts. -/
theorem exists_accept_of_judge (hjudge : check.judge value = .ok result)
    (hpassed : result.passed = true) : ∃ v, value = some v ∧ check.accept v = some true := by
  cases value with
  | none =>
    obtain rfl := Except.ok.inj hjudge
    exact absurd hpassed Bool.false_ne_true
  | some v =>
    refine ⟨v, rfl, ?_⟩
    unfold Check.judge at hjudge
    cases haccept : check.accept v with
    | none => simp [haccept] at hjudge
    | some accepted =>
      simp only [haccept, Except.ok.injEq] at hjudge
      subst hjudge
      exact congrArg some hpassed

/-- An autopilot that passes the tool, with natural numbers of 32 bits for its parameters, is not
warned about in flight. -/
theorem accepts_of_passed {t : MavType} {family : VehicleFamily} {action : TerminateAction}
    {params : String → Option Binary32} {results : List Result}
    (ht : resolveVehicleFamily t = some family)
    (hresults : evaluate family.name params (some action.name) = .ok results)
    (hpassed : ∀ result ∈ results, result.passed = true)
    (hnatural : ∀ param v, params param = some v →
      ∃ (n : ℕ) (hn : IsBinary32 n), n < 2 ^ 32 ∧ v = .ofNat n hn) :
    ∀ expected ∈ expectedFailsafeParams t action,
      ∃ v, params expected.name = some v ∧ expected.accept v = some true := by
  intro expected hexpected
  obtain ⟨check, hcheck, hparam, hstep⟩ :=
    counterpart_expectedFailsafeParams ht action expected hexpected
  obtain ⟨checks, hchecks, hjudged⟩ := Validation.bind_eq_ok.mp hresults
  rw [checksFor_name] at hchecks
  obtain rfl := Except.ok.inj hchecks
  obtain ⟨result, hresult, hjudge⟩ := Validation.exists_of_mapM_eq_ok hjudged check hcheck
  obtain ⟨v, hv, haccept⟩ := exists_accept_of_judge hjudge (hpassed result hresult)
  rw [hparam] at hv
  obtain ⟨n, hn, hlt, rfl⟩ := hnatural _ v hv
  exact ⟨_, hv, hstep.accepts n hn hlt haccept⟩

/-- The tool knows the families of the flight computer by their names. -/
theorem familyByMavType_eq (type : UInt8) :
    familyByMavType type.toNat =
      (resolveVehicleFamily (.ofByte type)).map VehicleFamily.name := by
  have hne {k : UInt8} (h : type ≠ k) : (type.toNat != k.toNat) = true :=
    bne_iff_ne.mpr fun heq => h (UInt8.toNat_inj.mp heq)
  obtain rfl | h1 := eq_or_ne type 1
  · rfl
  obtain rfl | h2 := eq_or_ne type 2
  · rfl
  obtain rfl | h3 := eq_or_ne type 3
  · rfl
  obtain rfl | h4 := eq_or_ne type 4
  · rfl
  obtain rfl | h10 := eq_or_ne type 10
  · rfl
  obtain rfl | h13 := eq_or_ne type 13
  · rfl
  obtain rfl | h14 := eq_or_ne type 14
  · rfl
  obtain rfl | h15 := eq_or_ne type 15
  · rfl
  rw [MavType.ofByte, if_neg h1, if_neg h2, if_neg h3, if_neg h4, if_neg h10, if_neg h13,
    if_neg h14, if_neg h15]
  apply List.lookup_eq_none_iff.mpr
  simp only [List.forall_mem_cons]
  exact ⟨hne h1, hne h2, hne h3, hne h4, hne h13, hne h14, hne h15, hne h10,
    fun p hp => absurd hp List.not_mem_nil⟩

end Evaluation

end Apconfig

end CapFmu
