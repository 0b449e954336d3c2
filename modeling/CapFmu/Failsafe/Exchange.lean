import CapFmu.Failsafe.Params
import CapFmu.Mav.Restart

/-!
# Reading the failsafe parameters back

A heartbeat makes the flight computer request the parameters of the autopilot's type, once for
each connection, restart and type. The autopilot answers with the values it holds, and may announce
a parameter that somebody else has asked for. A value is judged by the type last heard, which need
not be the one it was requested for. A request is lost when the link goes down under it, when its
send fails and when the autopilot reboots; what comes next re-arms the latch.

The autopilot holds the same values throughout. Where the conversion of a value is undefined, the
verdict is anything.
-/

namespace CapFmu

open Numeric (Binary32)
open Transition

/-- The width of the field that carries a parameter's name. -/
def paramIdLen : ℕ := 16

/-- A name in a field of fixed width, with zeros behind it; a name that fills it has none. -/
def packFixedWidthField (destLen : ℕ) (name : String) : List Char :=
  name.toList.take destLen ++ List.replicate (destLen - name.toList.length) '\x00'

/-- The name in a received field, up to its terminator if it has one. -/
def readFixedWidthField (field : List Char) : String :=
  .ofList (field.takeWhile fun c => c ≠ '\x00')

/-- A name that fits the field. -/
def FitsField (name : String) : Prop := name.toList.length ≤ paramIdLen ∧ '\x00' ∉ name.toList

instance (name : String) : Decidable (FitsField name) := inferInstanceAs (Decidable (_ ∧ _))

/-- A name that fits is read back. -/
theorem read_packFixedWidthField {name : String} (h : FitsField name) :
    readFixedWidthField (packFixedWidthField paramIdLen name) = name := by
  have hname : ∀ c ∈ name.toList, (decide (c ≠ '\x00')) = true := by
    intro c hc
    exact decide_eq_true fun hzero => h.2 (hzero ▸ hc)
  have hpadding : (List.replicate (paramIdLen - name.toList.length) '\x00').takeWhile
      (fun c => decide (c ≠ '\x00')) = [] := by
    cases paramIdLen - name.toList.length <;> simp [List.replicate_succ]
  rw [readFixedWidthField, packFixedWidthField, List.take_of_length_le h.1,
    List.takeWhile_append_of_pos hname, hpadding, List.append_nil, String.ofList_toList]

/-- Two names that fit and fill a field alike are the same. -/
theorem packFixedWidthField_injective {name name' : String} (h : FitsField name)
    (h' : FitsField name')
    (heq : packFixedWidthField paramIdLen name = packFixedWidthField paramIdLen name') :
    name = name' := by
  rw [← read_packFixedWidthField h, heq, read_packFixedWidthField h']

/-- The names that are requested fit. -/
theorem fitsField_of_expected {t : MavType} {action : TerminateAction} {check : FailsafeParamCheck}
    (h : check ∈ expectedFailsafeParams t action) : FitsField check.name := by
  have hall : ∀ check ∈ expectedFailsafeParams t action, FitsField check.name := by
    cases t <;> cases action <;> decide
  exact hall check h

/-- Each name is requested once. -/
theorem nodup_expectedFailsafeParams (t : MavType) (action : TerminateAction) :
    ((expectedFailsafeParams t action).map FailsafeParamCheck.name).Nodup := by
  cases t <;> cases action <;> decide

/-- An expected check is found by its name. -/
theorem find?_expectedFailsafeParams {t : MavType} {action : TerminateAction}
    {check : FailsafeParamCheck} (h : check ∈ expectedFailsafeParams t action) :
    (expectedFailsafeParams t action).find? (fun other => decide (check.name = other.name)) =
      some check := by
  cases hfound : (expectedFailsafeParams t action).find? fun other =>
      decide (check.name = other.name) with
  | none =>
    have hnone := List.find?_eq_none.mp hfound check h
    simp at hnone
  | some other =>
    have hname : check.name = other.name := by simpa using List.find?_some hfound
    have hmem := List.mem_of_find?_eq_some hfound
    rw [List.inj_on_of_nodup_map (nodup_expectedFailsafeParams t action) h hmem hname]

/-- What is logged about a value. -/
structure FailsafeWarning where
  check : FailsafeParamCheck
  value : Binary32

/-- The descriptor is published, retired with the recv thread not joined yet, or closed. -/
inductive ExchangeLink
  | published
  | retired
  | closed
  deriving DecidableEq, Repr

/-- The flight computer's side of the exchange, and what is on its way: the fields of the requests
and the replies. Whether the autopilot has rebooted since the last restart that was noticed is
recorded. -/
structure FailsafeExchange where
  termAction : TerminateAction
  autopilotType : UInt8 := 0
  sys : MavSys := { sysId := targetSysId }
  link : ExchangeLink := .closed
  broken : Bool := false
  rebooted : Bool := false
  requests : List (List Char) := []
  replies : List (List Char × Binary32) := []
  warnings : List FailsafeWarning := []

/-- What can happen. A heartbeat says which of its requests, if it makes any, fail to be sent, and a
reply what the verdict is where the conversion of its value is undefined. -/
inductive ExchangeLabel
  | heartbeat (type : UInt8) (fails : String → Bool)
  | answer
  | announce (name : String)
  | reply (undefinedVerdict : Bool)
  | reboot
  | restartNoticed
  | retire
  | close
  | connect

namespace FailsafeExchange

/-- The checks for the type last heard. -/
def expected (s : FailsafeExchange) : List FailsafeParamCheck :=
  expectedFailsafeParams (.ofByte s.autopilotType) s.termAction

/-- Request every parameter of the type; without a descriptor nothing is sent. -/
def checkFailsafeConfig (s : FailsafeExchange) (fails : String → Bool) : FailsafeExchange :=
  if s.link = .published then
    { s with
      requests := s.requests ++
        (s.expected.filter fun check => !fails check.name).map fun check =>
          packFixedWidthField paramIdLen check.name
      broken := s.broken || s.expected.any fun check => fails check.name }
  else s

/-- A heartbeat of the autopilot. -/
def heartbeat (s : FailsafeExchange) (type : UInt8) (fails : String → Bool) : FailsafeExchange :=
  let heard := { s with autopilotType := type }
  if s.sys.checkedFailsafeFor type then heard
  else { heard.checkFailsafeConfig fails with sys := s.sys.markFailsafeCheckedFor type }

/-- Judge a value by the type last heard. -/
def checkFailsafeParamReply (s : FailsafeExchange) (paramId : String) (value : Binary32)
    (undefinedVerdict : Bool) : FailsafeExchange :=
  match s.expected.find? fun check => decide (paramId = check.name) with
  | none => s
  | some check =>
    if (check.accept value).getD undefinedVerdict then s
    else { s with warnings := s.warnings ++ [{ check := check, value := value }] }

/-- The reply to a request, if the autopilot has the parameter. -/
def replyTo (params : String → Option Binary32) (name : String) : List (List Char × Binary32) :=
  (params name).toList.map fun value => (packFixedWidthField paramIdLen name, value)

/-- One step, for the values the autopilot holds. -/
def step (params : String → Option Binary32) (s : FailsafeExchange) :
    ExchangeLabel → Option FailsafeExchange
  | .heartbeat type fails => if s.link = .closed then none else some (s.heartbeat type fails)
  | .answer =>
    match s.requests with
    | [] => none
    | field :: rest =>
      some { s with
        requests := rest, replies := s.replies ++ replyTo params (readFixedWidthField field) }
  | .announce name =>
    if s.link = .published ∧ FitsField name then
      some { s with replies := s.replies ++ replyTo params name }
    else none
  | .reply undefinedVerdict =>
    match s.replies with
    | [] => none
    | (field, value) :: rest =>
      some (checkFailsafeParamReply { s with replies := rest } (readFixedWidthField field) value
        undefinedVerdict)
  | .reboot => some { s with requests := [], rebooted := true }
  | .restartNoticed =>
    if s.link = .closed then none else some { s with sys := s.sys.resetSetup, rebooted := false }
  | .retire =>
    if s.link = .published then some { s with link := .retired, requests := [] } else none
  | .close =>
    if s.link = .retired then
      some { s with link := .closed, replies := [], sys := s.sys.resetSetup }
    else none
  | .connect =>
    if s.link = .closed then some { s with link := .published, broken := false, rebooted := false }
    else none

/-- What is on its way: a request is of a name that fits, and a reply carries the autopilot's
value. -/
structure Genuine (params : String → Option Binary32) (s : FailsafeExchange) : Prop where
  requests : ∀ field ∈ s.requests, ∃ name, FitsField name ∧
    field = packFixedWidthField paramIdLen name
  replies : ∀ r ∈ s.replies, ∃ name, FitsField name ∧ r.1 = packFixedWidthField paramIdLen name ∧
    params name = some r.2

/-- A warning is about a value the autopilot holds of a parameter that is checked for some type,
and that its check does not accept. -/
def Justified (params : String → Option Binary32) (s : FailsafeExchange) : Prop :=
  ∀ w ∈ s.warnings, (∃ t, w.check ∈ expectedFailsafeParams t s.termAction) ∧
    params w.check.name = some w.value ∧ w.check.accept w.value ≠ some true

/-- The value is requested, on its way back, or was warned about. -/
def Pursued (s : FailsafeExchange) (check : FailsafeParamCheck) (value : Binary32) : Prop :=
  packFixedWidthField paramIdLen check.name ∈ s.requests ∨
    (packFixedWidthField paramIdLen check.name, value) ∈ s.replies ∨
      { check := check, value := value } ∈ s.warnings

/-- While the connection is good, every value that is not accepted for the type last heard is. -/
structure Watched (params : String → Option Binary32) (s : FailsafeExchange) : Prop where
  type : s.sys.failsafeChecked = true → s.sys.failsafeCheckedType = s.autopilotType
  unchecked : s.link = .closed → s.sys.failsafeChecked = false
  pursued : s.link = .published → s.broken = false → s.rebooted = false →
    s.sys.failsafeChecked = true → ∀ check ∈ s.expected, ∀ value,
      params check.name = some value → check.accept value = some false → s.Pursued check value

variable {params : String → Option Binary32} {s t : FailsafeExchange}

/-- A reply to a name that fits is genuine. -/
theorem genuine_replyTo {name : String} (hfits : FitsField name) :
    ∀ r ∈ replyTo params name, ∃ name, FitsField name ∧
      r.1 = packFixedWidthField paramIdLen name ∧ params name = some r.2 := by
  intro r hr
  obtain ⟨value, hvalue, rfl⟩ := List.mem_map.mp hr
  exact ⟨name, hfits, rfl, Option.mem_toList.mp hvalue⟩

/-- Judging a value adds a warning about it at most. -/
theorem checkFailsafeParamReply_cases (s : FailsafeExchange) (paramId : String) (value : Binary32)
    (undefinedVerdict : Bool) :
    s.checkFailsafeParamReply paramId value undefinedVerdict = s ∨
      ∃ check ∈ s.expected, check.name = paramId ∧ check.accept value ≠ some true ∧
        s.checkFailsafeParamReply paramId value undefinedVerdict =
          { s with warnings := s.warnings ++ [{ check := check, value := value }] } := by
  unfold checkFailsafeParamReply
  split
  · exact .inl rfl
  · next check hfound =>
    have hname : paramId = check.name := by simpa using List.find?_some hfound
    split_ifs with haccepted
    · exact .inl rfl
    · refine .inr ⟨check, List.mem_of_find?_eq_some hfound, hname.symm, fun haccept => ?_, rfl⟩
      simp [haccept] at haccepted

/-- A value that is not accepted is warned about. -/
theorem mem_warnings_checkFailsafeParamReply {check : FailsafeParamCheck} {value : Binary32}
    (hcheck : check ∈ s.expected) (haccept : check.accept value = some false)
    (undefinedVerdict : Bool) :
    { check := check, value := value } ∈
      (s.checkFailsafeParamReply check.name value undefinedVerdict).warnings := by
  have hfound : s.expected.find? (fun other => decide (check.name = other.name)) = some check :=
    find?_expectedFailsafeParams hcheck
  simp [checkFailsafeParamReply, hfound, haccept]

/-- The autopilot answers the request of a name. -/
theorem exists_of_answer (h : s.Genuine params) (hstep : s.step params .answer = some t) :
    ∃ name rest, FitsField name ∧ s.requests = packFixedWidthField paramIdLen name :: rest ∧
      t = { s with requests := rest, replies := s.replies ++ replyTo params name } := by
  simp only [step] at hstep
  split at hstep
  next => cases hstep
  next field rest hrequests =>
    obtain rfl := Option.some.inj hstep
    obtain ⟨name, hfits, rfl⟩ := h.requests field (hrequests ▸ List.mem_cons_self)
    exact ⟨name, rest, hfits, hrequests, by rw [read_packFixedWidthField hfits]⟩

/-- The flight computer judges the value of a name. -/
theorem exists_of_reply (h : s.Genuine params) {undefinedVerdict : Bool}
    (hstep : s.step params (.reply undefinedVerdict) = some t) :
    ∃ name value rest, FitsField name ∧ params name = some value ∧
      s.replies = (packFixedWidthField paramIdLen name, value) :: rest ∧
        t = checkFailsafeParamReply { s with replies := rest } name value undefinedVerdict := by
  simp only [step] at hstep
  split at hstep
  next => cases hstep
  next field value rest hreplies =>
    obtain rfl := Option.some.inj hstep
    obtain ⟨name, hfits, hfield, hvalue⟩ := h.replies (field, value) (hreplies ▸ List.mem_cons_self)
    simp only at hfield hvalue
    subst hfield
    exact ⟨name, value, rest, hfits, hvalue, hreplies, by rw [read_packFixedWidthField hfits]⟩

/-- A heartbeat requests names that fit, and changes nothing else that is on its way. -/
theorem genuine_heartbeat (h : s.Genuine params) (type : UInt8) (fails : String → Bool) :
    (s.heartbeat type fails).Genuine params := by
  unfold heartbeat checkFailsafeConfig
  simp only
  split_ifs
  · exact ⟨h.requests, h.replies⟩
  · refine ⟨fun field hfield => ?_, h.replies⟩
    cases List.mem_append.mp hfield with
    | inl hold => exact h.requests field hold
    | inr hnew =>
      obtain ⟨check, hcheck, rfl⟩ := List.mem_map.mp hnew
      exact ⟨check.name, fitsField_of_expected (List.mem_filter.mp hcheck).1, rfl⟩
  · exact ⟨h.requests, h.replies⟩

/-- What is on its way stays genuine. -/
theorem genuine_step {label : ExchangeLabel} (h : s.Genuine params)
    (hstep : s.step params label = some t) : t.Genuine params := by
  cases label with
  | heartbeat type fails =>
    simp only [step] at hstep
    split_ifs at hstep
    obtain rfl := Option.some.inj hstep
    exact genuine_heartbeat h type fails
  | answer =>
    obtain ⟨name, rest, hfits, hrequests, rfl⟩ := exists_of_answer h hstep
    refine ⟨fun field hfield => h.requests field (hrequests ▸ List.mem_cons_of_mem _ hfield),
      fun r hr => ?_⟩
    cases List.mem_append.mp hr with
    | inl hold => exact h.replies r hold
    | inr hnew => exact genuine_replyTo hfits r hnew
  | announce name =>
    simp only [step] at hstep
    split_ifs at hstep with hannounced
    obtain rfl := Option.some.inj hstep
    refine ⟨h.requests, fun r hr => ?_⟩
    cases List.mem_append.mp hr with
    | inl hold => exact h.replies r hold
    | inr hnew => exact genuine_replyTo hannounced.2 r hnew
  | reply undefinedVerdict =>
    obtain ⟨name, value, rest, -, -, hreplies, rfl⟩ := exists_of_reply h hstep
    have hrest : Genuine params { s with replies := rest } :=
      ⟨h.requests, fun r hr => h.replies r (hreplies ▸ List.mem_cons_of_mem _ hr)⟩
    obtain heq | ⟨check, -, -, -, heq⟩ :=
      checkFailsafeParamReply_cases { s with replies := rest } name value undefinedVerdict
    · rw [heq]
      exact hrest
    · rw [heq]
      exact ⟨hrest.requests, hrest.replies⟩
  | reboot =>
    obtain rfl := Option.some.inj hstep
    exact ⟨fun _ hfield => absurd hfield List.not_mem_nil, h.replies⟩
  | restartNoticed =>
    simp only [step] at hstep
    split_ifs at hstep
    obtain rfl := Option.some.inj hstep
    exact ⟨h.requests, h.replies⟩
  | retire =>
    simp only [step] at hstep
    split_ifs at hstep
    obtain rfl := Option.some.inj hstep
    exact ⟨fun _ hfield => absurd hfield List.not_mem_nil, h.replies⟩
  | close =>
    simp only [step] at hstep
    split_ifs at hstep
    obtain rfl := Option.some.inj hstep
    exact ⟨h.requests, fun _ hr => absurd hr List.not_mem_nil⟩
  | connect =>
    simp only [step] at hstep
    split_ifs at hstep
    obtain rfl := Option.some.inj hstep
    exact ⟨h.requests, h.replies⟩

/-- Only a reply adds a warning, and nothing changes what a termination does. -/
theorem warnings_step {label : ExchangeLabel} (h : s.Genuine params)
    (hstep : s.step params label = some t) :
    t.termAction = s.termAction ∧ (t.warnings = s.warnings ∨
      ∃ check ∈ s.expected, ∃ value, params check.name = some value ∧
        check.accept value ≠ some true ∧
          t.warnings = s.warnings ++ [{ check := check, value := value }]) := by
  cases label with
  | heartbeat type fails =>
    simp only [step] at hstep
    split_ifs at hstep
    obtain rfl := Option.some.inj hstep
    unfold heartbeat checkFailsafeConfig
    simp only
    split_ifs <;> exact ⟨rfl, .inl rfl⟩
  | answer =>
    obtain ⟨name, rest, -, -, rfl⟩ := exists_of_answer h hstep
    exact ⟨rfl, .inl rfl⟩
  | reply undefinedVerdict =>
    obtain ⟨name, value, rest, -, hvalue, -, rfl⟩ := exists_of_reply h hstep
    obtain heq | ⟨check, hcheck, rfl, hrejected, heq⟩ :=
      checkFailsafeParamReply_cases { s with replies := rest } name value undefinedVerdict
    · rw [heq]
      exact ⟨rfl, .inl rfl⟩
    · rw [heq]
      exact ⟨rfl, .inr ⟨check, hcheck, value, hvalue, hrejected, rfl⟩⟩
  | reboot =>
    obtain rfl := Option.some.inj hstep
    exact ⟨rfl, .inl rfl⟩
  | announce _ | restartNoticed | retire | close | connect =>
    simp only [step] at hstep
    split_ifs at hstep
    obtain rfl := Option.some.inj hstep
    exact ⟨rfl, .inl rfl⟩

/-- Warnings stay justified. -/
theorem justified_step {label : ExchangeLabel} (h : s.Justified params)
    (hgenuine : s.Genuine params) (hstep : s.step params label = some t) : t.Justified params := by
  obtain ⟨haction, hsame | ⟨check, hcheck, value, hvalue, hrejected, hadded⟩⟩ :=
    warnings_step hgenuine hstep
  · unfold Justified
    rw [haction, hsame]
    exact h
  · unfold Justified
    rw [haction, hadded]
    intro w hw
    cases List.mem_append.mp hw with
    | inl hold => exact h w hold
    | inr hnew =>
      rw [List.mem_singleton.mp hnew]
      exact ⟨⟨_, hcheck⟩, hvalue, hrejected⟩

/-- A heartbeat of the type that was checked changes nothing, and one of another type requests
everything that is expected for it. -/
theorem watched_heartbeat (h : s.Watched params) (hopen : s.link ≠ .closed) (type : UInt8)
    (fails : String → Bool) : (s.heartbeat type fails).Watched params := by
  by_cases hchecked : s.sys.checkedFailsafeFor type = true
  · obtain ⟨hlatched, htype⟩ : s.sys.failsafeChecked = true ∧ s.sys.failsafeCheckedType = type := by
      simpa [MavSys.checkedFailsafeFor] using hchecked
    have hsame : s.heartbeat type fails = s := by
      simp only [heartbeat, if_pos hchecked]
      rw [← htype, h.type hlatched]
    rw [hsame]
    exact h
  · unfold heartbeat checkFailsafeConfig
    simp only [if_neg hchecked]
    by_cases hpublished : s.link = .published
    · rw [if_pos hpublished]
      refine ⟨fun _ => rfl, fun hclosed => absurd hclosed hopen, ?_⟩
      intro _ hbroken _ _ check hcheck value _ _
      have hsent : fails check.name = false := by
        have hnone := (Bool.or_eq_false_iff.mp hbroken).2
        exact Bool.eq_false_iff.mpr (List.any_eq_false.mp hnone check hcheck)
      left
      apply List.mem_append_right
      apply List.mem_map_of_mem
      exact List.mem_filter.mpr ⟨hcheck, by rw [hsent]; rfl⟩
    · rw [if_neg hpublished]
      exact ⟨fun _ => rfl, fun hclosed => absurd hclosed hopen,
        fun hpublished' => absurd hpublished' hpublished⟩

/-- What takes nothing away from what is on its way and logged keeps the values watched. -/
theorem Watched.mono (h : s.Watched params) (htype : t.autopilotType = s.autopilotType)
    (haction : t.termAction = s.termAction) (hsys : t.sys = s.sys) (hlink : t.link = s.link)
    (hbroken : t.broken = s.broken) (hrebooted : t.rebooted = s.rebooted)
    (hpursued : ∀ check ∈ s.expected, ∀ value, params check.name = some value →
      check.accept value = some false → s.Pursued check value → t.Pursued check value) :
    t.Watched params where
  type hchecked := by
    rw [hsys] at hchecked ⊢
    rw [htype]
    exact h.type hchecked
  unchecked hclosed := by
    rw [hsys]
    exact h.unchecked (hlink ▸ hclosed)
  pursued hpublished hgood hseen hchecked check hcheck value hvalue hrejected := by
    have hexpected : t.expected = s.expected := by rw [expected, expected, htype, haction]
    rw [hexpected] at hcheck
    rw [hlink] at hpublished
    rw [hbroken] at hgood
    rw [hrebooted] at hseen
    rw [hsys] at hchecked
    exact hpursued check hcheck value hvalue hrejected
      (h.pursued hpublished hgood hseen hchecked check hcheck value hvalue hrejected)

/-- Values stay watched. -/
theorem watched_step {label : ExchangeLabel} (h : s.Watched params) (hgenuine : s.Genuine params)
    (hstep : s.step params label = some t) : t.Watched params := by
  cases label with
  | heartbeat type fails =>
    simp only [step] at hstep
    split_ifs at hstep with hclosed
    obtain rfl := Option.some.inj hstep
    exact watched_heartbeat h hclosed type fails
  | answer =>
    obtain ⟨name, rest, hfits, hrequests, rfl⟩ := exists_of_answer hgenuine hstep
    refine h.mono rfl rfl rfl rfl rfl rfl fun check hcheck value hvalue _ hpursued => ?_
    rcases hpursued with hrequest | hreply | hwarned
    · rw [hrequests] at hrequest
      cases List.mem_cons.mp hrequest with
      | inl hhead =>
        -- the request answered is the one for this parameter
        obtain rfl := packFixedWidthField_injective (fitsField_of_expected hcheck) hfits hhead
        refine .inr (.inl (List.mem_append_right _ ?_))
        simp [replyTo, hvalue]
      | inr htail => exact .inl htail
    · exact .inr (.inl (List.mem_append_left _ hreply))
    · exact .inr (.inr hwarned)
  | announce name =>
    simp only [step] at hstep
    split_ifs at hstep
    obtain rfl := Option.some.inj hstep
    refine h.mono rfl rfl rfl rfl rfl rfl fun check _ value _ _ hpursued => ?_
    exact hpursued.imp_right fun hlater => hlater.imp_left fun hreply =>
      List.mem_append_left _ hreply
  | reply undefinedVerdict =>
    obtain ⟨name, value, rest, hfits, -, hreplies, rfl⟩ := exists_of_reply hgenuine hstep
    have hframe := checkFailsafeParamReply_cases { s with replies := rest } name value
      undefinedVerdict
    have hkept (check : FailsafeParamCheck) (held : Binary32) (hcheck : check ∈ s.expected)
        (hrejected : check.accept held = some false) (hpursued : s.Pursued check held) :
        Pursued (checkFailsafeParamReply { s with replies := rest } name value undefinedVerdict)
          check held := by
      rcases hpursued with hrequest | hreply | hwarned
      · left
        obtain heq | ⟨other, -, -, -, heq⟩ := hframe <;> rw [heq] <;> exact hrequest
      · rw [hreplies] at hreply
        cases List.mem_cons.mp hreply with
        | inl hhead =>
          -- the value judged is that of this parameter
          obtain ⟨hfield, rfl⟩ := Prod.mk.injEq .. ▸ hhead
          obtain rfl := packFixedWidthField_injective (fitsField_of_expected hcheck) hfits hfield
          exact .inr (.inr (mem_warnings_checkFailsafeParamReply
            (s := { s with replies := rest }) hcheck hrejected _))
        | inr htail =>
          refine .inr (.inl ?_)
          obtain heq | ⟨other, -, -, -, heq⟩ := hframe <;> rw [heq] <;> exact htail
      · refine .inr (.inr ?_)
        obtain heq | ⟨other, -, -, -, heq⟩ := hframe
        · rw [heq]
          exact hwarned
        · rw [heq]
          exact List.mem_append_left _ hwarned
    obtain heq | ⟨other, -, -, -, heq⟩ := hframe <;> rw [heq] at hkept ⊢
    · exact h.mono rfl rfl rfl rfl rfl rfl fun check hcheck held _ => hkept check held hcheck
    · exact h.mono rfl rfl rfl rfl rfl rfl fun check hcheck held _ => hkept check held hcheck
  | reboot =>
    obtain rfl := Option.some.inj hstep
    exact ⟨h.type, h.unchecked, fun _ _ hseen => absurd hseen Bool.true_eq_false.mp⟩
  | restartNoticed =>
    simp only [step] at hstep
    split_ifs at hstep with hclosed
    obtain rfl := Option.some.inj hstep
    exact ⟨fun hchecked => absurd hchecked Bool.false_ne_true, fun _ => rfl,
      fun _ _ _ hchecked => absurd hchecked Bool.false_ne_true⟩
  | retire =>
    simp only [step] at hstep
    split_ifs at hstep
    obtain rfl := Option.some.inj hstep
    exact ⟨h.type, fun hclosed => absurd hclosed (by simp),
      fun hpublished => absurd hpublished (by simp)⟩
  | close =>
    simp only [step] at hstep
    split_ifs at hstep
    obtain rfl := Option.some.inj hstep
    exact ⟨fun hchecked => absurd hchecked Bool.false_ne_true, fun _ => rfl,
      fun _ _ _ hchecked => absurd hchecked Bool.false_ne_true⟩
  | connect =>
    simp only [step] at hstep
    split_ifs at hstep with hclosed
    obtain rfl := Option.some.inj hstep
    have hunchecked := h.unchecked hclosed
    exact ⟨h.type, fun hclosed' => absurd hclosed' (by simp),
      fun _ _ _ hchecked => absurd hchecked (by simp [hunchecked])⟩

/-- The exchange has come to rest on a good connection: the parameters of the type last heard were
requested, the requests answered and the replies judged. -/
structure Settled (s : FailsafeExchange) : Prop where
  published : s.link = .published
  sent : s.broken = false
  noticed : s.rebooted = false
  checked : s.sys.failsafeChecked = true
  requests : s.requests = []
  replies : s.replies = []

/-- In every run each warning is about a value that the autopilot holds and a check does not
accept. Once the exchange has come to rest, the values of the parameters that are expected for the
type last heard were warned about if and only if they are not accepted. -/
theorem warned_iff (params : String → Option Binary32) (termAction : TerminateAction)
    {labels : List ExchangeLabel}
    (hrun : run (step params) { termAction := termAction } labels = some s) :
    s.Justified params ∧ (s.Settled → ∀ check ∈ s.expected, ∀ value verdict,
      params check.name = some value → check.accept value = some verdict →
        ({ check := check, value := value } ∈ s.warnings ↔ verdict = false)) := by
  have hinv := invariant_of_run
    (fun s : FailsafeExchange => s.Genuine params ∧ s.Justified params ∧ s.Watched params)
    (fun _ _ _ h hstep => ⟨genuine_step h.1 hstep, justified_step h.2.1 h.1 hstep,
      watched_step h.2.2 h.1 hstep⟩)
    ⟨⟨by simp, by simp⟩, by simp [Justified], ⟨by simp, by simp, by simp⟩⟩ hrun
  obtain ⟨-, hjustified, hwatched⟩ := hinv
  refine ⟨hjustified, fun hsettled check hcheck value verdict hvalue hverdict => ?_⟩
  constructor
  · intro hwarned
    have hrejected := (hjustified _ hwarned).2.2
    simpa [hverdict] using hrejected
  · rintro rfl
    have hpursued := hwatched.pursued hsettled.published hsettled.sent hsettled.noticed
      hsettled.checked check hcheck value hvalue hverdict
    simpa [Pursued, hsettled.requests, hsettled.replies] using hpursued

/-- A plane that fails safe in AUTO only, and returns. -/
def autoOnlyPlane (name : String) : Option Binary32 :=
  if name = "FS_GCS_ENABL" then some (.ofNat 3 (Numeric.isBinary32_of_lt (by decide)))
  else if name = "FS_LONG_ACTN" then some (.ofNat 1 (Numeric.isBinary32_of_lt (by decide)))
  else none

/-- The exchange with a plane, whose first request is lost in a restart. -/
def planeExchange : List ExchangeLabel :=
  [.connect, .heartbeat 1 (fun _ => false), .reboot, .restartNoticed, .announce "FS_LONG_ACTN",
    .heartbeat 1 (fun _ => false), .answer, .reply true, .answer, .answer, .reply true, .reply true]

/-- The plane whose first request is lost is warned of one parameter, and not of the other. -/
theorem autoOnlyPlane_warned :
    ∃ s, run (step autoOnlyPlane) { termAction := .none } planeExchange = some s ∧ s.Settled ∧
      ∀ check ∈ s.expected, ∀ value verdict, autoOnlyPlane check.name = some value →
        check.accept value = some verdict →
          ({ check := check, value := value } ∈ s.warnings ↔ verdict = false) := by
  have hsettled : (run (step autoOnlyPlane) { termAction := .none } planeExchange).map
      (fun s => (s.link, s.broken, s.rebooted, s.sys.failsafeChecked, s.requests.isEmpty,
        s.replies.isEmpty)) = some (.published, false, false, true, true, true) := by
    decide +kernel
  obtain ⟨s, hrun, hs⟩ := Option.map_eq_some_iff.mp hsettled
  simp only [Prod.mk.injEq, List.isEmpty_iff] at hs
  obtain ⟨hlink, hbroken, hrebooted, hchecked, hrequests, hreplies⟩ := hs
  have hsettled : s.Settled := ⟨hlink, hbroken, hrebooted, hchecked, hrequests, hreplies⟩
  exact ⟨s, hrun, hsettled, (warned_iff autoOnlyPlane .none hrun).2 hsettled⟩

end FailsafeExchange

end CapFmu
