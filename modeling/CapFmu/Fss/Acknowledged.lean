import CapFmu.Fss.CommandQueue
import CapFmu.Transition.Progress

/-!
# Every copy of a command is acknowledged once

A copy of a command is confirmed as it arrives, and a second acknowledgement tells its server what
became of it. The second one comes from wherever the copy is by then: it is rejected, it is stale,
its group was resolved before, its group is displaced by a newer command, or the resolution arrives
from the state machine. None of these gives two acknowledgements, and once everything has come to
rest none is missing.
-/

namespace CapFmu

open Transition

/-- The copy that a step delivers. -/
def FssStep.copy? {Conn : Type*} : FssStep Conn → Option (PendingCommandAck Conn)
  | deliver conn msg => some (copyOf conn msg)
  | enqueue _ | enqueueOther _ | dispatch | sendAcks => none

/-- An acknowledgement of a resolved command is not a confirmation. -/
theorem fssCommandAckOutcomeFor_ne_received (res : FssCommandResolution) :
    fssCommandAckOutcomeFor res ≠ .received := by
  unfold fssCommandAckOutcomeFor
  split_ifs <;> simp

/-- Acknowledgements after the confirmation, one for each target. -/
structure Answers {Conn : Type*} (answer : PendingCommandAck Conn → CommandAck Conn) : Prop where
  copy : ∀ target, (answer target).copy = target
  outcome : ∀ target, (answer target).outcome ≠ .received

/-- A rejection answers. -/
theorem answers_rejected {Conn : Type*} :
    Answers fun target : PendingCommandAck Conn => { copy := target, outcome := .rejected } :=
  ⟨fun _ => rfl, fun _ => by simp⟩

/-- The outcome of a resolved command answers. -/
theorem answers_ackPending {Conn : Type*} (res : FssCommandResolution) :
    Answers (ackPending res : PendingCommandAck Conn → CommandAck Conn) :=
  ⟨fun _ => rfl, fun _ => fssCommandAckOutcomeFor_ne_received res⟩

/-- The word of a newer command answers. -/
theorem answers_ackStale {Conn : Type*} :
    Answers (ackStale : PendingCommandAck Conn → CommandAck Conn) :=
  ⟨fun _ => rfl, fun _ => by simp [ackStale]⟩

section Count

variable {Conn : Type*} [DecidableEq Conn]

/-- How often a copy is confirmed. -/
def countReceived (acks : List (CommandAck Conn)) (copy : PendingCommandAck Conn) : ℕ :=
  acks.countP fun ack => ack.copy = copy ∧ ack.outcome = .received

/-- How often a copy is acknowledged after its confirmation. -/
def countAnswered (acks : List (CommandAck Conn)) (copy : PendingCommandAck Conn) : ℕ :=
  acks.countP fun ack => ack.copy = copy ∧ ack.outcome ≠ .received

variable (copy : PendingCommandAck Conn)

/-- Confirmations add up. -/
@[simp] theorem countReceived_append (acks acks' : List (CommandAck Conn)) :
    countReceived (acks ++ acks') copy = countReceived acks copy + countReceived acks' copy :=
  List.countP_append

/-- The acknowledgements after the confirmation add up. -/
@[simp] theorem countAnswered_append (acks acks' : List (CommandAck Conn)) :
    countAnswered (acks ++ acks') copy = countAnswered acks copy + countAnswered acks' copy :=
  List.countP_append

/-- Copies that are answered are not confirmed. -/
theorem countReceived_map {answer : PendingCommandAck Conn → CommandAck Conn} (h : Answers answer)
    (targets : List (PendingCommandAck Conn)) : countReceived (targets.map answer) copy = 0 := by
  unfold countReceived
  rw [List.countP_eq_zero]
  intro ack hack
  obtain ⟨target, -, rfl⟩ := List.mem_map.mp hack
  simp [h.outcome target]

/-- Each copy that an answer is sent for is answered. -/
theorem countAnswered_map {answer : PendingCommandAck Conn → CommandAck Conn} (h : Answers answer)
    (targets : List (PendingCommandAck Conn)) :
    countAnswered (targets.map answer) copy = targets.count copy := by
  unfold countAnswered
  rw [List.countP_map, List.count]
  apply List.countP_congr
  intro target _
  simp [h.copy target, h.outcome target]

end Count

section Handling

variable {Conn Key : Type*} [DecidableEq Key] (code : AssetCommand → ℤ) (originKey : Conn → Key)
  (g : CommandAckGroup Key (PendingCommandAck Conn)) (conn : Conn) (msg : AssetCommandMessage)

/-- Handling a message confirms its copy and answers some targets, and these with the copies then
pending are the copies pending before with the one that arrived. -/
theorem handleCommandFrom_answers : ∃ answer targets, Answers answer ∧
    (handleCommandFrom code originKey g conn msg).acks =
      { copy := copyOf conn msg, outcome := .received } :: targets.map answer ∧
      (targets ++ (handleCommandFrom code originKey g conn msg).group.pending).Perm
        (g.pending ++ [copyOf conn msg]) := by
  unfold handleCommandFrom
  cases msg.actionable with
  | none => exact ⟨_, [copyOf conn msg], answers_rejected, rfl, List.perm_append_comm⟩
  | some command =>
    obtain ⟨-, -, -, -, h⟩ | ⟨-, -, -, -, h⟩ | ⟨-, -, h⟩ :=
      g.onDelivery_cases (deliveryOf code originKey conn msg)
    · simp only [h, CommandAckGroup.joinGroup]
      cases g.resolution with
      | none => exact ⟨_, [], answers_ackStale, rfl, List.Perm.refl _⟩
      | some resolution =>
        exact ⟨_, [copyOf conn msg], answers_ackPending resolution, rfl, List.perm_append_comm⟩
    · simp only [h]
      exact ⟨_, [copyOf conn msg], answers_ackStale, rfl, List.perm_append_comm⟩
    · simp only [h, CommandAckGroup.openGroup]
      exact ⟨_, g.pending, answers_ackStale, rfl, List.Perm.refl _⟩

/-- A message that reports nothing leaves the state of the group alone, and the pending copies too
unless it joins them; one that reports a command has opened an unresolved group for it. -/
theorem handleCommandFrom_group :
    ((handleCommandFrom code originKey g conn msg).report = none ∧
        (handleCommandFrom code originKey g conn msg).group.active = g.active ∧
        (handleCommandFrom code originKey g conn msg).group.resolution = g.resolution ∧
        (handleCommandFrom code originKey g conn msg).group.epoch = g.epoch ∧
        ((handleCommandFrom code originKey g conn msg).group.pending = g.pending ∨
          g.active = true ∧ g.resolution = none)) ∨
      ∃ e, (handleCommandFrom code originKey g conn msg).report = some e ∧
        (handleCommandFrom code originKey g conn msg).group.epoch = e.epoch ∧
        (handleCommandFrom code originKey g conn msg).group.active = true ∧
        (handleCommandFrom code originKey g conn msg).group.resolution = none := by
  unfold handleCommandFrom
  cases msg.actionable with
  | none => exact .inl ⟨rfl, rfl, rfl, rfl, .inl rfl⟩
  | some command =>
    obtain ⟨hactive, -, -, -, h⟩ | ⟨-, -, -, -, h⟩ | ⟨-, -, h⟩ :=
      g.onDelivery_cases (deliveryOf code originKey conn msg)
    · left
      simp only [h, CommandAckGroup.joinGroup]
      cases g.resolution with
      | none => exact ⟨rfl, rfl, rfl, rfl, .inr ⟨hactive, rfl⟩⟩
      | some resolution => exact ⟨rfl, rfl, rfl, rfl, .inl rfl⟩
    · left
      simp [h]
    · right
      rw [h]
      exact ⟨_, rfl, rfl, rfl, rfl⟩

end Handling

namespace FssSystem

variable {Conn Key : Type*}

/-- The outcome of the command that an epoch opened is on its way: the command is with its recv
thread or in the queue, or its resolution waits for the worker. -/
def InFlight (s : FssSystem Conn Key) (epoch : ℕ) : Prop :=
  (∃ conn e, s.recv conn = some e ∧ e.epoch = epoch) ∨
    (∃ e, .command e ∈ s.eventQueue ∧ e.epoch = epoch) ∨ ∃ res, (epoch, res) ∈ s.ackTasks

/-- An unresolved group has its outcome on the way, and only such a group has pending copies. -/
structure Attends (s : FssSystem Conn Key) : Prop where
  inFlight : s.group.active = true → s.group.resolution = none → s.InFlight s.group.epoch
  pending : s.group.pending ≠ [] → s.group.active = true ∧ s.group.resolution = none

/-- Everything has come to rest. -/
structure Settled (s : FssSystem Conn Key) : Prop where
  quiescent : s.Quiescent
  ackTasks : s.ackTasks = []

/-- At rest no outcome is on its way. -/
theorem Settled.not_inFlight {s : FssSystem Conn Key} (h : s.Settled) (epoch : ℕ) :
    ¬s.InFlight epoch := by
  rintro (⟨conn, e, hrecv, -⟩ | ⟨e, hqueue, -⟩ | ⟨res, htask⟩)
  · exact absurd (hrecv.symm.trans (h.quiescent.1 conn)) (Option.some_ne_none e)
  · rw [h.quiescent.2] at hqueue
    exact List.not_mem_nil hqueue
  · rw [h.ackTasks] at htask
    exact List.not_mem_nil htask

/-- At rest no copy is pending. -/
theorem Attends.pending_eq_nil {s : FssSystem Conn Key} (h : s.Attends) (hsettled : s.Settled) :
    s.group.pending = [] := by
  by_contra hpending
  obtain ⟨hactive, hresolution⟩ := h.pending hpending
  exact hsettled.not_inFlight _ (h.inFlight hactive hresolution)

/-- Before any delivery the group is not open. -/
theorem attends_init (toleranceMs : ℕ) (machine : FmuStateMachine) :
    (init toleranceMs machine : FssSystem Conn Key).Attends where
  inFlight hactive := absurd hactive Bool.false_ne_true
  pending hpending := absurd rfl hpending

section Steps

variable [DecidableEq Conn] [DecidableEq Key] {code : AssetCommand → ℤ} {originKey : Conn → Key}
  {s t : FssSystem Conn Key}

/-- Handling a message keeps the outcome of the open group on its way. -/
theorem attends_handleMessage (h : s.Attends) {conn : Conn} (hidle : s.recv conn = none)
    (msg : AssetCommandMessage) : (s.handleMessage code originKey conn msg).Attends := by
  obtain ⟨hreport, hactive, hresolution, hepoch, hpending⟩ |
      ⟨e, hreport, hepoch, hactive, hresolution⟩ :=
    handleCommandFrom_group code originKey s.group conn msg
  · have hrecv : (s.handleMessage code originKey conn msg).recv = s.recv := by
      simp only [handleMessage, hreport]
      exact Function.update_eq_self_iff.mpr hidle.symm
    constructor
    · intro hopen hnone
      have hflight := h.inFlight (hactive ▸ hopen) (hresolution ▸ hnone)
      unfold InFlight at hflight ⊢
      rw [hrecv]
      change _ ∨ _ ∨ _ at hflight
      simp only [handleMessage, hepoch]
      exact hflight
    · intro hsome
      simp only [handleMessage, hactive, hresolution] at hsome ⊢
      cases hpending with
      | inl hsame => exact h.pending (hsame ▸ hsome)
      | inr hopen => exact hopen
  · constructor
    · intro _ _
      refine .inl ⟨conn, e, ?_, hepoch.symm⟩
      simp only [handleMessage, hreport]
      exact Function.update_self _ _ _
    · exact fun _ => ⟨hactive, hresolution⟩

/-- Every step keeps the outcome of the open group on its way. -/
theorem attends_step (h : s.Attends) {label : FssStep Conn}
    (ht : s.step code originKey label = some t) : t.Attends := by
  cases label with
  | deliver conn msg =>
    simp only [step] at ht
    split at ht
    next hidle =>
      obtain rfl := Option.some.inj ht
      exact attends_handleMessage h hidle msg
    next => cases ht
  | enqueue conn =>
    obtain ⟨e, hheld, rfl⟩ := Option.map_eq_some_iff.mp ht
    refine ⟨fun hopen hnone => ?_, h.pending⟩
    rcases h.inFlight hopen hnone with ⟨other, a, hother, ha⟩ | ⟨a, hqueue, ha⟩ | htask
    · by_cases hne : other = conn
      · subst hne
        obtain rfl := Option.some.inj (hother.symm.trans hheld)
        exact .inr (.inl ⟨a, List.mem_append_right _ (List.mem_singleton.mpr rfl), ha⟩)
      · exact .inl ⟨other, a, (Function.update_of_ne hne _ _).trans hother, ha⟩
    · exact .inr (.inl ⟨a, List.mem_append_left _ hqueue, ha⟩)
    · exact .inr (.inr htask)
  | enqueueOther e =>
    obtain rfl := Option.some.inj ht
    refine ⟨fun hopen hnone => ?_, h.pending⟩
    rcases h.inFlight hopen hnone with hrecv | ⟨a, hqueue, ha⟩ | htask
    · exact .inl hrecv
    · exact .inr (.inl ⟨a, List.mem_append_left _ hqueue, ha⟩)
    · exact .inr (.inr htask)
  | dispatch =>
    simp only [step] at ht
    split at ht
    next => cases ht
    next event rest hqueue =>
      obtain rfl := Option.some.inj ht
      have hmoves (hflight : s.InFlight s.group.epoch) :
          (s.dispatchEvent rest event).InFlight s.group.epoch := by
        rcases hflight with hrecv | ⟨a, ha, hepoch⟩ | ⟨res, htask⟩
        · cases event <;> exact .inl hrecv
        · rw [hqueue] at ha
          cases List.mem_cons.mp ha with
          | inl hhead =>
            subst hhead
            refine .inr (.inr ⟨(s.machine.fssNewCommand a.command a.target).2, ?_⟩)
            rw [← hepoch]
            exact List.mem_append_right _ (List.mem_singleton.mpr rfl)
          | inr htail => cases event <;> exact .inr (.inl ⟨a, htail, hepoch⟩)
        · refine .inr (.inr ⟨res, ?_⟩)
          cases event with
          | command e => exact List.mem_append_left _ htask
          | other e => exact htask
      cases event with
      | command e => exact ⟨fun hopen hnone => hmoves (h.inFlight hopen hnone), h.pending⟩
      | other e => exact ⟨fun hopen hnone => hmoves (h.inFlight hopen hnone), h.pending⟩
  | sendAcks =>
    simp only [step] at ht
    split at ht
    next => cases ht
    next epoch res rest htasks =>
      obtain rfl := Option.some.inj ht
      by_cases hepoch : s.group.epoch = epoch
      · have hresolve : s.group.resolve epoch res =
            ({ s.group with resolution := some res, pending := [] }, s.group.pending) := by
          rw [CommandAckGroup.resolve, if_neg (not_not.mpr hepoch)]
        simp only [hresolve]
        exact ⟨fun _ hnone => absurd hnone (Option.some_ne_none res),
          fun hpending => absurd rfl hpending⟩
      · have hresolve : s.group.resolve epoch res = (s.group, []) := by
          rw [CommandAckGroup.resolve, if_pos hepoch]
        simp only [hresolve]
        refine ⟨fun hopen hnone => ?_, h.pending⟩
        rcases h.inFlight hopen hnone with hrecv | hqueue | ⟨res', htask⟩
        · exact .inl hrecv
        · exact .inr (.inl hqueue)
        · rw [htasks] at htask
          cases List.mem_cons.mp htask with
          | inl hhead => exact absurd (congrArg Prod.fst hhead) hepoch
          | inr htail => exact .inr (.inr ⟨res', htail⟩)

/-- Handling a message confirms its copy. -/
theorem countReceived_handleMessage (conn : Conn) (msg : AssetCommandMessage)
    (copy : PendingCommandAck Conn) :
    countReceived (s.handleMessage code originKey conn msg).acks copy =
      countReceived s.acks copy + if some (copyOf conn msg) = some copy then 1 else 0 := by
  obtain ⟨answer, targets, hanswer, hacks, -⟩ :=
    handleCommandFrom_answers code originKey s.group conn msg
  simp only [handleMessage, countReceived_append, hacks]
  rw [← List.singleton_append, countReceived_append, countReceived_map copy hanswer]
  simp [countReceived, List.countP_cons]

/-- Handling a message answers its copy or has it pending, with the copies that were pending before.
-/
theorem countAnswered_handleMessage (conn : Conn) (msg : AssetCommandMessage)
    (copy : PendingCommandAck Conn) :
    countAnswered (s.handleMessage code originKey conn msg).acks copy +
        (s.handleMessage code originKey conn msg).group.pending.count copy =
      countAnswered s.acks copy + s.group.pending.count copy +
        if some (copyOf conn msg) = some copy then 1 else 0 := by
  obtain ⟨answer, targets, hanswer, hacks, hperm⟩ :=
    handleCommandFrom_answers code originKey s.group conn msg
  have hcount := hperm.count_eq copy
  rw [List.count_append, List.count_append, List.count_singleton] at hcount
  simp only [handleMessage, countAnswered_append, hacks]
  rw [← List.singleton_append, countAnswered_append, countAnswered_map copy hanswer]
  have hreceived : countAnswered [{ copy := copyOf conn msg, outcome := .received }] copy = 0 := by
    simp [countAnswered]
  simp only [beq_iff_eq, Option.some.injEq] at hcount ⊢
  omega

/-- A step confirms the copy that it delivers, and no other. -/
theorem countReceived_step {label : FssStep Conn} (copy : PendingCommandAck Conn)
    (ht : s.step code originKey label = some t) :
    countReceived t.acks copy =
      countReceived s.acks copy + if label.copy? = some copy then 1 else 0 := by
  cases label with
  | deliver conn msg =>
    simp only [step] at ht
    split at ht
    next =>
      obtain rfl := Option.some.inj ht
      exact countReceived_handleMessage conn msg copy
    next => cases ht
  | enqueue conn =>
    obtain ⟨e, -, rfl⟩ := Option.map_eq_some_iff.mp ht
    rfl
  | enqueueOther e =>
    obtain rfl := Option.some.inj ht
    rfl
  | dispatch =>
    simp only [step] at ht
    split at ht
    next => cases ht
    next event rest _ =>
      obtain rfl := Option.some.inj ht
      cases event <;> rfl
  | sendAcks =>
    simp only [step] at ht
    split at ht
    next => cases ht
    next epoch res rest _ =>
      obtain rfl := Option.some.inj ht
      rw [countReceived_append, countReceived_map copy (answers_ackPending res)]
      simp [FssStep.copy?]

/-- A step answers or keeps the copy that it delivers, and answers a copy at most that it kept. -/
theorem countAnswered_step {label : FssStep Conn} (copy : PendingCommandAck Conn)
    (ht : s.step code originKey label = some t) :
    countAnswered t.acks copy + t.group.pending.count copy =
      countAnswered s.acks copy + s.group.pending.count copy +
        if label.copy? = some copy then 1 else 0 := by
  cases label with
  | deliver conn msg =>
    simp only [step] at ht
    split at ht
    next =>
      obtain rfl := Option.some.inj ht
      exact countAnswered_handleMessage conn msg copy
    next => cases ht
  | enqueue conn =>
    obtain ⟨e, -, rfl⟩ := Option.map_eq_some_iff.mp ht
    rfl
  | enqueueOther e =>
    obtain rfl := Option.some.inj ht
    rfl
  | dispatch =>
    simp only [step] at ht
    split at ht
    next => cases ht
    next event rest _ =>
      obtain rfl := Option.some.inj ht
      cases event <;> rfl
  | sendAcks =>
    simp only [step] at ht
    split at ht
    next => cases ht
    next epoch res rest _ =>
      obtain rfl := Option.some.inj ht
      rw [countAnswered_append, countAnswered_map copy (answers_ackPending res)]
      -- the copies answered are the pending ones, or the group is another by now
      by_cases hepoch : s.group.epoch = epoch
      · rw [CommandAckGroup.resolve, if_neg (not_not.mpr hepoch)]
        simp [FssStep.copy?]
      · rw [CommandAckGroup.resolve, if_pos hepoch]
        simp [FssStep.copy?]

end Steps

/-- A hold that a return to launch displaces before its outcome is known, and the redundant copy
of the return, which comes after. -/
def displacedHold : List (FssStep Bool) :=
  [.deliver false { id := 7, command := .hold, timestamp := 1000 }, .enqueue false,
    .deliver true { id := 3, command := .rtl, timestamp := 2000 }, .enqueue true, .dispatch,
    .dispatch, .sendAcks, .sendAcks, .deliver false { id := 8, command := .rtl, timestamp := 2000 }]

end FssSystem

end CapFmu
