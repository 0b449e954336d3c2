import CapFmu.Fss.CommandClient
import CapFmu.StateMachine.Arbitration
import Mathlib.Data.List.Nodup

/-!
# From the recv threads to the state machine

The group orders the commands under its lock; the recv thread that opened one enqueues it
for the event loop later, after the acknowledgements of the displaced copies went out on the
wire. Two recv threads can therefore enqueue in the opposite order, and the state machine is
left with the command that the group treats as replaced. When no command is enqueued after a
newer one, the state machine ends with the newest.
-/

namespace CapFmu

open Transition

/-- Whether the event is a ground-station command. -/
def FmuEvent.isCommand : FmuEvent → Bool
  | .fssNewCommand _ _ => true
  | _ => false

/-- An event of another source than the recv threads, which alone report commands. -/
abbrev OtherEvent := { e : FmuEvent // e.isCommand = false }

/-- An event in the queue of the event loop: a reported command, or any other event. -/
inductive QueuedEvent
  | command (e : FssCommandEvent)
  | other (e : OtherEvent)

/-- The reported command of a queued event. -/
def QueuedEvent.command? : QueuedEvent → Option FssCommandEvent
  | .command e => some e
  | .other _ => none

/-- The ground-station client, the event loop's queue and the state machine. A recv thread
holds the event it has yet to enqueue. The commands opened and the commands enqueued are
recorded in order, for the statements only. -/
structure FssSystem (Conn Key : Type*) where
  group : CommandAckGroup Key (PendingCommandAck Conn)
  recv : Conn → Option FssCommandEvent := fun _ => none
  eventQueue : List QueuedEvent := []
  machine : FmuStateMachine := {}
  ackTasks : List (ℕ × FssCommandResolution) := []
  acks : List (CommandAck Conn) := []
  opened : List FssCommandEvent := []
  enqueued : List FssCommandEvent := []

/-- The steps of the recv threads, of the other event sources, of the event loop and of the
worker that sends the acknowledgements of resolved commands. -/
inductive FssStep (Conn : Type*)
  | deliver (conn : Conn) (msg : AssetCommandMessage)
  | enqueue (conn : Conn)
  | enqueueOther (e : OtherEvent)
  | dispatch
  | sendAcks

/-- An event of another source leaves the retained command and its target alone. -/
theorem FmuStateMachine.handle_retains_other (m : FmuStateMachine) (e : OtherEvent) :
    (m.handle e.1).1.fssCommand = m.fssCommand ∧
      (m.handle e.1).1.fssCommandTarget = m.fssCommandTarget :=
  handle_retains fun cmd target he => by simpa [he, FmuEvent.isCommand] using e.2

namespace FssSystem

variable {Conn Key : Type*}

/-- The event loop takes one event. -/
def dispatchEvent (s : FssSystem Conn Key) (rest : List QueuedEvent) :
    QueuedEvent → FssSystem Conn Key
  | .command e =>
    { s with
      eventQueue := rest
      machine := (s.machine.handle (.fssNewCommand e.command e.target)).1
      ackTasks := s.ackTasks ++ [(e.epoch, (s.machine.fssNewCommand e.command e.target).2)] }
  | .other e => { s with eventQueue := rest, machine := (s.machine.handle e.1).1 }

/-- A recv thread handles a message. -/
def handleMessage [DecidableEq Conn] [DecidableEq Key] (code : AssetCommand → ℤ)
    (originKey : Conn → Key) (s : FssSystem Conn Key) (conn : Conn) (msg : AssetCommandMessage) :
    FssSystem Conn Key :=
  let handled := handleCommandFrom code originKey s.group conn msg
  { s with
    group := handled.group
    acks := s.acks ++ handled.acks
    recv := Function.update s.recv conn handled.report
    opened := s.opened ++ handled.report.toList }

/-- A recv thread enqueues the event it holds. -/
def enqueueEvent [DecidableEq Conn] (s : FssSystem Conn Key) (conn : Conn) (e : FssCommandEvent) :
    FssSystem Conn Key :=
  { s with
    recv := Function.update s.recv conn none
    eventQueue := s.eventQueue ++ [.command e]
    enqueued := s.enqueued ++ [e] }

/-- One step of an interleaving. -/
def step [DecidableEq Conn] [DecidableEq Key] (code : AssetCommand → ℤ) (originKey : Conn → Key)
    (s : FssSystem Conn Key) : FssStep Conn → Option (FssSystem Conn Key)
  | .deliver conn msg =>
    match s.recv conn with
    | none => some (s.handleMessage code originKey conn msg)
    | some _ => none
  | .enqueue conn => (s.recv conn).map (s.enqueueEvent conn)
  | .enqueueOther e => some { s with eventQueue := s.eventQueue ++ [.other e] }
  | .dispatch =>
    match s.eventQueue with
    | [] => none
    | e :: rest => some (s.dispatchEvent rest e)
  | .sendAcks =>
    match s.ackTasks with
    | [] => none
    | (epoch, res) :: rest =>
      some { s with
        group := (s.group.resolve epoch res).1
        ackTasks := rest
        acks := s.acks ++ (s.group.resolve epoch res).2.map (ackPending res) }

/-- The system before any connection has delivered a command. -/
def init (toleranceMs : ℕ) (machine : FmuStateMachine) : FssSystem Conn Key :=
  { group := .new toleranceMs, machine := machine }

/-- Every delivery was handled and the event loop has caught up. -/
def Quiescent (s : FssSystem Conn Key) : Prop := (∀ conn, s.recv conn = none) ∧ s.eventQueue = []

/-- The state machine retains this command with its target. -/
def Retains (m : FmuStateMachine) (e : FssCommandEvent) : Prop :=
  m.fssCommand = e.command ∧ m.fssCommandTarget = e.target

/-- The command opened under the highest epoch is the one the state machine retains. -/
def RetainsNewest (s : FssSystem Conn Key) : Prop :=
  ∀ e ∈ s.opened, (∀ e' ∈ s.opened, e'.epoch ≤ e.epoch) → Retains s.machine e

/-- A command is enqueued before every command that replaced it. -/
def EnqueuesInOrder (s : FssSystem Conn Key) : FssStep Conn → Prop
  | .enqueue conn => ∀ e ∈ s.recv conn, ∀ e' ∈ s.enqueued, e'.epoch ≤ e.epoch
  | _ => True

instance (s : FssSystem Conn Key) : DecidablePred s.EnqueuesInOrder
  | .enqueue conn =>
    inferInstanceAs (Decidable (∀ e ∈ s.recv conn, ∀ e' ∈ s.enqueued, e'.epoch ≤ e.epoch))
  | .deliver _ _ | .enqueueOther _ | .dispatch | .sendAcks => isTrue trivial

/-- The epochs number the opened commands, each of which is with its recv thread or was
enqueued. -/
structure Accounted (s : FssSystem Conn Key) : Prop where
  epochs : s.opened.Pairwise fun e e' => e.epoch < e'.epoch
  bound : ∀ e ∈ s.opened, e.epoch ≤ s.group.epoch
  held : ∀ e ∈ s.opened, e ∈ s.enqueued ∨ ∃ conn, s.recv conn = some e
  recvOpened : ∀ conn e, s.recv conn = some e → e ∈ s.opened
  enqueuedOpened : ∀ e ∈ s.enqueued, e ∈ s.opened

/-- The queue holds the commands that were enqueued and not yet dispatched, and the last one
dispatched is retained. -/
def QueueInOrder (s : FssSystem Conn Key) : Prop :=
  ∃ dispatched, s.enqueued = dispatched ++ s.eventQueue.filterMap QueuedEvent.command? ∧
    ∀ e, dispatched.getLast? = some e → Retains s.machine e

section Steps

variable [DecidableEq Conn] [DecidableEq Key] {code : AssetCommand → ℤ} {originKey : Conn → Key}
  {s t : FssSystem Conn Key}

/-- Handling a message accounts for the command it opens. -/
theorem accounted_handleMessage (h : s.Accounted) {conn : Conn} (hidle : s.recv conn = none)
    (msg : AssetCommandMessage) : (s.handleMessage code originKey conn msg).Accounted := by
  obtain ⟨hreport, hepoch⟩ | ⟨e, hreport, he, hepoch⟩ :=
    handleCommandFrom_cases code originKey s.group conn msg
  · have hopened : (s.handleMessage code originKey conn msg).opened = s.opened := by
      simp [handleMessage, hreport]
    have hrecv : (s.handleMessage code originKey conn msg).recv = s.recv := by
      simp only [handleMessage, hreport]
      exact Function.update_eq_self_iff.mpr hidle.symm
    refine ⟨hopened ▸ h.epochs, ?_, ?_, ?_, ?_⟩
    · rw [hopened]
      exact fun e he => (h.bound e he).trans hepoch.ge
    · rw [hopened, hrecv]
      exact h.held
    · rw [hopened, hrecv]
      exact h.recvOpened
    · rw [hopened]
      exact h.enqueuedOpened
  · have hopened : (s.handleMessage code originKey conn msg).opened = s.opened ++ [e] := by
      simp [handleMessage, hreport]
    have hrecv : (s.handleMessage code originKey conn msg).recv =
        Function.update s.recv conn (some e) := by
      simp only [handleMessage, hreport]
    refine ⟨?_, ?_, ?_, ?_, ?_⟩
    · rw [hopened, List.pairwise_append]
      refine ⟨h.epochs, List.pairwise_singleton _ _, fun a ha b hb => ?_⟩
      obtain rfl := List.mem_singleton.mp hb
      exact he ▸ Nat.lt_succ_of_le (h.bound a ha)
    · intro a ha
      rw [hopened, List.mem_append, List.mem_singleton] at ha
      obtain ha | rfl := ha
      · exact (h.bound a ha).trans ((Nat.le_succ _).trans hepoch.ge)
      · exact (he.trans hepoch.symm).le
    · intro a ha
      rw [hopened, List.mem_append, List.mem_singleton] at ha
      rw [hrecv]
      obtain ha | rfl := ha
      · apply (h.held a ha).imp_right
        intro hpending
        obtain ⟨other, hother⟩ := hpending
        refine ⟨other, ?_⟩
        have hne : other ≠ conn := fun heq => by simp [heq, hidle] at hother
        rw [Function.update_of_ne hne, hother]
      · exact Or.inr ⟨conn, Function.update_self _ _ _⟩
    · intro other a ha
      rw [hrecv, Function.update_apply] at ha
      rw [hopened, List.mem_append, List.mem_singleton]
      split_ifs at ha
      · exact Or.inr (Option.some.inj ha).symm
      · exact Or.inl (h.recvOpened other a ha)
    · intro a ha
      rw [hopened]
      exact List.mem_append_left _ (h.enqueuedOpened a ha)

omit [DecidableEq Key] in
/-- Enqueueing moves an event from its recv thread to the queue. -/
theorem accounted_enqueueEvent (h : s.Accounted) {conn : Conn} {e : FssCommandEvent}
    (hheld : s.recv conn = some e) : (s.enqueueEvent conn e).Accounted := by
  refine ⟨h.epochs, h.bound, fun a ha => ?_, fun other a ha => ?_, fun a ha => ?_⟩
  · simp only [enqueueEvent, List.mem_append, List.mem_singleton]
    obtain henqueued | ⟨other, hother⟩ := h.held a ha
    · exact Or.inl (Or.inl henqueued)
    · by_cases hne : other = conn
      · subst hne
        exact Or.inl (Or.inr (Option.some.inj (hother.symm.trans hheld)))
      · exact Or.inr ⟨other, by rw [Function.update_of_ne hne, hother]⟩
  · simp only [enqueueEvent, Function.update_apply] at ha
    split_ifs at ha
    exact h.recvOpened other a ha
  · obtain ha | ha := List.mem_append.mp ha
    · exact h.enqueuedOpened a ha
    · obtain rfl := List.mem_singleton.mp ha
      exact h.recvOpened conn a hheld

/-- Every step keeps the commands accounted for. -/
theorem accounted_step {label : FssStep Conn} (h : s.Accounted)
    (ht : s.step code originKey label = some t) : t.Accounted := by
  cases label with
  | deliver conn msg =>
    simp only [step] at ht
    split at ht
    next hidle =>
      obtain rfl := Option.some.inj ht
      exact accounted_handleMessage h hidle msg
    next => exact absurd ht (by simp)
  | enqueue conn =>
    obtain ⟨e, hheld, rfl⟩ := Option.map_eq_some_iff.mp ht
    exact accounted_enqueueEvent h hheld
  | enqueueOther e =>
    obtain rfl := Option.some.inj ht
    exact ⟨h.epochs, h.bound, h.held, h.recvOpened, h.enqueuedOpened⟩
  | dispatch =>
    simp only [step] at ht
    split at ht
    next => exact absurd ht (by simp)
    next e rest _ =>
      obtain rfl := Option.some.inj ht
      cases e <;> exact ⟨h.epochs, h.bound, h.held, h.recvOpened, h.enqueuedOpened⟩
  | sendAcks =>
    simp only [step] at ht
    split at ht
    next => exact absurd ht (by simp)
    next epoch res rest _ =>
      obtain rfl := Option.some.inj ht
      refine ⟨h.epochs, fun e he => ?_, h.held, h.recvOpened, h.enqueuedOpened⟩
      rw [CommandAckGroup.resolve_fst]
      exact h.bound e he

/-- Every step keeps the queue in the order of the enqueueing. -/
theorem queueInOrder_step {label : FssStep Conn} (h : s.QueueInOrder)
    (ht : s.step code originKey label = some t) : t.QueueInOrder := by
  obtain ⟨dispatched, henqueued, hretains⟩ := h
  cases label with
  | deliver conn msg =>
    simp only [step] at ht
    split at ht
    next =>
      obtain rfl := Option.some.inj ht
      exact ⟨dispatched, henqueued, hretains⟩
    next => exact absurd ht (by simp)
  | enqueue conn =>
    obtain ⟨e, -, rfl⟩ := Option.map_eq_some_iff.mp ht
    refine ⟨dispatched, ?_, hretains⟩
    simp [enqueueEvent, henqueued, QueuedEvent.command?]
  | enqueueOther e =>
    obtain rfl := Option.some.inj ht
    refine ⟨dispatched, ?_, hretains⟩
    simp [henqueued, QueuedEvent.command?]
  | dispatch =>
    simp only [step] at ht
    split at ht
    next => exact absurd ht (by simp)
    next e rest hqueue =>
      obtain rfl := Option.some.inj ht
      rw [hqueue] at henqueued
      cases e with
      | command e =>
        refine ⟨dispatched ++ [e], ?_, fun a ha => ?_⟩
        · simpa [dispatchEvent, QueuedEvent.command?] using henqueued
        · simp only [List.getLast?_concat, Option.some.injEq] at ha
          subst ha
          exact s.machine.handle_fssNewCommand_retains e.command e.target
      | other e =>
        obtain ⟨hcommand, htarget⟩ := s.machine.handle_retains_other e
        exact ⟨dispatched, henqueued, fun a ha =>
          ⟨hcommand.trans (hretains a ha).1, htarget.trans (hretains a ha).2⟩⟩
  | sendAcks =>
    simp only [step] at ht
    split at ht
    next => exact absurd ht (by simp)
    next epoch res rest _ =>
      obtain rfl := Option.some.inj ht
      exact ⟨dispatched, henqueued, hretains⟩

/-- A step that enqueues in order keeps the enqueued commands in order. -/
theorem enqueuedInOrder_step {label : FssStep Conn}
    (h : s.enqueued.Pairwise fun e e' => e.epoch ≤ e'.epoch) (hcond : s.EnqueuesInOrder label)
    (ht : s.step code originKey label = some t) :
    t.enqueued.Pairwise fun e e' => e.epoch ≤ e'.epoch := by
  cases label with
  | deliver conn msg =>
    simp only [step] at ht
    split at ht
    next => exact Option.some.inj ht ▸ h
    next => exact absurd ht (by simp)
  | enqueue conn =>
    obtain ⟨e, hheld, rfl⟩ := Option.map_eq_some_iff.mp ht
    rw [enqueueEvent, List.pairwise_append]
    refine ⟨h, List.pairwise_singleton _ _, fun a ha b hb => ?_⟩
    obtain rfl := List.mem_singleton.mp hb
    exact hcond b hheld a ha
  | enqueueOther e => exact Option.some.inj ht ▸ h
  | dispatch =>
    simp only [step] at ht
    split at ht
    next => exact absurd ht (by simp)
    next e rest _ => cases e <;> exact Option.some.inj ht ▸ h
  | sendAcks =>
    simp only [step] at ht
    split at ht
    next => exact absurd ht (by simp)
    next => exact Option.some.inj ht ▸ h

omit [DecidableEq Conn] [DecidableEq Key] in
/-- Once everything has drained, the commands enqueued in order leave the newest retained. -/
theorem retainsNewest_of_quiescent (haccounted : s.Accounted) (hqueue : s.QueueInOrder)
    (horder : s.enqueued.Pairwise fun e e' => e.epoch ≤ e'.epoch) (hquiescent : s.Quiescent) :
    s.RetainsNewest := by
  intro e he hnewest
  obtain ⟨hidle, hdrained⟩ := hquiescent
  obtain ⟨dispatched, henqueued, hretains⟩ := hqueue
  rw [hdrained, List.filterMap_nil, List.append_nil] at henqueued
  have hmem : e ∈ dispatched := by
    obtain hmem | ⟨conn, hheld⟩ := haccounted.held e he
    · exact henqueued ▸ hmem
    · exact absurd hheld (by simp [hidle conn])
  obtain rfl | ⟨earlier, last, rfl⟩ := List.eq_nil_or_concat' dispatched
  · exact absurd hmem List.not_mem_nil
  · have hopened := haccounted.enqueuedOpened last (by simp [henqueued])
    -- the last enqueued command is at least as new as the newest opened one, so it is that one
    have hle : e.epoch ≤ last.epoch := by
      rw [henqueued, List.pairwise_append] at horder
      obtain hearlier | hlast := List.mem_append.mp hmem
      · exact horder.2.2 e hearlier last (List.mem_singleton_self _)
      · exact (congrArg _ (List.mem_singleton.mp hlast)).le
    have hnodup : (s.opened.map (·.epoch)).Nodup :=
      List.pairwise_map.mpr (haccounted.epochs.imp fun h => h.ne)
    have heq := List.inj_on_of_nodup_map hnodup hopened he (le_antisymm (hnewest _ hopened) hle)
    exact hretains e (by rw [List.getLast?_concat, heq])

end Steps

/-- In every run in which no command is enqueued after a newer one, the state machine
retains the newest command with its target whenever everything has drained. -/
theorem retainsNewest_of_enqueuesInOrder [DecidableEq Conn] [DecidableEq Key]
    (code : AssetCommand → ℤ) (originKey : Conn → Key) (toleranceMs : ℕ)
    (machine : FmuStateMachine) (labels : List (FssStep Conn))
    (horder : Along (step code originKey) EnqueuesInOrder (init toleranceMs machine) labels)
    (s : FssSystem Conn Key)
    (hrun : run (step code originKey) (init toleranceMs machine) labels = some s)
    (hquiescent : s.Quiescent) : s.RetainsNewest := by
  have hinit : (init toleranceMs machine : FssSystem Conn Key).Accounted :=
    ⟨List.Pairwise.nil, by simp [init], by simp [init], by simp [init], by simp [init]⟩
  have hinv := invariant_of_along EnqueuesInOrder (fun s : FssSystem Conn Key =>
      s.Accounted ∧ s.QueueInOrder ∧ s.enqueued.Pairwise fun e e' => e.epoch ≤ e'.epoch)
    (fun s label t h hcond ht => ⟨accounted_step h.1 ht, queueInOrder_step h.2.1 ht,
      enqueuedInOrder_step h.2.2 hcond ht⟩)
    ⟨hinit, ⟨[], rfl, by simp⟩, List.Pairwise.nil⟩ horder hrun
  exact retainsNewest_of_quiescent hinv.1 hinv.2.1 hinv.2.2 hquiescent

/-- Codes for the wire commands, for the runs below. -/
def sampleCode : AssetCommand → ℤ
  | .rtl => 1
  | .disarm => 2
  | .goto => 3
  | .altitude => 4
  | .hold => 5
  | .resume => 6
  | .terminate => 9
  | .manual => 10
  | .unknown => 0

/-- Two connections deliver a hold and a newer return to launch. -/
def holdThenRtl : List (FssStep Bool) :=
  [.deliver false { command := .hold, timestamp := 1000 },
    .deliver true { command := .rtl, timestamp := 2000 }]

/-- When the older command is enqueued last, it is the one left in effect. -/
theorem holdThenRtl_enqueued_late :
    ∃ s : FssSystem Bool Bool, run (step sampleCode id) (init commandDedupToleranceMs {})
        (holdThenRtl ++ [.enqueue true, .enqueue false, .dispatch, .dispatch]) = some s ∧
      s.Quiescent ∧ s.opened.map (fun e => (e.epoch, e.command)) = [(1, .cmdHold), (2, .cmdRtl)] ∧
      s.machine.fssCommand = .cmdHold ∧ ¬ s.RetainsNewest := by
  refine ⟨_, rfl, ⟨by decide, rfl⟩, by decide, by decide, fun h => ?_⟩
  exact absurd (h { command := .cmdRtl, target := {}, epoch := 2 } (by decide) (by decide)).1
    (by decide)

/-- When it is enqueued first, the newer one is. -/
theorem holdThenRtl_enqueued_in_order :
    ∃ s : FssSystem Bool Bool, run (step sampleCode id) (init commandDedupToleranceMs {})
        (holdThenRtl ++ [.enqueue false, .enqueue true, .dispatch, .dispatch]) = some s ∧
      s.machine.fssCommand = .cmdRtl ∧ s.RetainsNewest := by
  refine ⟨_, rfl, by decide, retainsNewest_of_enqueuesInOrder sampleCode id
    commandDedupToleranceMs {} (holdThenRtl ++ [.enqueue false, .enqueue true, .dispatch, .dispatch])
    (by decide) _ rfl ⟨by decide, rfl⟩⟩

end FssSystem

end CapFmu
