import CapFmu.Mav.Socket

/-!
# What the sends leave on the sockets

A message is sent in as many calls as the system needs to take all of it, under the send lock
throughout. A call that takes nothing ends the message with what was taken, flags the connection
as broken and returns a failure; the number stays published until the next pass of the
reconnector, and other messages are sent on the same socket until then.

What is written goes to whatever the number stands for. Every socket's bytes are those of the
messages sent on it in the order of the lock, each as far as it got, and a message that was cut
short stands on no socket that is kept.
-/

namespace CapFmu

open Handles Transition

/-- A packed message, which has a header at least. -/
structure Frame (β : Type*) where
  bytes : List β
  nonempty : bytes ≠ []

/-- A call that has returned: its message, the socket whose number it read, how much of the message
was taken, and the result. -/
structure SendCall (β : Type*) where
  frame : Frame β
  sock : Option ℕ := none
  sent : ℕ := 0
  returned : Bool := false

/-- What of the message was taken. -/
def SendCall.taken {β : Type*} (c : SendCall β) : List β := c.frame.bytes.take c.sent

/-- The sockets, the message of the holder of the send lock and how much of it was taken. The calls
that have returned are recorded, and what was written to each descriptor by its identity. -/
structure MavWire (β : Type*) where
  sockets : MavSockets := {}
  frame : Option (Frame β) := none
  sent : ℕ := 0
  calls : List (SendCall β) := []
  streams : ℕ → List β := fun _ => []

/-- A sender takes the lock with a message, its next step, whose call takes some bytes or fails,
or a step of anything else. -/
inductive WireStep (β : Type*)
  | lock (sender : MavSockets.Sender) (frame : Frame β)
  | send (transfered : ℤ)
  | other (e : MavSockets.SocketStep)

namespace MavSockets

/-- Whether a step is the sender's. -/
def SocketStep.isSend : SocketStep → Bool
  | lock _ | send _ _ => true
  | _ => false

/-- The socket in the owner's hands that was never published. -/
def OwnerPc.unpublished : OwnerPc → Option Handle
  | connecting h | abandoning h | configuring h | publishing h => some h
  | _ => none

end MavSockets

namespace MavSockets

variable {s t : MavSockets}

/-- What a step that is no sender's leaves alone: the lock, the number as long as it is not the
owner's to change, and the flag as long as the number is published. -/
structure Apart (s t : MavSockets) : Prop where
  sendLock : t.sendLock = s.sendLock
  next_le : s.descriptors.next ≤ t.descriptors.next
  published : ∀ h, t.fd = some h →
    s.owner.unpublished = some h ∨ s.fd = some h ∧ (s.broken = true → t.broken = true)
  unpublished : ∀ h, t.owner.unpublished = some h →
    s.owner.unpublished = some h ∨ h.id = s.descriptors.next

/-- A step that publishes nothing and dials nothing, and clears the flag with no number published
alone. -/
theorem apart_of_quiet (hlock : t.sendLock = s.sendLock)
    (hnext : s.descriptors.next ≤ t.descriptors.next)
    (hfd : t.fd = none ∨ t.fd = s.fd ∧ (s.broken = true → t.broken = true))
    (howner : t.owner.unpublished = none ∨ t.owner.unpublished = s.owner.unpublished) :
    Apart s t where
  sendLock := hlock
  next_le := hnext
  published h hpublished := by
    rcases hfd with hfd | ⟨hfd, hbroken⟩
    · simp [hfd] at hpublished
    · exact Or.inr ⟨hfd.symm.trans hpublished, hbroken⟩
  unpublished h hheld := by
    rcases howner with howner | howner
    · simp [howner] at hheld
    · exact Or.inl (howner.symm.trans hheld)

/-- The owner clears the flag with no number published, and publishes one that was not. -/
theorem apart_ownerStep {ok : Bool} {number : ℕ} (h : Owned s)
    (hstep : s.ownerStep ok number = some t) : Apart s t := by
  have hmove (pc : OwnerPc) (recv : RecvPc) (hpc : pc.unpublished = none) :
      Apart s { s with recvThread := recv, owner := pc } :=
    apart_of_quiet rfl le_rfl (Or.inr ⟨rfl, id⟩) (Or.inl hpc)
  unfold ownerStep at hstep
  cases howner : s.owner with
  | unstarted | idle | destroyed => simp [howner] at hstep
  | retiring after =>
    simp only [howner] at hstep
    split_ifs at hstep
    split at hstep <;> cases hstep
    · exact apart_of_quiet rfl le_rfl (Or.inl rfl) (Or.inl rfl)
    · exact hmove (.joining none after) s.recvThread rfl
  | shutting origFd after =>
    simp only [howner] at hstep
    cases hstep
    exact hmove (.joining (some origFd) after) s.recvThread rfl
  | joining origFd after =>
    simp only [howner] at hstep
    split_ifs at hstep
    cases hstep
    exact hmove _ .absent (by cases origFd <;> rfl)
  | closing origFd after =>
    simp only [howner] at hstep
    cases hstep
    exact apart_of_quiet rfl le_rfl (Or.inr ⟨rfl, id⟩) (Or.inl rfl)
  | finishing after =>
    have hoffline : s.fd = none := h.offline (by rw [howner]; rfl)
    cases after with
    | reconnect =>
      simp only [howner] at hstep
      cases hstep
      exact apart_of_quiet rfl le_rfl (Or.inl hoffline) (Or.inl rfl)
    | destroy =>
      simp only [howner] at hstep
      cases hstep
      exact hmove .destroyed s.recvThread rfl
  | checking =>
    simp only [howner] at hstep
    cases hstep
    exact hmove _ s.recvThread (by split_ifs <;> rfl)
  | dialling =>
    simp only [howner] at hstep
    split_ifs at hstep <;> cases hstep
    · constructor
      · rfl
      · exact Nat.le_succ _
      · exact fun _ hpublished => Or.inr ⟨hpublished, id⟩
      · intro sock hheld
        cases hheld
        exact Or.inr rfl
    · exact hmove .retrying s.recvThread rfl
  | connecting sock =>
    have hsock : s.owner.unpublished = some sock := by rw [howner]; rfl
    simp only [howner] at hstep
    split_ifs at hstep <;> cases hstep
    · exact apart_of_quiet rfl le_rfl (Or.inr ⟨rfl, id⟩) (Or.inr hsock.symm)
    · exact apart_of_quiet rfl le_rfl (Or.inr ⟨rfl, id⟩) (Or.inr hsock.symm)
  | abandoning sock =>
    simp only [howner] at hstep
    cases hstep
    exact apart_of_quiet rfl le_rfl (Or.inr ⟨rfl, id⟩) (Or.inl rfl)
  | retrying =>
    simp only [howner] at hstep
    cases hstep
    exact hmove _ s.recvThread (by split_ifs <;> rfl)
  | configuring newFd =>
    have hoffline : s.fd = none := h.offline (by rw [howner]; rfl)
    have hsock : s.owner.unpublished = some newFd := by rw [howner]; rfl
    simp only [howner] at hstep
    cases hstep
    exact apart_of_quiet rfl le_rfl (Or.inl hoffline) (Or.inr hsock.symm)
  | publishing newFd =>
    have hsock : s.owner.unpublished = some newFd := by rw [howner]; rfl
    simp only [howner] at hstep
    split_ifs at hstep
    cases hstep
    constructor
    · rfl
    · exact le_rfl
    · exact fun _ hpublished => Or.inl (hsock.trans hpublished)
    · intro sock hheld
      cases hheld
  | spawning =>
    simp only [howner] at hstep
    cases hstep
    exact hmove .idle .reading rfl

/-- A step that is no sender's leaves the sends alone. -/
theorem apart_step {e : SocketStep} (h : Owned s) (he : e.isSend = false)
    (hstep : s.step e = some t) : Apart s t := by
  have hquiet (table : Table Descriptor) (recv : RecvPc) (broken : Bool)
      (hnext : s.descriptors.next ≤ table.next) (hbroken : s.broken = true → broken = true) :
      Apart s { s with descriptors := table, recvThread := recv, broken := broken } :=
    apart_of_quiet rfl hnext (Or.inr ⟨rfl, hbroken⟩) (Or.inr rfl)
  cases e with
  | lock | send => cases he
  | owner ok number => exact apart_ownerStep h hstep
  | start =>
    cases hstep
    split_ifs
    · exact apart_of_quiet rfl le_rfl (Or.inr ⟨rfl, id⟩) (Or.inl rfl)
    · exact hquiet s.descriptors s.recvThread s.broken le_rfl id
  | attemptReconnect =>
    simp only [step] at hstep
    split_ifs at hstep <;> cases hstep
    · exact apart_of_quiet rfl le_rfl (Or.inr ⟨rfl, id⟩) (Or.inl rfl)
    · exact apart_of_quiet rfl le_rfl (Or.inr ⟨rfl, id⟩) (Or.inl rfl)
  | destroy =>
    simp only [step] at hstep
    split_ifs at hstep
    cases hstep
    exact apart_of_quiet rfl le_rfl (Or.inr ⟨rfl, id⟩) (Or.inl rfl)
  | connects number =>
    cases hstep
    exact hquiet _ s.recvThread s.broken le_rfl id
  | flag =>
    cases hstep
    exact hquiet s.descriptors s.recvThread true le_rfl fun _ => rfl
  | recv received again =>
    simp only [step, recvStep] at hstep
    split at hstep
    · cases hstep
    · cases hstep
    · split at hstep <;> cases hstep <;> exact hquiet s.descriptors _ s.broken le_rfl id
    · cases hstep
      exact hquiet s.descriptors _ s.broken le_rfl id
    · split_ifs at hstep
      cases hstep
      exact hquiet s.descriptors _ s.broken le_rfl id
    · cases hstep
      exact hquiet s.descriptors _ true le_rfl fun _ => rfl
  | foreignOpen number =>
    simp only [step] at hstep
    split_ifs at hstep
    cases hstep
    exact hquiet _ s.recvThread s.broken (Nat.le_succ _) id
  | foreignClose number =>
    simp only [step] at hstep
    split_ifs at hstep
    cases hstep
    exact hquiet _ s.recvThread s.broken le_rfl id

/-- The holder of the lock reads the number. -/
theorem step_send_locked {sender : Sender} (hlock : s.sendLock = some (.locked sender)) :
    s.step (.send false false) =
      some { s with sendLock := s.fd.map fun curFd => .sending sender curFd } := by
  cases hfd : s.fd <;> simp [step, sendStep, hlock, hfd]

/-- A call that fails flags the connection and gives up the lock. -/
theorem step_send_fails {sender : Sender} {curFd : Handle}
    (hlock : s.sendLock = some (.sending sender curFd)) :
    s.step (.send false true) = some { s with broken := true, sendLock := none } := by
  simp [step, sendStep, hlock]

/-- The lock is kept as long as there is more to send. -/
theorem step_send_more {sender : Sender} {curFd : Handle}
    (hlock : s.sendLock = some (.sending sender curFd)) : s.step (.send true false) = some s := by
  simp [step, sendStep, hlock]

/-- The lock is given up with the last of the message. -/
theorem step_send_done {sender : Sender} {curFd : Handle}
    (hlock : s.sendLock = some (.sending sender curFd)) :
    s.step (.send false false) = some { s with sendLock := none } := by
  simp [step, sendStep, hlock]

end MavSockets

namespace MavWire

variable {β : Type*}

/-- Write to whatever a number stands for. -/
def write (s : MavWire β) (number : ℕ) (bytes : List β) : ℕ → List β :=
  match s.sockets.descriptors.entries number with
  | some e => Function.update s.streams e.id (s.streams e.id ++ bytes)
  | none => s.streams

/-- The call returns and gives up the lock. -/
def finish (s : MavWire β) (sockets : MavSockets) (call : SendCall β) : MavWire β :=
  { s with sockets := sockets, frame := none, sent := 0, calls := s.calls ++ [call] }

/-- The next step of `sendMavLinkMsgLocked`. The system takes no more than it is given. -/
def stepSend (s : MavWire β) (transfered : ℤ) : Option (MavWire β) :=
  match s.frame, s.sockets.sendLock with
  | some frame, some (.locked _) =>
    (s.sockets.step (.send false false)).map fun next =>
      match s.sockets.fd with
      | some _ => { s with sockets := next }
      | none => s.finish next { frame := frame }
  | some frame, some (.sending _ curFd) =>
    if transfered ≤ 0 then
      (s.sockets.step (.send false true)).map fun next =>
        s.finish next { frame := frame, sock := some curFd.id, sent := s.sent }
    else if frame.bytes.length < s.sent + transfered.toNat then none
    else
      let taken := (frame.bytes.drop s.sent).take transfered.toNat
      let sent := s.sent + transfered.toNat
      let written := { s with streams := s.write curFd.number taken, sent := sent }
      (s.sockets.step (.send (decide (sent < frame.bytes.length)) false)).map fun next =>
        if sent < frame.bytes.length then { written with sockets := next }
        else written.finish next
          { frame := frame, sock := some curFd.id, sent := sent, returned := true }
  | _, _ => none

/-- One step. -/
def step (s : MavWire β) : WireStep β → Option (MavWire β)
  | .lock sender frame => (s.sockets.step (.lock sender)).map fun next =>
      { s with sockets := next, frame := some frame, sent := 0 }
  | .send transfered => s.stepSend transfered
  | .other e =>
    if e.isSend then none else (s.sockets.step e).map fun next => { s with sockets := next }

/-- What was taken so far of the message that is being sent on a socket. -/
def inFlight (s : MavWire β) (i : ℕ) : List β :=
  match s.frame, s.sockets.sendLock with
  | some frame, some (.sending _ curFd) => if curFd.id = i then frame.bytes.take s.sent else []
  | _, _ => []

/-- The calls that have returned and sent on a socket. -/
def callsOn (s : MavWire β) (i : ℕ) : List (SendCall β) :=
  s.calls.filter fun c => decide (c.sock = some i)

/-- What the sends leave: a socket's bytes are those of the messages sent on it in order, each as
far as it got; a call succeeds exactly when all of its message was taken; and while a socket is
published on which a message was cut short, the connection is flagged as broken. -/
structure Framed (s : MavWire β) : Prop where
  stream : ∀ i, s.streams i = (s.callsOn i).flatMap SendCall.taken ++ s.inFlight i
  whole : ∀ c ∈ s.calls, c.returned = true ↔ c.taken = c.frame.bytes
  cut : ∀ c ∈ s.calls, ∀ h, s.sockets.fd = some h → c.sock = some h.id → c.returned = false →
    s.sockets.broken = true

/-- The invariant of the sends. The identity of a socket that a call has read was given out before,
and is not that of a socket that is still to be published. -/
structure Tracked (s : MavWire β) : Prop where
  owned : s.sockets.Owned
  framed : s.Framed
  locked : s.frame = none ↔ s.sockets.sendLock = none
  partly : ∀ frame, s.frame = some frame → s.sent < frame.bytes.length
  unsent : ∀ sender, s.sockets.sendLock = some (.locked sender) → s.sent = 0
  read_lt : ∀ c ∈ s.calls, ∀ i, c.sock = some i → i < s.sockets.descriptors.next
  read_published : ∀ c ∈ s.calls, ∀ h, s.sockets.owner.unpublished = some h → c.sock ≠ some h.id

variable {s t : MavWire β}

/-- Nothing has been sent at first. -/
theorem tracked_start : Tracked ({} : MavWire β) where
  owned := MavSockets.owned_start
  framed := by constructor <;> simp [callsOn, inFlight]
  locked := by simp
  partly := by simp
  unsent := by simp
  read_lt := by simp
  read_published := by simp

/-- A step that is no sender's. -/
theorem tracked_other {e : MavSockets.SocketStep} (h : s.Tracked)
    (hstep : s.step (.other e) = some t) : t.Tracked := by
  simp only [step] at hstep
  split_ifs at hstep with he
  obtain ⟨next, hnext, rfl⟩ := Option.map_eq_some_iff.mp hstep
  have hapart := MavSockets.apart_step h.owned (Bool.eq_false_iff.mpr he) hnext
  have hlock := hapart.sendLock
  constructor
  · exact h.owned.step hnext
  · constructor
    · intro i
      simpa [callsOn, inFlight, hlock] using h.framed.stream i
    · exact h.framed.whole
    · intro c hc sock hfd hsock hfailed
      rcases hapart.published sock hfd with hunpublished | ⟨hpublished, hbroken⟩
      · exact absurd hsock (h.read_published c hc sock hunpublished)
      · exact hbroken (h.framed.cut c hc sock hpublished hsock hfailed)
  · rw [hlock]
    exact h.locked
  · exact h.partly
  · rw [hlock]
    exact h.unsent
  · exact fun c hc i hsock => (h.read_lt c hc i hsock).trans_le hapart.next_le
  · intro c hc sock hheld hsock
    rcases hapart.unpublished sock hheld with hbefore | hfresh
    · exact h.read_published c hc sock hbefore hsock
    · exact absurd (h.read_lt c hc sock.id hsock) (by omega)

/-- A sender takes the lock with its message. -/
theorem tracked_lock {sender : MavSockets.Sender} {frame : Frame β} (h : s.Tracked)
    (hstep : s.step (.lock sender frame) = some t) : t.Tracked := by
  obtain ⟨next, hnext, rfl⟩ := Option.map_eq_some_iff.mp hstep
  have howned := h.owned.step hnext
  simp only [MavSockets.step] at hnext
  split_ifs at hnext with hfree
  cases hnext
  have hnone := h.locked.mpr hfree.1
  constructor
  · exact howned
  · constructor
    · intro i
      simpa [callsOn, inFlight, hfree.1] using h.framed.stream i
    · exact h.framed.whole
    · exact h.framed.cut
  · simp
  · rintro other hother
    cases hother
    exact List.length_pos_iff.mpr frame.nonempty
  · exact fun _ _ => rfl
  · exact h.read_lt
  · exact h.read_published

/-- What is written on the number that the holder of the lock has read goes to the socket it was
read for. -/
theorem write_of_sending (h : s.Tracked) {sender : MavSockets.Sender} {curFd : Handle}
    (hlock : s.sockets.sendLock = some (.sending sender curFd)) (bytes : List β) :
    s.write curFd.number bytes =
      Function.update s.streams curFd.id (s.streams curFd.id ++ bytes) := by
  have husable := h.owned.published curFd (h.owned.sending sender curFd hlock)
  unfold write
  rw [husable]

/-- A call returns and gives up the lock: its socket, if it has read one, is the published one. -/
theorem tracked_finish {next : MavSockets} {call : SendCall β} {streams : ℕ → List β}
    (h : s.Tracked) (howned : next.Owned) (hlock : next.sendLock = none)
    (hsame : next.fd = s.sockets.fd ∧ next.owner = s.sockets.owner ∧
      next.descriptors = s.sockets.descriptors)
    (hbroken : s.sockets.broken = true → next.broken = true)
    (hstream : ∀ i, streams i =
      (s.callsOn i).flatMap SendCall.taken ++ if call.sock = some i then call.taken else [])
    (hwhole : call.returned = true ↔ call.taken = call.frame.bytes)
    (hcut : call.sock ≠ none → call.returned = false → next.broken = true)
    (hread : ∀ i, call.sock = some i → ∃ curFd, s.sockets.fd = some curFd ∧ curFd.id = i) :
    Tracked { s.finish next call with streams := streams } := by
  obtain ⟨hfd, howner, htable⟩ := hsame
  have hcalls : ∀ c ∈ s.calls ++ [call], c ∈ s.calls ∨ c = call := by
    intro c hc
    exact (List.mem_append.mp hc).imp_right List.mem_singleton.mp
  constructor
  · exact howned
  · constructor
    · intro i
      refine (hstream i).trans ?_
      by_cases hi : call.sock = some i <;> simp [callsOn, inFlight, finish, List.filter_append, hi]
    · intro c hc
      rcases hcalls c hc with hc | rfl
      · exact h.framed.whole c hc
      · exact hwhole
    · intro c hc sock hpublished hsock hfailed
      rcases hcalls c hc with hc | rfl
      · exact hbroken (h.framed.cut c hc sock (hfd.symm.trans hpublished) hsock hfailed)
      · exact hcut (by simp [hsock]) hfailed
  · simp [finish, hlock]
  · rintro frame hframe
    cases hframe
  · exact fun _ _ => rfl
  · intro c hc i hsock
    change i < next.descriptors.next
    rw [htable]
    rcases hcalls c hc with hc | rfl
    · exact h.read_lt c hc i hsock
    · obtain ⟨curFd, hfd, rfl⟩ := hread i hsock
      exact h.owned.accounted.lt _ _ (h.owned.published curFd hfd)
  · intro c hc sock hheld hsock
    change next.owner.unpublished = some sock at hheld
    rw [howner] at hheld
    rcases hcalls c hc with hc | rfl
    · exact h.read_published c hc sock hheld hsock
    · obtain ⟨curFd, hfd, -⟩ := hread sock.id hsock
      -- while a socket is in the owner's hands no number is published
      have hoffline : s.sockets.fd = none := by
        apply h.owned.offline
        cases howner : s.sockets.owner <;> rw [howner] at hheld <;> first
          | rfl
          | cases hheld
      simp [hoffline] at hfd

/-- The holder of the lock reads the number, and returns if none is published. -/
theorem tracked_read {transfered : ℤ} {frame : Frame β} {sender : MavSockets.Sender}
    (h : s.Tracked) (hframe : s.frame = some frame)
    (hlock : s.sockets.sendLock = some (.locked sender))
    (hstep : s.stepSend transfered = some t) : t.Tracked := by
  have hstream (i : ℕ) : s.streams i = (s.callsOn i).flatMap SendCall.taken := by
    simpa [inFlight, hframe, hlock] using h.framed.stream i
  have howned := h.owned.step (MavSockets.step_send_locked hlock)
  unfold stepSend at hstep
  simp only [hframe, hlock, MavSockets.step_send_locked hlock, Option.map_some,
    Option.some.injEq] at hstep
  split at hstep
  · next curFd hfd =>
    subst hstep
    constructor
    · exact howned
    · constructor
      · intro i
        rw [hfd]
        simpa [inFlight, hframe, h.unsent sender hlock, callsOn] using hstream i
      · exact h.framed.whole
      · exact h.framed.cut
    · simp [hfd]
    · rintro other hother
      cases hother
      exact h.partly frame hframe
    · exact fun _ _ => h.unsent sender hlock
    · exact h.read_lt
    · exact h.read_published
  · next hfd =>
    subst hstep
    refine tracked_finish h howned (by simp [hfd]) ⟨rfl, rfl, rfl⟩ id (fun i => ?_) ?_
      (fun hsock => absurd rfl hsock) fun i hsock => by cases hsock
    · simpa using hstream i
    · simpa [SendCall.taken, eq_comm] using frame.nonempty

/-- What is written after a call that took some of what was left. -/
theorem streams_of_taken (h : s.Tracked) {frame : Frame β} {sender : MavSockets.Sender}
    {curFd : Handle} (hframe : s.frame = some frame)
    (hlock : s.sockets.sendLock = some (.sending sender curFd)) (n i : ℕ) :
    s.write curFd.number ((frame.bytes.drop s.sent).take n) i =
      (s.callsOn i).flatMap SendCall.taken ++
        if curFd.id = i then frame.bytes.take (s.sent + n) else [] := by
  have hstream := h.framed.stream i
  rw [write_of_sending h hlock]
  by_cases hi : curFd.id = i
  · subst hi
    simp only [inFlight, hframe, hlock, if_true] at hstream
    rw [Function.update_self, hstream, if_pos rfl, List.take_add, List.append_assoc]
  · simp only [inFlight, hframe, hlock, if_neg hi] at hstream
    rw [Function.update_of_ne (Ne.symm hi), hstream, if_neg hi]

/-- A call that takes nothing ends the message. -/
theorem tracked_fails {frame : Frame β} {sender : MavSockets.Sender} {curFd : Handle}
    (h : s.Tracked) (hframe : s.frame = some frame)
    (hlock : s.sockets.sendLock = some (.sending sender curFd)) :
    Tracked (s.finish { s.sockets with broken := true, sendLock := none }
      { frame := frame, sock := some curFd.id, sent := s.sent }) := by
  have hfd := h.owned.sending sender curFd hlock
  refine tracked_finish h (h.owned.step (MavSockets.step_send_fails hlock)) rfl ⟨rfl, rfl, rfl⟩
    (fun _ => rfl) (fun i => ?_) ?_ (fun _ _ => rfl) fun i hi => ⟨curFd, hfd, Option.some.inj hi⟩
  · simpa [inFlight, hframe, hlock, SendCall.taken] using h.framed.stream i
  · simpa [SendCall.taken] using h.partly frame hframe

/-- A call that takes the last of the message ends it as well. -/
theorem tracked_done {frame : Frame β} {sender : MavSockets.Sender} {curFd : Handle} {n : ℕ}
    (h : s.Tracked) (hframe : s.frame = some frame)
    (hlock : s.sockets.sendLock = some (.sending sender curFd))
    (hdone : frame.bytes.length ≤ s.sent + n) :
    Tracked { s.finish { s.sockets with sendLock := none }
      { frame := frame, sock := some curFd.id, sent := s.sent + n, returned := true } with
      streams := s.write curFd.number ((frame.bytes.drop s.sent).take n) } := by
  have hfd := h.owned.sending sender curFd hlock
  refine tracked_finish h (h.owned.step (MavSockets.step_send_done hlock)) rfl ⟨rfl, rfl, rfl⟩
    id (fun i => ?_) ?_ (fun _ hfailed => by cases hfailed)
    fun i hi => ⟨curFd, hfd, Option.some.inj hi⟩
  · simpa [SendCall.taken] using streams_of_taken h hframe hlock n i
  · simp [SendCall.taken, List.take_of_length_le hdone]

/-- A call that takes some of what is left, but not all, goes on. -/
theorem tracked_more {frame : Frame β} {sender : MavSockets.Sender} {curFd : Handle} {n : ℕ}
    (h : s.Tracked) (hframe : s.frame = some frame)
    (hlock : s.sockets.sendLock = some (.sending sender curFd))
    (hmore : s.sent + n < frame.bytes.length) :
    Tracked { s with
      streams := s.write curFd.number ((frame.bytes.drop s.sent).take n), sent := s.sent + n } := by
  constructor
  · exact h.owned
  · constructor
    · intro i
      simpa [inFlight, hframe, hlock, callsOn] using streams_of_taken h hframe hlock n i
    · exact h.framed.whole
    · exact h.framed.cut
  · exact h.locked
  · intro other hother
    rw [hframe] at hother
    cases hother
    exact hmore
  · intro other hother
    rw [hlock] at hother
    cases hother
  · exact h.read_lt
  · exact h.read_published

/-- The next call of the holder of the lock takes some of what is left, or fails. -/
theorem tracked_transfer {transfered : ℤ} {frame : Frame β} {sender : MavSockets.Sender}
    {curFd : Handle} (h : s.Tracked) (hframe : s.frame = some frame)
    (hlock : s.sockets.sendLock = some (.sending sender curFd))
    (hstep : s.stepSend transfered = some t) : t.Tracked := by
  unfold stepSend at hstep
  simp only [hframe, hlock] at hstep
  split_ifs at hstep with hfails hlimit hmore
  · rw [MavSockets.step_send_fails hlock] at hstep
    cases hstep
    exact tracked_fails h hframe hlock
  · simp only [hmore, decide_true, MavSockets.step_send_more hlock, Option.map_some,
      Option.some.injEq] at hstep
    subst hstep
    rw [← hframe]
    exact tracked_more h hframe hlock hmore
  · simp only [hmore, decide_false, MavSockets.step_send_done hlock, Option.map_some,
      Option.some.injEq] at hstep
    subst hstep
    exact tracked_done h hframe hlock (Nat.le_of_not_lt hmore)

/-- The next step of a sender. -/
theorem tracked_send {transfered : ℤ} (h : s.Tracked) (hstep : s.step (.send transfered) = some t) :
    t.Tracked := by
  change s.stepSend transfered = some t at hstep
  cases hframe : s.frame with
  | none => simp [stepSend, hframe] at hstep
  | some frame =>
    cases hlock : s.sockets.sendLock with
    | none => simp [stepSend, hframe, hlock] at hstep
    | some pc =>
      cases pc with
      | locked sender => exact tracked_read h hframe hlock hstep
      | sending sender curFd => exact tracked_transfer h hframe hlock hstep

/-- Under every schedule of the senders with the reconnector, the recv thread and the rest of the
program, and whatever the system takes in one call, every socket's bytes are those of the messages
sent on it in the order of the lock, each as far as it got. A call succeeds exactly when all of its
message was taken, and a socket on which one was cut short is flagged as long as it is published. -/
theorem framed_of_run {es : List (WireStep β)} (hrun : run step ({} : MavWire β) es = some t) :
    t.Framed := by
  have hstep (s : MavWire β) (e : WireStep β) (t : MavWire β) (h : s.Tracked)
      (hstep : s.step e = some t) : t.Tracked := by
    cases e with
    | lock => exact tracked_lock h hstep
    | send => exact tracked_send h hstep
    | other => exact tracked_other h hstep
  exact (invariant_of_run Tracked hstep tracked_start hrun).framed

/-- A message of three bytes and one of one byte. -/
def threeBytes : Frame ℕ := ⟨[1, 2, 3], by simp⟩

def oneByte : Frame ℕ := ⟨[4], by simp⟩

/-- A socket is published; the first message is cut short, and another sender's goes out whole. -/
def cutThenWhole : List (WireStep ℕ) :=
  [.other .start, .other (.owner true 7), .other (.connects 7), .other (.owner true 0),
    .other (.owner true 0), .other (.owner true 0), .other (.owner true 0),
    .lock (.thread 0) threeBytes, .send 0, .send 2, .send (-1),
    .lock (.thread 1) oneByte, .send 0, .send 1]

/-- Two bytes of the first message stand before the second one, and the connection is flagged. -/
theorem cutThenWhole_framed :
    ∃ t, run step ({} : MavWire ℕ) cutThenWhole = some t ∧ t.Framed ∧ t.streams 0 = [1, 2, 4] ∧
      t.calls.map SendCall.returned = [false, true] ∧ t.sockets.broken = true := by
  obtain ⟨t, hrun, hstream, hreturned, hbroken⟩ : ∃ t,
      run step ({} : MavWire ℕ) cutThenWhole = some t ∧ t.streams 0 = [1, 2, 4] ∧
      t.calls.map SendCall.returned = [false, true] ∧ t.sockets.broken = true :=
    ⟨_, rfl, rfl, rfl, rfl⟩
  exact ⟨t, hrun, framed_of_run hrun, hstream, hreturned, hbroken⟩

end MavWire

end CapFmu
