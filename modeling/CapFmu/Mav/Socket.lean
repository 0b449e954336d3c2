import CapFmu.Handles.Table
import CapFmu.Transition.Run

/-!
# The socket of the autopilot connection

The connection publishes the number of its open socket. Senders read it under the send lock and
hold the lock until the message is sent, the recv thread reads it before each call, and one
thread at a time dials and tears down: it retires the number under the send lock, wakes the recv
thread and joins it, and only then closes the descriptor. A number is free for anybody as soon
as its descriptor is closed, so that a call on a stale number would reach another descriptor.

The program starts the connection before the first pass of the reconnector, and destroys it when
no pass is running. When the reconnector is due to dial is left open.
-/

namespace CapFmu

open Handles Transition

namespace MavSockets

/-- What a descriptor is open for: something else in the program, or a socket of the connection. -/
inductive Descriptor
  | foreign
  | socket (connected : Bool)
  deriving DecidableEq

/-- The threads that send. -/
inductive Sender
  | recvThread
  | thread (n : ℕ)
  deriving DecidableEq

/-- What the holder of the send lock does next: read the number, or send on the one it read. -/
inductive SendPc
  | locked (sender : Sender)
  | sending (sender : Sender) (curFd : Handle)
  deriving DecidableEq

/-- The thread that holds the send lock. -/
def SendPc.sender : SendPc → Sender
  | locked sender => sender
  | sending sender _ => sender

/-- What the recv thread does next. A thread that has exited can still be joined. -/
inductive RecvPc
  | absent
  | reading
  | receiving (curFd : Handle)
  | processing
  | flagging
  | exited
  deriving DecidableEq

/-- What follows a teardown. -/
inductive AfterTeardown
  | reconnect
  | destroy
  deriving DecidableEq

/-- What the thread that dials and tears down does next. -/
inductive OwnerPc
  | unstarted
  | idle
  | retiring (after : AfterTeardown)
  | shutting (origFd : Handle) (after : AfterTeardown)
  | joining (origFd : Option Handle) (after : AfterTeardown)
  | closing (origFd : Handle) (after : AfterTeardown)
  | finishing (after : AfterTeardown)
  | checking
  | dialling
  | connecting (sock : Handle)
  | abandoning (sock : Handle)
  | retrying
  | configuring (newFd : Handle)
  | publishing (newFd : Handle)
  | spawning
  | destroyed
  deriving DecidableEq

namespace OwnerPc

/-- The descriptor that was retired and whose recv thread has not been joined. -/
def retired : OwnerPc → Option Handle
  | shutting origFd _ => some origFd
  | joining origFd _ => origFd
  | _ => none

/-- The descriptor that is known to be connected. -/
def connected : OwnerPc → Option Handle
  | shutting h _ | closing h _ | configuring h | publishing h => some h
  | joining origFd _ => origFd
  | _ => none

/-- The descriptor that is the owner's to publish or to close. -/
def held : OwnerPc → Option Handle
  | connecting sock | abandoning sock => some sock
  | pc => pc.connected

/-- Whether the number may be published. -/
def online : OwnerPc → Bool
  | idle | retiring _ | checking | spawning => true
  | _ => false

end OwnerPc

end MavSockets

open MavSockets in
/-- The connection, its threads and the descriptors of the program. The last field records which
descriptors were sockets of the connection. -/
structure MavSockets where
  descriptors : Table Descriptor := {}
  fd : Option Handle := none
  broken : Bool := false
  sendLock : Option SendPc := none
  recvThread : RecvPc := .absent
  owner : OwnerPc := .unstarted
  dialled : List ℕ := []

namespace MavSockets

/-- What can happen. A step of the owner says whether what it tries succeeds, or is due, and which
number the system gives it. -/
inductive SocketStep
  | start
  | attemptReconnect
  | destroy
  | owner (ok : Bool) (number : ℕ)
  | connects (number : ℕ)
  | recv (received again : Bool)
  | lock (sender : Sender)
  | send (more fails : Bool)
  | flag
  | foreignOpen (number : ℕ)
  | foreignClose (number : ℕ)

/-- The next step of the owner. -/
def ownerStep (s : MavSockets) (ok : Bool) (number : ℕ) : Option MavSockets :=
  match s.owner with
  | .unstarted | .idle | .destroyed => none
  | .retiring after =>
    if s.sendLock = none then
      match s.fd with
      | some origFd => some { s with fd := none, owner := .shutting origFd after }
      | none => some { s with owner := .joining none after }
    else none
  | .shutting origFd after => some { s with owner := .joining (some origFd) after }
  | .joining origFd after =>
    if s.recvThread = .absent ∨ s.recvThread = .exited then
      some { s with
        recvThread := .absent
        owner := origFd.elim (.finishing after) fun origFd => .closing origFd after }
    else none
  | .closing origFd after =>
    some { s with
      descriptors := s.descriptors.remove origFd.number
      owner := .finishing after }
  | .finishing .reconnect => some { s with broken := false, owner := .checking }
  | .finishing .destroy => some { s with owner := .destroyed }
  | .checking => some { s with owner := if s.fd = none ∧ ok then .dialling else .idle }
  | .dialling =>
    if ok then
      if (s.descriptors.entries number).isNone then
        some { s with
          descriptors := s.descriptors.insert number (.socket false)
          dialled := s.dialled ++ [s.descriptors.next]
          owner := .connecting { number := number, id := s.descriptors.next } }
      else none
    else some { s with owner := .retrying }
  | .connecting sock =>
    if ok then
      -- the call says so only of a socket that is connected
      if (s.descriptors.entries sock.number).any fun e => e.value = .socket true then
        some { s with owner := .configuring sock }
      else none
    else some { s with owner := .abandoning sock }
  | .abandoning sock =>
    some { s with descriptors := s.descriptors.remove sock.number, owner := .retrying }
  | .retrying => some { s with owner := if ok then .dialling else .idle }
  | .configuring newFd => some { s with broken := false, owner := .publishing newFd }
  | .publishing newFd =>
    if s.sendLock = none then some { s with fd := some newFd, owner := .spawning } else none
  | .spawning => some { s with recvThread := .reading, owner := .idle }

/-- The next step of the recv thread, which processes messages while it does not send. -/
def recvStep (s : MavSockets) (received again : Bool) : Option MavSockets :=
  match s.recvThread with
  | .absent | .exited => none
  | .reading =>
    match s.fd with
    | some curFd => some { s with recvThread := .receiving curFd }
    | none => some { s with recvThread := .flagging }
  | .receiving _ =>
    some { s with
      recvThread := if received then .processing else if again then .reading else .flagging }
  | .processing =>
    if s.sendLock.map SendPc.sender = some .recvThread then none
    else some { s with recvThread := .reading }
  | .flagging => some { s with broken := true, recvThread := .exited }

/-- The next step of the holder of the send lock. -/
def sendStep (s : MavSockets) (more fails : Bool) : Option MavSockets :=
  match s.sendLock with
  | none => none
  | some (.locked sender) =>
    match s.fd with
    | some curFd => some { s with sendLock := some (.sending sender curFd) }
    | none => some { s with sendLock := none }
  | some (.sending _ _) =>
    if fails then some { s with broken := true, sendLock := none }
    else if more then some s
    else some { s with sendLock := none }

/-- A connection attempt of the system completes. -/
def Descriptor.connect : Descriptor → Descriptor
  | .socket _ => .socket true
  | .foreign => .foreign

/-- One step of one thread, of the system or of the rest of the program. -/
def step (s : MavSockets) : SocketStep → Option MavSockets
  | .start => some (if s.owner = .unstarted then { s with owner := .dialling } else s)
  | .attemptReconnect =>
    if s.owner = .idle then
      some { s with owner := if s.broken then .retiring .reconnect else .checking }
    else none
  | .destroy =>
    if s.owner = .idle ∨ s.owner = .unstarted then some { s with owner := .retiring .destroy }
    else none
  | .owner ok number => s.ownerStep ok number
  | .connects number =>
    some { s with descriptors := s.descriptors.modify number Descriptor.connect }
  | .recv received again => s.recvStep received again
  | .lock sender =>
    if s.sendLock = none ∧ (sender = .recvThread → s.recvThread = .processing) then
      some { s with sendLock := some (.locked sender) }
    else none
  | .send more fails => s.sendStep more fails
  | .flag => some { s with broken := true }
  | .foreignOpen number =>
    if (s.descriptors.entries number).isNone then
      some { s with descriptors := s.descriptors.insert number .foreign }
    else none
  | .foreignClose number =>
    if (s.descriptors.entries number).any fun e => e.value = .foreign then
      some { s with descriptors := s.descriptors.remove number }
    else none

/-- The number stands for the socket it was read for, which is open and connected. -/
def Usable (s : MavSockets) (h : Handle) : Prop := s.descriptors.Refers h (.socket true)

/-- What the next call of the owner must find: the socket it shuts down open and connected, a
descriptor it closes open and no recv thread left to join, no number published when it publishes
one, and no recv thread left to join when it starts one. -/
def OwnerCallLawful (s : MavSockets) : Prop :=
  match s.owner with
  | .shutting origFd _ => s.Usable origFd
  | .closing origFd _ => s.Usable origFd ∧ s.recvThread = .absent
  | .abandoning sock => (∃ c, s.descriptors.Refers sock (.socket c)) ∧ s.recvThread = .absent
  | .publishing newFd => s.Usable newFd ∧ s.fd = none
  | .spawning => s.recvThread = .absent
  | _ => True

/-- What is promised of every state: a thread that sends or receives does so on its own socket,
open and connected, the owner's calls are lawful, no descriptor was closed twice, and when the
connection is destroyed every socket it dialled has been closed once. -/
structure Lawful (s : MavSockets) : Prop where
  sending : ∀ sender curFd, s.sendLock = some (.sending sender curFd) → s.Usable curFd
  receiving : ∀ curFd, s.recvThread = .receiving curFd → s.Usable curFd
  ownerCall : s.OwnerCallLawful
  at_most_once : ∀ i, s.descriptors.closed.count i ≤ 1
  once : s.owner = .destroyed → ∀ i ∈ s.dialled, s.descriptors.closed.count i = 1

/-- The invariant of the connection. -/
structure Owned (s : MavSockets) : Prop where
  accounted : s.descriptors.Accounted
  published : ∀ h, s.fd = some h → s.Usable h
  sending : ∀ sender h, s.sendLock = some (.sending sender h) → s.fd = some h
  receiving : ∀ h, s.recvThread = .receiving h → s.fd = some h ∨ s.owner.retired = some h
  alone : s.fd = none → s.owner.retired = none → s.recvThread = .absent
  spawning : s.owner = .spawning → s.recvThread = .absent ∧ s.fd ≠ none
  offline : s.owner.online = false → s.fd = none
  connected : ∀ h, s.owner.connected = some h → s.Usable h
  held : ∀ h, s.owner.held = some h → ∃ c, s.descriptors.Refers h (.socket c)
  open_held : ∀ n e c, s.descriptors.entries n = some e → e.value = .socket c →
    s.fd = some ⟨n, e.id⟩ ∨ s.owner.held = some ⟨n, e.id⟩
  dialled_lt : ∀ i ∈ s.dialled, i < s.descriptors.next
  dialled_socket : ∀ n e, s.descriptors.entries n = some e → e.id ∈ s.dialled →
    ∃ c, e.value = .socket c

section Invariant

variable {s t : MavSockets}

/-- The invariant is what the promise needs. -/
theorem Owned.lawful (h : Owned s) : Lawful s where
  sending sender curFd hsending := h.published curFd (h.sending sender curFd hsending)
  receiving curFd hreceiving := by
    cases h.receiving curFd hreceiving with
    | inl hpublished => exact h.published curFd hpublished
    | inr hretired =>
      apply h.connected
      cases howner : s.owner <;> rw [howner] at hretired <;> first
        | exact hretired
        | exact absurd hretired.symm (Option.some_ne_none curFd)
  ownerCall := by
    unfold OwnerCallLawful
    split
    · next howner => exact h.connected _ (by rw [howner]; rfl)
    · next howner =>
      have hoffline := h.offline (by rw [howner]; rfl)
      exact ⟨h.connected _ (by rw [howner]; rfl), h.alone hoffline (by rw [howner]; rfl)⟩
    · next howner =>
      have hoffline := h.offline (by rw [howner]; rfl)
      exact ⟨h.held _ (by rw [howner]; rfl), h.alone hoffline (by rw [howner]; rfl)⟩
    · next howner => exact ⟨h.connected _ (by rw [howner]; rfl), h.offline (by rw [howner]; rfl)⟩
    · next howner => exact (h.spawning howner).1
    · trivial
  at_most_once i := List.nodup_iff_count_le_one.mp h.accounted.nodup i
  once howner i hi := by
    apply List.count_eq_one_of_mem h.accounted.nodup
    apply (h.accounted.complete i (h.dialled_lt i hi)).resolve_right
    rintro ⟨n, e, he, rfl⟩
    obtain ⟨c, hvalue⟩ := h.dialled_socket n e he hi
    have hoffline := h.offline (by rw [howner]; rfl)
    cases h.open_held n e c he hvalue with
    | inl hpublished => exact Option.some_ne_none _ (hpublished.symm.trans hoffline)
    | inr hheld =>
      rw [howner] at hheld
      exact Option.some_ne_none _ hheld.symm

/-- Nothing is open at first. -/
theorem owned_start : Owned {} := by
  constructor <;> simp [Table.accounted_empty, OwnerPc.connected, OwnerPc.held]

/-- The owner moves on with the same descriptor in its hands. -/
theorem Owned.move (h : Owned s) {before : OwnerPc} (howner : s.owner = before) (broken : Bool)
    (pc : OwnerPc) (hheld : pc.held = before.held) (hretired : pc.retired = before.retired)
    (hconnected : ∀ h, pc.connected = some h → s.Usable h)
    (hoffline : pc.online = false → s.fd = none) (hspawning : pc ≠ .spawning) :
    Owned { s with broken := broken, owner := pc } := by
  subst howner
  exact { h with
    receiving := hretired ▸ h.receiving
    alone := hretired ▸ h.alone
    spawning := fun hpc => absurd hpc hspawning
    offline := hoffline
    connected := hconnected
    held := hheld ▸ h.held
    open_held := hheld ▸ h.open_held }

/-- The published number is retired under the send lock. -/
theorem Owned.exchange (h : Owned s) {after : AfterTeardown} (howner : s.owner = .retiring after)
    (hlock : s.sendLock = none) {origFd : Handle} (hfd : s.fd = some origFd) :
    Owned { s with fd := none, owner := .shutting origFd after } :=
  { h with
    published := by simp
    sending := by simp [hlock]
    receiving := by
      intro curFd hreceiving
      have hcur := (h.receiving curFd hreceiving).resolve_right (by rw [howner]; simp [OwnerPc.retired])
      exact .inr (hfd.symm.trans hcur)
    alone := by simp [OwnerPc.retired]
    spawning := by simp
    offline := fun _ => rfl
    connected := by
      rintro curFd hcur
      obtain rfl := Option.some.inj hcur
      exact h.published origFd hfd
    held := by
      rintro curFd hcur
      obtain rfl := Option.some.inj hcur
      exact ⟨true, h.published origFd hfd⟩
    open_held := by
      intro n e c he hvalue
      have hopen := (h.open_held n e c he hvalue).resolve_right
        (by rw [howner]; simp [OwnerPc.held, OwnerPc.connected])
      exact .inr (hfd.symm.trans hopen) }

/-- The recv thread is joined, and the retired descriptor is the owner's to close. -/
theorem Owned.join (h : Owned s) {origFd : Option Handle} {after : AfterTeardown}
    (howner : s.owner = .joining origFd after) :
    Owned { s with
      recvThread := .absent
      owner := origFd.elim (.finishing after) fun origFd => .closing origFd after } := by
  have hoffline : s.fd = none := h.offline (by rw [howner]; rfl)
  have hconnected := h.connected
  have hheld := h.held
  have hopen := h.open_held
  rw [howner] at hconnected hheld hopen
  cases origFd with
  | none =>
    exact { h with
      receiving := by simp
      alone := fun _ _ => rfl
      spawning := by simp
      offline := fun _ => hoffline
      connected := hconnected
      held := hheld
      open_held := hopen }
  | some origFd =>
    exact { h with
      receiving := by simp
      alone := fun _ _ => rfl
      spawning := by simp
      offline := fun _ => hoffline
      connected := hconnected
      held := hheld
      open_held := hopen }

/-- The descriptor in the owner's hands is closed, which leaves no socket open. -/
theorem Owned.close (h : Owned s) {before : OwnerPc} (howner : s.owner = before) {origFd : Handle}
    (pc : OwnerPc) (hheld : before.held = some origFd) (hretired : before.retired = none)
    (hoffline : s.fd = none) (hpc : pc.held = none ∧ pc.connected = none ∧ pc.retired = none)
    (hspawning : pc ≠ .spawning) :
    Owned { s with descriptors := s.descriptors.remove origFd.number, owner := pc } := by
  subst howner
  exact { h with
    accounted := h.accounted.remove
    published := by simp [hoffline]
    receiving := by
      intro curFd hreceiving
      have habsent := h.alone hoffline hretired
      exact absurd (habsent.symm.trans hreceiving) (by simp)
    alone := fun _ _ => h.alone hoffline hretired
    spawning := fun howner => absurd howner hspawning
    offline := fun _ => hoffline
    connected := by simp [hpc.2.1]
    held := by simp [hpc.1]
    open_held := by
      intro n e c he hvalue
      obtain ⟨hn, he⟩ := Table.remove_eq_some_iff.mp he
      cases h.open_held n e c he hvalue with
      | inl hpublished => exact absurd (hpublished.symm.trans hoffline) (by simp)
      | inr hopen =>
        obtain rfl := Option.some.inj (hheld.symm.trans hopen)
        exact absurd rfl hn
    dialled_lt := h.dialled_lt
    dialled_socket := by
      intro n e he
      exact h.dialled_socket n e (Table.remove_eq_some_iff.mp he).2 }

/-- A socket is created for a dial. -/
theorem Owned.dial (h : Owned s) (howner : s.owner = .dialling) {number : ℕ}
    (hfree : s.descriptors.entries number = none) :
    Owned { s with
      descriptors := s.descriptors.insert number (.socket false)
      dialled := s.dialled ++ [s.descriptors.next]
      owner := .connecting { number := number, id := s.descriptors.next } } := by
  have hoffline : s.fd = none := h.offline (by rw [howner]; rfl)
  have habsent : s.recvThread = .absent := h.alone hoffline (by rw [howner]; rfl)
  exact { h with
    accounted := h.accounted.insert hfree
    published := by simp [hoffline]
    receiving := by simp [habsent]
    alone := fun _ _ => habsent
    spawning := by simp
    offline := fun _ => hoffline
    connected := by simp [OwnerPc.connected]
    held := by
      intro sock hsock
      obtain rfl := Option.some.inj hsock
      exact ⟨false, Table.insert_eq_some_iff.mpr (.inl ⟨rfl, rfl⟩)⟩
    open_held := by
      intro n e c he hvalue
      cases Table.insert_eq_some_iff.mp he with
      | inl hnew =>
        obtain ⟨rfl, rfl⟩ := hnew
        exact .inr rfl
      | inr hold =>
        cases h.open_held n e c hold.2 hvalue with
        | inl hpublished => exact absurd (hpublished.symm.trans hoffline) (by simp)
        | inr hheld =>
          rw [howner] at hheld
          exact absurd hheld.symm (Option.some_ne_none _)
    dialled_lt := by
      intro i hi
      cases List.mem_append.mp hi with
      | inl hold => exact Nat.lt_succ_of_lt (h.dialled_lt i hold)
      | inr hnew =>
        rw [List.mem_singleton.mp hnew]
        exact Nat.lt_succ_self s.descriptors.next
    dialled_socket := by
      intro n e he hi
      cases Table.insert_eq_some_iff.mp he with
      | inl hnew => exact ⟨false, by rw [hnew.2]⟩
      | inr hold =>
        cases List.mem_append.mp hi with
        | inl hdialled => exact h.dialled_socket n e hold.2 hdialled
        | inr hnew =>
          have hlt := h.accounted.lt n e hold.2
          rw [List.mem_singleton.mp hnew] at hlt
          exact absurd hlt (Nat.lt_irrefl _) }

/-- The connected socket is published under the send lock. -/
theorem Owned.publish (h : Owned s) {newFd : Handle} (howner : s.owner = .publishing newFd)
    (hlock : s.sendLock = none) : Owned { s with fd := some newFd, owner := .spawning } := by
  have hoffline : s.fd = none := h.offline (by rw [howner]; rfl)
  have habsent : s.recvThread = .absent := h.alone hoffline (by rw [howner]; rfl)
  have hconnected : s.Usable newFd := h.connected newFd (by rw [howner]; rfl)
  exact { h with
    published := by
      intro curFd hcur
      exact Option.some.inj hcur ▸ hconnected
    sending := by simp [hlock]
    receiving := by simp [habsent]
    alone := by simp
    spawning := fun _ => ⟨habsent, by simp⟩
    offline := by simp [OwnerPc.online]
    connected := by simp [OwnerPc.connected]
    held := by simp [OwnerPc.held, OwnerPc.connected]
    open_held := by
      intro n e c he hvalue
      have hheld := (h.open_held n e c he hvalue).resolve_left (by simp [hoffline])
      rw [howner] at hheld
      exact .inl hheld }

/-- The recv thread of the published socket is started. -/
theorem Owned.spawn (h : Owned s) (howner : s.owner = .spawning) :
    Owned { s with recvThread := .reading, owner := .idle } := by
  have hopen := h.open_held
  rw [howner] at hopen
  exact { h with
    receiving := by simp
    alone := fun hnone => absurd hnone (h.spawning howner).2
    spawning := by simp
    offline := by simp [OwnerPc.online]
    connected := by simp [OwnerPc.connected]
    held := by simp [OwnerPc.held, OwnerPc.connected]
    open_held := hopen }

/-- The owner moves on with nothing in its hands. -/
theorem Owned.moveFree (h : Owned s) {before : OwnerPc} (howner : s.owner = before)
    (hfree : before.held = none ∧ before.retired = none) (broken : Bool) (pc : OwnerPc)
    (hpc : pc.held = none ∧ pc.retired = none ∧ pc.connected = none)
    (hoffline : pc.online = false → s.fd = none) (hspawning : pc ≠ .spawning) :
    Owned { s with broken := broken, owner := pc } := by
  apply h.move howner broken pc
  · rw [hpc.1, hfree.1]
  · rw [hpc.2.1, hfree.2]
  · simp [hpc.2.2]
  · exact hoffline
  · exact hspawning

/-- A connection attempt that has succeeded. -/
theorem Owned.usable_of_connecting (h : Owned s) {sock : Handle}
    (howner : s.owner = .connecting sock)
    (hvalue : (s.descriptors.entries sock.number).any (fun e => e.value = .socket true) = true) :
    s.Usable sock := by
  obtain ⟨c, hc⟩ := h.held sock (by rw [howner]; rfl)
  rw [Table.Refers] at hc
  rw [hc] at hvalue
  have htrue : c = true := by simpa using hvalue
  rw [htrue] at hc
  exact hc

/-- Every step of the owner keeps the invariant. -/
theorem Owned.ownerStep (h : Owned s) {ok : Bool} {number : ℕ}
    (hstep : s.ownerStep ok number = some t) : Owned t := by
  have hoffline := h.offline
  have hconnected := h.connected
  unfold MavSockets.ownerStep at hstep
  split at hstep
  case h_1 | h_2 | h_3 => exact absurd hstep.symm (Option.some_ne_none t)
  case h_4 after howner =>
    split at hstep
    · next hlock =>
      split at hstep
      · next origFd hfd => exact Option.some.inj hstep ▸ h.exchange howner hlock hfd
      · next hfd =>
        obtain rfl := Option.some.inj hstep
        exact h.moveFree howner ⟨rfl, rfl⟩ s.broken _ ⟨rfl, rfl, rfl⟩
          (fun _ => hfd) (by simp)
    · exact absurd hstep.symm (Option.some_ne_none t)
  case h_5 origFd after howner =>
    rw [howner] at hoffline hconnected
    obtain rfl := Option.some.inj hstep
    exact h.move howner s.broken _ rfl rfl hconnected hoffline (by simp)
  case h_6 origFd after howner =>
    split at hstep
    · exact Option.some.inj hstep ▸ h.join howner
    · exact absurd hstep.symm (Option.some_ne_none t)
  case h_7 origFd after howner =>
    rw [howner] at hoffline
    obtain rfl := Option.some.inj hstep
    exact h.close howner _ rfl rfl (hoffline rfl) ⟨rfl, rfl, rfl⟩
      (by simp)
  case h_8 howner =>
    rw [howner] at hoffline
    obtain rfl := Option.some.inj hstep
    exact h.moveFree howner ⟨rfl, rfl⟩ false _ ⟨rfl, rfl, rfl⟩
      (fun _ => hoffline rfl) (by simp)
  case h_9 howner =>
    rw [howner] at hoffline
    obtain rfl := Option.some.inj hstep
    exact h.moveFree howner ⟨rfl, rfl⟩ s.broken _ ⟨rfl, rfl, rfl⟩
      (fun _ => hoffline rfl) (by simp)
  case h_10 howner =>
    obtain rfl := Option.some.inj hstep
    split
    · next hdue =>
      exact h.moveFree howner ⟨rfl, rfl⟩ s.broken _ ⟨rfl, rfl, rfl⟩
        (fun _ => hdue.1) (by simp)
    · exact h.moveFree howner ⟨rfl, rfl⟩ s.broken _ ⟨rfl, rfl, rfl⟩
        (by simp [OwnerPc.online]) (by simp)
  case h_11 howner =>
    split at hstep
    · split at hstep
      · next hfree => exact Option.some.inj hstep ▸ h.dial howner (Option.isNone_iff_eq_none.mp hfree)
      · exact absurd hstep.symm (Option.some_ne_none t)
    · rw [howner] at hoffline
      obtain rfl := Option.some.inj hstep
      exact h.moveFree howner ⟨rfl, rfl⟩ s.broken _ ⟨rfl, rfl, rfl⟩
        (fun _ => hoffline rfl) (by simp)
  case h_12 sock howner =>
    split at hstep
    · split at hstep
      · next hvalue =>
        have husable := h.usable_of_connecting howner hvalue
        rw [howner] at hoffline
        obtain rfl := Option.some.inj hstep
        refine h.move howner s.broken _ rfl rfl ?_ (fun _ => hoffline rfl)
          (by simp)
        intro newFd hnew
        exact Option.some.inj hnew ▸ husable
      · exact absurd hstep.symm (Option.some_ne_none t)
    · rw [howner] at hoffline
      obtain rfl := Option.some.inj hstep
      exact h.move howner s.broken _ rfl rfl
        (by simp [OwnerPc.connected]) (fun _ => hoffline rfl) (by simp)
  case h_13 sock howner =>
    rw [howner] at hoffline
    obtain rfl := Option.some.inj hstep
    exact h.close howner _ rfl rfl (hoffline rfl) ⟨rfl, rfl, rfl⟩
      (by simp)
  case h_14 howner =>
    rw [howner] at hoffline
    obtain rfl := Option.some.inj hstep
    split
    · exact h.moveFree howner ⟨rfl, rfl⟩ s.broken _ ⟨rfl, rfl, rfl⟩
        (fun _ => hoffline rfl) (by simp)
    · exact h.moveFree howner ⟨rfl, rfl⟩ s.broken _ ⟨rfl, rfl, rfl⟩
        (fun _ => hoffline rfl) (by simp)
  case h_15 newFd howner =>
    rw [howner] at hoffline hconnected
    obtain rfl := Option.some.inj hstep
    exact h.move howner false _ rfl rfl hconnected hoffline (by simp)
  case h_16 newFd howner =>
    split at hstep
    · next hlock => exact Option.some.inj hstep ▸ h.publish howner hlock
    · exact absurd hstep.symm (Option.some_ne_none t)
  case h_17 howner => exact Option.some.inj hstep ▸ h.spawn howner

/-- Descriptors of the rest of the program come and go, and connection attempts complete. -/
theorem Owned.descriptors (h : Owned s) {table : Table Descriptor} (haccounted : table.Accounted)
    (hnext : s.descriptors.next ≤ table.next)
    (hkeeps : ∀ h c, s.descriptors.Refers h (.socket c) →
      ∃ c', table.Refers h (.socket c') ∧ (c = true → c' = true))
    (hsockets : ∀ n e, table.entries n = some e → (∃ c, e.value = .socket c) ∨ e.id ∈ s.dialled →
      ∃ old c, s.descriptors.entries n = some old ∧ old.id = e.id ∧ old.value = .socket c ∧
        ∃ c', e.value = .socket c') :
    Owned { s with descriptors := table } := by
  have husable (h : Handle) (hused : s.Usable h) : table.Refers h (.socket true) := by
    obtain ⟨c, hc, htrue⟩ := hkeeps h true hused
    exact htrue rfl ▸ hc
  exact { h with
    accounted := haccounted
    published := fun h' hfd => husable h' (h.published h' hfd)
    connected := fun h' hheld => husable h' (h.connected h' hheld)
    held := by
      intro h' hheld
      obtain ⟨c, hc⟩ := h.held h' hheld
      obtain ⟨c', hc', -⟩ := hkeeps h' c hc
      exact ⟨c', hc'⟩
    open_held := by
      intro n e c he hvalue
      obtain ⟨old, c', hold, hid, hold_value, -⟩ := hsockets n e he (.inl ⟨c, hvalue⟩)
      rw [← hid]
      exact h.open_held n old c' hold hold_value
    dialled_lt := fun i hi => Nat.lt_of_lt_of_le (h.dialled_lt i hi) hnext
    dialled_socket := by
      intro n e he hi
      obtain ⟨-, -, -, -, -, hvalue⟩ := hsockets n e he (.inr hi)
      exact hvalue }

/-- A step of the recv thread. -/
theorem Owned.recvStep (h : Owned s) {received again : Bool}
    (hstep : s.recvStep received again = some t) : Owned t := by
  have hpresent (hthread : s.recvThread ≠ .absent) (pc : RecvPc) (broken : Bool)
      (hreceiving : ∀ curFd, pc = .receiving curFd → s.fd = some curFd) :
      Owned { s with recvThread := pc, broken := broken } :=
    { h with
      receiving := fun curFd hpc => .inl (hreceiving curFd hpc)
      alone := fun hfd hretired => absurd (h.alone hfd hretired) hthread
      spawning := fun howner => absurd (h.spawning howner).1 hthread }
  unfold MavSockets.recvStep at hstep
  split at hstep
  · exact absurd hstep.symm (Option.some_ne_none t)
  · exact absurd hstep.symm (Option.some_ne_none t)
  · next hthread =>
    split at hstep
    · next curFd hfd =>
      obtain rfl := Option.some.inj hstep
      apply hpresent (by simp [hthread])
      intro curFd' hpc
      exact RecvPc.receiving.inj hpc ▸ hfd
    · obtain rfl := Option.some.inj hstep
      exact hpresent (by simp [hthread]) _ _ (by simp)
  · next hthread =>
    obtain rfl := Option.some.inj hstep
    apply hpresent (by simp [hthread])
    intro curFd
    split
    · simp
    · split <;> simp
  · next hthread =>
    split at hstep
    · exact absurd hstep.symm (Option.some_ne_none t)
    · obtain rfl := Option.some.inj hstep
      exact hpresent (by simp [hthread]) _ _ (by simp)
  · next hthread =>
    obtain rfl := Option.some.inj hstep
    exact hpresent (by simp [hthread]) _ _ (by simp)

/-- A step of the holder of the send lock. -/
theorem Owned.sendStep (h : Owned s) {more fails : Bool}
    (hstep : s.sendStep more fails = some t) : Owned t := by
  have hlock (lock : Option SendPc) (broken : Bool)
      (hsending : ∀ sender curFd, lock = some (.sending sender curFd) → s.fd = some curFd) :
      Owned { s with sendLock := lock, broken := broken } := { h with sending := hsending }
  unfold MavSockets.sendStep at hstep
  split at hstep
  · exact absurd hstep.symm (Option.some_ne_none t)
  · split at hstep
    · next curFd hfd =>
      obtain rfl := Option.some.inj hstep
      apply hlock
      intro sender' curFd' hpc
      exact (SendPc.sending.inj (Option.some.inj hpc)).2 ▸ hfd
    · exact Option.some.inj hstep ▸ hlock _ _ (by simp)
  · split at hstep
    · exact Option.some.inj hstep ▸ hlock _ _ (by simp)
    · split at hstep
      · exact Option.some.inj hstep ▸ h
      · exact Option.some.inj hstep ▸ hlock _ _ (by simp)

/-- A socket of the connection, by its value or by the record. -/
theorem Owned.exists_socket (h : Owned s) {n : ℕ} {e : Entry Descriptor}
    (he : s.descriptors.entries n = some e)
    (hsocket : (∃ c, e.value = .socket c) ∨ e.id ∈ s.dialled) : ∃ c, e.value = .socket c :=
  hsocket.elim id (h.dialled_socket n e he)

/-- A connection attempt of the system completes. -/
theorem Owned.connects (h : Owned s) (number : ℕ) :
    Owned { s with descriptors := s.descriptors.modify number Descriptor.connect } := by
  apply h.descriptors h.accounted.modify (Nat.le_refl _)
  · intro sock c hsock
    by_cases hn : sock.number = number
    · subst hn
      exact ⟨true, hsock.modify_self, fun _ => rfl⟩
    · exact ⟨c, hsock.modify hn, id⟩
  · intro n e he hsocket
    obtain ⟨old, hold, hid, hvalue⟩ := Table.exists_of_modify he
    have hold_socket : ∃ c, old.value = .socket c := by
      cases hsocket with
      | inr hdialled => exact h.dialled_socket n old hold (hid ▸ hdialled)
      | inl hvalue' =>
        obtain ⟨c, hc⟩ := hvalue'
        cases hvalue with
        | inr hsame => exact ⟨c, hsame ▸ hc⟩
        | inl hchanged =>
          rw [hchanged] at hc
          cases hv : old.value with
          | foreign =>
            rw [hv] at hc
            exact absurd hc (by simp [Descriptor.connect])
          | socket c' => exact ⟨c', rfl⟩
    obtain ⟨c, hc⟩ := hold_socket
    refine ⟨old, c, hold, hid, hc, ?_⟩
    cases hvalue with
    | inl hchanged => exact ⟨true, by rw [hchanged, hc]; rfl⟩
    | inr hsame => exact ⟨c, hsame.trans hc⟩

/-- The rest of the program opens a descriptor under a free number. -/
theorem Owned.foreignOpen (h : Owned s) {number : ℕ} (hfree : s.descriptors.entries number = none) :
    Owned { s with descriptors := s.descriptors.insert number .foreign } := by
  apply h.descriptors (h.accounted.insert hfree) (Nat.le_succ _)
  · intro sock c hsock
    exact ⟨c, hsock.insert hfree, id⟩
  · intro n e he hsocket
    cases Table.insert_eq_some_iff.mp he with
    | inr hold =>
      obtain ⟨c, hc⟩ := h.exists_socket hold.2 hsocket
      exact ⟨e, c, hold.2, rfl, hc, c, hc⟩
    | inl hnew =>
      rw [hnew.2] at hsocket
      cases hsocket with
      | inl hvalue =>
        obtain ⟨c, hc⟩ := hvalue
        exact absurd hc (by simp)
      | inr hdialled => exact absurd (h.dialled_lt _ hdialled) (Nat.lt_irrefl _)

/-- The rest of the program closes a descriptor of its own. -/
theorem Owned.foreignClose (h : Owned s) {number : ℕ}
    (hforeign : (s.descriptors.entries number).any (fun e => e.value = .foreign) = true) :
    Owned { s with descriptors := s.descriptors.remove number } := by
  apply h.descriptors h.accounted.remove (Nat.le_refl _)
  · intro sock c hsock
    have hn : sock.number ≠ number := by
      rintro rfl
      rw [Table.Refers] at hsock
      rw [hsock] at hforeign
      exact absurd hforeign (by simp)
    exact ⟨c, hsock.remove hn, id⟩
  · intro n e he hsocket
    obtain ⟨-, hold⟩ := Table.remove_eq_some_iff.mp he
    obtain ⟨c, hc⟩ := h.exists_socket hold hsocket
    exact ⟨e, c, hold, rfl, hc, c, hc⟩

/-- Every step keeps the invariant. -/
theorem Owned.step {e : SocketStep} (h : Owned s) (hstep : s.step e = some t) : Owned t := by
  cases e with
  | start =>
    obtain rfl := Option.some.inj hstep
    split
    · next howner =>
      exact h.moveFree howner ⟨rfl, rfl⟩ s.broken _ ⟨rfl, rfl, rfl⟩
        (fun _ => h.offline (by rw [howner]; rfl)) (by simp)
    · exact h
  | attemptReconnect =>
    simp only [MavSockets.step, Option.ite_none_right_eq_some, Option.some_inj] at hstep
    obtain ⟨howner, rfl⟩ := hstep
    split
    · exact h.moveFree howner ⟨rfl, rfl⟩ s.broken _ ⟨rfl, rfl, rfl⟩
        (by simp [OwnerPc.online]) (by simp)
    · exact h.moveFree howner ⟨rfl, rfl⟩ s.broken _ ⟨rfl, rfl, rfl⟩
        (by simp [OwnerPc.online]) (by simp)
  | destroy =>
    simp only [MavSockets.step, Option.ite_none_right_eq_some, Option.some_inj] at hstep
    obtain ⟨howner, rfl⟩ := hstep
    have hfree : s.owner.held = none ∧ s.owner.retired = none := by
      cases howner with
      | inl hidle => exact hidle ▸ ⟨rfl, rfl⟩
      | inr hunstarted => exact hunstarted ▸ ⟨rfl, rfl⟩
    exact h.moveFree rfl hfree s.broken _ ⟨rfl, rfl, rfl⟩ (by simp [OwnerPc.online]) (by simp)
  | owner ok number => exact h.ownerStep hstep
  | connects number => exact Option.some.inj hstep ▸ h.connects number
  | recv received again => exact h.recvStep hstep
  | lock sender =>
    simp only [MavSockets.step, Option.ite_none_right_eq_some, Option.some_inj] at hstep
    obtain ⟨-, rfl⟩ := hstep
    exact { h with sending := by simp }
  | send more fails => exact h.sendStep hstep
  | flag => exact Option.some.inj hstep ▸ { h with }
  | foreignOpen number =>
    simp only [MavSockets.step, Option.ite_none_right_eq_some, Option.some_inj] at hstep
    obtain ⟨hfree, rfl⟩ := hstep
    exact h.foreignOpen (Option.isNone_iff_eq_none.mp hfree)
  | foreignClose number =>
    simp only [MavSockets.step, Option.ite_none_right_eq_some, Option.some_inj] at hstep
    obtain ⟨hforeign, rfl⟩ := hstep
    exact h.foreignClose hforeign

end Invariant

section Run

/-- In every state that any interleaving reaches, the calls on descriptors are lawful. -/
theorem lawful_run {es : List SocketStep} {t : MavSockets}
    (hrun : run MavSockets.step {} es = some t) : Lawful t := by
  have howned : Owned t := by
    apply invariant_of_run Owned _ owned_start hrun
    intro s e t h hstep
    exact h.step hstep
  exact howned.lawful

/-- The first socket is lost while a command is sent on it, and another part of the program is
given its number before the second socket is published. -/
def reusedNumber : List SocketStep :=
  [.start, .owner true 7, .connects 7, .owner true 0, .owner true 0, .owner true 0, .owner true 0,
    .recv false false, .lock (.thread 0), .send false false, .recv false false, .recv false false,
    .send false false, .attemptReconnect, .owner true 0, .owner true 0, .owner true 0,
    .owner true 0, .foreignOpen 7, .owner true 0, .owner true 0, .owner true 8, .connects 8,
    .owner true 0, .owner true 0, .owner true 0, .owner true 0, .recv false false,
    .lock (.thread 0), .send false false]

/-- The next command is sent on the second socket, and the first was closed once. -/
theorem reusedNumber_lawful :
    ∃ t, run MavSockets.step {} reusedNumber = some t ∧ Lawful t ∧
      t.sendLock = some (.sending (.thread 0) { number := 8, id := 2 }) ∧
      t.descriptors.closed = [0] := by
  obtain ⟨t, ht, hsending, hclosed⟩ : ∃ t, run MavSockets.step {} reusedNumber = some t ∧
      t.sendLock = some (.sending (.thread 0) { number := 8, id := 2 }) ∧
      t.descriptors.closed = [0] := ⟨_, rfl, rfl, rfl⟩
  exact ⟨t, ht, lawful_run ht, hsending, hclosed⟩

end Run

end MavSockets

end CapFmu
