import CapFmu.Transition.Progress
import Mathlib.Data.Int.Bitwise

/-!
# Dialling the autopilot

The name of the autopilot resolves to a list of addresses, of which those that can be dialled are
dialled in turn. Each attempt opens a socket, connects it without blocking and polls it until a
deadline, however often the poll is interrupted. A descriptor that failed is closed before the
next one is opened, and the one that is connected is published only after its pending error was
read as none and it blocks again. The calls of the system answer as they like.
-/

namespace CapFmu

open Transition

/-- The families that can be dialled. -/
def afInet : ℕ := 2

def afInet6 : ℕ := 10

/-- The storage that any socket address fits. -/
def sockaddrStorageSize : ℕ := 128

/-- A socket address in its storage. -/
structure SockaddrStorage where
  bytes : List UInt8
  length_eq : bytes.length = sockaddrStorageSize
  deriving DecidableEq

namespace SockaddrStorage

/-- The bytes of an address, with zeros behind them. -/
def ofBytes (bytes : List UInt8) (h : bytes.length ≤ sockaddrStorageSize) : SockaddrStorage where
  bytes := bytes ++ List.replicate (sockaddrStorageSize - bytes.length) 0
  length_eq := by simp [h]

/-- The family, in the byte order of the host. -/
def family (sa : SockaddrStorage) : ℕ := (sa.bytes.getD 0 0).toNat + 256 * (sa.bytes.getD 1 0).toNat

/-- The port, in the byte order of the network. -/
def port (sa : SockaddrStorage) : ℕ := 256 * (sa.bytes.getD 2 0).toNat + (sa.bytes.getD 3 0).toNat

/-- Write the port, which both families have in the same place. -/
def withPort (sa : SockaddrStorage) (port : UInt16) : SockaddrStorage where
  bytes := (sa.bytes.set 2 (.ofNat (port.toNat / 256))).set 3 (.ofNat (port.toNat % 256))
  length_eq := by simp [sa.length_eq]

/-- The port written is read back. -/
theorem port_withPort (sa : SockaddrStorage) (port : UInt16) :
    (sa.withPort port).port = port.toNat := by
  have hlength := sa.length_eq
  have hport := port.toNat_lt
  have hbound : 2 < sa.bytes.length ∧ 3 < sa.bytes.length := by
    rw [hlength]
    decide
  simp only [SockaddrStorage.port, withPort, List.getD_eq_getElem?_getD]
  rw [List.getElem?_set_ne (by decide), List.getElem?_set_self hbound.1,
    List.getElem?_set_self (by simpa using hbound.2)]
  simp only [Option.getD_some, UInt8.toNat_ofNat']
  omega

/-- Writing the port changes no byte but its two. -/
theorem getD_withPort (sa : SockaddrStorage) (port : UInt16) {i : ℕ} (h2 : i ≠ 2) (h3 : i ≠ 3) :
    (sa.withPort port).bytes.getD i 0 = sa.bytes.getD i 0 := by
  simp only [withPort, List.getD_eq_getElem?_getD]
  rw [List.getElem?_set_ne h3.symm, List.getElem?_set_ne h2.symm]

end SockaddrStorage

/-- The length of the addresses of a family. -/
def sockaddrLenForFamily (family : ℕ) : ℕ :=
  if family = afInet then 16 else if family = afInet6 then 28 else 0

/-- Overwrite the port of an address of a family that has one. -/
def setSockaddrPort (sa : SockaddrStorage) (port : UInt16) : Option SockaddrStorage :=
  if sa.family = afInet then some (sa.withPort port)
  else if sa.family = afInet6 then some (sa.withPort port)
  else none

/-- A result of the resolver: its address, if it has one. -/
structure AddrInfo where
  aiAddr : Option (List UInt8)

/-- The address to dial for a result, unless it cannot be dialled. -/
def AddrInfo.endpoint (ai : AddrInfo) (port : UInt16) : Option SockaddrStorage :=
  match ai.aiAddr with
  | none => none
  | some bytes =>
    if h : bytes.length = 0 ∨ sockaddrStorageSize < bytes.length then none
    else
      let sa := SockaddrStorage.ofBytes bytes (not_lt.mp (not_or.mp h).2)
      if sockaddrLenForFamily sa.family = 0 then none else setSockaddrPort sa port

/-- The addresses to dial, in the order of the resolver. -/
def sockaddrEndpoints (ai : List AddrInfo) (port : UInt16) : List SockaddrStorage :=
  ai.filterMap fun info => info.endpoint port

/-- A result that can be dialled. -/
def AddrInfo.Usable (info : AddrInfo) : Prop :=
  ∃ bytes, info.aiAddr = some bytes ∧ bytes ≠ [] ∧ bytes.length ≤ sockaddrStorageSize ∧
    ((bytes.getD 0 0).toNat + 256 * (bytes.getD 1 0).toNat = afInet ∨
      (bytes.getD 0 0).toNat + 256 * (bytes.getD 1 0).toNat = afInet6)

/-- An address to dial is one the resolver answered, of a family that can be dialled, with the
port of the configuration. -/
structure DialsResult (info : AddrInfo) (port : UInt16) (sa : SockaddrStorage) : Prop where
  port_eq : sa.port = port.toNat
  family : sa.family = afInet ∨ sa.family = afInet6
  address : ∃ bytes, info.aiAddr = some bytes ∧
    ∀ i, i ≠ 2 → i ≠ 3 → sa.bytes.getD i 0 = bytes.getD i 0

section Endpoints

variable {info : AddrInfo} {port : UInt16} {sa : SockaddrStorage}

/-- The port is written into an address of either family, and into no other. -/
theorem setSockaddrPort_eq :
    setSockaddrPort sa port =
      if sa.family = afInet ∨ sa.family = afInet6 then some (sa.withPort port) else none := by
  unfold setSockaddrPort
  split_ifs <;> simp_all

/-- The families with no address length are those that cannot be dialled. -/
theorem sockaddrLenForFamily_eq_zero_iff {family : ℕ} :
    sockaddrLenForFamily family = 0 ↔ ¬(family = afInet ∨ family = afInet6) := by
  unfold sockaddrLenForFamily
  split_ifs <;> simp_all

/-- Storing an address keeps its bytes. -/
theorem getD_ofBytes {bytes : List UInt8} (h : bytes.length ≤ sockaddrStorageSize) (i : ℕ) :
    (SockaddrStorage.ofBytes bytes h).bytes.getD i 0 = bytes.getD i 0 := by
  simp only [SockaddrStorage.ofBytes, List.getD_eq_getElem?_getD, List.getElem?_append]
  split_ifs with hi
  · rfl
  · rw [List.getElem?_replicate, List.getElem?_eq_none (not_lt.mp hi)]
    split_ifs <;> rfl

/-- What is dialled for a result with an address. -/
theorem endpoint_of_bytes {bytes : List UInt8} (haddr : info.aiAddr = some bytes)
    (hne : bytes ≠ []) (h : bytes.length ≤ sockaddrStorageSize) :
    info.endpoint port =
      if (SockaddrStorage.ofBytes bytes h).family = afInet ∨
          (SockaddrStorage.ofBytes bytes h).family = afInet6 then
        some ((SockaddrStorage.ofBytes bytes h).withPort port)
      else none := by
  have hsize : ¬(bytes.length = 0 ∨ sockaddrStorageSize < bytes.length) := by
    simp [hne, h]
  simp only [AddrInfo.endpoint, haddr, dif_neg hsize, setSockaddrPort_eq,
    sockaddrLenForFamily_eq_zero_iff]
  split_ifs <;> rfl

/-- An address with the port is dialled for what it was made of. -/
theorem dialsResult_withPort {bytes : List UInt8} (haddr : info.aiAddr = some bytes)
    (h : bytes.length ≤ sockaddrStorageSize)
    (hfamily : (SockaddrStorage.ofBytes bytes h).family = afInet ∨
      (SockaddrStorage.ofBytes bytes h).family = afInet6) :
    DialsResult info port ((SockaddrStorage.ofBytes bytes h).withPort port) where
  port_eq := SockaddrStorage.port_withPort _ port
  family := by
    unfold SockaddrStorage.family at hfamily ⊢
    rwa [SockaddrStorage.getD_withPort _ port (by decide) (by decide),
      SockaddrStorage.getD_withPort _ port (by decide) (by decide)]
  address := ⟨bytes, haddr, fun i h2 h3 =>
    (SockaddrStorage.getD_withPort _ port h2 h3).trans (getD_ofBytes h i)⟩

/-- Every address to dial is one the resolver answered. -/
theorem dialsResult_of_endpoint (h : info.endpoint port = some sa) : DialsResult info port sa := by
  cases haddr : info.aiAddr with
  | none => simp [AddrInfo.endpoint, haddr] at h
  | some bytes =>
    by_cases hsize : bytes.length = 0 ∨ sockaddrStorageSize < bytes.length
    · simp only [AddrInfo.endpoint, haddr, dif_pos hsize] at h
      cases h
    · obtain ⟨hne, hle⟩ := not_or.mp hsize
      rw [endpoint_of_bytes haddr (fun hnil => hne (by simp [hnil])) (not_lt.mp hle)] at h
      split_ifs at h with hfamily
      obtain rfl := Option.some.inj h
      exact dialsResult_withPort haddr (not_lt.mp hle) hfamily

/-- Every usable answer is dialled. -/
theorem exists_endpoint (h : info.Usable) :
    ∃ sa, info.endpoint port = some sa ∧ DialsResult info port sa := by
  obtain ⟨bytes, haddr, hne, hle, hfamily⟩ := h
  rw [← getD_ofBytes hle 0, ← getD_ofBytes hle 1] at hfamily
  change (SockaddrStorage.ofBytes bytes hle).family = afInet ∨
    (SockaddrStorage.ofBytes bytes hle).family = afInet6 at hfamily
  refine ⟨_, ?_, dialsResult_withPort haddr hle hfamily⟩
  rw [endpoint_of_bytes haddr hne hle, if_pos hfamily]

end Endpoints

/-- An attempt: the address, its socket, and the addresses that are left after it. -/
structure DialAttempt where
  remote : SockaddrStorage
  sock : ℕ
  rest : List SockaddrStorage

/-- The next call of the dial. Without an address left it is over, as it is once a socket was
published. -/
inductive DialPc
  | opening (rest : List SockaddrStorage)
  | unblocking (a : DialAttempt)
  | connecting (a : DialAttempt)
  | timing (a : DialAttempt)
  | polling (a : DialAttempt) (deadlineNs : ℕ)
  | blocked (a : DialAttempt) (deadlineNs : ℕ) (timeoutMs : Int32)
  | checking (a : DialAttempt)
  | restoring (a : DialAttempt)
  | failed (a : DialAttempt)
  | publishing (a : DialAttempt)
  | published

/-- How a poll ends. -/
inductive PollAnswer
  | ready
  | timedOut
  | interrupted
  | failed
  deriving DecidableEq, Repr

/-- The dial, with the sockets it has open and the steady clock in nanoseconds. What was tried is
recorded, when the current attempt began to wait and for how long, whether its socket blocks, and
whether its pending error was read as none. -/
structure MavDial where
  connectTimeoutMs : UInt32
  endpoints : List SockaddrStorage
  pc : DialPc
  openSockets : List ℕ := []
  fd : Option ℕ := none
  clockNs : ℕ := 0
  tried : List SockaddrStorage := []
  startNs : ℕ := 0
  waitedNs : ℕ := 0
  blocking : Bool := true
  clean : Bool := false

/-- The answers of the system to the calls, and the descriptor of a failed attempt closed. -/
inductive DialLabel
  | socket (sock : Option ℕ)
  | fcntl (ok : Bool)
  | connect (ok : Bool)
  | readClock (nowNs : ℕ)
  | poll (elapsedNs : ℕ) (answer : PollAnswer)
  | getsockopt (ok : Bool)
  | close
  | publish

/-- A poll is interrupted. -/
def DialLabel.isInterrupt : DialLabel → Bool
  | poll _ .interrupted => true
  | _ => false

/-- A millisecond in nanoseconds. -/
def nsPerMs : ℕ := 1000000

namespace MavDial

/-- The dial of a resolved name. -/
def start (ai : List AddrInfo) (port : UInt16) (connectTimeoutMs : UInt32) (clockNs : ℕ) :
    MavDial :=
  let endpoints := sockaddrEndpoints ai port
  { connectTimeoutMs := connectTimeoutMs
    endpoints := endpoints
    pc := .opening endpoints
    clockNs := clockNs }

/-- An attempt goes on if a call succeeds. -/
def goOn (s : MavDial) (a : DialAttempt) (ok : Bool) (next : DialPc) : MavDial :=
  { s with pc := if ok then next else .failed a }

/-- A poll may block for its timeout, and without a limit for a negative one. -/
def mayBlock (timeoutMs : Int32) (elapsedNs : ℕ) : Bool :=
  decide (timeoutMs.toInt < 0 ∨ elapsedNs ≤ timeoutMs.toInt.toNat * nsPerMs)

/-- The end of a poll; an interrupted one is repeated with what is left of the time. -/
def pollAnswered (s : MavDial) (a : DialAttempt) (deadlineNs elapsedNs : ℕ) (answer : PollAnswer) :
    MavDial :=
  { s with
    clockNs := s.clockNs + elapsedNs
    waitedNs := s.waitedNs + elapsedNs
    pc := match answer with
      | .interrupted => .polling a deadlineNs
      | .ready => .checking a
      | .timedOut | .failed => .failed a }

/-- One call of the dial. -/
def step (s : MavDial) (label : DialLabel) : Option MavDial :=
  match s.pc, label with
  | .opening (remote :: rest), .socket none =>
    some { s with tried := s.tried ++ [remote], pc := .opening rest }
  | .opening (remote :: rest), .socket (some sock) =>
    if sock ∈ s.openSockets then none
    else
      some { s with
        tried := s.tried ++ [remote]
        openSockets := s.openSockets ++ [sock]
        blocking := true
        clean := false
        waitedNs := 0
        pc := .unblocking { remote := remote, sock := sock, rest := rest } }
  | .unblocking a, .fcntl ok => some { s.goOn a ok (.connecting a) with blocking := !ok }
  | .connecting a, .connect ok => some (s.goOn a ok (.timing a))
  | .timing a, .readClock nowNs =>
    if s.clockNs ≤ nowNs then
      some { s with
        clockNs := nowNs
        startNs := nowNs
        pc := .polling a (nowNs + s.connectTimeoutMs.toNat * nsPerMs) }
    else none
  | .polling a deadlineNs, .readClock nowNs =>
    if s.clockNs ≤ nowNs then
      let remainingMs := (deadlineNs - nowNs) / nsPerMs
      some { s with
        clockNs := nowNs
        pc := if remainingMs = 0 then .failed a else .blocked a deadlineNs (.ofNat remainingMs) }
    else none
  | .blocked a deadlineNs timeoutMs, .poll elapsedNs answer =>
    if mayBlock timeoutMs elapsedNs then some (s.pollAnswered a deadlineNs elapsedNs answer)
    else none
  | .checking a, .getsockopt ok => some { s.goOn a ok (.restoring a) with clean := ok }
  | .restoring a, .fcntl ok => some { s.goOn a ok (.publishing a) with blocking := ok }
  | .failed a, .close =>
    some { s with openSockets := s.openSockets.erase a.sock, pc := .opening a.rest }
  | .publishing a, .publish => some { s with fd := some a.sock, pc := .published }
  | _, _ => none

/-- The dial is over. -/
def isOver (s : MavDial) : Bool :=
  match s.pc with
  | .opening [] | .published => true
  | _ => false

/-- The socket of an attempt is the only one open, and its address was the last one tried. -/
structure Attempting (s : MavDial) (a : DialAttempt) : Prop where
  tried : s.tried ++ a.rest = s.endpoints
  last : s.tried.getLast? = some a.remote
  openSockets : s.openSockets = [a.sock]
  fd : s.fd = none

/-- The time that an attempt has waited and may still wait. -/
def WithinDeadline (s : MavDial) (deadlineNs : ℕ) : Prop :=
  deadlineNs = s.startNs + s.connectTimeoutMs.toNat * nsPerMs ∧ s.startNs + s.waitedNs ≤ s.clockNs

/-- What holds of the dial before each call. -/
def LawfulAt (s : MavDial) : DialPc → Prop
  | .opening rest => s.tried ++ rest = s.endpoints ∧ s.openSockets = [] ∧ s.fd = none
  | .unblocking a | .connecting a | .timing a => s.Attempting a ∧ s.waitedNs = 0
  | .polling a deadlineNs => s.Attempting a ∧ s.WithinDeadline deadlineNs
  | .blocked a deadlineNs timeoutMs =>
    s.Attempting a ∧ s.WithinDeadline deadlineNs ∧ 0 < timeoutMs.toInt ∧
      s.clockNs + timeoutMs.toInt.toNat * nsPerMs ≤ deadlineNs
  | .checking a | .failed a => s.Attempting a
  | .restoring a => s.Attempting a ∧ s.clean = true
  | .publishing a => s.Attempting a ∧ s.clean = true ∧ s.blocking = true
  | .published =>
    ∃ a, Attempting { s with fd := none } a ∧ s.fd = some a.sock ∧ s.clean = true ∧
      s.blocking = true

/-- Before the next call what it is made with holds, and no attempt has waited longer than the
timeout. -/
structure Lawful (s : MavDial) : Prop where
  next : s.LawfulAt s.pc
  waited : s.waitedNs ≤ s.connectTimeoutMs.toNat * nsPerMs

variable {s t : MavDial}

/-- An attempt stays the one it is whatever else of the dial changes. -/
theorem Attempting.congr {a : DialAttempt} (h : s.Attempting a) (htried : t.tried = s.tried)
    (hendpoints : t.endpoints = s.endpoints) (hopen : t.openSockets = s.openSockets)
    (hfd : t.fd = s.fd) : t.Attempting a where
  tried := by rw [htried, hendpoints, h.tried]
  last := htried ▸ h.last
  openSockets := hopen ▸ h.openSockets
  fd := hfd ▸ h.fd

/-- The time left is what the poll is given, and no more than the timeout. -/
theorem remaining_spec {deadlineNs nowNs : ℕ} (hT : s.connectTimeoutMs.toNat < 2 ^ 31)
    (h : s.WithinDeadline deadlineNs) (hclock : s.clockNs ≤ nowNs)
    (hleft : (deadlineNs - nowNs) / nsPerMs ≠ 0) :
    0 < (Int32.ofNat ((deadlineNs - nowNs) / nsPerMs)).toInt ∧
      nowNs + (Int32.ofNat ((deadlineNs - nowNs) / nsPerMs)).toInt.toNat * nsPerMs ≤ deadlineNs := by
  obtain ⟨hdeadline, hwaited⟩ := h
  have hmul := Nat.div_mul_le_self (deadlineNs - nowNs) nsPerMs
  have hlt : (deadlineNs - nowNs) / nsPerMs < 2 ^ 31 := by
    unfold nsPerMs at hdeadline ⊢
    omega
  generalize (deadlineNs - nowNs) / nsPerMs = leftMs at hleft hmul hlt ⊢
  have hint : (Int32.ofNat leftMs).toInt = leftMs := Int32.toInt_ofNat_of_lt hlt
  rw [hint, Int.toNat_natCast]
  unfold nsPerMs at hmul ⊢
  omega

/-- A call that fails leaves an attempt to give up. -/
theorem lawful_goOn {a : DialAttempt} {ok blocking clean : Bool} {next : DialPc}
    (hattempt : s.Attempting a) (hwaited : s.waitedNs ≤ s.connectTimeoutMs.toNat * nsPerMs)
    (hnext : ok = true →
      LawfulAt { s with pc := next, blocking := blocking, clean := clean } next) :
    Lawful { s.goOn a ok next with blocking := blocking, clean := clean } := by
  cases ok with
  | true => exact ⟨hnext rfl, hwaited⟩
  | false => exact ⟨hattempt.congr rfl rfl rfl rfl, hwaited⟩

/-- Every call of the dial leaves the next one lawful. -/
theorem lawful_step {label : DialLabel} (hT : s.connectTimeoutMs.toNat < 2 ^ 31) (h : s.Lawful)
    (hstep : s.step label = some t) : t.Lawful := by
  obtain ⟨hnext, hwaited⟩ := h
  unfold step at hstep
  split at hstep
  next remote rest hpc =>
    obtain rfl := Option.some.inj hstep
    rw [hpc] at hnext
    obtain ⟨htried, hopen, hfd⟩ := hnext
    exact ⟨⟨by rw [← htried, List.append_assoc, List.singleton_append], hopen, hfd⟩, hwaited⟩
  next remote rest sock hpc =>
    split_ifs at hstep
    obtain rfl := Option.some.inj hstep
    rw [hpc] at hnext
    obtain ⟨htried, hopen, hfd⟩ := hnext
    have hattempt : Attempting { s with
        tried := s.tried ++ [remote]
        openSockets := s.openSockets ++ [sock] } { remote := remote, sock := sock, rest := rest } :=
      { tried := by rw [← htried, List.append_assoc, List.singleton_append]
        last := List.getLast?_concat
        openSockets := by rw [hopen, List.nil_append]
        fd := hfd }
    exact ⟨⟨hattempt.congr rfl rfl rfl rfl, rfl⟩, Nat.zero_le _⟩
  next a ok hpc =>
    obtain rfl := Option.some.inj hstep
    rw [hpc] at hnext
    obtain ⟨hattempt, hzero⟩ := hnext
    exact lawful_goOn hattempt hwaited fun _ => ⟨hattempt.congr rfl rfl rfl rfl, hzero⟩
  next a ok hpc =>
    obtain rfl := Option.some.inj hstep
    rw [hpc] at hnext
    obtain ⟨hattempt, hzero⟩ := hnext
    exact lawful_goOn hattempt hwaited fun _ => ⟨hattempt.congr rfl rfl rfl rfl, hzero⟩
  next a nowNs hpc =>
    split_ifs at hstep
    obtain rfl := Option.some.inj hstep
    rw [hpc] at hnext
    obtain ⟨hattempt, hzero⟩ := hnext
    exact ⟨⟨hattempt.congr rfl rfl rfl rfl, rfl, by simp [hzero]⟩, hwaited⟩
  next a deadlineNs nowNs hpc =>
    split_ifs at hstep with hclock
    obtain rfl := Option.some.inj hstep
    rw [hpc] at hnext
    obtain ⟨hattempt, hdeadline⟩ := hnext
    by_cases hleft : (deadlineNs - nowNs) / nsPerMs = 0
    · simp only [hleft, if_true]
      exact ⟨hattempt.congr rfl rfl rfl rfl, hwaited⟩
    · simp only [if_neg hleft]
      obtain ⟨hpos, hle⟩ := remaining_spec hT hdeadline hclock hleft
      exact ⟨⟨hattempt.congr rfl rfl rfl rfl,
        ⟨hdeadline.1, hdeadline.2.trans hclock⟩, hpos, hle⟩, hwaited⟩
  next a deadlineNs timeoutMs elapsedNs answer hpc =>
    split_ifs at hstep with hblock
    obtain rfl := Option.some.inj hstep
    rw [hpc] at hnext
    obtain ⟨hattempt, ⟨hdeadline, hsince⟩, hpos, hle⟩ := hnext
    have hpassed : elapsedNs ≤ timeoutMs.toInt.toNat * nsPerMs := by
      cases of_decide_eq_true hblock with
      | inl hneg => omega
      | inr hpassed => exact hpassed
    have hattempt' : (s.pollAnswered a deadlineNs elapsedNs answer).Attempting a :=
      hattempt.congr rfl rfl rfl rfl
    have hsince' : s.startNs + (s.waitedNs + elapsedNs) ≤ s.clockNs + elapsedNs := by omega
    have hwaited' : s.waitedNs + elapsedNs ≤ s.connectTimeoutMs.toNat * nsPerMs := by omega
    cases answer with
    | interrupted => exact ⟨⟨hattempt', hdeadline, hsince'⟩, hwaited'⟩
    | ready => exact ⟨hattempt', hwaited'⟩
    | timedOut => exact ⟨hattempt', hwaited'⟩
    | failed => exact ⟨hattempt', hwaited'⟩
  next a ok hpc =>
    obtain rfl := Option.some.inj hstep
    rw [hpc] at hnext
    have hattempt : s.Attempting a := hnext
    exact lawful_goOn hattempt hwaited fun hok => ⟨hattempt.congr rfl rfl rfl rfl, hok⟩
  next a ok hpc =>
    obtain rfl := Option.some.inj hstep
    rw [hpc] at hnext
    obtain ⟨hattempt, hclean⟩ := hnext
    exact lawful_goOn hattempt hwaited fun hok => ⟨hattempt.congr rfl rfl rfl rfl, hclean, hok⟩
  next a hpc =>
    obtain rfl := Option.some.inj hstep
    rw [hpc] at hnext
    have hattempt : s.Attempting a := hnext
    exact ⟨⟨hattempt.tried, by simp [hattempt.openSockets], hattempt.fd⟩, hwaited⟩
  next a hpc =>
    obtain rfl := Option.some.inj hstep
    rw [hpc] at hnext
    obtain ⟨hattempt, hclean, hblocking⟩ := hnext
    exact ⟨⟨a, hattempt.congr rfl rfl rfl hattempt.fd.symm, rfl, hclean, hblocking⟩, hwaited⟩
  next => cases hstep

/-- The calls that are left at most, if no poll is interrupted any more. -/
def remainingCalls (s : MavDial) : ℕ :=
  match s.pc with
  | .opening rest => 10 * rest.length
  | .unblocking a => 10 * a.rest.length + 9
  | .connecting a => 10 * a.rest.length + 8
  | .timing a => 10 * a.rest.length + 7
  | .polling a _ => 10 * a.rest.length + 6
  | .blocked a _ _ => 10 * a.rest.length + 5
  | .checking a => 10 * a.rest.length + 4
  | .restoring a => 10 * a.rest.length + 3
  | .publishing a => 10 * a.rest.length + 2
  | .failed a => 10 * a.rest.length + 1
  | .published => 0

/-- Every call but an interrupted poll leaves fewer, and that leaves one more; what is dialled and
the timeout stay. -/
theorem remainingCalls_step {label : DialLabel} (hstep : s.step label = some t) :
    (label.isInterrupt = false → t.remainingCalls < s.remainingCalls) ∧
      t.remainingCalls ≤ s.remainingCalls + 1 ∧ t.endpoints = s.endpoints ∧
        t.connectTimeoutMs = s.connectTimeoutMs := by
  unfold step at hstep
  split at hstep
  next remote rest hpc =>
    obtain rfl := Option.some.inj hstep
    simp [remainingCalls, hpc]
    omega
  next remote rest sock hpc =>
    split_ifs at hstep
    obtain rfl := Option.some.inj hstep
    simp [remainingCalls, hpc]
    omega
  next a ok hpc =>
    obtain rfl := Option.some.inj hstep
    cases ok <;> simp [remainingCalls, goOn, hpc]
  next a ok hpc =>
    obtain rfl := Option.some.inj hstep
    cases ok <;> simp [remainingCalls, goOn, hpc]
  next a nowNs hpc =>
    split_ifs at hstep
    obtain rfl := Option.some.inj hstep
    simp [remainingCalls, hpc]
  next a deadlineNs nowNs hpc =>
    split_ifs at hstep
    obtain rfl := Option.some.inj hstep
    by_cases hleft : (deadlineNs - nowNs) / nsPerMs = 0 <;> simp [remainingCalls, hpc, hleft]
  next a deadlineNs timeoutMs elapsedNs answer hpc =>
    split_ifs at hstep
    obtain rfl := Option.some.inj hstep
    cases answer <;> simp [remainingCalls, pollAnswered, hpc, DialLabel.isInterrupt]
  next a ok hpc =>
    obtain rfl := Option.some.inj hstep
    cases ok <;> simp [remainingCalls, goOn, hpc]
  next a ok hpc =>
    obtain rfl := Option.some.inj hstep
    cases ok <;> simp [remainingCalls, goOn, hpc]
  next a hpc =>
    obtain rfl := Option.some.inj hstep
    simp [remainingCalls, hpc]
    omega
  next a hpc =>
    obtain rfl := Option.some.inj hstep
    simp [remainingCalls, hpc]
  next => cases hstep

/-- Until it is over the dial makes another call. -/
theorem exists_call (hover : s.isOver = false) : ∃ label, (s.step label).isSome = true := by
  unfold isOver at hover
  cases hpc : s.pc with
  | opening rest =>
    cases rest with
    | nil => simp [hpc] at hover
    | cons remote rest => exact ⟨.socket none, by simp [step, hpc]⟩
  | unblocking a => exact ⟨.fcntl true, by simp [step, hpc]⟩
  | connecting a => exact ⟨.connect true, by simp [step, hpc]⟩
  | timing a => exact ⟨.readClock s.clockNs, by simp [step, hpc]⟩
  | polling a deadlineNs => exact ⟨.readClock s.clockNs, by simp [step, hpc]⟩
  | blocked a deadlineNs timeoutMs => exact ⟨.poll 0 .ready, by simp [step, hpc, mayBlock]⟩
  | checking a => exact ⟨.getsockopt true, by simp [step, hpc]⟩
  | restoring a => exact ⟨.fcntl true, by simp [step, hpc]⟩
  | failed a => exact ⟨.close, by simp [step, hpc]⟩
  | publishing a => exact ⟨.publish, by simp [step, hpc]⟩
  | published => simp [hpc] at hover

/-- Between two calls there is no attempt, or there is one, or its socket was published. -/
theorem Lawful.cases (h : s.Lawful) :
    (∃ rest, s.pc = .opening rest ∧ s.tried ++ rest = s.endpoints ∧ s.openSockets = [] ∧
        s.fd = none) ∨
      (s.isOver = false ∧ ∃ a, s.Attempting a) ∨
        (s.isOver = true ∧ ∃ a, Attempting { s with fd := none } a ∧ s.fd = some a.sock ∧
          s.clean = true ∧ s.blocking = true) := by
  have hnext := h.next
  unfold isOver
  cases hpc : s.pc with
  | opening rest =>
    rw [hpc] at hnext
    exact .inl ⟨rest, rfl, hnext⟩
  | unblocking a | connecting a | timing a | polling a _ | blocked a _ _ | restoring a
  | publishing a =>
    rw [hpc] at hnext
    exact .inr (.inl ⟨rfl, a, hnext.1⟩)
  | checking a | failed a =>
    rw [hpc] at hnext
    exact .inr (.inl ⟨rfl, a, hnext⟩)
  | published =>
    rw [hpc] at hnext
    obtain ⟨a, hattempt, hsocket⟩ := hnext
    exact .inr (.inr ⟨rfl, a, hattempt.congr rfl rfl rfl rfl, hsocket⟩)

/-- What holds of the dial of a resolved name. The addresses tried are the first ones that the
resolver answered and that can be dialled; one socket is open at most, and its attempt has not
waited longer than the timeout. A published socket is the one open, blocks, and had no pending
error; without one every usable answer was tried in the end, and nothing is left open. -/
structure Sound (ai : List AddrInfo) (port : UInt16) (s : MavDial) : Prop where
  tried : s.tried <+: sockaddrEndpoints ai port
  resolved : ∀ sa ∈ s.tried, ∃ info ∈ ai, DialsResult info port sa
  oneOpen : s.openSockets.length ≤ 1
  waited : s.waitedNs ≤ s.connectTimeoutMs.toNat * nsPerMs
  published : ∀ sock, s.fd = some sock →
    s.isOver = true ∧ s.openSockets = [sock] ∧ s.blocking = true ∧ s.clean = true
  givenUp : s.isOver = true → s.fd = none → s.openSockets = [] ∧
    ∀ info ∈ ai, info.Usable → ∃ sa ∈ s.tried, DialsResult info port sa

/-- A lawful dial is sound. -/
theorem Lawful.sound {ai : List AddrInfo} {port : UInt16} (h : s.Lawful)
    (hendpoints : s.endpoints = sockaddrEndpoints ai port) : s.Sound ai port := by
  have hresolved (htried : s.tried <+: s.endpoints) :
      ∀ sa ∈ s.tried, ∃ info ∈ ai, DialsResult info port sa := by
    intro sa hsa
    have hmem := htried.subset hsa
    rw [hendpoints] at hmem
    obtain ⟨info, hinfo, hendpoint⟩ := List.mem_filterMap.mp hmem
    exact ⟨info, hinfo, dialsResult_of_endpoint hendpoint⟩
  obtain ⟨rest, hpc, htried, hopen, hfd⟩ | ⟨hover, a, hattempt⟩ |
    ⟨hover, a, hattempt, hfd, hclean, hblocking⟩ := h.cases
  · have hprefix : s.tried <+: s.endpoints := ⟨rest, htried⟩
    refine ⟨hendpoints ▸ hprefix, hresolved hprefix, by simp [hopen], h.waited, by simp [hfd],
      fun hover _ => ⟨hopen, fun info hinfo husable => ?_⟩⟩
    have hall : s.tried = sockaddrEndpoints ai port := by
      cases rest with
      | nil => rw [← hendpoints, ← htried, List.append_nil]
      | cons remote rest => simp [isOver, hpc] at hover
    obtain ⟨sa, hendpoint, hdials⟩ :
        ∃ sa, info.endpoint port = some sa ∧ DialsResult info port sa :=
      exists_endpoint husable
    exact ⟨sa, hall ▸ List.mem_filterMap.mpr ⟨info, hinfo, hendpoint⟩, hdials⟩
  · have hprefix : s.tried <+: s.endpoints := ⟨a.rest, hattempt.tried⟩
    exact ⟨hendpoints ▸ hprefix, hresolved hprefix, by simp [hattempt.openSockets], h.waited,
      by simp [hattempt.fd], fun hover' => absurd hover' (by simp [hover])⟩
  · have hprefix : s.tried <+: s.endpoints := ⟨a.rest, hattempt.tried⟩
    have hopen : s.openSockets = [a.sock] := hattempt.openSockets
    refine ⟨hendpoints ▸ hprefix, hresolved hprefix, by simp [hopen], h.waited,
      fun sock hsock => ?_, by simp [hfd]⟩
    obtain rfl := Option.some.inj (hfd.symm.trans hsock)
    exact ⟨hover, hopen, hblocking, hclean⟩

/-- An address of the sixth version, a result without an address, and one of the fourth version. -/
def staleThenWorking : List AddrInfo :=
  [{ aiAddr := some (10 :: 0 :: List.replicate 26 1) }, { aiAddr := none },
    { aiAddr := some [2, 0, 0, 0, 127, 0, 0, 1, 0, 0, 0, 0, 0, 0, 0, 0] }]

/-- The calls of an attempt up to its poll, which is interrupted once. -/
def attemptCalls (sock nowNs : ℕ) : List DialLabel :=
  [.socket (some sock), .fcntl true, .connect true, .readClock nowNs, .readClock nowNs,
    .poll 700000000 .interrupted, .readClock (nowNs + 700000000)]

/-- The first address does not answer within a second, and the other one does. -/
def staleThenWorkingCalls : List DialLabel :=
  attemptCalls 7 0 ++ [.poll 300000000 .timedOut, .close] ++ attemptCalls 7 2000000000 ++
    [.poll 0 .ready, .getsockopt true, .fcntl true, .publish]

end MavDial

end CapFmu
