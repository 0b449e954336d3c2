import CapFmu.Mav.Link

/-!
# Retiring a silent socket

The heartbeat thread reads the open socket, the clock and the two stamps one after the other,
judges from them whether the socket has been silent for too long, and then flags the connection
as broken. The flag does not name a socket. The reconnector tears down whatever socket is open
when it finds the flag, clears the flag and dials again, and the stamps and the flag change
between any two steps of the heartbeat thread.

A socket counts as open from the time it is stamped with, just before it is published.
-/

namespace CapFmu

open Transition

/-- The next step of the heartbeat thread, and what it has read in its pass: which socket was
open, the clock, the stamp of the last heartbeat and its verdict. -/
inductive HeartbeatPc
  | unstarted
  | idle
  | sending (judged : Option ℕ)
  | timed (judged : Option ℕ) (now : ℕ)
  | compared (judged : Option ℕ) (now lastHeartbeat : ℕ)
  | flagging (judged : Option ℕ) (now : ℕ) (retire : Bool)

/-- The next step of the reconnector. -/
inductive ReconnectorPc
  | idle
  | closing
  | joining
  | clearing
  | checking
  | dialling
  | connecting
  | connected
  | stamping
  | publishing
  | spawning
  deriving DecidableEq

namespace ReconnectorPc

/-- Whether no socket is open, between tearing one down and publishing the next. -/
def offline : ReconnectorPc → Bool
  | joining | clearing | dialling | connecting | connected | stamping | publishing => true
  | _ => false

/-- Whether a dial has cleared the flag and not yet published its socket. -/
def cleared : ReconnectorPc → Bool
  | stamping | publishing => true
  | _ => false

/-- A dial that has cleared the flag has no socket open. -/
theorem offline_of_cleared {pc : ReconnectorPc} (h : pc.cleared = true) :
    pc.offline = true := by
  cases pc <;> first | rfl | exact absurd h (by decide)

end ReconnectorPc

/-- The connection as its two threads share it. The last three fields are read by no operation:
whether the flag was set by a verdict of silence, when the open socket was opened, and when it
was last heard. -/
structure SilenceWatch where
  clock : ℕ
  fd : Option ℕ := none
  sockets : ℕ := 0
  broken : Bool := false
  lastTried : ℕ := 0
  retryCount : ℕ := 0
  lastHeartbeatTs : ℕ := 0
  connectedSinceTs : ℕ := 0
  heartbeatThread : HeartbeatPc := .unstarted
  reconnector : ReconnectorPc := .dialling
  forSilence : Bool := false
  opened : ℕ := 0
  heard : Option ℕ := none

/-- What can happen. The outcome of a dial counts for the step that waits for it. A fault is a
failed send or the end of the recv thread. -/
inductive WatchStep
  | wait (ms : ℕ)
  | heartbeat
  | fault
  | heartbeatLoop
  | reconnect (dials : Bool)

namespace SilenceWatch

/-- Flag the connection as broken. The first flag tells why. -/
def flag (s : SilenceWatch) (silence : Bool) : SilenceWatch :=
  { s with broken := true, forSilence := if s.broken then s.forSilence else silence }

/-- Clear the flag. -/
def clearFlag (s : SilenceWatch) : SilenceWatch := { s with broken := false, forSilence := false }

/-- A heartbeat that the recv thread of the open socket, or of the one being torn down,
processes. -/
def receiveHeartbeat (s : SilenceWatch) : SilenceWatch :=
  { s with lastHeartbeatTs := s.clock, heard := s.fd.map fun _ => s.clock }

/-- A step of the heartbeat thread, which is started once the first dial has returned. -/
def heartbeatLoop (s : SilenceWatch) : Option SilenceWatch :=
  match s.heartbeatThread with
  | .unstarted =>
    if s.reconnector = .idle then some { s with heartbeatThread := .idle } else none
  | .idle => some { s with heartbeatThread := .sending s.fd }
  | .sending judged => some { s with heartbeatThread := .timed judged s.clock }
  | .timed judged now => some { s with heartbeatThread := .compared judged now s.lastHeartbeatTs }
  | .compared judged now lastHeartbeat =>
    some { s with heartbeatThread := .flagging judged now (mavLinkShouldRetire judged.isSome now
      lastHeartbeat s.connectedSinceTs heartbeatTimeoutMs) }
  | .flagging _ _ retire =>
    some { (if retire then s.flag true else s) with heartbeatThread := .idle }

/-- A step of the reconnector, and before its first pass of the first dial. -/
def reconnect (s : SilenceWatch) (dials : Bool) : SilenceWatch :=
  match s.reconnector with
  | .idle => { s with reconnector := if s.broken then .closing else .checking }
  | .closing => { s with fd := none, heard := none, reconnector := .joining }
  | .joining => { s with reconnector := .clearing }
  | .clearing => { s.clearFlag with reconnector := .checking }
  | .checking =>
    if s.fd = none ∧ retryDelayMs s.retryCount < s.clock - s.lastTried then
      { s with retryCount := (s.retryCount + 1) % 2 ^ 16, reconnector := .dialling }
    else { s with reconnector := .idle }
  | .dialling => { s with lastTried := s.clock, reconnector := .connecting }
  | .connecting => { s with reconnector := if dials then .connected else .idle }
  | .connected => { s.clearFlag with retryCount := 0, reconnector := .stamping }
  | .stamping => { s with connectedSinceTs := s.clock, reconnector := .publishing }
  | .publishing =>
    { s with
      fd := some s.sockets
      sockets := s.sockets + 1
      opened := s.connectedSinceTs
      heard := none
      reconnector := .spawning }
  | .spawning => { s with reconnector := .idle }

/-- One step of one thread, or of the clock. -/
def step (s : SilenceWatch) : WatchStep → Option SilenceWatch
  | .wait ms => some { s with clock := s.clock + ms }
  | .heartbeat =>
    if s.fd ≠ none ∨ s.reconnector = .joining then some s.receiveHeartbeat else none
  | .fault => if s.fd ≠ none ∨ s.reconnector = .joining then some (s.flag false) else none
  | .heartbeatLoop => s.heartbeatLoop
  | .reconnect dials => some (s.reconnect dials)

/-- The connection is about to be dialled for the first time. -/
def start (clock : ℕ) : SilenceWatch := { clock := clock }

/-- The open socket has been open and not been heard for the timeout. -/
def SilentAt (s : SilenceWatch) (now : ℕ) : Prop :=
  s.opened + 5000 < now ∧ ∀ h, s.heard = some h → h + 5000 < now

/-- A socket is torn down for silence only if it is silent. -/
def RetiresOnlySilent (s : SilenceWatch) : WatchStep → Prop
  | .reconnect _ => s.reconnector = .closing → s.fd ≠ none → s.forSilence = true →
    s.SilentAt s.clock
  | _ => True

/-- A socket that is open and silent throughout a pass of the heartbeat thread is flagged by it. -/
def FlagsSilent (s : SilenceWatch) : WatchStep → Prop
  | .heartbeatLoop => ∀ n now retire, s.heartbeatThread = .flagging (some n) now retire →
    s.fd = some n → s.SilentAt now → ∀ t, s.heartbeatLoop = some t → t.broken = true
  | _ => True

/-- The open socket is about to be flagged as silent. -/
def Condemned (s : SilenceWatch) : Prop :=
  match s.heartbeatThread with
  | .compared judged now lastHeartbeat => s.fd = judged ∧
    mavLinkShouldRetire judged.isSome now lastHeartbeat s.connectedSinceTs heartbeatTimeoutMs = true
  | .flagging judged _ retire => s.fd = judged ∧ retire = true
  | _ => False

/-- A verdict of silence meets the socket it was about, or none at all, and no heartbeat comes
after it. -/
def Undisturbed (s : SilenceWatch) : WatchStep → Prop
  | .heartbeat => s.fd ≠ none → s.forSilence = false ∧ ¬s.Condemned
  | .heartbeatLoop => ∀ judged now, s.heartbeatThread = .flagging judged now true →
    s.broken = false → s.fd = judged ∨ s.fd = none ∧ s.reconnector.cleared = false
  | _ => True

/-- How the stamps relate to the open socket. -/
structure Stamped (s : SilenceWatch) : Prop where
  heartbeat_le : s.lastHeartbeatTs ≤ s.clock
  since_le : s.connectedSinceTs ≤ s.clock
  fd_lt : ∀ n, s.fd = some n → n < s.sockets
  fd_offline : s.reconnector.offline = true → s.fd = none
  opened_eq : ∀ n, s.fd = some n → s.opened = s.connectedSinceTs
  heard_eq : ∀ h, s.heard = some h → h = s.lastHeartbeatTs
  unheard : ∀ n, s.fd = some n → s.heard = none → s.lastHeartbeatTs ≤ s.opened
  published : s.reconnector = .publishing → s.lastHeartbeatTs ≤ s.connectedSinceTs

/-- How what the heartbeat thread has read relates to the socket it judges, if that is still
open. -/
def Consistent (s : SilenceWatch) : Prop :=
  match s.heartbeatThread with
  | .unstarted | .idle => True
  | .sending judged => ∀ n, judged = some n → n < s.sockets
  | .timed judged now => now ≤ s.clock ∧ ∀ n, judged = some n → n < s.sockets
  | .compared judged now lastHeartbeat => now ≤ s.clock ∧ ∀ n, judged = some n → n < s.sockets ∧
    (s.fd = some n → lastHeartbeat ≤ s.opened ∨ ∃ h, s.heard = some h ∧ lastHeartbeat ≤ h)
  | .flagging judged now retire => now ≤ s.clock ∧ ∀ n, judged = some n → n < s.sockets ∧
    (s.fd = some n → s.SilentAt now → retire = true)

/-- What holds of verdicts that meet the socket they are about: the socket is silent. -/
structure Justified (s : SilenceWatch) : Prop where
  comparing : ∀ n now lastHeartbeat, s.heartbeatThread = .compared (some n) now lastHeartbeat →
    s.fd = some n →
    mavLinkShouldRetire true now lastHeartbeat s.connectedSinceTs heartbeatTimeoutMs = true →
    ∀ h, s.heard = some h → h ≤ lastHeartbeat
  flagging : ∀ n now, s.heartbeatThread = .flagging (some n) now true → s.fd = some n →
    s.SilentAt s.clock
  judging : ∀ now, s.heartbeatThread ≠ .flagging none now true
  flagged : s.forSilence = true → s.fd ≠ none → s.SilentAt s.clock
  cleared : s.reconnector.cleared = true → s.forSilence = false

section Judgement

variable {now lastHeartbeat since : ℕ}

/-- A socket is to be retired when both stamps are older than the timeout. -/
theorem shouldRetire_iff :
    mavLinkShouldRetire true now lastHeartbeat since heartbeatTimeoutMs = true ↔
      lastHeartbeat + 5000 < now ∧ since + 5000 < now := by
  unfold mavLinkShouldRetire
  rw [if_neg (by simp)]
  split
  · simp only [Bool.false_eq_true, false_iff]
    omega
  · rw [decide_eq_true_eq]
    unfold heartbeatTimeoutMs
    omega

/-- No socket is retired when none is open. -/
theorem shouldRetire_closed :
    mavLinkShouldRetire false now lastHeartbeat since heartbeatTimeoutMs = false := rfl

end Judgement

section Steps

variable {s t : SilenceWatch}

/-- What is silent stays silent. -/
theorem SilentAt.mono {now later : ℕ} (h : s.SilentAt now) (hle : now ≤ later) :
    s.SilentAt later :=
  ⟨Nat.lt_of_lt_of_le h.1 hle, fun h' hh => Nat.lt_of_lt_of_le (h.2 h' hh) hle⟩

/-- A step of the heartbeat thread only moves it and may set the flag. -/
theorem heartbeatLoop_frame (hstep : s.heartbeatLoop = some t) :
    ∃ pc broken forSilence, t = { s with
      heartbeatThread := pc, broken := broken, forSilence := forSilence } := by
  unfold heartbeatLoop at hstep
  split at hstep
  · split at hstep
    · exact ⟨.idle, s.broken, s.forSilence, (Option.some.inj hstep).symm⟩
    · exact absurd hstep.symm (Option.some_ne_none t)
  · exact ⟨_, s.broken, s.forSilence, (Option.some.inj hstep).symm⟩
  · exact ⟨_, s.broken, s.forSilence, (Option.some.inj hstep).symm⟩
  · exact ⟨_, s.broken, s.forSilence, (Option.some.inj hstep).symm⟩
  · exact ⟨_, s.broken, s.forSilence, (Option.some.inj hstep).symm⟩
  · next judged now retire _ =>
    obtain rfl := Option.some.inj hstep
    cases retire with
    | false => exact ⟨.idle, s.broken, s.forSilence, rfl⟩
    | true => exact ⟨.idle, true, _, rfl⟩

/-- The stamps do not depend on the heartbeat thread. -/
theorem Stamped.heartbeatLoop (h : Stamped s) (hstep : s.heartbeatLoop = some t) : Stamped t := by
  obtain ⟨pc, broken, forSilence, rfl⟩ := heartbeatLoop_frame hstep
  exact { h with }

/-- The reconnector moves on. -/
theorem Stamped.move (h : Stamped s) (pc : ReconnectorPc)
    (hoffline : pc.offline = true → s.fd = none) (hpublishing : pc ≠ .publishing) :
    Stamped { s with reconnector := pc } :=
  { h with
    fd_offline := hoffline
    published := fun hpc => absurd hpc hpublishing }

/-- A step of the reconnector keeps the stamps of the open socket. -/
theorem Stamped.reconnect (h : Stamped s) (dials : Bool) : Stamped (s.reconnect dials) := by
  unfold SilenceWatch.reconnect
  cases hpc : s.reconnector with
  | idle =>
    apply h.move
    · split <;> simp [ReconnectorPc.offline]
    · split <;> simp
  | closing =>
    exact { h with
      fd_lt := by simp
      fd_offline := fun _ => rfl
      opened_eq := by simp
      heard_eq := by simp
      unheard := by simp
      published := by simp }
  | joining => exact h.move _ (fun _ => h.fd_offline (hpc ▸ rfl)) (by simp)
  | clearing =>
    exact { h with
      fd_offline := by simp [ReconnectorPc.offline]
      published := by simp }
  | checking =>
    dsimp only
    split
    · next hdue => exact { h with fd_offline := fun _ => hdue.1, published := by simp }
    · exact h.move _ (by simp [ReconnectorPc.offline]) (by simp)
  | dialling =>
    exact { h with fd_offline := fun _ => h.fd_offline (hpc ▸ rfl), published := by simp }
  | connecting =>
    have hclosed : s.fd = none := h.fd_offline (hpc ▸ rfl)
    cases dials with
    | true => exact h.move _ (fun _ => hclosed) (by simp)
    | false => exact h.move _ (fun _ => hclosed) (by simp)
  | connected =>
    exact { h with fd_offline := fun _ => h.fd_offline (hpc ▸ rfl), published := by simp }
  | stamping =>
    have hclosed : s.fd = none := h.fd_offline (hpc ▸ rfl)
    exact { h with
      since_le := Nat.le_refl s.clock
      fd_offline := fun _ => hclosed
      opened_eq := by simp [hclosed]
      published := fun _ => h.heartbeat_le }
  | publishing =>
    exact { h with
      fd_lt := by simp
      fd_offline := by simp [ReconnectorPc.offline]
      opened_eq := fun _ _ => rfl
      heard_eq := by simp
      unheard := fun _ _ _ => h.published hpc
      published := by simp }
  | spawning => exact h.move _ (by simp [ReconnectorPc.offline]) (by simp)

/-- The reconnector leaves the clock and the heartbeat thread, and a socket that is open before
and after its step is the same one, stamped and heard the same. -/
structure SameSocket (s t : SilenceWatch) : Prop where
  clock_eq : t.clock = s.clock
  heartbeatThread_eq : t.heartbeatThread = s.heartbeatThread
  sockets_le : s.sockets ≤ t.sockets
  socket : ∀ n, n < s.sockets → t.fd = some n →
    s.fd = some n ∧ t.opened = s.opened ∧ t.heard = s.heard ∧ t.connectedSinceTs = s.connectedSinceTs

/-- A step of the reconnector tears the socket down or leaves it, or publishes another one. -/
theorem sameSocket_reconnect (h : Stamped s) (dials : Bool) : SameSocket s (s.reconnect dials) := by
  have hleft (t : SilenceWatch) (hclock : t.clock = s.clock)
      (hthread : t.heartbeatThread = s.heartbeatThread) (hsockets : t.sockets = s.sockets)
      (hfd : t.fd = s.fd) (hopened : t.opened = s.opened) (hheard : t.heard = s.heard)
      (hsince : t.connectedSinceTs = s.connectedSinceTs) : SameSocket s t :=
    ⟨hclock, hthread, hsockets.ge, fun n _ hn => ⟨hfd ▸ hn, hopened, hheard, hsince⟩⟩
  unfold SilenceWatch.reconnect
  split
  · exact hleft _ rfl rfl rfl rfl rfl rfl rfl
  · exact ⟨rfl, rfl, Nat.le_refl _, by simp⟩
  · exact hleft _ rfl rfl rfl rfl rfl rfl rfl
  · exact hleft _ rfl rfl rfl rfl rfl rfl rfl
  · split <;> exact hleft _ rfl rfl rfl rfl rfl rfl rfl
  · exact hleft _ rfl rfl rfl rfl rfl rfl rfl
  · exact hleft _ rfl rfl rfl rfl rfl rfl rfl
  · exact hleft _ rfl rfl rfl rfl rfl rfl rfl
  · next hpc =>
    have hclosed : s.fd = none := h.fd_offline (hpc ▸ rfl)
    exact ⟨rfl, rfl, Nat.le_refl _, by simp [hclosed]⟩
  · refine ⟨rfl, rfl, Nat.le_succ _, ?_⟩
    intro n hn hfd
    have hnew : s.sockets = n := Option.some.inj hfd
    omega
  · exact hleft _ rfl rfl rfl rfl rfl rfl rfl

/-- What the heartbeat thread has read stays consistent over what leaves the socket. -/
theorem Consistent.sameSocket (h : Consistent s) (hsame : SameSocket s t) : Consistent t := by
  unfold Consistent at *
  rw [hsame.heartbeatThread_eq, hsame.clock_eq]
  have hle := hsame.sockets_le
  split at h
  · trivial
  · trivial
  · intro n hn
    exact Nat.lt_of_lt_of_le (h n hn) hle
  · refine ⟨h.1, ?_⟩
    intro n hn
    exact Nat.lt_of_lt_of_le (h.2 n hn) hle
  · refine ⟨h.1, ?_⟩
    intro n hn
    obtain ⟨hlt, hread⟩ := h.2 n hn
    refine ⟨Nat.lt_of_lt_of_le hlt hle, ?_⟩
    intro hfd
    obtain ⟨hfd, hopened, hheard, -⟩ := hsame.socket n hlt hfd
    rw [hopened, hheard]
    exact hread hfd
  · refine ⟨h.1, ?_⟩
    intro n hn
    obtain ⟨hlt, hread⟩ := h.2 n hn
    refine ⟨Nat.lt_of_lt_of_le hlt hle, ?_⟩
    intro hfd hsilent
    obtain ⟨hfd, hopened, hheard, -⟩ := hsame.socket n hlt hfd
    unfold SilentAt at hsilent
    rw [hopened, hheard] at hsilent
    exact hread hfd hsilent

/-- What the heartbeat thread reads is consistent. -/
theorem Consistent.heartbeatLoop (h : Consistent s) (hstamped : Stamped s)
    (hstep : s.heartbeatLoop = some t) : Consistent t := by
  unfold Consistent at h
  unfold SilenceWatch.heartbeatLoop at hstep
  split at hstep
  · split at hstep
    · exact Option.some.inj hstep ▸ trivial
    · exact absurd hstep.symm (Option.some_ne_none t)
  · obtain rfl := Option.some.inj hstep
    exact hstamped.fd_lt
  · next judged hpc =>
    rw [hpc] at h
    obtain rfl := Option.some.inj hstep
    exact ⟨Nat.le_refl s.clock, h⟩
  · next judged now hpc =>
    rw [hpc] at h
    obtain rfl := Option.some.inj hstep
    refine ⟨h.1, ?_⟩
    intro n hn
    refine ⟨h.2 n hn, ?_⟩
    intro hfd
    cases hheard : s.heard with
    | none => exact .inl (hstamped.unheard n hfd hheard)
    | some last => exact .inr ⟨last, rfl, (hstamped.heard_eq last hheard).ge⟩
  · next judged now lastHeartbeat hpc =>
    rw [hpc] at h
    obtain rfl := Option.some.inj hstep
    refine ⟨h.1, ?_⟩
    intro n hn
    refine ⟨(h.2 n hn).1, ?_⟩
    intro hfd hsilent
    have hsince := hstamped.opened_eq n hfd
    rw [hn]
    apply shouldRetire_iff.mpr
    refine ⟨?_, hsince ▸ hsilent.1⟩
    cases (h.2 n hn).2 hfd with
    | inl hopened => exact Nat.lt_of_le_of_lt (Nat.add_le_add_right hopened 5000) hsilent.1
    | inr hheard =>
      obtain ⟨last, hlast, hle⟩ := hheard
      exact Nat.lt_of_le_of_lt (Nat.add_le_add_right hle 5000) (hsilent.2 last hlast)
  · exact Option.some.inj hstep ▸ trivial

/-- A heartbeat is heard on the open socket. -/
theorem Stamped.receiveHeartbeat (h : Stamped s) (hreceived : s.fd ≠ none ∨ s.reconnector = .joining) :
    Stamped s.receiveHeartbeat :=
  { h with
    heartbeat_le := Nat.le_refl s.clock
    heard_eq := by
      intro h' hh
      obtain ⟨n, -, rfl⟩ := Option.map_eq_some_iff.mp hh
      rfl
    unheard := by
      intro n hn hunheard
      change s.fd = some n at hn
      change s.fd.map _ = none at hunheard
      rw [hn] at hunheard
      exact absurd hunheard (by simp)
    published := by
      intro hpc
      have hclosed : s.fd = none := h.fd_offline (hpc ▸ rfl)
      cases hreceived with
      | inl hopen => exact absurd hclosed hopen
      | inr hjoining => exact absurd (hjoining.symm.trans hpc) (by simp) }

/-- What was read before a heartbeat is older than it. -/
theorem Consistent.receiveHeartbeat (h : Consistent s) (hstamped : Stamped s) :
    Consistent s.receiveHeartbeat := by
  have hthread : s.receiveHeartbeat.heartbeatThread = s.heartbeatThread := rfl
  have hheard (n : ℕ) (hfd : s.fd = some n) : s.receiveHeartbeat.heard = some s.clock := by
    rw [SilenceWatch.receiveHeartbeat, hfd]
    rfl
  unfold Consistent at *
  rw [hthread]
  split at h
  · trivial
  · trivial
  · exact h
  · exact h
  · refine ⟨h.1, ?_⟩
    intro n hn
    refine ⟨(h.2 n hn).1, ?_⟩
    intro hfd
    refine .inr ⟨s.clock, hheard n hfd, ?_⟩
    cases (h.2 n hn).2 hfd with
    | inl hopened =>
      have hsince := hstamped.since_le
      have heq := hstamped.opened_eq n hfd
      omega
    | inr hread =>
      obtain ⟨last, hlast, hle⟩ := hread
      have hlatest := hstamped.heartbeat_le
      have heq := hstamped.heard_eq last hlast
      omega
  · refine ⟨h.1, ?_⟩
    intro n hn
    refine ⟨(h.2 n hn).1, ?_⟩
    intro hfd hsilent
    have hrecent := hsilent.2 s.clock (hheard n hfd)
    have hread := h.1
    omega

/-- The clock moves on. -/
theorem Stamped.wait (h : Stamped s) (ms : ℕ) : Stamped { s with clock := s.clock + ms } :=
  { h with
    heartbeat_le := Nat.le_trans h.heartbeat_le (Nat.le_add_right _ _)
    since_le := Nat.le_trans h.since_le (Nat.le_add_right _ _) }

/-- What was read stays consistent. -/
theorem Consistent.wait (h : Consistent s) (ms : ℕ) :
    Consistent { s with clock := s.clock + ms } := by
  unfold Consistent at *
  dsimp only
  split at h
  · trivial
  · trivial
  · exact h
  · exact ⟨Nat.le_trans h.1 (Nat.le_add_right _ _), h.2⟩
  · exact ⟨Nat.le_trans h.1 (Nat.le_add_right _ _), h.2⟩
  · exact ⟨Nat.le_trans h.1 (Nat.le_add_right _ _), h.2⟩

/-- Every step keeps the stamps in order and what was read consistent. -/
theorem consistent_step {e : WatchStep} (h : Stamped s ∧ Consistent s) (hstep : s.step e = some t) :
    Stamped t ∧ Consistent t := by
  cases e with
  | wait ms => exact Option.some.inj hstep ▸ ⟨h.1.wait ms, h.2.wait ms⟩
  | heartbeat =>
    simp only [step, Option.ite_none_right_eq_some, Option.some_inj] at hstep
    obtain ⟨hreceived, rfl⟩ := hstep
    exact ⟨h.1.receiveHeartbeat hreceived, h.2.receiveHeartbeat h.1⟩
  | fault =>
    simp only [step, Option.ite_none_right_eq_some, Option.some_inj] at hstep
    obtain ⟨-, rfl⟩ := hstep
    exact ⟨{ h.1 with }, h.2⟩
  | heartbeatLoop => exact ⟨h.1.heartbeatLoop hstep, h.2.heartbeatLoop h.1 hstep⟩
  | reconnect dials =>
    obtain rfl := Option.some.inj hstep
    exact ⟨h.1.reconnect dials, h.2.sameSocket (sameSocket_reconnect h.1 dials)⟩

/-- A pass of the heartbeat thread flags the socket that is silent throughout. -/
theorem flagsSilent_of_consistent (h : Consistent s) (e : WatchStep) : s.FlagsSilent e := by
  cases e with
  | heartbeatLoop =>
    intro n now retire hpc hfd hsilent t hstep
    rw [Consistent, hpc] at h
    have hretire : retire = true := (h.2 n rfl).2 hfd hsilent
    rw [SilenceWatch.heartbeatLoop, hpc, hretire] at hstep
    exact Option.some.inj hstep ▸ rfl
  | _ => trivial

/-- The clock moves on. -/
theorem Justified.wait (h : Justified s) (ms : ℕ) : Justified { s with clock := s.clock + ms } where
  comparing := h.comparing
  flagging n now hpc hfd := (h.flagging n now hpc hfd).mono (Nat.le_add_right _ _)
  judging := h.judging
  flagged hsilence hfd := (h.flagged hsilence hfd).mono (Nat.le_add_right _ _)
  cleared := h.cleared

/-- A heartbeat that no verdict awaits. -/
theorem Justified.receiveHeartbeat (h : Justified s) (hcond : s.Undisturbed .heartbeat) :
    Justified s.receiveHeartbeat where
  comparing n now lastHeartbeat hpc hfd hretire := by
    change s.heartbeatThread = _ at hpc
    change s.fd = some n at hfd
    have hcondemned : s.Condemned := by
      rw [Condemned, hpc]
      exact ⟨hfd, hretire⟩
    exact absurd hcondemned (hcond (by simp [hfd])).2
  flagging n now hpc hfd := by
    change s.heartbeatThread = _ at hpc
    change s.fd = some n at hfd
    have hcondemned : s.Condemned := by
      rw [Condemned, hpc]
      exact ⟨hfd, rfl⟩
    exact absurd hcondemned (hcond (by simp [hfd])).2
  judging := h.judging
  flagged hsilence hfd := absurd hsilence (Bool.eq_false_iff.mp (hcond hfd).1)
  cleared := h.cleared

/-- A fault is not silence. -/
theorem Justified.fault (h : Justified s) : Justified (s.flag false) where
  comparing := h.comparing
  flagging := h.flagging
  judging := h.judging
  flagged hsilence hfd := by
    apply h.flagged _ hfd
    simp only [flag] at hsilence
    split at hsilence
    · exact hsilence
    · exact absurd hsilence (by simp)
  cleared hcleared := by
    simp only [flag]
    split
    · exact h.cleared hcleared
    · rfl

/-- A step of the heartbeat thread whose verdict meets its socket. -/
theorem Justified.heartbeatLoop (h : Justified s) (hstamped : Stamped s) (hconsistent : Consistent s)
    (hcond : s.Undisturbed .heartbeatLoop) (hstep : s.heartbeatLoop = some t) : Justified t := by
  unfold SilenceWatch.heartbeatLoop at hstep
  split at hstep
  · split at hstep
    · obtain rfl := Option.some.inj hstep
      exact { h with comparing := by simp, flagging := by simp, judging := by simp }
    · exact absurd hstep.symm (Option.some_ne_none t)
  · obtain rfl := Option.some.inj hstep
    exact { h with comparing := by simp, flagging := by simp, judging := by simp }
  · obtain rfl := Option.some.inj hstep
    exact { h with comparing := by simp, flagging := by simp, judging := by simp }
  · obtain rfl := Option.some.inj hstep
    exact { h with
      comparing := by
        intro n now lastHeartbeat hpc _ _ last hlast
        obtain ⟨-, -, rfl⟩ := HeartbeatPc.compared.inj hpc
        exact (hstamped.heard_eq last hlast).le
      flagging := by simp
      judging := by simp }
  · next judged now lastHeartbeat hpc =>
    obtain rfl := Option.some.inj hstep
    rw [Consistent, hpc] at hconsistent
    exact { h with
      comparing := by simp
      flagging := by
        intro n now' hflagging hfd
        change s.fd = some n at hfd
        obtain ⟨rfl, rfl, hretire⟩ := HeartbeatPc.flagging.inj hflagging
        obtain ⟨hold, hsince⟩ := shouldRetire_iff.mp hretire
        have hread := h.comparing n now lastHeartbeat hpc hfd hretire
        refine SilentAt.mono ⟨hstamped.opened_eq n hfd ▸ hsince, ?_⟩ hconsistent.1
        intro last hlast
        exact Nat.lt_of_le_of_lt (Nat.add_le_add_right (hread last hlast) 5000) hold
      judging := by
        intro now' hflagging
        obtain ⟨rfl, -, hretire⟩ := HeartbeatPc.flagging.inj hflagging
        exact absurd hretire (by simp [shouldRetire_closed]) }
  · next judged now retire hpc =>
    obtain rfl := Option.some.inj hstep
    cases retire with
    | false => exact { h with comparing := by simp, flagging := by simp, judging := by simp }
    | true =>
      exact {
        comparing := by simp
        flagging := by simp
        judging := by simp
        flagged := by
          intro hsilence hfd
          change s.fd ≠ none at hfd
          cases hbroken : s.broken with
          | true =>
            simp only [flag, hbroken, if_true] at hsilence
            exact h.flagged hsilence hfd
          | false =>
            have hsame := (hcond judged now hpc hbroken).resolve_right fun hnone => hfd hnone.1
            obtain ⟨n, hn⟩ := Option.ne_none_iff_exists'.mp hfd
            exact h.flagging n now (hn ▸ hsame ▸ hpc) hn
        cleared := by
          intro hcleared
          change s.reconnector.cleared = true at hcleared
          cases hbroken : s.broken with
          | true =>
            simp only [flag, hbroken, if_true]
            exact h.cleared hcleared
          | false =>
            have hclosed : s.fd = none :=
              hstamped.fd_offline (ReconnectorPc.offline_of_cleared hcleared)
            cases hcond judged now hpc hbroken with
            | inl hsame =>
              rw [← hsame, hclosed] at hpc
              exact absurd hpc (h.judging now)
            | inr hnone => exact absurd hcleared (by simp [hnone.2]) }

/-- The reconnector never blames a socket of silence. -/
theorem forSilence_of_reconnect {dials : Bool} (h : (s.reconnect dials).forSilence = true) :
    s.forSilence = true := by
  unfold SilenceWatch.reconnect at h
  split at h
  case h_4 | h_8 => exact absurd h (by simp [clearFlag])
  case h_5 => split at h <;> exact h
  all_goals exact h

/-- Only publishing opens a socket. -/
theorem fd_of_reconnect {dials : Bool} {n : ℕ} (hpc : s.reconnector ≠ .publishing)
    (hfd : (s.reconnect dials).fd = some n) : s.fd = some n := by
  unfold SilenceWatch.reconnect at hfd
  split at hfd
  case h_2 => exact absurd hfd.symm (Option.some_ne_none n)
  case h_5 => split at hfd <;> exact hfd
  case h_10 hpublishing => exact absurd hpublishing hpc
  all_goals exact hfd

/-- A dial clears the flag before it is about to stamp and publish its socket. -/
theorem cleared_of_reconnect {dials : Bool} (h : (s.reconnect dials).reconnector.cleared = true) :
    (s.reconnect dials).forSilence = false ∨ s.reconnector.cleared = true := by
  unfold SilenceWatch.reconnect at *
  split at h
  case h_1 => split at h <;> exact absurd h (by simp [ReconnectorPc.cleared])
  case h_5 => split at h <;> exact absurd h (by simp [ReconnectorPc.cleared])
  case h_7 => split at h <;> exact absurd h (by simp [ReconnectorPc.cleared])
  case h_8 => exact .inl rfl
  case h_9 hstamping => exact .inr (hstamping ▸ rfl)
  all_goals exact absurd h (by simp [ReconnectorPc.cleared])

/-- The reconnector publishes no socket that is flagged as silent. -/
theorem Justified.reconnect (h : Justified s) (hstamped : Stamped s) (hconsistent : Consistent s)
    (dials : Bool) : Justified (s.reconnect dials) := by
  have hsame := sameSocket_reconnect hstamped dials
  have hsilent (n : ℕ) (hlt : n < s.sockets) (hfd : (s.reconnect dials).fd = some n)
      (hs : s.SilentAt s.clock) : (s.reconnect dials).SilentAt (s.reconnect dials).clock := by
    obtain ⟨-, hopened, hheard, -⟩ := hsame.socket n hlt hfd
    rw [SilentAt, hopened, hheard, hsame.clock_eq]
    exact hs
  constructor
  · intro n now lastHeartbeat hpc hfd hretire
    rw [hsame.heartbeatThread_eq] at hpc
    have hlt : n < s.sockets := by
      rw [Consistent, hpc] at hconsistent
      exact (hconsistent.2 n rfl).1
    obtain ⟨hfd, -, hheard, hsince⟩ := hsame.socket n hlt hfd
    rw [hsince] at hretire
    rw [hheard]
    exact h.comparing n now lastHeartbeat hpc hfd hretire
  · intro n now hpc hfd
    rw [hsame.heartbeatThread_eq] at hpc
    have hlt : n < s.sockets := by
      rw [Consistent, hpc] at hconsistent
      exact (hconsistent.2 n rfl).1
    exact hsilent n hlt hfd (h.flagging n now hpc (hsame.socket n hlt hfd).1)
  · intro now
    rw [hsame.heartbeatThread_eq]
    exact h.judging now
  · intro hsilence hopen
    have hbefore := forSilence_of_reconnect hsilence
    obtain ⟨n, hfd⟩ := Option.ne_none_iff_exists'.mp hopen
    have hpc : s.reconnector ≠ .publishing := by
      intro hpc
      exact absurd (h.cleared (hpc ▸ rfl)) (by simp [hbefore])
    have hold := fd_of_reconnect hpc hfd
    exact hsilent n (hstamped.fd_lt n hold) hfd (h.flagged hbefore (by simp [hold]))
  · intro hcleared
    cases cleared_of_reconnect hcleared with
    | inl hnow => exact hnow
    | inr hbefore =>
      by_contra hsilence
      have hblamed := forSilence_of_reconnect (Bool.not_eq_false _ ▸ hsilence)
      exact absurd (h.cleared hbefore) (by simp [hblamed])

/-- Every undisturbed step leads to a verdict that is justified. -/
theorem justified_step {e : WatchStep} (h : Justified s) (hstamped : Stamped s)
    (hconsistent : Consistent s) (hcond : s.Undisturbed e) (hstep : s.step e = some t) :
    Justified t := by
  cases e with
  | wait ms => exact Option.some.inj hstep ▸ h.wait ms
  | heartbeat =>
    simp only [step, Option.ite_none_right_eq_some, Option.some_inj] at hstep
    obtain ⟨-, rfl⟩ := hstep
    exact h.receiveHeartbeat hcond
  | fault =>
    simp only [step, Option.ite_none_right_eq_some, Option.some_inj] at hstep
    obtain ⟨-, rfl⟩ := hstep
    exact h.fault
  | heartbeatLoop => exact h.heartbeatLoop hstamped hconsistent hcond hstep
  | reconnect dials => exact Option.some.inj hstep ▸ h.reconnect hstamped hconsistent dials

/-- A socket that is torn down for silence is silent. -/
theorem retiresOnlySilent_of_justified (h : Justified s) (e : WatchStep) :
    s.RetiresOnlySilent e := by
  cases e with
  | reconnect dials => exact fun _ hopen hsilence => h.flagged hsilence hopen
  | _ => trivial

end Steps

/-- A pass of the heartbeat thread that nothing interrupts does what a pass of the link does. -/
theorem uninterrupted_pass (s : SilenceWatch) (link : MavLink) (hpc : s.heartbeatThread = .idle)
    (hfd : link.fd.isSome = s.fd.isSome) (hclock : link.clock = s.clock)
    (hheartbeat : link.lastHeartbeatTs = s.lastHeartbeatTs)
    (hsince : link.connectedSinceTs = s.connectedSinceTs) (hbroken : link.broken = s.broken) :
    ∃ t, run step s (List.replicate 5 .heartbeatLoop) = some t ∧ t.heartbeatThread = .idle ∧
      t.broken = link.heartbeatLoop.broken := by
  refine ⟨_, by simp [List.replicate, run, step, heartbeatLoop, hpc]; rfl, rfl, ?_⟩
  simp only [MavLink.heartbeatLoop, hfd, hclock, hheartbeat, hsince, hbroken]
  split
  · next hretire => simp [flag, hretire]
  · next hretire => simp [Bool.eq_false_iff.mpr hretire]

section Run

variable (clock : ℕ) (es : List WatchStep)

/-- Everything holds at first. -/
theorem justified_start :
    (Stamped (start clock) ∧ Consistent (start clock)) ∧ Justified (start clock) := by
  refine ⟨⟨?_, trivial⟩, ?_⟩
  · constructor <;> simp [start]
  · constructor <;> simp [start, ReconnectorPc.cleared]

/-- For every run, a socket that is open and silent throughout a pass of the heartbeat thread is
flagged by it. If moreover every verdict of silence meets its socket and no heartbeat comes after
it, only silent sockets are torn down for silence. -/
theorem silence_along :
    Along step FlagsSilent (start clock) es ∧
      (Along step Undisturbed (start clock) es → Along step RetiresOnlySilent (start clock) es) := by
  constructor
  · have hany : Along step (fun _ _ => True) (start clock) es :=
      along_of_forall (fun _ _ => trivial) _ es
    apply along_of_along (fun s => Stamped s ∧ Consistent s) _ _ (justified_start clock).1 hany
    · intro s e h _
      exact flagsSilent_of_consistent h.2 e
    · intro s e t h _ hstep
      exact consistent_step h hstep
  · intro hcond
    apply along_of_along (fun s => (Stamped s ∧ Consistent s) ∧ Justified s) _ _
      (justified_start clock) hcond
    · intro s e h _
      exact retiresOnlySilent_of_justified h.2 e
    · intro s e t h he hstep
      exact ⟨consistent_step h.1 hstep, justified_step h.2 h.1.1 h.1.2 he hstep⟩

/-- The first socket is judged silent, then lost and replaced before the verdict is published. -/
def replacedBeforeVerdict : List WatchStep :=
  List.replicate 6 (WatchStep.reconnect true) ++ [WatchStep.heartbeatLoop, .wait 6000] ++
    List.replicate 4 WatchStep.heartbeatLoop ++ [WatchStep.fault] ++
    List.replicate 11 (WatchStep.reconnect true) ++ [WatchStep.heartbeatLoop, .reconnect true]

/-- The second socket is torn down for silence the moment it is open. -/
theorem replacedBeforeVerdict_retires_new :
    ¬∀ clock es, Along step FlagsSilent (start clock) es ∧
      Along step RetiresOnlySilent (start clock) es := by
  intro h
  obtain ⟨t, hrun, hpc, hfd, hsilence, hopened, hclock⟩ :
      ∃ t, run step (start 0) replacedBeforeVerdict = some t ∧ t.reconnector = .closing ∧
        t.fd = some 1 ∧ t.forSilence = true ∧ t.opened = 6000 ∧ t.clock = 6000 :=
    ⟨_, rfl, rfl, rfl, rfl, rfl, rfl⟩
  have hretires := law_of_along (h 0 (replacedBeforeVerdict ++ [.reconnect true])).2 hrun
  have hsilent := hretires hpc (by simp [hfd]) hsilence
  have hopen := hsilent.1
  omega

/-- A socket that is heard again between the verdict and the teardown is torn down all the same. -/
example : ∃ t, run step (start 0) (List.replicate 6 (WatchStep.reconnect true) ++
    [WatchStep.heartbeatLoop, .wait 6000] ++ List.replicate 5 WatchStep.heartbeatLoop ++
    [WatchStep.heartbeat, .reconnect true]) = some t ∧ t.reconnector = .closing ∧ t.forSilence = true ∧
      t.heard = some t.clock :=
  ⟨_, rfl, rfl, rfl, rfl⟩

end Run

end SilenceWatch

end CapFmu
