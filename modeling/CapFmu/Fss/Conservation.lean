import CapFmu.Fss.CommandAckGroup
import Mathlib.Data.List.Nodup
import Mathlib.Data.List.Perm.Basic

/-!
# The group conserves its copies

A ledger follows a group through any calls: it numbers the copies as they are delivered, so
that equal ones stay apart, and writes down which were answered on the spot, which were
stored and at which epoch, and which were handed back and how. The target of a copy is
opaque to the group, so the numbering changes nothing it does.

The books balance: the stored copies are the ones handed back followed by the pending ones,
each in the group of its epoch. A copy handed back by the next opening belongs to the epoch
before it, and one handed back by a resolution to the epoch resolved.
-/

namespace CapFmu

open Transition

variable {Key Target : Type*}

namespace CommandAckGroup

variable {Other : Type*}

/-- The group with its copies renamed. -/
def mapTarget (f : Target → Other) (g : CommandAckGroup Key Target) : CommandAckGroup Key Other :=
  { toleranceMs := g.toleranceMs
    active := g.active
    epoch := g.epoch
    command := g.command
    payload := g.payload
    timestamp := g.timestamp
    pending := g.pending.map f
    resolution := g.resolution
    lastIdByConnection := g.lastIdByConnection }

end CommandAckGroup

/-- The answer with its copies renamed. -/
def DeliveryResult.mapTarget {Other : Type*} (f : Target → Other) (r : DeliveryResult Target) :
    DeliveryResult Other :=
  { disposition := r.disposition
    epoch := r.epoch
    resolution := r.resolution
    superseded := r.superseded.map f }

/-- The delivery with its copy renamed. -/
def Delivery.mapTarget {Other : Type*} (f : Target → Other) (d : Delivery Key Target) :
    Delivery Key Other :=
  { command := d.command
    timestamp := d.timestamp
    copy := f d.copy
    payload := d.payload
    serverCommandId := d.serverCommandId
    connectionKey := d.connectionKey }

namespace CommandAckGroup

variable {Other : Type*}

/-- What a delivery does is the same for any names of the copies. -/
theorem onDelivery_mapTarget [DecidableEq Key] (f : Target → Other)
    (g : CommandAckGroup Key Target) (d : Delivery Key Target) :
    (g.mapTarget f).onDelivery (d.mapTarget f) =
      ((g.onDelivery d).1.mapTarget f, (g.onDelivery d).2.mapTarget f) := by
  have hsame : (g.mapTarget f).sameLogicalCommand (d.mapTarget f) = g.sameLogicalCommand d := rfl
  have hretry : (g.mapTarget f).deliberateRetry (d.mapTarget f) = g.deliberateRetry d := rfl
  have hwithin : (g.mapTarget f).withinTolerance (d.mapTarget f).timestamp =
      g.withinTolerance d.timestamp := rfl
  have hactive : (g.mapTarget f).active = g.active := rfl
  have htimestamp : (d.mapTarget f).timestamp < (g.mapTarget f).timestamp ↔
      d.timestamp < g.timestamp := Iff.rfl
  unfold onDelivery
  simp only [hsame, hretry, hwithin, hactive, htimestamp]
  split_ifs with hjoin hstale
  · unfold joinGroup
    cases hresolution : g.resolution with
    | some resolution => simp [mapTarget, Delivery.mapTarget, DeliveryResult.mapTarget,
        hresolution, recordId]
    | none => simp [mapTarget, Delivery.mapTarget, DeliveryResult.mapTarget, hresolution, recordId]
  · rfl
  · rfl

/-- What a resolution does is the same for any names of the copies. -/
theorem resolve_mapTarget (f : Target → Other) (g : CommandAckGroup Key Target) (epoch : ℕ)
    (res : FssCommandResolution) :
    (g.mapTarget f).resolve epoch res =
      ((g.resolve epoch res).1.mapTarget f, (g.resolve epoch res).2.map f) := by
  by_cases h : g.epoch ≠ epoch
  · have h' : (g.mapTarget f).epoch ≠ epoch := h
    rw [resolve, resolve, if_pos h, if_pos h']
    rfl
  · have h' : ¬ (g.mapTarget f).epoch ≠ epoch := h
    rw [resolve, resolve, if_neg h, if_neg h']
    rfl

/-- The group after a call, whatever epoch it resolves. -/
def call [DecidableEq Key] (g : CommandAckGroup Key Target) :
    Event Key Target → CommandAckGroup Key Target
  | .deliver d => (g.onDelivery d).1
  | .resolve epoch res => (g.resolve epoch res).1

end CommandAckGroup

/-- How a copy was handed back. -/
inductive HandBack
  | superseded (opened : ℕ)
  | resolved (epoch : ℕ)
  deriving DecidableEq, Repr

/-- The epoch of the group the copy was handed back from: the one before the opening that
displaced it, or the one resolved. -/
def HandBack.epoch : HandBack → ℕ
  | superseded opened => opened - 1
  | resolved epoch => epoch

/-- A group with the books on its copies. Each copy is numbered as it is delivered. -/
structure CopyLedger (Key Target : Type*) where
  group : CommandAckGroup Key (ℕ × Target)
  delivered : List (ℕ × Target) := []
  answered : List (ℕ × Target) := []
  stored : List (ℕ × (ℕ × Target)) := []
  handedBack : List (HandBack × (ℕ × Target)) := []
  opened : List ℕ := []

namespace CopyLedger

/-- The books on a new group. -/
def init (toleranceMs : ℕ) : CopyLedger Key Target := { group := .new toleranceMs }

/-- The number of the next copy goes with it. -/
def number (l : CopyLedger Key Target) (target : Target) : ℕ × Target :=
  (l.delivered.length, target)

/-- What the group answers to a delivery of the numbered copy. -/
def outcome [DecidableEq Key] (l : CopyLedger Key Target) (d : Delivery Key Target) :
    CommandAckGroup Key (ℕ × Target) × DeliveryResult (ℕ × Target) :=
  l.group.onDelivery (d.mapTarget l.number)

/-- Enter a delivery: the displaced copies are handed back, the copy is answered or stored as
the disposition says, and the epoch of an opened group is handed out. -/
def deliver [DecidableEq Key] (l : CopyLedger Key Target) (d : Delivery Key Target) :
    CopyLedger Key Target :=
  let outcome := l.outcome d
  let entered := { l with
    group := outcome.1
    delivered := l.delivered ++ [l.number d.copy]
    handedBack := l.handedBack ++
      outcome.2.superseded.map (Prod.mk (HandBack.superseded outcome.2.epoch)) }
  match outcome.2.disposition with
  | .actuate => { entered with
      stored := l.stored ++ [(outcome.1.epoch, l.number d.copy)]
      opened := l.opened ++ [outcome.2.epoch] }
  | .pending => { entered with stored := l.stored ++ [(outcome.1.epoch, l.number d.copy)] }
  | .alreadyResolved | .staleSuperseded =>
    { entered with answered := l.answered ++ [l.number d.copy] }

/-- Enter a resolution: the copies it returns are handed back. -/
def resolve (l : CopyLedger Key Target) (epoch : ℕ) (res : FssCommandResolution) :
    CopyLedger Key Target :=
  { l with
    group := (l.group.resolve epoch res).1
    handedBack := l.handedBack ++
      (l.group.resolve epoch res).2.map (Prod.mk (HandBack.resolved epoch)) }

/-- Any call can be made at any time, with any epoch. -/
def step [DecidableEq Key] (l : CopyLedger Key Target) :
    CommandAckGroup.Event Key Target → Option (CopyLedger Key Target)
  | .deliver d => some (l.deliver d)
  | .resolve epoch res => some (l.resolve epoch res)

/-- The books balance. -/
structure Balanced (l : CopyLedger Key Target) : Prop where
  numbered : l.delivered.map Prod.fst = List.range l.delivered.length
  recorded : (l.answered ++ l.stored.map Prod.snd).Perm l.delivered
  balance : l.stored =
    l.handedBack.map (Prod.map HandBack.epoch id) ++ l.group.pending.map (Prod.mk l.group.epoch)
  opened : l.opened = (List.range l.group.epoch).map (· + 1)
  opened_pos : ∀ entry ∈ l.handedBack, ∀ opened, entry.1 = .superseded opened → 1 ≤ opened

/-- Every delivered copy is answered on the spot or stored, and only once; a stored one is
handed back at most once, by the opening of the group after its own or by the resolution of
its own, and is pending in its group until then; the epochs handed out increase. -/
structure Conserves (l : CopyLedger Key Target) : Prop where
  delivered_once : l.delivered.Nodup
  answered_or_stored : (l.answered ++ l.stored.map Prod.snd).Perm l.delivered
  handedBack_once : (l.handedBack.map Prod.snd).Nodup
  handedBack_superseded : ∀ copy opened, (.superseded opened, copy) ∈ l.handedBack →
    ∃ epoch, opened = epoch + 1 ∧ (epoch, copy) ∈ l.stored
  handedBack_resolved : ∀ copy epoch, (.resolved epoch, copy) ∈ l.handedBack →
    (epoch, copy) ∈ l.stored
  pending_iff : ∀ epoch copy, (epoch, copy) ∈ l.stored →
    (copy ∉ l.handedBack.map Prod.snd ↔ copy ∈ l.group.pending ∧ epoch = l.group.epoch)
  pending_stored : ∀ copy ∈ l.group.pending, (l.group.epoch, copy) ∈ l.stored
  opened_increase : l.opened.Pairwise (· < ·)
  opened_last : l.opened.getLastD 0 = l.group.epoch

/-- An outcome for another epoch than the current one returns nothing and changes nothing. -/
def DropsDisplaced (l : CopyLedger Key Target) : CommandAckGroup.Event Key Target → Prop
  | .deliver _ => True
  | .resolve epoch res => epoch ≠ l.group.epoch →
      l.group.resolve epoch res = (l.group, []) ∧ l.resolve epoch res = l

section Deliver

variable [DecidableEq Key] (l : CopyLedger Key Target) (d : Delivery Key Target)

/-- A delivery is answered on the spot, is stored with the pending copies of its group, or
opens a group that displaces them. -/
theorem deliver_cases :
    (∃ group : CommandAckGroup Key (ℕ × Target),
      group.pending = l.group.pending ∧ group.epoch = l.group.epoch ∧
        l.deliver d = { l with
          group := group
          delivered := l.delivered ++ [l.number d.copy]
          answered := l.answered ++ [l.number d.copy] }) ∨
    (∃ group : CommandAckGroup Key (ℕ × Target),
      group.pending = l.group.pending ++ [l.number d.copy] ∧ group.epoch = l.group.epoch ∧
        l.deliver d = { l with
          group := group
          delivered := l.delivered ++ [l.number d.copy]
          stored := l.stored ++ [(l.group.epoch, l.number d.copy)] }) ∨
    (∃ group : CommandAckGroup Key (ℕ × Target),
      group.pending = [l.number d.copy] ∧ group.epoch = l.group.epoch + 1 ∧
        l.deliver d = { l with
          group := group
          delivered := l.delivered ++ [l.number d.copy]
          stored := l.stored ++ [(l.group.epoch + 1, l.number d.copy)]
          handedBack := l.handedBack ++
            l.group.pending.map (Prod.mk (HandBack.superseded (l.group.epoch + 1)))
          opened := l.opened ++ [l.group.epoch + 1] }) := by
  rcases l.group.onDelivery_cases (d.mapTarget l.number) with
    ⟨-, -, -, -, hjoin⟩ | ⟨-, -, -, -, hstale⟩ | ⟨-, -, hopen⟩
  · cases hresolution : l.group.resolution with
    | some resolution =>
      have hanswer : l.outcome d =
          ({ l.group with lastIdByConnection := (l.outcome d).1.lastIdByConnection },
            { disposition := .alreadyResolved, resolution := some resolution }) := by
        simp only [outcome, hjoin, CommandAckGroup.joinGroup, hresolution]
      left
      refine ⟨(l.outcome d).1, by rw [hanswer], by rw [hanswer], ?_⟩
      rw [deliver, hanswer]
      simp
    | none =>
      have hstore : l.outcome d =
          ({ l.group with
              lastIdByConnection := (l.outcome d).1.lastIdByConnection
              pending := l.group.pending ++ [l.number d.copy] },
            { disposition := .pending }) := by
        simp only [outcome, hjoin, CommandAckGroup.joinGroup, hresolution]
        rfl
      right; left
      refine ⟨(l.outcome d).1, by rw [hstore], by rw [hstore], ?_⟩
      rw [deliver, hstore]
      simp
  · left
    refine ⟨l.group, rfl, rfl, ?_⟩
    have hanswer : l.outcome d = (l.group, { disposition := .staleSuperseded }) := hstale
    rw [deliver, hanswer]
    simp
  · right; right
    have hopened : l.outcome d = l.group.openGroup (d.mapTarget l.number) := hopen
    refine ⟨(l.outcome d).1, by rw [hopened]; rfl, by rw [hopened]; rfl, ?_⟩
    rw [deliver, hopened]
    rfl

end Deliver

/-- The books on a new group balance. -/
theorem balanced_init (toleranceMs : ℕ) : (init toleranceMs : CopyLedger Key Target).Balanced where
  numbered := rfl
  recorded := List.Perm.refl []
  balance := rfl
  opened := rfl
  opened_pos := fun _ h => absurd h List.not_mem_nil

/-- One more numbered copy. -/
theorem numbered_concat {l : CopyLedger Key Target}
    (h : l.delivered.map Prod.fst = List.range l.delivered.length) (target : Target) :
    (l.delivered ++ [l.number target]).map Prod.fst =
      List.range (l.delivered ++ [l.number target]).length := by
  rw [List.map_append, h, List.length_append, List.length_singleton, List.range_succ]
  rfl

/-- A delivery keeps the books balanced. -/
theorem balanced_deliver [DecidableEq Key] {l : CopyLedger Key Target} (h : l.Balanced)
    (d : Delivery Key Target) : (l.deliver d).Balanced := by
  rcases l.deliver_cases d with ⟨group, hpending, hepoch, hdeliver⟩ |
    ⟨group, hpending, hepoch, hdeliver⟩ | ⟨group, hpending, hepoch, hdeliver⟩
  · -- answered on the spot: no stored copy moves
    rw [hdeliver]
    constructor
    · exact numbered_concat h.numbered d.copy
    · apply List.Perm.trans _ (h.recorded.append_right [l.number d.copy])
      rw [List.append_assoc, List.append_assoc]
      exact List.perm_append_comm.append_left l.answered
    · simp only [hpending, hepoch]
      exact h.balance
    · simp only [hepoch]
      exact h.opened
    · exact h.opened_pos
  · -- stored at the end of the pending copies
    rw [hdeliver]
    constructor
    · exact numbered_concat h.numbered d.copy
    · simp only [List.map_append, ← List.append_assoc]
      exact h.recorded.append_right [l.number d.copy]
    · simp only [hpending, hepoch, List.map_append, ← List.append_assoc, ← h.balance]
      rfl
    · simp only [hepoch]
      exact h.opened
    · exact h.opened_pos
  · -- the pending copies move to the ones handed back
    rw [hdeliver]
    constructor
    · exact numbered_concat h.numbered d.copy
    · simp only [List.map_append, ← List.append_assoc]
      exact h.recorded.append_right [l.number d.copy]
    · have hdisplaced : (l.group.pending.map
            (Prod.mk (HandBack.superseded (l.group.epoch + 1)))).map (Prod.map HandBack.epoch id) =
          l.group.pending.map (Prod.mk l.group.epoch) := List.map_map
      simp only [hpending, hepoch, List.map_append, hdisplaced, ← h.balance]
      rfl
    · simp only [hepoch, h.opened, List.range_succ, List.map_append]
      rfl
    · intro entry hentry opened hsuperseded
      rcases List.mem_append.mp hentry with hold | hnew
      · exact h.opened_pos entry hold opened hsuperseded
      · obtain ⟨copy, -, rfl⟩ := List.mem_map.mp hnew
        exact HandBack.superseded.inj hsuperseded ▸ Nat.le_add_left 1 l.group.epoch

/-- An outcome for another epoch changes nothing. -/
theorem resolve_of_ne {l : CopyLedger Key Target} {epoch : ℕ} (h : epoch ≠ l.group.epoch)
    (res : FssCommandResolution) :
    l.group.resolve epoch res = (l.group, []) ∧ l.resolve epoch res = l := by
  have hdropped : l.group.resolve epoch res = (l.group, []) := if_pos h.symm
  refine ⟨hdropped, ?_⟩
  rw [resolve, hdropped]
  simp

/-- An outcome keeps the books balanced. -/
theorem balanced_resolve {l : CopyLedger Key Target} (h : l.Balanced) (epoch : ℕ)
    (res : FssCommandResolution) : (l.resolve epoch res).Balanced := by
  by_cases hepoch : epoch = l.group.epoch
  · subst hepoch
    have hreturned : l.group.resolve l.group.epoch res =
        ({ l.group with resolution := some res, pending := [] }, l.group.pending) :=
      if_neg (not_not_intro rfl)
    have hresolved : (l.group.pending.map
          (Prod.mk (HandBack.resolved l.group.epoch))).map (Prod.map HandBack.epoch id) =
        l.group.pending.map (Prod.mk l.group.epoch) := List.map_map
    rw [resolve, hreturned]
    constructor
    · exact h.numbered
    · exact h.recorded
    · simp only [List.map_append, hresolved, List.map_nil, List.append_nil]
      exact h.balance
    · exact h.opened
    · intro entry hentry opened hsuperseded
      rcases List.mem_append.mp hentry with hold | hnew
      · exact h.opened_pos entry hold opened hsuperseded
      · obtain ⟨copy, -, rfl⟩ := List.mem_map.mp hnew
        exact absurd hsuperseded (by simp)
  · rw [(resolve_of_ne hepoch res).2]
    exact h

/-- Every call keeps the books balanced. -/
theorem balanced_step [DecidableEq Key] {l t : CopyLedger Key Target}
    {e : CommandAckGroup.Event Key Target} (h : l.Balanced) (hstep : l.step e = some t) :
    t.Balanced := by
  cases e with
  | deliver d =>
    obtain rfl := Option.some.inj hstep
    exact balanced_deliver h d
  | resolve epoch res =>
    obtain rfl := Option.some.inj hstep
    exact balanced_resolve h epoch res

namespace Balanced

variable {l : CopyLedger Key Target} (h : l.Balanced)

include h

/-- No two copies have one number. -/
theorem delivered_nodup : l.delivered.Nodup := by
  apply List.Nodup.of_map Prod.fst
  rw [h.numbered]
  exact List.nodup_range

/-- A stored copy was handed back or is pending. -/
theorem mem_stored {epoch : ℕ} {copy : ℕ × Target} :
    (epoch, copy) ∈ l.stored ↔
      (∃ entry ∈ l.handedBack, entry.1.epoch = epoch ∧ entry.2 = copy) ∨
        (copy ∈ l.group.pending ∧ epoch = l.group.epoch) := by
  rw [h.balance, List.mem_append]
  apply or_congr
  · simp
  · constructor
    · intro hpending
      obtain ⟨_, hmem, heq⟩ := List.mem_map.mp hpending
      obtain ⟨rfl, rfl⟩ := Prod.mk.inj heq
      exact ⟨hmem, rfl⟩
    · rintro ⟨hmem, rfl⟩
      exact List.mem_map_of_mem hmem

/-- The copies handed back and the pending ones are all different. -/
theorem handedBack_pending_nodup :
    (l.handedBack.map Prod.snd ++ l.group.pending).Nodup := by
  have hrecorded := h.recorded.nodup_iff.mpr h.delivered_nodup
  have hstored := (List.nodup_append.mp hrecorded).2.1
  rw [h.balance] at hstored
  simpa [Function.comp_def] using hstored

/-- Balanced books conserve the copies. -/
theorem conserves : l.Conserves where
  delivered_once := h.delivered_nodup
  answered_or_stored := h.recorded
  handedBack_once := (List.nodup_append.mp h.handedBack_pending_nodup).1
  handedBack_superseded := by
    intro copy opened hentry
    have hpos := h.opened_pos _ hentry opened rfl
    exact ⟨opened - 1, by omega, h.mem_stored.mpr (Or.inl ⟨_, hentry, rfl, rfl⟩)⟩
  handedBack_resolved := by
    intro copy epoch hentry
    exact h.mem_stored.mpr (Or.inl ⟨_, hentry, rfl, rfl⟩)
  pending_iff := by
    intro epoch copy hstored
    constructor
    · intro hunhanded
      rcases h.mem_stored.mp hstored with ⟨entry, hentry, -, rfl⟩ | hpending
      · exact absurd (List.mem_map_of_mem hentry) hunhanded
      · exact hpending
    · rintro ⟨hpending, -⟩ hhanded
      exact (List.nodup_append.mp h.handedBack_pending_nodup).2.2 copy hhanded copy hpending rfl
  pending_stored := fun copy hpending => h.mem_stored.mpr (Or.inr ⟨hpending, rfl⟩)
  opened_increase := by
    rw [h.opened]
    exact List.pairwise_map.mpr (List.pairwise_lt_range.imp fun hlt => by omega)
  opened_last := by
    rw [h.opened]
    cases l.group.epoch with
    | zero => rfl
    | succ epoch => simp [List.range_succ]

end Balanced

/-- The group of the ledger goes through the delivery of the numbered copy. -/
theorem deliver_group [DecidableEq Key] (l : CopyLedger Key Target) (d : Delivery Key Target) :
    (l.deliver d).group = (l.outcome d).1 := by
  unfold deliver
  dsimp only
  split <;> rfl

/-- The numbers aside, the group of the ledger goes through the calls as any group does. -/
theorem group_of_run [DecidableEq Key] {l t : CopyLedger Key Target}
    {calls : List (CommandAckGroup.Event Key Target)} (hrun : run step l calls = some t) :
    t.group.mapTarget Prod.snd = calls.foldl CommandAckGroup.call (l.group.mapTarget Prod.snd) := by
  induction calls generalizing l with
  | nil =>
    obtain rfl := run_nil_eq_some.mp hrun
    rfl
  | cons e calls ih =>
    obtain ⟨m, hstep, hrun⟩ := run_cons_eq_some.mp hrun
    rw [ih hrun, List.foldl_cons]
    congr 1
    cases e with
    | deliver d =>
      obtain rfl := Option.some.inj hstep
      have hdelivery := l.group.onDelivery_mapTarget Prod.snd (d.mapTarget l.number)
      rw [deliver_group]
      exact (congrArg Prod.fst hdelivery).symm
    | resolve epoch res =>
      obtain rfl := Option.some.inj hstep
      have hresolve := l.group.resolve_mapTarget Prod.snd epoch res
      exact (congrArg Prod.fst hresolve).symm

/-- Through any calls, with any epochs resolved, a group conserves its copies: each is
answered on the spot or stored, a stored one is handed back at most once, from its own group,
and is pending until then, the epochs handed out increase, and an outcome for another epoch
than the current one returns nothing and changes nothing. -/
theorem group_conserves_copies [DecidableEq Key] (toleranceMs : ℕ)
    (calls : List (CommandAckGroup.Event Key Target)) :
    (∀ cs l, cs <+: calls → run step (init toleranceMs : CopyLedger Key Target) cs = some l →
        l.Conserves ∧
          l.group.mapTarget Prod.snd = cs.foldl CommandAckGroup.call (.new toleranceMs)) ∧
      Along step DropsDisplaced (init toleranceMs : CopyLedger Key Target) calls := by
  constructor
  · intro cs l _ hrun
    have hbalanced := invariant_of_run Balanced (fun _ _ _ => balanced_step)
      (balanced_init toleranceMs) hrun
    exact ⟨hbalanced.conserves, group_of_run hrun⟩
  · apply along_of_forall
    intro l e
    cases e with
    | deliver d => trivial
    | resolve epoch res => exact fun hne => resolve_of_ne hne res

end CopyLedger

end CapFmu
