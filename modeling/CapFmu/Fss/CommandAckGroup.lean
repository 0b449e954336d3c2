import CapFmu.Core.Types
import CapFmu.Transition.Run

/-!
# Grouping the redundant deliveries of one command

Every ground-station server delivers the same command on its own connection. The group
decides under its lock whether a delivery opens a new logical command, is another copy of
the active one, or is an older command that a newer one has replaced. The target of an
acknowledgement and the key of a connection are opaque to it.
-/

namespace CapFmu

open Numeric (Double)

/-- The payload that identifies a command together with its type. -/
inductive CommandPayload
  | none
  | position (lat lng : Double)
  | altitude (altitude : Int32)
  deriving DecidableEq

namespace CommandPayload

/-- The goto tolerance in degrees, as the nearest double to `1e-7`. -/
def positionToleranceDeg : ℚ := Numeric.binary64 (1 / 10 ^ 7)

/-- Whether two payloads identify the same command; positions are compared within the
tolerance, so a position that is not finite is not even the same as itself. -/
def sameAs : CommandPayload → CommandPayload → Bool
  | none, none => true
  | altitude a, altitude b => decide (a = b)
  | position lat lng, position lat' lng' =>
    lat.closerThan positionToleranceDeg lat' && lng.closerThan positionToleranceDeg lng'
  | _, _ => false

/-- Whether the coordinates of a position payload are finite. -/
def isFinite : CommandPayload → Bool
  | position lat lng => lat.isFinite && lng.isFinite
  | none | altitude _ => true

/-- The tolerance is positive. -/
theorem positionToleranceDeg_pos : 0 < positionToleranceDeg := by
  have hnormal : (2 : ℚ) ^ (-1022 : ℤ) ≤ 2 ^ (-24 : ℤ) :=
    zpow_le_zpow_right₀ (by norm_num) (by norm_num)
  exact Numeric.binary64_pos (hnormal.trans (by norm_num))

/-- A payload with finite coordinates is the same as itself. -/
theorem sameAs_self {payload : CommandPayload} (h : payload.isFinite = true) :
    payload.sameAs payload = true := by
  cases payload with
  | none => rfl
  | position lat lng =>
    simp only [isFinite, Bool.and_eq_true] at h
    simp [sameAs, Double.closerThan_self positionToleranceDeg_pos, h]
  | altitude a => simp [sameAs]

/-- Only such a payload is. -/
theorem isFinite_of_sameAs_self {payload : CommandPayload} (h : payload.sameAs payload = true) :
    payload.isFinite = true := by
  cases payload with
  | none => rfl
  | position lat lng =>
    simp only [sameAs, Bool.and_eq_true] at h
    simp [isFinite, Double.isFinite_of_closerThan h.1, Double.isFinite_of_closerThan h.2]
  | altitude a => rfl

end CommandPayload

/-- One delivery, as the recv thread of a connection hands it in. -/
structure Delivery (Key Target : Type*) where
  command : ℤ
  timestamp : ℕ
  copy : Target
  payload : CommandPayload := .none
  serverCommandId : ℕ := 0
  connectionKey : Key

/-- What the caller has to do with a delivery. -/
inductive Disposition
  | actuate
  | alreadyResolved
  | pending
  | staleSuperseded
  deriving DecidableEq, Repr

/-- The answer to a delivery. -/
structure DeliveryResult (Target : Type*) where
  disposition : Disposition := .pending
  epoch : ℕ := 0
  resolution : Option FssCommandResolution := none
  superseded : List Target := []

/-- The bookkeeping of the active logical command. -/
structure CommandAckGroup (Key Target : Type*) where
  toleranceMs : ℕ
  active : Bool := false
  epoch : ℕ := 0
  command : ℤ := 0
  payload : CommandPayload := .none
  timestamp : ℕ := 0
  pending : List Target := []
  resolution : Option FssCommandResolution := none
  lastIdByConnection : Key → Option ℕ := fun _ => none

/-- The window of the production group, in milliseconds. -/
def commandDedupToleranceMs : ℕ := 60000

namespace CommandAckGroup

variable {Key Target : Type*}

/-- A group before any delivery. -/
def new (toleranceMs : ℕ) : CommandAckGroup Key Target := { toleranceMs := toleranceMs }

/-- The delivery repeats the active command and payload. -/
def sameLogicalCommand (g : CommandAckGroup Key Target) (d : Delivery Key Target) : Bool :=
  decide (g.command = d.command) && g.payload.sameAs d.payload

/-- The connection reported a different id for the active group before. -/
def deliberateRetry (g : CommandAckGroup Key Target) (d : Delivery Key Target) : Bool :=
  g.active && decide (d.serverCommandId ≠ 0) &&
    match g.lastIdByConnection d.connectionKey with
    | some seen => decide (seen ≠ d.serverCommandId)
    | none => false

/-- Whether two timestamps count as one command's. -/
def withinTolerance (g : CommandAckGroup Key Target) (timestamp : ℕ) : Bool :=
  let skew := if g.timestamp ≤ timestamp then timestamp - g.timestamp else g.timestamp - timestamp
  decide (skew < g.toleranceMs)

/-- A retry needs a nonzero id and a different one recorded for the connection. -/
theorem deliberateRetry_eq_false {g : CommandAckGroup Key Target} (h : g.active = true)
    (d : Delivery Key Target) :
    g.deliberateRetry d = false ↔ d.serverCommandId = 0 ∨
      ∀ seen, g.lastIdByConnection d.connectionKey = some seen → seen = d.serverCommandId := by
  unfold deliberateRetry
  cases g.lastIdByConnection d.connectionKey with
  | none => simp
  | some seen =>
    by_cases hid : d.serverCommandId = 0 <;> simp [h, hid]

/-- For an older timestamp the window is the distance to the group's. -/
theorem withinTolerance_eq_false_of_le (g : CommandAckGroup Key Target) {timestamp : ℕ}
    (h : timestamp ≤ g.timestamp) :
    g.withinTolerance timestamp = false ↔ timestamp + g.toleranceMs ≤ g.timestamp := by
  simp only [withinTolerance, decide_eq_false_iff_not]
  split_ifs <;> omega

section Calls

variable [DecidableEq Key]

/-- Record the id a connection reported for the active group. -/
def recordId (ids : Key → Option ℕ) (d : Delivery Key Target) : Key → Option ℕ :=
  if d.serverCommandId ≠ 0 then Function.update ids d.connectionKey (some d.serverCommandId)
  else ids

/-- Another copy of the active command: answer it, or keep it until the outcome is known. -/
def joinGroup (g : CommandAckGroup Key Target) (d : Delivery Key Target) :
    CommandAckGroup Key Target × DeliveryResult Target :=
  let ids := recordId g.lastIdByConnection d
  match g.resolution with
  | some resolution =>
    ({ g with lastIdByConnection := ids },
      { disposition := .alreadyResolved, resolution := some resolution })
  | none =>
    ({ g with lastIdByConnection := ids, pending := g.pending ++ [d.copy] },
      { disposition := .pending })

/-- A new logical command: hand back the copies of the displaced one. -/
def openGroup (g : CommandAckGroup Key Target) (d : Delivery Key Target) :
    CommandAckGroup Key Target × DeliveryResult Target :=
  ({ toleranceMs := g.toleranceMs
     active := true
     epoch := g.epoch + 1
     command := d.command
     payload := d.payload
     timestamp := d.timestamp
     pending := [d.copy]
     resolution := none
     lastIdByConnection := recordId (fun _ => none) d },
    { disposition := .actuate, epoch := g.epoch + 1, superseded := g.pending })

/-- Decide one delivery. -/
def onDelivery (g : CommandAckGroup Key Target) (d : Delivery Key Target) :
    CommandAckGroup Key Target × DeliveryResult Target :=
  if g.active && g.sameLogicalCommand d && !g.deliberateRetry d &&
      g.withinTolerance d.timestamp then
    g.joinGroup d
  else if g.active && !g.sameLogicalCommand d && !g.deliberateRetry d &&
      decide (d.timestamp < g.timestamp) then
    (g, { disposition := .staleSuperseded })
  else g.openGroup d

/-- The outcome of the command opened at an epoch; a displaced command's is dropped. -/
def resolve (g : CommandAckGroup Key Target) (epoch : ℕ) (res : FssCommandResolution) :
    CommandAckGroup Key Target × List Target :=
  if g.epoch ≠ epoch then (g, [])
  else ({ g with resolution := some res, pending := [] }, g.pending)

/-- The calls made on a group. -/
inductive Event (Key Target : Type*)
  | deliver (d : Delivery Key Target)
  | resolve (epoch : ℕ) (res : FssCommandResolution)

/-- The group after a call; an outcome only arrives for a command that was opened. -/
def step (g : CommandAckGroup Key Target) :
    Event Key Target → Option (CommandAckGroup Key Target)
  | .deliver d => some (g.onDelivery d).1
  | .resolve epoch res => if 1 ≤ epoch ∧ epoch ≤ g.epoch then some (g.resolve epoch res).1 else none

section Decision

variable (g : CommandAckGroup Key Target) (d : Delivery Key Target)

/-- A delivery is another copy of the active command, a stale one, or opens a group. -/
theorem onDelivery_cases :
    (g.active = true ∧ g.sameLogicalCommand d = true ∧ g.deliberateRetry d = false ∧
        g.withinTolerance d.timestamp = true ∧ g.onDelivery d = g.joinGroup d) ∨
      (g.active = true ∧ g.sameLogicalCommand d = false ∧ g.deliberateRetry d = false ∧
        d.timestamp < g.timestamp ∧ g.onDelivery d = (g, { disposition := .staleSuperseded })) ∨
      (¬ (g.active = true ∧ g.sameLogicalCommand d = true ∧ g.deliberateRetry d = false ∧
          g.withinTolerance d.timestamp = true) ∧
        ¬ (g.active = true ∧ g.sameLogicalCommand d = false ∧ g.deliberateRetry d = false ∧
          d.timestamp < g.timestamp) ∧ g.onDelivery d = g.openGroup d) := by
  unfold onDelivery
  split_ifs with hjoin hstale
  · left
    simpa [and_assoc] using hjoin
  · right; left
    simpa [and_assoc] using hstale
  · right; right
    simp only [Bool.and_eq_true, Bool.not_eq_true', decide_eq_true_eq] at hjoin hstale
    exact ⟨fun h => hjoin ⟨⟨⟨h.1, h.2.1⟩, h.2.2.1⟩, h.2.2.2⟩,
      fun h => hstale ⟨⟨⟨h.1, h.2.1⟩, h.2.2.1⟩, h.2.2.2⟩, rfl⟩

/-- A copy of the active command is never answered with an actuation. -/
theorem joinGroup_disposition : (g.joinGroup d).2.disposition ≠ .actuate := by
  unfold joinGroup
  cases g.resolution <;> simp

/-- Opening a group is answered with an actuation. -/
theorem openGroup_disposition : (g.openGroup d).2.disposition = .actuate := rfl

/-- A copy of the active command only adds to the pending copies and the recorded ids. -/
theorem joinGroup_fst : (g.joinGroup d).1 =
    { g with
      lastIdByConnection := recordId g.lastIdByConnection d
      pending := (g.joinGroup d).1.pending } := by
  unfold joinGroup
  split
  next h => simp only [h]
  next h => simp only [h]

omit [DecidableEq Key] in
/-- An outcome leaves the identity of the active command and the recorded ids alone. -/
theorem resolve_fst (epoch : ℕ) (res : FssCommandResolution) : (g.resolve epoch res).1 =
    { g with
      resolution := (g.resolve epoch res).1.resolution
      pending := (g.resolve epoch res).1.pending } := by
  unfold resolve
  split_ifs <;> rfl

end Decision

end Calls

end CommandAckGroup

end CapFmu
