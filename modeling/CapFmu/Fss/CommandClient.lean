import CapFmu.Fss.CommandAckGroup

/-!
# Handling a command message

The recv thread of a connection confirms a command message, maps it, rejects what cannot be
acted on, and hands the rest to the group. Only the first delivery of a new logical command
is reported to the event loop, after the displaced copies were acknowledged. The numeric
codes of the wire commands belong to the transport library and are a parameter.
-/

namespace CapFmu

/-- The commands a server can put on the wire; any unrecognised one is `unknown`. -/
inductive AssetCommand
  | rtl
  | disarm
  | goto
  | altitude
  | hold
  | resume
  | terminate
  | manual
  | unknown
  deriving DecidableEq, Repr

/-- The fields of a command message that its handler reads. -/
structure AssetCommandMessage where
  id : ℕ := 0
  command : AssetCommand
  timestamp : ℕ
  latitude : Numeric.Double := .finite 0
  longitude : Numeric.Double := .finite 0
  altitude : UInt32 := 0
  serverCommandId : ℕ := 0
  deriving DecidableEq

/-- One copy of a command that is to be acknowledged on the connection it came from. -/
structure PendingCommandAck (Conn : Type*) where
  conn : Conn
  ackedId : ℕ
  rawCommand : AssetCommand
  deriving DecidableEq

/-- The outcomes of an acknowledgement. -/
inductive AckOutcome
  | received
  | rejected
  | actioned
  | noop
  | superseded
  deriving DecidableEq, Repr

/-- The reasons of an acknowledgement. -/
inductive AckReason
  | supersedeNone
  | supersedeLowBattery
  | supersedeCommsLoss
  | supersedeNewerCommand
  deriving DecidableEq, Repr

/-- An acknowledgement handed to the connection of its copy. -/
structure CommandAck (Conn : Type*) where
  copy : PendingCommandAck Conn
  outcome : AckOutcome
  reason : AckReason := .supersedeNone
  deriving DecidableEq

/-- The outcome acknowledged for a resolved command. -/
def fssCommandAckOutcomeFor (res : FssCommandResolution) : AckOutcome :=
  if res.outcome = .superseded then .superseded
  else if res.transitioned then .actioned
  else .noop

/-- The reason acknowledged for a resolved command. -/
def fssCommandAckReasonFor (res : FssCommandResolution) : AckReason :=
  match res.outcome, res.supersedingState with
  | .superseded, some .lowBattery => .supersedeLowBattery
  | .superseded, some .failsafe => .supersedeCommsLoss
  | _, _ => .supersedeNone

/-- Acknowledge the outcome of a resolved command to one copy. -/
def ackPending {Conn : Type*} (res : FssCommandResolution) (copy : PendingCommandAck Conn) :
    CommandAck Conn :=
  { copy := copy, outcome := fssCommandAckOutcomeFor res, reason := fssCommandAckReasonFor res }

/-- Acknowledge to one copy that a newer command replaced it. -/
def ackStale {Conn : Type*} (copy : PendingCommandAck Conn) : CommandAck Conn :=
  { copy := copy, outcome := .superseded, reason := .supersedeNewerCommand }

/-- A command on its way to the state machine, with the epoch its responder resolves. -/
structure FssCommandEvent where
  command : FssCommand
  target : FssCommandTarget
  epoch : ℕ
  deriving DecidableEq, Repr

/-- The command the state machine is given, unless it is not actionable. -/
def AssetCommand.toFssCommand : AssetCommand → Option FssCommand
  | .rtl => some .cmdRtl
  | .disarm => some .cmdDisarm
  | .goto => some .cmdGoto
  | .altitude => some .cmdAltitude
  | .hold => some .cmdHold
  | .resume => some .cmdContinue
  | .terminate => some .cmdTerminate
  | .manual => some .cmdManual
  | .unknown => none

namespace AssetCommandMessage

/-- The commanded position. -/
def point (msg : AssetCommandMessage) : Point :=
  { latitude := msg.latitude, longitude := msg.longitude }

/-- The payload the group distinguishes commands by. -/
def payload (msg : AssetCommandMessage) : CommandPayload :=
  match msg.command with
  | .goto => .position msg.latitude msg.longitude
  | .altitude => .altitude msg.altitude.toInt32
  | _ => .none

/-- The target that travels with the command, at full width. -/
def target (msg : AssetCommandMessage) : FssCommandTarget :=
  match msg.command with
  | .goto => { position := msg.point }
  | .altitude => { altitude := msg.altitude }
  | _ => {}

/-- The command to act on: a recognised one, and for a goto a valid position. -/
def actionable (msg : AssetCommandMessage) : Option FssCommand :=
  if msg.command = .goto ∧ msg.point.isValid = false then none else msg.command.toFssCommand

end AssetCommandMessage

section Client

variable {Conn Key : Type*} [DecidableEq Key]

/-- The copy a message stands for. -/
def copyOf (conn : Conn) (msg : AssetCommandMessage) : PendingCommandAck Conn :=
  { conn := conn, ackedId := msg.id, rawCommand := msg.command }

/-- The delivery the group is handed. -/
def deliveryOf (code : AssetCommand → ℤ) (originKey : Conn → Key) (conn : Conn)
    (msg : AssetCommandMessage) : Delivery Key (PendingCommandAck Conn) :=
  { command := code msg.command, timestamp := msg.timestamp, copy := copyOf conn msg,
    payload := msg.payload, serverCommandId := msg.serverCommandId,
    connectionKey := originKey conn }

/-- What handling a message leaves: the group, the acknowledgements sent, and the event that
is still to be reported. -/
structure HandledCommand (Conn Key : Type*) where
  group : CommandAckGroup Key (PendingCommandAck Conn)
  acks : List (CommandAck Conn)
  report : Option FssCommandEvent := none

/-- Handle a message up to, and not including, the report to the event loop. -/
def handleCommandFrom (code : AssetCommand → ℤ) (originKey : Conn → Key)
    (g : CommandAckGroup Key (PendingCommandAck Conn)) (conn : Conn)
    (msg : AssetCommandMessage) : HandledCommand Conn Key :=
  let received : CommandAck Conn := { copy := copyOf conn msg, outcome := .received }
  match msg.actionable with
  | none => { group := g, acks := [received, { copy := copyOf conn msg, outcome := .rejected }] }
  | some command =>
    let answer := g.onDelivery (deliveryOf code originKey conn msg)
    match answer.2.disposition with
    | .pending => { group := answer.1, acks := [received] }
    | .alreadyResolved =>
      { group := answer.1
        acks := received ::
          (answer.2.resolution.map fun res => ackPending res (copyOf conn msg)).toList }
    | .staleSuperseded =>
      { group := answer.1, acks := [received, ackStale (copyOf conn msg)] }
    | .actuate =>
      { group := answer.1
        acks := received :: answer.2.superseded.map ackStale
        report := some { command := command, target := msg.target, epoch := answer.2.epoch } }

/-- Handling a message reports nothing and keeps the epoch, or reports the command that was
just opened under the next epoch. -/
theorem handleCommandFrom_cases (code : AssetCommand → ℤ) (originKey : Conn → Key)
    (g : CommandAckGroup Key (PendingCommandAck Conn)) (conn : Conn) (msg : AssetCommandMessage) :
    ((handleCommandFrom code originKey g conn msg).report = none ∧
        (handleCommandFrom code originKey g conn msg).group.epoch = g.epoch) ∨
      ∃ e, (handleCommandFrom code originKey g conn msg).report = some e ∧
        e.epoch = g.epoch + 1 ∧
        (handleCommandFrom code originKey g conn msg).group.epoch = g.epoch + 1 := by
  unfold handleCommandFrom
  cases msg.actionable with
  | none => exact Or.inl ⟨rfl, rfl⟩
  | some command =>
    obtain ⟨-, -, -, -, h⟩ | ⟨-, -, -, -, h⟩ | ⟨-, -, h⟩ :=
      g.onDelivery_cases (deliveryOf code originKey conn msg)
    · left
      simp only [h]
      cases hdisposition : (g.joinGroup (deliveryOf code originKey conn msg)).2.disposition with
      | actuate => exact absurd hdisposition (g.joinGroup_disposition _)
      | alreadyResolved => exact ⟨rfl, by rw [CommandAckGroup.joinGroup_fst]⟩
      | pending => exact ⟨rfl, by rw [CommandAckGroup.joinGroup_fst]⟩
      | staleSuperseded => exact ⟨rfl, by rw [CommandAckGroup.joinGroup_fst]⟩
    · left
      simp [h]
    · right
      simp only [h]
      exact ⟨_, rfl, rfl, rfl⟩

end Client

end CapFmu
