/-
The values that travel through a mailbox: addresses, type tags, messages and
their envelope metadata, the delivery options a sender sets, the configuration
of a mailbox and the result it reports, and the deadline convention shared by
every stage that looks at a deadline.
-/
import Mathlib.Data.Rat.Defs

namespace HPActor

/-- `INT64_MAX`, the value that stands for "no deadline". -/
def int64Max : Int := 9223372036854775807

inductive EndPoint where
  | ipv4 (addr : UInt32) (port : UInt16)
  | ipv6 (addr : List UInt8) (port : UInt16)
deriving Repr, DecidableEq

structure ActorAddress where
  endpoint : EndPoint := .ipv4 0x7F000001 0
  type : UInt32 := 0
  id : UInt64 := 0
  incarnation : UInt64 := 0
deriving Repr, DecidableEq

/-- A message type tag.  The source enumerates the tags it uses itself; every
other 32-bit value is a tag an application may choose. -/
structure TypeTag where
  value : UInt32
deriving Repr, DecidableEq

namespace TypeTag

def invalid : TypeTag := ⟨0⟩
def backpressureSignalTag : TypeTag := ⟨0x70⟩
def user : TypeTag := ⟨0x1000⟩

end TypeTag

/-- Tags strictly between `Invalid` and `User` belong to the runtime. -/
def isSystemMessage (tag : TypeTag) : Bool :=
  decide (0 < tag.value) && decide (tag.value < TypeTag.user.value)

/-- Failure codes of the runtime, with the numbers the source gives them. -/
inductive FailureReason where
  | noRoute
  | nodeUnavailable
  | remoteUnavailable
  | nodeQuarantined
  | nodeReplaced
  | actorDead
  | actorNotReady
  | quarantined
  | circuitOpen
  | mailboxFull
  | outboundQueueFull
  | memoryPressure
  | resourceExhausted
  | expired
  | timeout
  | rejectedByPolicy
  | dropped
  | mailboxClosed
  | serializationError
  | transportError
  | frameRejected
  | fencingTokenStale
  | duplicate
  | draining
  | shuttingDown
  | retryExhausted
  | cancelled
  | spawnFailed
  | passivationDrainTimeout
  | passivationSnapshotFailed
  | reactivationFailed
  | passivationQueueFull
  | schemaVersionMismatch
  | ringFull
  | ringClosed
  | fixedMessageTooLarge
  | systemLaneFull
  | ringCapacityExceeded
  | unknown
deriving Repr, DecidableEq

/-- The code as it stands in an `error`. -/
def FailureReason.code : FailureReason → UInt32
  | .noRoute => 0
  | .nodeUnavailable => 1
  | .remoteUnavailable => 2
  | .nodeQuarantined => 3
  | .nodeReplaced => 4
  | .actorDead => 10
  | .actorNotReady => 11
  | .quarantined => 12
  | .circuitOpen => 13
  | .mailboxFull => 20
  | .outboundQueueFull => 21
  | .memoryPressure => 22
  | .resourceExhausted => 23
  | .expired => 30
  | .timeout => 31
  | .rejectedByPolicy => 40
  | .dropped => 41
  | .mailboxClosed => 42
  | .serializationError => 50
  | .transportError => 51
  | .frameRejected => 52
  | .fencingTokenStale => 53
  | .duplicate => 60
  | .draining => 70
  | .shuttingDown => 71
  | .retryExhausted => 80
  | .cancelled => 81
  | .spawnFailed => 90
  | .passivationDrainTimeout => 100
  | .passivationSnapshotFailed => 101
  | .reactivationFailed => 102
  | .passivationQueueFull => 103
  | .schemaVersionMismatch => 104
  | .ringFull => 110
  | .ringClosed => 111
  | .fixedMessageTooLarge => 112
  | .systemLaneFull => 113
  | .ringCapacityExceeded => 114
  | .unknown => 255

/-- `ticket` is a ghost field: the number of the delivery the message came
with, which no code reads. -/
structure TypedMessage where
  typeId : TypeTag := .invalid
  payload : List UInt8 := []
  senderAddress : ActorAddress := {}
  deadlineNs : Int := int64Max
  ackRequested : Bool := false
  messageId : UInt64 := 0
  deliveryPriority : UInt8 := 0
  deliveryFlags : UInt32 := 0
  ticket : Nat := 0
deriving Repr, DecidableEq

namespace TypedMessage

/-- The class the consumer side gives a message, from the message itself. -/
def isSystem (msg : TypedMessage) : Bool := isSystemMessage msg.typeId

/-- `estimate_message_bytes`, before it is stored in a 64-bit counter.  The
size of the record itself is fixed by the platform. -/
def bytes (sizeofTypedMessage : Nat) (msg : TypedMessage) : Nat :=
  sizeofTypedMessage + msg.payload.length

end TypedMessage

/-- The metadata a producer hands to a mailbox next to the message. -/
structure MailboxEnvelopeMeta where
  sender : ActorAddress := {}
  typeTag : TypeTag := .invalid
  messageId : UInt64 := 0
  priority : UInt8 := 0
  deadlineNs : Int := int64Max
  flags : UInt32 := 0
  estimatedBytes : Nat := 0
  scheduleEdf : Bool := false
deriving Repr, DecidableEq

inductive DeliveryMode where
  | bestEffort
  | observableBestEffort
  | atLeastOnce
  | durableAtLeastOnce
deriving Repr, DecidableEq

def isTrackedDelivery : DeliveryMode → Bool
  | .bestEffort | .observableBestEffort => false
  | .atLeastOnce | .durableAtLeastOnce => true

structure DeliveryOptions where
  noDrop : Bool := false
  emitBackpressure : Bool := true
  deliveryMode : DeliveryMode := .bestEffort
  messageId : UInt64 := 0
  flags : UInt32 := 0
  scheduleEdf : Bool := false

structure MailboxCapacity where
  maxMessages : UInt32 := 1024
  maxBytes : UInt64 := 0

inductive OverflowPolicy where
  | rejectNewest
  | dropNewest
  | dropOldest
  | dropLowestPriority
  | deadLetter
  | spillToOverflowQueue
  | signalOnly
  | blockWhenAllowed
deriving Repr, DecidableEq

inductive BackpressureMode where
  | disabled
  | localSignal
  | remoteSignal
  | localAndRemoteSignal

/-- Mailbox configuration.  The watermarks are ratios and are taken as
rational numbers. -/
structure MailboxConfig where
  capacity : MailboxCapacity := {}
  priorityLevels : UInt8 := 4
  overflowPolicy : OverflowPolicy := .rejectNewest
  backpressureMode : BackpressureMode := .localAndRemoteSignal
  highWatermark : ℚ := 4 / 5
  lowWatermark : ℚ := 1 / 2
  criticalWatermark : ℚ := 1
  protectedSystemMessages : UInt32 := 32
  maxOverflowDepth : UInt32 := 0
  signalMinIntervalMs : UInt32 := 100
  priorityAware : Bool := false

inductive MailboxPressureState where
  | normal
  | softPressure
  | hardPressure
  | recovering
deriving Repr, DecidableEq

inductive BackpressureReason where
  | highWatermark
  | hardCapacity
  | byteCapacity
  | overflowPolicy
  | nodeMemoryPressure

inductive EnqueueResultCode where
  | accepted
  | acceptedWithSoftPressure
  | rejected
  | droppedNewest
  | droppedExisting
  | reroutedToDeadLetter
  | reroutedToOverflow
  | mailboxClosed
  | actorNotFound
  | endpointBackpressure
  | endpointCircuitOpen
  | circuitOpen
deriving Repr, DecidableEq

/-- What a mailbox reports about one admission attempt. -/
structure EnqueueResult where
  code : EnqueueResultCode := .accepted
  target : UInt64 := 0
  depth : Nat := 0
  capacity : UInt32 := 0
  bytes : UInt64 := 0
  byteCapacity : UInt64 := 0
  pressureReason : BackpressureReason := .highWatermark
  pressureState : MailboxPressureState := .normal
  pressureRatio : ℚ := 0
  retryAfterMs : Nat := 0

namespace EnqueueResult

def accepted (result : EnqueueResult) : Bool :=
  match result.code with
  | .accepted | .acceptedWithSoftPressure | .reroutedToOverflow => true
  | _ => false

def retryable (result : EnqueueResult) : Bool :=
  match result.code with
  | .rejected | .mailboxClosed | .reroutedToOverflow
  | .endpointBackpressure | .circuitOpen => true
  | _ => false

end EnqueueResult

/-- A deadline counts only when it is non-negative and is not `INT64_MAX`. -/
def isExpired (deadlineNs : Int) (nowNs : Nat) : Bool :=
  decide (0 ≤ deadlineNs) && decide (deadlineNs ≠ int64Max) &&
    decide (deadlineNs.toNat < nowNs)

theorem isExpired_iff {deadlineNs : Int} {nowNs : Nat} :
    isExpired deadlineNs nowNs = true ↔
      0 ≤ deadlineNs ∧ deadlineNs ≠ int64Max ∧ deadlineNs < nowNs := by
  simp only [isExpired, Bool.and_eq_true, decide_eq_true_eq]
  omega

end HPActor
