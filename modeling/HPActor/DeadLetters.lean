/-
The dead-letter queue: a bounded queue of records about messages that were not
delivered, and the policy that decides which messages get a record.
-/
import HPActor.Message

namespace HPActor

inductive DeadLetterReason where
  | actorNotFound
  | overflowPolicy
  | expired
  | endpointCircuitOpen

inductive DeadLetterSource where
  | localDelivery
  | mailboxAdmission

structure DeadLetterRecord where
  reason : DeadLetterReason := .actorNotFound
  source : DeadLetterSource := .localDelivery
  sender : ActorAddress := {}
  target : ActorAddress := {}
  typeTag : TypeTag := .invalid
  messageId : UInt64 := 0
  frameFlags : UInt32 := 0
  priority : UInt8 := 0
  deadlineNs : Int := int64Max
  payloadSize : UInt32 := 0
  payloadSample : List UInt8 := []
  mailboxDepth : Nat := 0
  mailboxCapacity : UInt32 := 0
  timestampNs : Nat := 0

inductive DeadLetterOverflowPolicy where
  | dropOldestRecord
  | dropNewestRecord
  | metadataOnly

inductive DeadLetterRoutingPolicy where
  | never
  | trackedOnly
  | observableAndAbove
  | always

def shouldRouteToDlq (mode : DeliveryMode) : DeadLetterRoutingPolicy → Bool
  | .never => false
  | .always => true
  | .trackedOnly => isTrackedDelivery mode
  | .observableAndAbove => decide (mode ≠ .bestEffort)

structure DeadLetterConfig where
  enabled : Bool := true
  capacity : UInt32 := 4096
  maxPayloadSampleBytes : UInt32 := 512
  overflowPolicy : DeadLetterOverflowPolicy := .dropOldestRecord
  storePayload : Bool := true
  routingPolicy : DeadLetterRoutingPolicy := .always

structure DeadLetterQueue where
  config : DeadLetterConfig := {}
  records : List DeadLetterRecord := []
  totalPushed : Nat := 0
  totalPopped : Nat := 0
  totalLost : Nat := 0

namespace DeadLetterQueue

variable (q : DeadLetterQueue)

/-- The payload sample is cut to what the configuration keeps. -/
def trimPayload (record : DeadLetterRecord) : DeadLetterRecord :=
  { record with
    payloadSize := .ofNat record.payloadSample.length
    payloadSample :=
      if ¬ q.config.storePayload then []
      else record.payloadSample.take q.config.maxPayloadSampleBytes.toNat }

def pushBack (record : DeadLetterRecord) : DeadLetterQueue :=
  { q with
    records := q.records ++ [record]
    totalPushed := q.totalPushed + 1 }

def dropOldest : DeadLetterQueue :=
  { q with records := q.records.tail, totalLost := q.totalLost + 1 }

def tryPush (record : DeadLetterRecord) : DeadLetterQueue :=
  if ¬ q.config.enabled then q
  else
    let trimmed := q.trimPayload record
    if q.config.capacity.toNat ≤ q.records.length then
      match q.config.overflowPolicy with
      | .dropOldestRecord => q.dropOldest.pushBack trimmed
      | .dropNewestRecord => { q with totalLost := q.totalLost + 1 }
      | .metadataOnly =>
        q.dropOldest.pushBack { trimmed with payloadSample := [] }
    else q.pushBack trimmed

end DeadLetterQueue

end HPActor
