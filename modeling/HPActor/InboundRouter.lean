/-
`InboundFrameRouter::on_frame`: which component a decoded frame goes to, and
the ordinary data path into the delivery pipeline.
-/
import HPActor.DeliveryPipeline

namespace HPActor

/-- A data frame, with its addresses already read from the wire. -/
structure ActorMsgFrame where
  sender : ActorAddress := {}
  receiver : ActorAddress := {}
  typeTag : UInt32 := 0
  messageId : UInt64 := 0
  flags : UInt32 := 0
  payload : List UInt8 := []

structure BatchEntry where
  typeTag : UInt32 := 0
  messageId : UInt64 := 0
  flags : UInt32 := 0
  payload : List UInt8 := []

structure BatchFrame where
  sender : ActorAddress := {}
  receiver : ActorAddress := {}
  entries : List BatchEntry := []

inductive StreamKind where
  | streamOpen
  | streamData
  | streamAck
  | streamClose
  | streamError
deriving Repr, DecidableEq

inductive FramePayload where
  | data (frame : ActorMsgFrame)
  | ack (messageId : UInt64) (sender : ActorAddress)
  | nack (messageId : UInt64) (sender : ActorAddress) (reason : UInt32) (retryAfterMs : UInt32)
  | batch (frame : BatchFrame)
  | stream (kind : StreamKind)
  | unknown

namespace FrameFlag

def rpcResponse : UInt32 := 0x08
def ackRequested : UInt32 := 0x20
def ackResponse : UInt32 := 0x40

end FrameFlag

def hasFlag (flags bit : UInt32) : Bool := decide (flags &&& bit ≠ 0)

def isPythonBindingControlTag (tag : UInt32) : Bool :=
  decide (0xF0 ≤ tag) && decide (tag ≤ 0xF3)

def isNameProtocolTag (tag : UInt32) : Bool :=
  decide (0x80 ≤ tag) && decide (tag ≤ 0x84)

inductive FrameDispatchCode where
  | actorDelivered
  | actorRejected
  | batchDelivered
  | batchPartiallyDelivered
  | rpcResponseHandled
  | reliableAckHandled
  | reliableNackHandled
  | backpressureHandled
  | streamHandled
  | unsupportedPayload
  | invalidFlags
  | invalidControlPayload
  | runtimeStopping
deriving Repr, DecidableEq

structure FrameDispatchResult where
  code : FrameDispatchCode := .actorDelivered
  detailCode : Nat := 0
  acceptedCount : Nat := 0
  rejectedCount : Nat := 0

/-- The number of a result code, as `detail_code` reports it. -/
def EnqueueResultCode.number : EnqueueResultCode → Nat
  | .accepted => 0
  | .acceptedWithSoftPressure => 1
  | .rejected => 2
  | .droppedNewest => 3
  | .droppedExisting => 4
  | .reroutedToDeadLetter => 5
  | .reroutedToOverflow => 6
  | .mailboxClosed => 7
  | .actorNotFound => 8
  | .endpointBackpressure => 9
  | .endpointCircuitOpen => 10
  | .circuitOpen => 11

inductive AckStatus where
  | accepted
  | rejected

structure AckEmitDecision where
  shouldEmit : Bool := false
  status : AckStatus := .accepted
  retryAfterMs : Nat := 0

def computeAckEmission (result : EnqueueResult) (ackRequested : Bool) : AckEmitDecision :=
  if ¬ ackRequested then {}
  else if result.accepted then { shouldEmit := true }
  else
    { shouldEmit := true
      status := .rejected
      retryAfterMs := if result.code = .rejected then result.retryAfterMs else 0 }

/-- A call of the port that sends acknowledgements. -/
structure AckEmission where
  sender : ActorAddress
  receiver : ActorAddress
  messageId : UInt64
  status : AckStatus
  retryAfterMs : Nat

/-- What the stream runtime reports about a frame. -/
structure StreamDispatch where
  code : Nat
  acceptedCount : Nat
  rejectedCount : Nat

/-- The collaborators: the name port by the tags it is active for, the stream
runtime by what it answers to its n-th frame. -/
structure RouterSetup where
  pipeline : PipelineSetup
  maxBatchEntries : UInt32 := 1024
  nameHandlers : UInt32 → Bool := fun _ => false
  reliableAck : Bool := false
  streams : Nat → StreamKind → StreamDispatch := fun _ _ => ⟨0, 0, 0⟩

/-- The router, and what it has handed to the other components. -/
structure Router where
  pipeline : Pipeline
  accepting : Bool := true
  rpcResponses : List (UInt64 × List UInt8) := []
  reliableAcks : List (UInt64 × EndPoint) := []
  reliableNacks : List (UInt64 × EndPoint × UInt32 × Nat) := []
  backpressureFrames : List ActorMsgFrame := []
  nameFrames : List ActorMsgFrame := []
  ackEmissions : List AckEmission := []
  streamFrames : Nat := 0

namespace Router

/-- The little-endian word at the front of a payload, if it is long enough. -/
def leadingWord (payload : List UInt8) : Nat :=
  if payload.length < 4 then 0
  else ((payload.take 4).map UInt8.toNat).foldr (fun b acc => b + 256 * acc) 0

/-- The message a frame carries. -/
def messageOf (sender : ActorAddress) (typeTag : UInt32) (messageId : UInt64)
    (payload : List UInt8) (ackRequested : Bool) : TypedMessage where
  typeId := ⟨typeTag⟩
  payload := payload
  senderAddress := sender
  ackRequested := ackRequested
  messageId := messageId

/-- The options under which a frame's message is delivered. -/
def optionsOf (tracked : Bool) (messageId : UInt64) : DeliveryOptions :=
  if tracked then { messageId := messageId, deliveryMode := .atLeastOnce }
  else {}

/-- The call both data paths make: priority 0 and deadline 0. -/
def deliveryOf (receiver : ActorAddress) (msg : TypedMessage)
    (options : DeliveryOptions) (clock : ClockReadings) : Delivery where
  target := receiver.id
  msg := msg
  priority := 0
  deadlineNs := 0
  options := options
  clock := clock

variable (s : RouterSetup) (r : Router)

/-- Acknowledge a message whose sender asked for it. -/
def emitAck (data : ActorMsgFrame) (decision : AckEmitDecision) : Router :=
  if s.reliableAck ∧ decision.shouldEmit then
    { r with
      ackEmissions := r.ackEmissions ++
        [{ sender := data.sender
           receiver := data.receiver
           messageId := data.messageId
           status := decision.status
           retryAfterMs := decision.retryAfterMs }] }
  else r

/-- The delivery `deliver_ordinary_data` makes of a frame. -/
def ordinaryDelivery (data : ActorMsgFrame) (clock : ClockReadings) : Delivery :=
  deliveryOf data.receiver
    (messageOf data.sender data.typeTag data.messageId data.payload
      (hasFlag data.flags FrameFlag.ackRequested))
    (optionsOf (hasFlag data.flags FrameFlag.ackRequested && data.messageId != 0) data.messageId)
    clock

def deliverOrdinaryData (clock : ClockReadings)
    (data : ActorMsgFrame) : Router × FrameDispatchResult :=
  if isPythonBindingControlTag data.typeTag then
    (r,
      { code := .invalidControlPayload
        detailCode := data.typeTag.toNat })
  else
    let delivered :=
      r.pipeline.tryDeliver s.pipeline (ordinaryDelivery data clock)
    let answered := { r with pipeline := delivered.1 }.emitAck s data
      (computeAckEmission delivered.2 (hasFlag data.flags FrameFlag.ackRequested))
    (answered,
      if delivered.2.accepted then
        { code := .actorDelivered }
      else
        { code := .actorRejected
          detailCode := delivered.2.code.number })

/-- The order of the checks is the source's: the double acknowledgement flag is
tested before the single ones. -/
def routeDataPayload (clock : ClockReadings)
    (data : ActorMsgFrame) : Router × FrameDispatchResult :=
  let rpc := hasFlag data.flags FrameFlag.rpcResponse
  let ackReq := hasFlag data.flags FrameFlag.ackRequested
  let ackResp := hasFlag data.flags FrameFlag.ackResponse
  if rpc && (ackReq || ackResp) then
    (r, { code := .invalidFlags })
  else if rpc then
    ({ r with rpcResponses := r.rpcResponses ++ [(data.messageId, data.payload)] },
      { code := .rpcResponseHandled })
  else if ackReq && ackResp then
    ({ r with
        reliableAcks := r.reliableAcks ++ [(data.messageId, data.sender.endpoint)] },
      { code := .reliableAckHandled })
  else if ackResp then
    ({ r with
        reliableNacks := r.reliableNacks ++
          [(data.messageId, data.sender.endpoint, data.typeTag, leadingWord data.payload)] },
      { code := .reliableNackHandled })
  else if TypeTag.mk data.typeTag = .backpressureSignalTag then
    ({ r with backpressureFrames := r.backpressureFrames ++ [data] },
      { code := .backpressureHandled })
  else if isNameProtocolTag data.typeTag && s.nameHandlers data.typeTag then
    ({ r with nameFrames := r.nameFrames ++ [data] },
      { code := .actorRejected })
  else r.deliverOrdinaryData s clock data

/-- The loop of `route_batch` over the entries that are left. -/
def routeEntries (s : RouterSetup) (clocks : Nat → ClockReadings) (batch : BatchFrame) :
    Router → Nat → Nat → List BatchEntry → Router × FrameDispatchResult
  | r, accepted, rejected, [] =>
    (r,
      if rejected = 0 ∧ 0 < accepted then
        { code := .batchDelivered
          acceptedCount := accepted }
      else if 0 < accepted then
        { code := .batchPartiallyDelivered
          acceptedCount := accepted
          rejectedCount := rejected }
      else { code := .actorRejected })
  | r, accepted, rejected, entry :: rest =>
    if isPythonBindingControlTag entry.typeTag then
      (r,
        { code := .invalidControlPayload
          detailCode := entry.typeTag.toNat })
    else
      let delivered := r.pipeline.tryDeliver s.pipeline
        (deliveryOf batch.receiver
          (messageOf batch.sender entry.typeTag entry.messageId entry.payload false)
          (optionsOf (hasFlag entry.flags FrameFlag.ackRequested) entry.messageId)
          (clocks (accepted + rejected)))
      if delivered.2.accepted then
        routeEntries s clocks batch { r with pipeline := delivered.1 } (accepted + 1) rejected rest
      else
        routeEntries s clocks batch { r with pipeline := delivered.1 } accepted (rejected + 1) rest

def routeBatch (clocks : Nat → ClockReadings) (batch : BatchFrame) : Router × FrameDispatchResult :=
  if s.maxBatchEntries.toNat < batch.entries.length then
    (r, { code := .invalidFlags })
  else routeEntries s clocks batch r 0 0 batch.entries

/-- A stream frame's report; that of an acknowledgement has no counts. -/
def streamResult (kind : StreamKind) (report : StreamDispatch) : FrameDispatchResult where
  code := .streamHandled
  detailCode := report.code
  acceptedCount := if kind = .streamAck then 0 else report.acceptedCount
  rejectedCount := if kind = .streamAck then 0 else report.rejectedCount

/-- `clocks n` are the clock readings of the n-th delivery the frame leads
to. -/
def onFrame (clocks : Nat → ClockReadings)
    (payload : FramePayload) : Router × FrameDispatchResult :=
  if ¬ r.accepting then
    (r, { code := .runtimeStopping })
  else
    match payload with
    | .data frame => r.routeDataPayload s (clocks 0) frame
    | .ack messageId sender =>
      ({ r with
          reliableAcks := r.reliableAcks ++ [(messageId, sender.endpoint)] },
        { code := .reliableAckHandled })
    | .nack messageId sender reason retryAfterMs =>
      ({ r with
          reliableNacks := r.reliableNacks ++
            [(messageId, sender.endpoint, reason, retryAfterMs.toNat)] },
        { code := .reliableNackHandled })
    | .batch frame => r.routeBatch s clocks frame
    | .stream kind =>
      ({ r with streamFrames := r.streamFrames + 1 },
        streamResult kind (s.streams r.streamFrames kind))
    | .unknown =>
      (r, { code := .unsupportedPayload })

end Router

end HPActor
