/-
The actor mailbox as a sequential object.  Each entry point of the source is a
function on the mailbox state; the collaborators that may decide differently on
every call, the admission chain and the rate limiter, are given by what they
answer at their n-th consultation.
-/
import HPActor.MailboxParts

namespace HPActor

inductive AdmissionDecision where
  | accept
  | reject
  | rerouteToDLQ
deriving Repr, DecidableEq

/-- Zero messages of capacity are read as the default capacity. -/
def MailboxConfig.clamped (config : MailboxConfig) : MailboxConfig :=
  if config.capacity.maxMessages = 0 then
    { config with capacity := { config.capacity with maxMessages := 1024 } }
  else config

theorem MailboxConfig.clamped_pos (config : MailboxConfig) :
    0 < config.clamped.capacity.maxMessages := by
  unfold clamped
  split
  · exact (by decide : (0 : UInt32) < 1024)
  · rename_i hne
    exact UInt32.pos_iff_ne_zero.mpr hne

/-- What is fixed while a mailbox is in use. -/
structure MailboxSetup where
  config : MailboxConfig
  max_pos : 0 < config.capacity.maxMessages
  actorId : UInt64
  sizeofTypedMessage : Nat
  admissionPolicies : Option (Nat → TypedMessage → MailboxEnvelopeMeta → Nat → AdmissionDecision)
  rateLimiter : Option (Nat → Bool)

namespace MailboxSetup

/-- The setup the constructor makes of a configuration. -/
def ofConfig (config : MailboxConfig) (actorId : UInt64)
    (sizeofTypedMessage : Nat) : MailboxSetup where
  config := config.clamped
  max_pos := config.clamped_pos
  actorId := actorId
  sizeofTypedMessage := sizeofTypedMessage
  admissionPolicies := none
  rateLimiter := none

/-- `estimate_node_bytes` of a message. -/
def bytes (s : MailboxSetup) (msg : TypedMessage) : Nat :=
  msg.bytes s.sizeofTypedMessage

end MailboxSetup

/-- A notification the mailbox sends to the scheduler. -/
inductive Wakeup where
  | fast (priority : UInt8) (deadlineNs : Int)
  | edf (priority : UInt8) (deadlineNs : Int)
  | self

/-- `systemWrapped` is the ghost companion of `systemLaneReserved`, as
`ReservationManager.wrapped` is of the user ledger. -/
structure Mailbox where
  lanes : MultiLaneQueue TypedMessage
  overflow : OverflowQueue TypedMessage
  reservation : ReservationManager := {}
  systemLaneReserved : UInt32 := 0
  systemWrapped : Bool := false
  systemLaneBytes : UInt64 := 0
  mailboxWasEmpty : Bool := true
  pressureState : MailboxPressureState := .normal
  wakeups : List Wakeup := []
  totalEnqueued : Nat := 0
  totalDequeued : Nat := 0
  totalRejected : Nat := 0
  totalDropped : Nat := 0
  totalDeadLetters : Nat := 0
  admissionRejectedTotal : Nat := 0
  maxDepth : Nat := 0
  admissionEvaluations : Nat := 0
  tokenRequests : Nat := 0

namespace Mailbox

def fresh (s : MailboxSetup) : Mailbox where
  lanes := .fresh s.config.priorityLevels
  overflow := { maxDepth := s.config.maxOverflowDepth }

variable (s : MailboxSetup) (mb : Mailbox)

def setLanes (lanes : MultiLaneQueue TypedMessage) : Mailbox :=
  { mb with lanes := lanes }

def setReservation (reservation : ReservationManager) : Mailbox :=
  { mb with reservation := reservation }

def setWasEmpty (value : Bool) : Mailbox :=
  { mb with mailboxWasEmpty := value }

def popOverflow (rest : List TypedMessage) : Mailbox :=
  { mb with overflow := mb.overflow.popTo rest }

def pushOverflow (msg : TypedMessage) : Mailbox :=
  { mb with overflow := mb.overflow.tryPush msg }

def pressureRatio : ℚ :=
  let countRatio : ℚ :=
    mb.lanes.userDepth / s.config.capacity.maxMessages.toNat
  let byteRatio : ℚ :=
    if 0 < s.config.capacity.maxBytes then
      (mb.reservation.queuedBytes + mb.systemLaneBytes).toNat / s.config.capacity.maxBytes.toNat
    else 0
  if byteRatio < countRatio then countRatio else byteRatio

def updatePressureState (hardFailure : Bool) : Mailbox :=
  { mb with
    pressureState :=
      PressureStateMachine.nextState (mb.pressureRatio s) hardFailure
        s.config.highWatermark s.config.lowWatermark
        s.config.criticalWatermark mb.pressureState }

/-- The backoff suggested in a pressure state. -/
def retryAfterMs : MailboxPressureState → Nat
  | .hardPressure => s.config.signalMinIntervalMs.toNat * 2
  | .softPressure | .recovering => s.config.signalMinIntervalMs.toNat
  | .normal => 0

/-- The result fields every exit of `try_push` fills in from the state. -/
def stateResult (code : EnqueueResultCode) : EnqueueResult where
  code := code
  target := s.actorId
  depth := mb.lanes.totalDepth
  capacity := s.config.capacity.maxMessages
  bytes := mb.reservation.queuedBytes
  byteCapacity := s.config.capacity.maxBytes
  pressureRatio := mb.pressureRatio s
  pressureState := mb.pressureState

def makeResult (code : EnqueueResultCode) : EnqueueResult :=
  { mb.stateResult s code with
    retryAfterMs := retryAfterMs s mb.pressureState }

/-- The result of an accepted push. -/
def acceptResult : EnqueueResult :=
  mb.makeResult s (PressureStateMachine.codeAfterAccept mb.pressureState)

def routeLane (envelope : MailboxEnvelopeMeta) : LaneIdx :=
  if isSystemMessage envelope.typeTag then .system
  else if s.config.priorityAware then
    .user ⟨min envelope.priority.toNat (mb.lanes.numUserLanes - 1), by
      have hone := mb.lanes.one_le
      have hmax := mb.lanes.le_max
      omega⟩
  else .user 0

def wakeupFor (envelope : MailboxEnvelopeMeta) : Wakeup :=
  if envelope.scheduleEdf = true ∧ envelope.deadlineNs ≠ int64Max then
    .edf envelope.priority envelope.deadlineNs
  else
    .fast envelope.priority envelope.deadlineNs

/-- The edge-triggered wakeup: only the caller that turns the flag from true
to false notifies the scheduler. -/
def claimWakeup (wakeup : Wakeup) : Mailbox :=
  if mb.mailboxWasEmpty then
    { mb with mailboxWasEmpty := false, wakeups := mb.wakeups ++ [wakeup] }
  else mb

def updateMaxDepth : Mailbox :=
  { mb with maxDepth := max mb.maxDepth mb.lanes.totalDepth }

def enqueueReserved (node : TypedMessage) (envelope : MailboxEnvelopeMeta) (lane : LaneIdx)
    (suppressWakeup : Bool) : Mailbox :=
  let stored :=
    { mb with
      lanes := mb.lanes.enqueue node lane
      totalEnqueued := mb.totalEnqueued + 1 }
  let pressed := (stored.updateMaxDepth).updatePressureState s false
  if suppressWakeup then pressed else pressed.claimWakeup (wakeupFor envelope)

def tryReserve (s : MailboxSetup) (mb : Mailbox) (bytes : Nat) : ReservationResult × Mailbox :=
  let (result, reservation) :=
    mb.reservation.tryReserve (.ofNat bytes) s.config.capacity.maxMessages
      s.config.capacity.maxBytes
  (result, mb.setReservation reservation)

/-- The common body of the two evictions: account for the node that was taken
out of the user lanes, if there was one. -/
def dropTaken : Option (TypedMessage × MultiLaneQueue TypedMessage) → Bool × Mailbox
  | none => (false, mb)
  | some (node, lanes) =>
    let dropped :=
      { mb with
        lanes := lanes
        reservation := mb.reservation.release (.ofNat (s.bytes node))
        totalDropped := mb.totalDropped + 1 }
    let pressed := dropped.updatePressureState s false
    (true,
      if pressed.lanes.empty then pressed.setWasEmpty true else pressed)

def dropOneOldestGlobal : Bool × Mailbox :=
  mb.dropTaken s mb.lanes.tryDropOldestUserLane

def dropOneLowestPriority : Bool × Mailbox :=
  mb.dropTaken s mb.lanes.tryDropFromLowestUserLane

/-- The result an overflow handler builds: depth and bytes as they were when
the reservation failed. -/
def overflowResult (code : EnqueueResultCode) (reason : BackpressureReason) : EnqueueResult where
  code := code
  target := s.actorId
  depth := mb.lanes.totalDepth
  capacity := s.config.capacity.maxMessages
  bytes := mb.reservation.queuedBytes
  byteCapacity := s.config.capacity.maxBytes
  pressureReason := reason

def capacityReason : ReservationResult → BackpressureReason
  | .byteCapacity => .byteCapacity
  | _ => .hardCapacity

def rejectOverflow (seen mb : Mailbox) (refusal : ReservationResult) : Mailbox × EnqueueResult :=
  ({ mb with totalRejected := mb.totalRejected + 1 },
    seen.overflowResult s .rejected (capacityReason refusal))

/-- The two evicting handlers differ only in which eviction they call. -/
def evictOverflow (refusal : ReservationResult) (evicted : Bool × Mailbox) :
    Mailbox × EnqueueResult :=
  if evicted.1 then
    (evicted.2, mb.overflowResult s .droppedExisting .overflowPolicy)
  else rejectOverflow s mb evicted.2 refusal

/-- `IOverflowHandler::handle` for the configured policy. -/
def handleOverflow (msg : TypedMessage) (refusal : ReservationResult) : Mailbox × EnqueueResult :=
  match s.config.overflowPolicy with
  | .rejectNewest | .blockWhenAllowed => rejectOverflow s mb mb refusal
  | .signalOnly =>
    let (rejected, result) := rejectOverflow s mb mb refusal
    (rejected,
      { result with retryAfterMs := s.config.signalMinIntervalMs.toNat })
  | .dropNewest =>
    ({ mb with totalDropped := mb.totalDropped + 1 },
      mb.overflowResult s .droppedNewest .overflowPolicy)
  | .dropOldest => evictOverflow s mb refusal (mb.dropOneOldestGlobal s)
  | .dropLowestPriority =>
    evictOverflow s mb refusal (mb.dropOneLowestPriority s)
  | .deadLetter =>
    ({ mb with totalDeadLetters := mb.totalDeadLetters + 1 },
      mb.overflowResult s .reroutedToDeadLetter .overflowPolicy)
  | .spillToOverflowQueue =>
    (mb.pushOverflow msg, mb.overflowResult s .reroutedToOverflow (capacityReason refusal))

/-- The pressure fields `try_push` adds to a handler's result. -/
def withPressure (result : EnqueueResult) : EnqueueResult :=
  { result with
    pressureState := mb.pressureState
    pressureRatio := mb.pressureRatio s
    retryAfterMs :=
      if result.retryAfterMs = 0 then retryAfterMs s mb.pressureState
      else result.retryAfterMs }

/-- After an eviction the reservation is tried once more. -/
def retryEvicted (msg : TypedMessage) (envelope : MailboxEnvelopeMeta) (lane : LaneIdx)
    (result : EnqueueResult) : Mailbox × EnqueueResult :=
  match mb.tryReserve s (s.bytes msg) with
  | (.reserved, reserved) =>
    let stored := reserved.enqueueReserved s msg envelope lane false
    (stored, stored.acceptResult s)
  | (_, refused) =>
    let rejected := { refused with totalRejected := refused.totalRejected + 1 }
    (rejected.updatePressureState s true, { result with code := .rejected })

def pushUser (msg : TypedMessage) (envelope : MailboxEnvelopeMeta) (lane : LaneIdx) :
    Mailbox × EnqueueResult :=
  match mb.tryReserve s (s.bytes msg) with
  | (.reserved, reserved) =>
    let stored := reserved.enqueueReserved s msg envelope lane false
    (stored, stored.acceptResult s)
  | (refusal, refused) =>
    let handled :=
      (refused.updatePressureState s true).handleOverflow s msg refusal
    let result := handled.1.withPressure s handled.2
    if result.code = .droppedExisting then
      handled.1.retryEvicted s msg envelope lane result
    else (handled.1, result)

def pushSystem (msg : TypedMessage) (envelope : MailboxEnvelopeMeta) : Mailbox × EnqueueResult :=
  if s.config.protectedSystemMessages ≤ mb.systemLaneReserved then
    let rejected :=
      { mb.updatePressureState s true with
        totalRejected := mb.totalRejected + 1 }
    (rejected, rejected.stateResult s .rejected)
  else
    let reserved :=
      { mb with
        systemLaneReserved := mb.systemLaneReserved + 1
        systemLaneBytes := mb.systemLaneBytes + UInt64.ofNat (s.bytes msg) }
    let stored := reserved.enqueueReserved s msg envelope .system false
    (stored, stored.acceptResult s)

/-- `try_push` behind the admission gate. -/
def pushAdmitted (msg : TypedMessage) (envelope : MailboxEnvelopeMeta) : Mailbox × EnqueueResult :=
  match mb.routeLane s envelope with
  | .system => mb.pushSystem s msg envelope
  | .user lane => mb.pushUser s msg envelope (.user lane)

def tryPush (msg : TypedMessage) (envelope : MailboxEnvelopeMeta) : Mailbox × EnqueueResult :=
  let measured := { envelope with estimatedBytes := s.bytes msg }
  match s.admissionPolicies with
  | none => mb.pushAdmitted s msg measured
  | some evaluate =>
    let asked :=
      { mb with admissionEvaluations := mb.admissionEvaluations + 1 }
    if evaluate mb.admissionEvaluations msg measured mb.lanes.totalDepth = .accept then
      asked.pushAdmitted s msg measured
    else
      ({ asked with
          admissionRejectedTotal := asked.admissionRejectedTotal + 1 },
        asked.stateResult s .rejected)

/-- Store the nodes of a batch; only the first may claim the wakeup. -/
def enqueueAll (s : MailboxSetup) (envelope : MailboxEnvelopeMeta)
    (lane : LaneIdx) : Mailbox → List TypedMessage → Bool → Mailbox
  | mb, [], _ => mb
  | mb, node :: rest, suppressWakeup =>
    enqueueAll s envelope lane (mb.enqueueReserved s node envelope lane suppressWakeup) rest true

/-- Push the messages of a batch one by one; the last result is reported. -/
def tryPushEach (s : MailboxSetup) (envelope : MailboxEnvelopeMeta) :
    Mailbox → EnqueueResult → List TypedMessage → Mailbox × EnqueueResult
  | mb, last, [] => (mb, last)
  | mb, _, msg :: rest =>
    let pushed := mb.tryPush s msg envelope
    tryPushEach s envelope pushed.1 pushed.2 rest

def batchBytes (msgs : List TypedMessage) : Nat :=
  (msgs.map s.bytes).sum

/-- One reservation is made for the whole batch; when it is refused the
messages are pushed individually. -/
def tryPushBatch (msgs : List TypedMessage)
    (envelope : MailboxEnvelopeMeta) : Mailbox × EnqueueResult :=
  match msgs with
  | [] => (mb, mb.acceptResult s)
  | _ :: _ =>
    let measured := { envelope with estimatedBytes := batchBytes s msgs }
    match mb.tryReserve s (batchBytes s msgs) with
    | (.reserved, reserved) =>
      let stored := enqueueAll s measured (reserved.routeLane s measured) reserved msgs false
      (stored, stored.acceptResult s)
    | (_, refused) =>
      tryPushEach s measured (refused.updatePressureState s true) {} msgs

def enqueue (node : TypedMessage) : Mailbox :=
  match mb.tryReserve s (s.bytes node) with
  | (.reserved, reserved) =>
    reserved.enqueueReserved s node { estimatedBytes := s.bytes node } (.user 0) false
  | (_, refused) =>
    { refused.updatePressureState s true with
      totalRejected := refused.totalRejected + 1 }

/-- The loop of `drain_overflow` over the elements still queued. -/
def drainLoop (s : MailboxSetup) : Mailbox → List TypedMessage → Mailbox
  | mb, [] => mb
  | mb, msg :: rest =>
    match (mb.popOverflow rest).tryReserve s (s.bytes msg) with
    | (.reserved, reserved) =>
      drainLoop s
        (reserved.enqueueReserved s msg { estimatedBytes := s.bytes msg } (.user 0) true) rest
    | (_, refused) => refused.pushOverflow msg

def drainOverflow : Mailbox :=
  if s.config.overflowPolicy = .spillToOverflowQueue then
    drainLoop s mb mb.overflow.queue
  else mb

/-- Give back what the consumed node had reserved.  The class is read from the
node, not from the lane it was found in. -/
def releaseNode (node : TypedMessage) : Mailbox :=
  if node.isSystem then
    { mb with
      systemLaneBytes := mb.systemLaneBytes - UInt64.ofNat (s.bytes node)
      systemLaneReserved := mb.systemLaneReserved - 1
      systemWrapped :=
        mb.systemWrapped || decide (mb.systemLaneReserved < 1) }
  else
    { mb with
      reservation := mb.reservation.release (.ofNat (s.bytes node)) }

/-- The double check after the consumer lock is released. -/
def recheckWakeup : Mailbox :=
  if mb.lanes.empty then mb else mb.claimWakeup .self

/-- Whether the rate limiter withholds the node, and the mailbox after it was
asked.  Only user messages are metered. -/
def askLimiter (node : TypedMessage) : Bool × Mailbox :=
  match s.rateLimiter with
  | none => (true, mb)
  | some granted =>
    if node.isSystem then (true, mb)
    else
      (granted mb.tokenRequests,
        { mb with tokenRequests := mb.tokenRequests + 1 })

/-- The consumer's work on a node it may keep. -/
def consumeNode (node : TypedMessage) : Mailbox :=
  let released :=
    { mb.releaseNode s node with totalDequeued := mb.totalDequeued + 1 }
  let pressed := released.updatePressureState s false
  let flagged :=
    if pressed.lanes.empty then pressed else pressed.setWasEmpty false
  flagged.drainOverflow s

def dequeue (s : MailboxSetup) (mb : Mailbox) : Mailbox × Option TypedMessage :=
  let armed := mb.setWasEmpty true
  match armed.lanes.dequeue with
  | none => (armed.recheckWakeup, none)
  | some (node, lanes) =>
    match (armed.setLanes lanes).askLimiter s node with
    | (true, asked) => ((asked.consumeNode s node).recheckWakeup, some node)
    | (false, asked) =>
      ((asked.enqueueReserved s node {} (.user 0) true).setWasEmpty false, none)

/-- `try_pop` hands the dequeued node to the caller by value. -/
def tryPop : Mailbox × Option TypedMessage :=
  mb.dequeue s

end Mailbox

end HPActor
