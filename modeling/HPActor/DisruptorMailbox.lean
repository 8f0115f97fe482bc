/-
The mailbox of an actor with a fixed set of message types: one ring per priority
lane, a ledger of reservations in front of the rings, an overflow queue, and two
unbounded side lanes.  Calls are sequential.
-/
import HPActor.DisruptorRing
import HPActor.ActorMailbox

namespace HPActor

universe u

abbrev kMaxPriorityLanes : Nat := 8

structure DisruptorEnvelopeMeta where
  sender : ActorAddress := {}
  deadlineNs : Int := int64Max
  messageId : UInt64 := 0
  enqueueSequence : UInt64 := 0
  priority : UInt8 := 0
deriving Repr, DecidableEq

structure DisruptorMessageEnvelope (M : Type u) where
  message : M
  metadata : DisruptorEnvelopeMeta

/-- What does not change while the mailbox is in use. -/
structure DisruptorSetup where
  cap : RingCapacity
  actorId : UInt64
  config : MailboxConfig
  /-- `sizeof(envelope_type)` -/
  envelopeBytes : UInt64
  protectedSystemMessages : UInt32
  /-- A dispatch target is set. -/
  target : Bool
  limit_pos : 0 < config.capacity.maxMessages
  limit_le : config.capacity.maxMessages.toNat ≤ cap.size
  numUserLanes : Nat
  one_le : 1 ≤ numUserLanes
  le_max : numUserLanes ≤ kMaxPriorityLanes

namespace DisruptorSetup

variable (cap : RingCapacity)

/-- The soft limit is at least one message and at most the ring. -/
def clampMessages (maxMessages : UInt32) : UInt32 :=
  if maxMessages = 0 ∨ UInt32.ofNat cap.size < maxMessages then
    UInt32.ofNat cap.size
  else maxMessages

theorem clampMessages_bounds (maxMessages : UInt32) :
    0 < clampMessages cap maxMessages ∧ (clampMessages cap maxMessages).toNat ≤ cap.size := by
  have htwo := cap.two_le
  have hsize := cap.size_le
  have hword : (UInt32.ofNat cap.size).toNat = cap.size := by
    rw [UInt32.toNat_ofNat']
    omega
  have hzero : (0 : UInt32).toNat = 0 := rfl
  unfold clampMessages
  split
  · rw [UInt32.lt_iff_toNat_lt, hword, hzero]
    omega
  · rename_i hkeep
    rw [not_or, ← UInt32.toNat_inj, UInt32.lt_iff_toNat_lt, hword, hzero] at hkeep
    rw [UInt32.lt_iff_toNat_lt, hzero]
    omega

def clampConfig (config : MailboxConfig) : MailboxConfig :=
  { config with
    capacity := { config.capacity with
      maxMessages := clampMessages cap config.capacity.maxMessages } }

def lanesOf (config : MailboxConfig) : Nat :=
  if config.priorityAware = true ∧ 1 < config.priorityLevels then
    min config.priorityLevels.toNat kMaxPriorityLanes
  else 1

theorem lanesOf_bounds (config : MailboxConfig) :
    1 ≤ lanesOf config ∧ lanesOf config ≤ kMaxPriorityLanes := by
  unfold lanesOf
  split
  · rename_i hlevels
    have hpos := UInt8.lt_iff_toNat_lt.mp hlevels.2
    have hone : (1 : UInt8).toNat = 1 := rfl
    exact ⟨Nat.le_min.mpr ⟨by omega, by decide⟩, Nat.min_le_right _ _⟩
  · exact ⟨Nat.le_refl 1, by decide⟩

/-- The constructor. -/
def ofConfig (actorId : UInt64) (config : MailboxConfig)
    (envelopeBytes : UInt64) (protectedSystemMessages : UInt32)
    (target : Bool) : DisruptorSetup where
  cap := cap
  actorId := actorId
  config := clampConfig cap config
  envelopeBytes := envelopeBytes
  protectedSystemMessages := protectedSystemMessages
  target := target
  limit_pos := (clampMessages_bounds cap config.capacity.maxMessages).1
  limit_le := (clampMessages_bounds cap config.capacity.maxMessages).2
  numUserLanes := lanesOf config
  one_le := (lanesOf_bounds config).1
  le_max := (lanesOf_bounds config).2

variable (s : DisruptorSetup)

theorem lane_lt (priority : UInt8) :
    min priority.toNat (s.numUserLanes - 1) < kMaxPriorityLanes := by
  have hone := s.one_le
  have hmax := s.le_max
  omega

/-- `ring_for`, as the number of the ring. -/
def ringFor (priority : UInt8) : Fin kMaxPriorityLanes :=
  ⟨min priority.toNat (s.numUserLanes - 1), s.lane_lt priority⟩

/-- The lanes in use, highest priority first. -/
def laneOrder : List (Fin kMaxPriorityLanes) :=
  (List.finRange kMaxPriorityLanes).take s.numUserLanes

/-- Messages go to the lanes in use. -/
theorem ringFor_mem (priority : UInt8) : s.ringFor priority ∈ s.laneOrder := by
  have hone := s.one_le
  have hmax := s.le_max
  have hlane := s.lane_lt priority
  have hlength : (List.finRange kMaxPriorityLanes).length =
      kMaxPriorityLanes := List.length_finRange
  refine List.mem_take_iff_getElem.mpr ⟨min priority.toNat (s.numUserLanes - 1), by omega, ?_⟩
  exact List.getElem_finRange _

end DisruptorSetup

/-- What the delivery port is told. -/
inductive DeliveryRecord where
  | accepted (metadata : DisruptorEnvelopeMeta)
  | rejected (reason : FailureReason) (metadata : DisruptorEnvelopeMeta)

/-- `wakeups` counts the calls of `on_work_available`; the two lists hold what
the target was given. -/
structure DisruptorMailbox (M : Type u) where
  userRings : Fin kMaxPriorityLanes → DisruptorMpscRing (DisruptorMessageEnvelope M) := fun _ => {}
  dynamicQueue : List TypedMessage := []
  systemQueue : List TypedMessage := []
  reservation : ReservationManager := {}
  overflow : OverflowQueue (DisruptorMessageEnvelope M) := {}
  pressureState : MailboxPressureState := .normal
  acceptingUser : Bool := true
  workSignaled : Bool := false
  wakeups : Nat := 0
  systemHandled : List TypedMessage := []
  userHandled : List (Option (DisruptorMessageEnvelope M)) := []
  records : List DeliveryRecord := []
  totalAccepted : Nat := 0
  totalRejected : Nat := 0
  totalDropped : Nat := 0
  totalDeadLetters : Nat := 0

namespace DisruptorMailbox

variable {M : Type u}

variable (s : DisruptorSetup) (mb : DisruptorMailbox M)

def setRing (lane : Fin kMaxPriorityLanes) (ring : DisruptorMpscRing (DisruptorMessageEnvelope M)) :
    DisruptorMailbox M :=
  { mb with userRings := Function.update mb.userRings lane ring }

def setReservation (reservation : ReservationManager) : DisruptorMailbox M :=
  { mb with reservation := reservation }

/-- The user messages in the rings, by the depth that `snapshot` reports. -/
def userMessages : Nat :=
  ∑ lane, (mb.userRings lane).publishedDepth.toNat

def depth : Nat :=
  mb.reservation.reservedMessages.toNat

def pressureRatio : ℚ :=
  if s.config.capacity.maxMessages = 0 then 0
  else mb.depth / s.config.capacity.maxMessages.toNat

/-- `update_pressure_on_enqueue` and `update_pressure_on_rejection`. -/
def updatePressure (hardFailure : Bool) : DisruptorMailbox M :=
  { mb with
    pressureState :=
      PressureStateMachine.nextState (mb.pressureRatio s) hardFailure
        s.config.highWatermark s.config.lowWatermark
        s.config.criticalWatermark mb.pressureState }

def stateResult (code : EnqueueResultCode) : EnqueueResult where
  code := code
  target := s.actorId
  depth := mb.depth
  capacity := s.config.capacity.maxMessages
  bytes := mb.reservation.queuedBytes
  byteCapacity := s.config.capacity.maxBytes
  pressureState := mb.pressureState
  pressureRatio := mb.pressureRatio s

def makeAccepted : DisruptorMailbox M × EnqueueResult :=
  let counted := { mb with totalAccepted := mb.totalAccepted + 1 }
  (counted, counted.stateResult s .accepted)

def makeRejected : DisruptorMailbox M × EnqueueResult :=
  let counted := { mb with totalRejected := mb.totalRejected + 1 }
  (counted, { counted.stateResult s .rejected with
    retryAfterMs := s.config.signalMinIntervalMs.toNat })

def record (entry : DeliveryRecord) :
    DisruptorMailbox M := { mb with records := mb.records ++ [entry] }

/-- The exit of a push that is refused before or at the ring. -/
def reject (reason : FailureReason) (metadata : DisruptorEnvelopeMeta) :
    DisruptorMailbox M × EnqueueResult :=
  let (counted, result) := mb.makeRejected s
  ((counted.record (.rejected reason metadata)).updatePressure s true, result)

def signalWork : DisruptorMailbox M :=
  if mb.workSignaled then mb
  else
    { mb with
      workSignaled := true
      wakeups := if s.target then mb.wakeups + 1 else mb.wakeups }

def tryReserve (s : DisruptorSetup) (mb : DisruptorMailbox M) :
    ReservationResult × DisruptorMailbox M :=
  let (result, reservation) := mb.reservation.tryReserve s.envelopeBytes
    s.config.capacity.maxMessages s.config.capacity.maxBytes
  (result, mb.setReservation reservation)

def release (s : DisruptorSetup) (mb : DisruptorMailbox M) : DisruptorMailbox M :=
  mb.setReservation (mb.reservation.release s.envelopeBytes)

def publish (envelope : DisruptorMessageEnvelope M) : DisruptorMailbox M × RingPublishResult :=
  let lane := s.ringFor envelope.metadata.priority
  let (ring, result) := (mb.userRings lane).tryPublish s.cap envelope
  (mb.setRing lane ring, result)

/-- The end of a push that holds a reservation. -/
def publishReserved (envelope : DisruptorMessageEnvelope M) : DisruptorMailbox M × EnqueueResult :=
  let (stored, published) := mb.publish s envelope
  if published.code = .published then
    let noted := stored.record (.accepted
      { envelope.metadata with enqueueSequence := published.sequence })
    ((noted.updatePressure s false).signalWork s).makeAccepted s
  else
    (stored.release s).reject s (if published.code = .closed then .mailboxClosed else .mailboxFull)
      envelope.metadata

/-- Take the next message out of the first ring in `order` that has one and
drop it. -/
def dropFirst (s : DisruptorSetup) : List (Fin kMaxPriorityLanes) → DisruptorMailbox M →
      Bool × DisruptorMailbox M
  | [], mb => (false, mb)
  | lane :: rest, mb =>
    let (ring, lease) := (mb.userRings lane).tryAcquire s.cap
    match lease with
    | none => dropFirst s rest (mb.setRing lane ring)
    | some sequence =>
      let freed := mb.setRing lane (ring.releaseSlot s.cap sequence)
      (true, { freed.release s with
        totalDropped := freed.totalDropped + 1 })

def dropOneOldestRing : Bool × DisruptorMailbox M := dropFirst s s.laneOrder mb

def dropOneLowestPriorityRing : Bool × DisruptorMailbox M := dropFirst s s.laneOrder.reverse mb

/-- The result of a handler, with depth and bytes as they were when the
reservation failed. -/
def overflowResult (code : EnqueueResultCode) (reason : BackpressureReason) : EnqueueResult where
  code := code
  target := s.actorId
  depth := mb.depth
  capacity := s.config.capacity.maxMessages
  bytes := mb.reservation.queuedBytes
  byteCapacity := s.config.capacity.maxBytes
  pressureReason := reason

def rejectOverflow (seen mb : DisruptorMailbox M)
    (refusal : ReservationResult) : DisruptorMailbox M × EnqueueResult :=
  ({ mb with totalRejected := mb.totalRejected + 1 },
    seen.overflowResult s .rejected (Mailbox.capacityReason refusal))

/-- The two evicting handlers differ only in which eviction they call. -/
def evictOverflow (refusal : ReservationResult) (evicted : Bool × DisruptorMailbox M) :
    DisruptorMailbox M × EnqueueResult :=
  if evicted.1 then
    (evicted.2, mb.overflowResult s .droppedExisting .overflowPolicy)
  else rejectOverflow s mb evicted.2 refusal

/-- The handler of the configured policy.  The blocking one waits for a
consumer, which a sequential caller never sees. -/
def handleOverflow (envelope : DisruptorMessageEnvelope M) (refusal : ReservationResult) :
    Option (DisruptorMailbox M × EnqueueResult) :=
  match s.config.overflowPolicy with
  | .rejectNewest | .signalOnly => some (rejectOverflow s mb mb refusal)
  | .dropNewest =>
    some ({ mb with totalDropped := mb.totalDropped + 1 },
      mb.overflowResult s .droppedNewest .overflowPolicy)
  | .dropOldest => some (evictOverflow s mb refusal (mb.dropOneOldestRing s))
  | .dropLowestPriority =>
    some (evictOverflow s mb refusal (mb.dropOneLowestPriorityRing s))
  | .deadLetter =>
    some ({ mb with totalDeadLetters := mb.totalDeadLetters + 1 },
      mb.overflowResult s .reroutedToDeadLetter .overflowPolicy)
  | .spillToOverflowQueue =>
    some ({ mb with overflow := mb.overflow.tryPush envelope },
      mb.overflowResult s .reroutedToOverflow (Mailbox.capacityReason refusal))
  | .blockWhenAllowed => none

/-- The pressure fields that `try_push_user` adds to a handler's result. -/
def withPressure (result : EnqueueResult) : EnqueueResult :=
  { result with
    pressureState := mb.pressureState
    pressureRatio := mb.pressureRatio s
    retryAfterMs :=
      if result.retryAfterMs = 0 then
        match mb.pressureState with
        | .hardPressure => s.config.signalMinIntervalMs.toNat * 2
        | .softPressure | .recovering => s.config.signalMinIntervalMs.toNat
        | .normal => 0
      else result.retryAfterMs }

/-- The exit of a push that a handler has dealt with. -/
def finishOverflow (result : EnqueueResult)
    (metadata : DisruptorEnvelopeMeta) : DisruptorMailbox M × EnqueueResult :=
  (if result.accepted then mb
    else mb.record (.rejected .mailboxFull metadata), result)

/-- After an eviction the reservation is tried once more. -/
def retryEvicted (envelope : DisruptorMessageEnvelope M) (result : EnqueueResult) :
    DisruptorMailbox M × EnqueueResult :=
  match mb.tryReserve s with
  | (.reserved, reserved) => reserved.publishReserved s envelope
  | (_, refused) =>
    let rejected :=
      { refused with totalRejected := refused.totalRejected + 1 }
    (rejected.updatePressure s true).finishOverflow
      { result with code := .rejected } envelope.metadata

def pushOverflow (envelope : DisruptorMessageEnvelope M) (refusal : ReservationResult) :
    Option (DisruptorMailbox M × EnqueueResult) :=
  ((mb.updatePressure s true).handleOverflow s envelope refusal).map
    fun (handled, outcome) =>
      let result := handled.withPressure s outcome
      if result.code = .droppedExisting then
        handled.retryEvicted s envelope result
      else handled.finishOverflow result envelope.metadata

/-- One call of `try_push_user`: the clock it reads and what the delivery
preflight answers are given with it. -/
structure Push (M : Type u) where
  nowNs : Nat
  refusal : Option FailureReason := none
  message : M
  metadata : DisruptorEnvelopeMeta := {}
deriving Repr, DecidableEq

/-- The result is `none` when the call waits for a consumer. -/
def tryPushUser (push : Push M) : Option (DisruptorMailbox M × EnqueueResult) :=
  if mb.acceptingUser = false then
    some (mb.reject s .mailboxClosed push.metadata)
  else if isExpired push.metadata.deadlineNs push.nowNs then
    some (mb.reject s .expired push.metadata)
  else
    match push.refusal with
    | some reason => some (mb.reject s reason push.metadata)
    | none =>
      let envelope := { message := push.message, metadata := push.metadata }
      match mb.tryReserve s with
      | (.reserved, reserved) => some (reserved.publishReserved s envelope)
      | (refusal, refused) => refused.pushOverflow s envelope refusal

def tryPushControl (msg : TypedMessage) : DisruptorMailbox M × EnqueueResult :=
  if s.protectedSystemMessages.toNat ≤ mb.systemQueue.length then
    mb.makeRejected s
  else
    ({ mb with systemQueue := mb.systemQueue ++ [msg] }.signalWork s).makeAccepted s

def tryPushDynamic (msg : TypedMessage) : DisruptorMailbox M × EnqueueResult :=
  if s.protectedSystemMessages.toNat ≤ mb.dynamicQueue.length then
    mb.makeRejected s
  else
    ({ mb with dynamicQueue := mb.dynamicQueue ++ [msg] }.signalWork s).makeAccepted s

/-- The loop of `drain_overflow` over the elements still queued. -/
def drainLoop (s : DisruptorSetup) :
    DisruptorMailbox M → List (DisruptorMessageEnvelope M) → DisruptorMailbox M
  | mb, [] => mb
  | mb, envelope :: rest =>
    match { mb with overflow := mb.overflow.popTo rest }.tryReserve s with
    | (.reserved, reserved) =>
      let (stored, published) := reserved.publish s envelope
      if published.code = .published then drainLoop s stored rest
      else
        { stored.release s with totalDropped := stored.totalDropped + 1 }
    | (_, refused) =>
      { refused with overflow := refused.overflow.tryPush envelope }

def drainOverflow : DisruptorMailbox M :=
  if s.config.overflowPolicy = .spillToOverflowQueue then
    drainLoop s mb mb.overflow.queue
  else mb

/-- A user message is handled; its slot is given back last. -/
def dispatch (lane : Fin kMaxPriorityLanes) (sequence : UInt64) : DisruptorMailbox M :=
  let value := ((mb.userRings lane).slotAt s.cap sequence).value
  let handled :=
    if s.target then { mb with userHandled := mb.userHandled ++ [value] }
    else mb
  let drained := (handled.release s).drainOverflow s
  drained.setRing lane ((drained.userRings lane).releaseSlot s.cap sequence)

/-- The look at the lanes after the wakeup flag was cleared. -/
def recheck : DisruptorMailbox M :=
  let cleared := { mb with workSignaled := false }
  if cleared.systemQueue.isEmpty = false ∨ cleared.dynamicQueue.isEmpty = false ∨
      s.laneOrder.any (fun lane => !(cleared.userRings lane).empty) = true then
    cleared.signalWork s
  else cleared

def consumeLanes (s : DisruptorSetup) : List (Fin kMaxPriorityLanes) → DisruptorMailbox M →
      DisruptorMailbox M × Bool
  | [], mb => (mb.recheck s, false)
  | lane :: rest, mb =>
    let (ring, lease) := (mb.userRings lane).tryAcquire s.cap
    match lease with
    | none => consumeLanes s rest (mb.setRing lane ring)
    | some sequence => ((mb.setRing lane ring).dispatch s lane sequence, true)

/-- Both side lanes hand their messages to `on_system_message`. -/
def handleSystem (msg : TypedMessage) : DisruptorMailbox M :=
  if s.target then { mb with systemHandled := mb.systemHandled ++ [msg] }
  else mb

def consumeOne : DisruptorMailbox M × Bool :=
  match mb.systemQueue with
  | msg :: rest => ({ mb with systemQueue := rest }.handleSystem s msg, true)
  | [] =>
    match mb.dynamicQueue with
    | msg :: rest =>
      ({ mb with dynamicQueue := rest }.handleSystem s msg, true)
    | [] => consumeLanes s s.laneOrder mb

def beginDrain : DisruptorMailbox M :=
  { mb with acceptingUser := false }

/-- The loop over one ring in `drain_all_now`.  A ring holds no more than its
capacity, so that many rounds are enough. -/
def drainRing (cap : RingCapacity) : Nat → DisruptorMpscRing (DisruptorMessageEnvelope M) →
      DisruptorMpscRing (DisruptorMessageEnvelope M)
  | 0, ring => ring
  | rounds + 1, ring =>
    match ring.tryAcquire cap with
    | (after, none) => after
    | (after, some sequence) =>
      drainRing cap rounds (after.releaseSlot cap sequence)

def drainRings (lane : Fin kMaxPriorityLanes) : DisruptorMailbox M :=
  mb.setRing lane (drainRing s.cap (s.cap.size + 1) (mb.userRings lane))

def drainAllNow : DisruptorMailbox M :=
  let drained := s.laneOrder.foldl (drainRings s) mb.beginDrain
  { drained with dynamicQueue := [], systemQueue := [] }

inductive Call (M : Type u) where
  | tryPushUser (push : Push M)
  | tryPushControl (msg : TypedMessage)
  | tryPushDynamic (msg : TypedMessage)
  | consumeOne
  | dropOneOldestRing
  | dropOneLowestPriorityRing
  | drainOverflow
  | drainAllNow
deriving DecidableEq

def step : Call M → Option (DisruptorMailbox M)
  | .tryPushUser push => (mb.tryPushUser s push).map Prod.fst
  | .tryPushControl msg => some (mb.tryPushControl s msg).1
  | .tryPushDynamic msg => some (mb.tryPushDynamic s msg).1
  | .consumeOne => some (mb.consumeOne s).1
  | .dropOneOldestRing => some (mb.dropOneOldestRing s).2
  | .dropOneLowestPriorityRing => some (mb.dropOneLowestPriorityRing s).2
  | .drainOverflow => some (mb.drainOverflow s)
  | .drainAllNow => some (mb.drainAllNow s)

end DisruptorMailbox

end HPActor
