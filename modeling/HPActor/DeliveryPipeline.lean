/-
`DeliveryPipeline::try_deliver`: what happens to a message between its sender
and the mailbox of its target.  The stages run in the order of the source:
lookup, circuit breaker, default time to live, expiry, deduplication, push,
and the signals a push gives rise to.
-/
import HPActor.ActorMailbox
import HPActor.CircuitBreaker
import HPActor.DeadLetters
import HPActor.DedupCache

namespace HPActor

open CircuitBreakerTracker

def PressureStateMachine.severity : MailboxPressureState → Nat
  | .normal => 0
  | .recovering => 1
  | .softPressure => 2
  | .hardPressure => 3

structure BackpressureSignalGate where
  lastSignalNs : Nat := 0
  lastSeverity : Nat := 0
  sequence : Nat := 0

/-- The first signal, a signal after the interval, a more severe one and a
forced one pass; the answer is the number of the signal. -/
def BackpressureSignalGate.tryAcquire (gate : BackpressureSignalGate)
    (nowNs : Nat) (state : MailboxPressureState) (intervalMs : UInt32)
    (force : Bool) : Option Nat × BackpressureSignalGate :=
  if force = true ∨ gate.lastSignalNs = 0 ∨ gate.lastSignalNs + intervalMs.toNat * 1000000 ≤ nowNs ∨
      gate.lastSeverity < PressureStateMachine.severity state then
    (some (gate.sequence + 1),
      { lastSignalNs := nowNs
        lastSeverity := PressureStateMachine.severity state
        sequence := gate.sequence + 1 })
  else (none, gate)

structure BackpressureSignal where
  target : ActorAddress
  sender : ActorAddress
  reason : BackpressureReason
  depth : Nat
  capacity : UInt32
  bytes : UInt64
  byteCapacity : UInt64
  pressureRatio : ℚ
  retryAfterMs : Nat
  sequence : Nat

/-- A signal handed to the coordinator. -/
structure EmittedSignal where
  signal : BackpressureSignal
  state : MailboxPressureState
  remote : Bool

def localSignalEnabled : BackpressureMode → Bool
  | .localSignal | .localAndRemoteSignal => true
  | .disabled | .remoteSignal => false

def remoteSignalEnabled : BackpressureMode → Bool
  | .remoteSignal | .localAndRemoteSignal => true
  | .disabled | .localSignal => false

def pressureResultShouldSignal (result : EnqueueResult) : Bool :=
  decide (result.code = .acceptedWithSoftPressure) || (!result.accepted && result.retryable)

/-- A variable mailbox with its setup and the gate of its signals. -/
structure VariableMailbox where
  setup : MailboxSetup
  state : Mailbox
  signalGate : BackpressureSignalGate := {}

/-- The ports of an actor with a ring-buffer mailbox, given by what they answer
to their n-th message. -/
structure FixedBinding where
  valid : Bool
  tryPush : Nat → TypedMessage → EnqueueResult
  tryPushDynamic : Option (Nat → TypedMessage → EnqueueResult)
  pushed : List TypedMessage := []

/-- A directory entry.  `eventBased` is none for an actor that is not
event-based, and for an entry without an instance. -/
structure ActorEntry where
  mailbox : Option VariableMailbox := none
  eventBased : Option EventBasedActor := none
  fixedMailbox : Option FixedBinding := none

def ActorEntry.setActor (entry : ActorEntry) (eba : EventBasedActor) : ActorEntry :=
  { entry with eventBased := some eba }

structure PipelineSetup where
  endpoint : EndPoint
  defaultMessageTtlMs : Nat := 0
  coordinator : Bool := true

/-- `attempts` and `probes` are ghost fields: they number the calls, and hold
the numbers of those whose message was let through as a probe. -/
structure Pipeline where
  actors : UInt64 → Option ActorEntry
  dlq : Option DeadLetterQueue := none
  dedupCache : Option DedupCache := none
  signals : List EmittedSignal := []
  attempts : Nat := 0
  probes : List Nat := []

/-- The readings of the steady clock during one call, by the stage that takes
them. -/
structure ClockReadings where
  breaker : Nat
  ttl : Nat
  expiry : Nat
  letter : Nat
  signal : Nat

/-- The arguments of one call. -/
structure Delivery where
  target : UInt64
  msg : TypedMessage
  priority : UInt8 := 0
  deadlineNs : Int := int64Max
  options : DeliveryOptions := {}
  clock : ClockReadings

namespace Pipeline

variable (s : PipelineSetup) (p : Pipeline)

def setEntry (target : UInt64) (entry : ActorEntry) : Pipeline :=
  { p with actors := Function.update p.actors target (some entry) }

def setDedup (cache : DedupCache) : Pipeline :=
  { p with dedupCache := some cache }

def countAttempt : Pipeline :=
  { p with attempts := p.attempts + 1 }

def addProbe (ticket : Nat) : Pipeline :=
  { p with probes := ticket :: p.probes }

def localAddress (target : UInt64) : ActorAddress :=
  { endpoint := s.endpoint, id := target }

/-- Offer a record to the dead-letter queue, if there is one that takes
messages of this delivery mode. -/
def deadLetter (mode : DeliveryMode) (record : DeadLetterRecord) : Pipeline :=
  match p.dlq with
  | none => p
  | some queue =>
    if queue.config.enabled ∧ shouldRouteToDlq mode queue.config.routingPolicy then
      { p with dlq := some (queue.tryPush record) }
    else p

/-- The record of a message that did not reach its mailbox. -/
def deliveryRecord (d : Delivery) (deadlineNs : Int)
    (reason : DeadLetterReason) (timestampNs : Nat) : DeadLetterRecord where
  reason := reason
  source := .localDelivery
  sender := d.msg.senderAddress
  target := localAddress s d.target
  typeTag := d.msg.typeId
  messageId := d.options.messageId
  frameFlags := d.options.flags
  priority := d.priority
  deadlineNs := deadlineNs
  payloadSample := d.msg.payload
  timestampNs := timestampNs

def rejectMissingActor (d : Delivery) : Pipeline × EnqueueResult :=
  (p.deadLetter d.options.deliveryMode
      (deliveryRecord s d d.deadlineNs .actorNotFound d.clock.letter),
    { code := .actorNotFound, target := d.target })

/-- `check_circuit_breaker`: the verdict, and the actor after it was asked.
System messages and actors without quarantine pass. -/
def checkCircuitBreaker (entry : ActorEntry) (d : Delivery) : BreakerVerdict × ActorEntry :=
  match entry.eventBased with
  | none => (.pass, entry)
  | some eba =>
    if ¬ eba.quarantinePolicy.enabled then (.pass, entry)
    else if isSystemMessage d.msg.typeId then (.pass, entry)
    else
      let checked := eba.circuitBreaker.check eba.quarantinePolicy.cooldownPeriodMs d.clock.breaker
      (checked.1, entry.setActor { eba with circuitBreaker := checked.2 })

/-- The time to live in nanoseconds, in a 64-bit word. -/
def ttlNs : Nat :=
  s.defaultMessageTtlMs * 1000000 % 2 ^ 64

/-- Only a message without a deadline gets the default time to live. -/
def applyDefaultTtl (deadlineNs : Int) (nowNs : Nat) : Int :=
  if deadlineNs ≠ int64Max ∨ s.defaultMessageTtlMs = 0 then deadlineNs
  else if int64Max - nowNs < ttlNs s then int64Max - 1
  else nowNs + ttlNs s

def dedupKey (d : Delivery) : DedupKey where
  sourceNode := d.msg.senderAddress.endpoint
  sourceActor := d.msg.senderAddress.id
  messageId := d.options.messageId

/-- The cache that has to be asked about this message. -/
def dedupFor (d : Delivery) : Option DedupCache :=
  if isTrackedDelivery d.options.deliveryMode ∧ d.options.messageId ≠ 0 then
    p.dedupCache
  else none

/-- The frame flag that `no_drop` sets. -/
def noDropFlag : UInt32 := 0x2

def envelope (d : Delivery) (deadlineNs : Int) : MailboxEnvelopeMeta where
  sender := d.msg.senderAddress
  typeTag := d.msg.typeId
  messageId := d.options.messageId
  priority := d.priority
  deadlineNs := deadlineNs
  flags :=
    if d.options.noDrop then d.options.flags ||| noDropFlag
    else d.options.flags
  scheduleEdf := d.options.scheduleEdf

/-- The message as it goes into the mailbox. -/
def stamped (d : Delivery) (deadlineNs : Int) : TypedMessage :=
  { d.msg with
    deadlineNs := deadlineNs
    deliveryPriority := d.priority
    deliveryFlags := (envelope d deadlineNs).flags }

def rejectionRecord (d : Delivery) (deadlineNs : Int) (result : EnqueueResult) : DeadLetterRecord :=
  { deliveryRecord s d deadlineNs .overflowPolicy d.clock.letter with
    source := .mailboxAdmission
    frameFlags := (envelope d deadlineNs).flags
    mailboxDepth := result.depth
    mailboxCapacity := result.capacity }

/-- A refused message leaves the cache and, under the dead-letter policy, gets
a record. -/
def afterRefusal (d : Delivery)
    (deadlineNs : Int) (policy : OverflowPolicy) (result : EnqueueResult) :
    Pipeline :=
  let rolled :=
    match p.dedupFor d with
    | none => p
    | some cache => p.setDedup (cache.remove (dedupKey d))
  if policy = .deadLetter then
    rolled.deadLetter d.options.deliveryMode (rejectionRecord s d deadlineNs result)
  else rolled

def senderIsRemote (d : Delivery) : Bool :=
  decide (d.msg.senderAddress.endpoint ≠ s.endpoint) &&
    decide (d.msg.senderAddress.id ≠ 0)

/-- Whether a result of this message is to be signalled at all. -/
def wantsSignal (d : Delivery) (mode : BackpressureMode) (result : EnqueueResult) : Bool :=
  d.options.emitBackpressure && pressureResultShouldSignal result &&
    if senderIsRemote s d then remoteSignalEnabled mode
    else localSignalEnabled mode

def signalOf (d : Delivery) (result : EnqueueResult) (sequence : Nat) : BackpressureSignal where
  target := localAddress s result.target
  sender := d.msg.senderAddress
  reason := result.pressureReason
  depth := result.depth
  capacity := result.capacity
  bytes := result.bytes
  byteCapacity := result.byteCapacity
  pressureRatio := result.pressureRatio
  retryAfterMs := result.retryAfterMs
  sequence := sequence

/-- `maybe_emit_backpressure`. -/
def maybeEmitBackpressure (d : Delivery)
    (entry : ActorEntry) (box : VariableMailbox) (result : EnqueueResult) :
    Pipeline :=
  if wantsSignal s d box.setup.config.backpressureMode result then
    match box.signalGate.tryAcquire d.clock.signal result.pressureState
        box.setup.config.signalMinIntervalMs (!result.accepted) with
    | (none, _) => p
    | (some sequence, gate) =>
      let kept := p.setEntry d.target
        { entry with mailbox := some { box with signalGate := gate } }
      if s.coordinator then
        { kept with
          signals := kept.signals ++
            [{ signal := signalOf s d result sequence
               state := result.pressureState
               remote := senderIsRemote s d }] }
      else kept
  else p

/-- The last stage: push into the mailbox and report. -/
def pushStage (d : Delivery) (deadlineNs : Int) (entry : ActorEntry) (box : VariableMailbox) :
    Pipeline × EnqueueResult :=
  let pushed := box.state.tryPush box.setup (stamped d deadlineNs) (envelope d deadlineNs)
  let box' := { box with state := pushed.1 }
  let entry' := { entry with mailbox := some box' }
  let stored := p.setEntry d.target entry'
  let settled :=
    if pushed.2.accepted then stored
    else stored.afterRefusal s d deadlineNs box.setup.config.overflowPolicy pushed.2
  (settled.maybeEmitBackpressure s d entry' box' pushed.2, pushed.2)

/-- A duplicate is answered as accepted and not pushed again. -/
def dedupStage (d : Delivery) (deadlineNs : Int) (entry : ActorEntry) (box : VariableMailbox) :
    Pipeline × EnqueueResult :=
  match p.dedupFor d with
  | none => p.pushStage s d deadlineNs entry box
  | some cache =>
    match cache.isDuplicate (dedupKey d) with
    | (true, seen) =>
      (p.setDedup seen, { code := .accepted, target := d.target })
    | (false, inserted) =>
      (p.setDedup inserted).pushStage s d deadlineNs entry box

/-- Expiry is checked before deduplication. -/
def expiryStage (d : Delivery) (deadlineNs : Int) (entry : ActorEntry) (box : VariableMailbox) :
    Pipeline × EnqueueResult :=
  if isExpired deadlineNs d.clock.expiry then
    (p.deadLetter d.options.deliveryMode (deliveryRecord s d deadlineNs .expired d.clock.expiry),
      { code := .rejected, target := d.target })
  else p.dedupStage s d deadlineNs entry box

/-- The stages behind the lookup of a variable mailbox. -/
def deliverVariable (d : Delivery)
    (entry : ActorEntry) (box : VariableMailbox) : Pipeline × EnqueueResult :=
  match checkCircuitBreaker entry d with
  | (.blocked, _) =>
    (p.deadLetter d.options.deliveryMode
        (deliveryRecord s d d.deadlineNs .endpointCircuitOpen d.clock.letter),
      { code := .circuitOpen, target := d.target })
  | (.probe, checked) =>
    ((p.setEntry d.target checked).addProbe d.msg.ticket).expiryStage s d
      (applyDefaultTtl s d.deadlineNs d.clock.ttl) checked box
  | (.pass, checked) =>
    (p.setEntry d.target checked).expiryStage s d
      (applyDefaultTtl s d.deadlineNs d.clock.ttl) checked box

/-- An actor with a ring-buffer mailbox takes system messages on its control
port and user messages on the dynamic one, if it has one. -/
def deliverFixed (d : Delivery) (entry : ActorEntry)
    (binding : FixedBinding) : Pipeline × EnqueueResult :=
  let kept := p.setEntry d.target
    { entry with
      fixedMailbox := some
        { binding with pushed := binding.pushed ++ [d.msg] } }
  if isSystemMessage d.msg.typeId then
    (kept, binding.tryPush binding.pushed.length d.msg)
  else
    match binding.tryPushDynamic with
    | some port => (kept, port binding.pushed.length d.msg)
    | none => (p, { code := .rejected, target := d.target })

/-- The call proper, on a message that carries its number. -/
def deliverNumbered (d : Delivery) : Pipeline × EnqueueResult :=
  match p.actors d.target with
  | none => p.rejectMissingActor s d
  | some entry =>
    match entry.mailbox with
    | some box => p.deliverVariable s d entry box
    | none =>
      match entry.fixedMailbox with
      | none => p.rejectMissingActor s d
      | some binding =>
        if binding.valid then p.deliverFixed d entry binding
        else p.rejectMissingActor s d

/-- The call with the number of the attempt on its message. -/
def numbered (d : Delivery) : Delivery :=
  { d with msg := { d.msg with ticket := p.attempts } }

/-- `try_deliver`: number the message and deliver it. -/
def tryDeliver (d : Delivery) : Pipeline × EnqueueResult :=
  p.countAttempt.deliverNumbered s (p.numbered d)

variable {s : PipelineSetup} {p p' : Pipeline} {d : Delivery}
  {entry : ActorEntry} {box : VariableMailbox} {deadlineNs : Int}

/-- The directory and the probes are the same. -/
structure SameActors (p p' : Pipeline) : Prop where
  actors : p'.actors = p.actors
  probes : p'.probes = p.probes

/-- The directory has `entry` at `target` and is the same elsewhere, and so are
the probes. -/
def Touches (p p' : Pipeline) (target : UInt64) (entry : ActorEntry) : Prop :=
  SameActors (p.setEntry target entry) p'

variable {p'' : Pipeline} {target : UInt64}

theorem SameActors.trans (hfirst : SameActors p p')
    (hsecond : SameActors p' p'') : SameActors p p'' :=
  ⟨hsecond.actors.trans hfirst.actors, hsecond.probes.trans hfirst.probes⟩

theorem setEntry_same (hself : p.actors target = some entry) :
    SameActors p (p.setEntry target entry) :=
  ⟨Function.update_eq_self_iff.mpr hself.symm, rfl⟩

theorem setEntry_touches (target : UInt64) (entry : ActorEntry) :
    Touches p (p.setEntry target entry) target entry := ⟨rfl, rfl⟩

section

variable (htouch : Touches p p' target entry)
include htouch

theorem Touches.self : p'.actors target = some entry := by
  rw [htouch.actors]
  exact Function.update_self _ _ _

theorem Touches.others (other : UInt64) (hne : other ≠ target) :
    p'.actors other = p.actors other := by
  rw [htouch.actors]
  exact Function.update_of_ne hne _ _

theorem Touches.trans {entry' : ActorEntry} (hsecond : Touches p' p'' target entry') :
    Touches p p'' target entry' := by
  refine ⟨hsecond.actors.trans ?_, hsecond.probes.trans htouch.probes⟩
  rw [setEntry, htouch.actors]
  exact Function.update_idem _ _ _

end

theorem deadLetter_same (mode : DeliveryMode) (record : DeadLetterRecord) :
    SameActors p (p.deadLetter mode record) := by
  unfold deadLetter
  split
  · exact ⟨rfl, rfl⟩
  · split
    · exact ⟨rfl, rfl⟩
    · exact ⟨rfl, rfl⟩

theorem rejectMissingActor_same :
    SameActors p (p.rejectMissingActor s d).1 := deadLetter_same _ _

theorem afterRefusal_same (policy : OverflowPolicy) (result : EnqueueResult) :
    SameActors p (p.afterRefusal s d deadlineNs policy result) := by
  have hrolled : SameActors p
      (match p.dedupFor d with
        | none => p
        | some cache => p.setDedup (cache.remove (dedupKey d))) := by
    split
    · exact ⟨rfl, rfl⟩
    · exact ⟨rfl, rfl⟩
  unfold afterRefusal
  dsimp only
  split
  · exact hrolled.trans (deadLetter_same _ _)
  · exact hrolled

/-- A signal changes nothing of the entry but the gate. -/
theorem maybeEmitBackpressure_touches (hself : p.actors d.target = some entry)
    (hbox : entry.mailbox = some box) (result : EnqueueResult) :
    ∃ gate, Touches p (p.maybeEmitBackpressure s d entry box result) d.target
      { entry with mailbox := some { box with signalGate := gate } } := by
  have hentry : { entry with mailbox := some { box with
      signalGate := box.signalGate } } = entry := by
    rw [← hbox]
  have hkept : Touches p p d.target entry :=
    ⟨(setEntry_same hself).actors.symm, rfl⟩
  unfold maybeEmitBackpressure
  split
  · split
    · exact ⟨box.signalGate, hentry ▸ hkept⟩
    · rename_i gate _
      refine ⟨gate, ?_⟩
      dsimp only
      split
      · exact ⟨rfl, rfl⟩
      · exact setEntry_touches _ _
  · exact ⟨box.signalGate, hentry ▸ hkept⟩

/-- The entry after a push of the message. -/
def landed (d : Delivery) (deadlineNs : Int) (entry : ActorEntry)
    (box : VariableMailbox) (gate : BackpressureSignalGate) : ActorEntry :=
  { entry with
    mailbox := some
      { box with
        state := (box.state.tryPush box.setup (stamped d deadlineNs) (envelope d deadlineNs)).1
        signalGate := gate } }

theorem pushStage_touches :
    ∃ gate, Touches p (p.pushStage s d deadlineNs entry box).1 d.target
      (landed d deadlineNs entry box gate) := by
  unfold pushStage
  dsimp only
  generalize hpushed : box.state.tryPush box.setup (stamped d deadlineNs)
    (envelope d deadlineNs) = pushed
  have hsettled : Touches p
      (if pushed.2.accepted then
        p.setEntry d.target
          { entry with mailbox := some { box with state := pushed.1 } }
      else
        (p.setEntry d.target
          { entry with
            mailbox := some { box with state := pushed.1 } }).afterRefusal s d
          deadlineNs box.setup.config.overflowPolicy pushed.2) d.target
      { entry with mailbox := some { box with state := pushed.1 } } := by
    split
    · exact ⟨rfl, rfl⟩
    · exact afterRefusal_same _ _
  obtain ⟨gate, hgate⟩ := maybeEmitBackpressure_touches (s := s) hsettled.self rfl pushed.2
  refine ⟨gate, ?_⟩
  rw [landed, hpushed]
  exact hsettled.trans hgate

/-- The message was pushed into the mailbox of its target. -/
def Lands (p p' : Pipeline) (d : Delivery) (deadlineNs : Int)
    (entry : ActorEntry) (box : VariableMailbox) : Prop :=
  ∃ gate, Touches p p' d.target (landed d deadlineNs entry box gate)

theorem Lands.after_same (hsame : SameActors p p') (hlands : Lands p' p'' d deadlineNs entry box) :
    Lands p p'' d deadlineNs entry box := by
  obtain ⟨gate, htouch⟩ := hlands
  refine ⟨gate, htouch.actors.trans ?_, htouch.probes.trans hsame.probes⟩
  rw [setEntry, hsame.actors]
  rfl

/-- The cache has seen the message. -/
def seen (p : Pipeline) (d : Delivery) : Bool :=
  match p.dedupFor d with
  | none => false
  | some cache => cache.contains (dedupKey d)

theorem dedupStage_cases :
    (SameActors p (p.dedupStage s d deadlineNs entry box).1 ∧ p.seen d = true) ∨
      Lands p (p.dedupStage s d deadlineNs entry box).1 d deadlineNs entry box := by
  unfold dedupStage
  split
  · exact .inr pushStage_touches
  · rename_i cache hcache
    by_cases hseen : cache.contains (dedupKey d) = true
    · refine .inl ?_
      simp only [DedupCache.isDuplicate, hseen, if_true]
      exact ⟨⟨rfl, rfl⟩, by simp [seen, hcache, hseen]⟩
    · refine .inr ?_
      simp only [DedupCache.isDuplicate, hseen, if_false, Bool.false_eq_true]
      refine Lands.after_same ?_ pushStage_touches
      exact ⟨rfl, rfl⟩

theorem deliverNumbered_variable (hlive : p.actors d.target = some entry)
    (hbox : entry.mailbox = some box) :
    p.deliverNumbered s d = p.deliverVariable s d entry box := by
  simp only [deliverNumbered, hlive, hbox]

/-- The message would be let through as a probe. -/
def wouldProbe (entry : ActorEntry) (d : Delivery) : Bool :=
  match entry.eventBased with
  | none => false
  | some eba =>
    eba.quarantinePolicy.enabled && !isSystemMessage d.msg.typeId &&
      eba.circuitBreaker.wouldProbe eba.quarantinePolicy.cooldownPeriodMs d.clock.breaker

/-- Without quarantine the breaker is not asked. -/
theorem checkCircuitBreaker_off
    (hoff : ∀ eba, entry.eventBased = some eba → eba.quarantinePolicy.enabled = false) :
    checkCircuitBreaker entry d = (.pass, entry) := by
  unfold checkCircuitBreaker
  split
  · rfl
  · rename_i eba heba
    rw [if_pos (by simp [hoff eba heba])]

theorem checkCircuitBreaker_pass {checked : ActorEntry}
    (hcheck : checkCircuitBreaker entry d = (.pass, checked)) :
    checked = entry ∧ ∀ eba, entry.eventBased = some eba → eba.quarantinePolicy.enabled = true →
      isSystemMessage d.msg.typeId = false →
      ¬ eba.circuitBreaker.Probing := by
  unfold checkCircuitBreaker at hcheck
  split at hcheck
  · rename_i hnone
    cases hcheck
    exact ⟨rfl, by simp [hnone]⟩
  · rename_i eba heba
    split at hcheck
    · rename_i hoff
      cases hcheck
      refine ⟨rfl, ?_⟩
      rintro other hother henabled
      obtain rfl : eba = other := Option.some.inj (heba.symm.trans hother)
      exact absurd henabled hoff
    · split at hcheck
      · rename_i hsystem
        cases hcheck
        exact ⟨rfl, fun _ _ _ huser => by simp [hsystem] at huser⟩
      · rcases hasked : eba.circuitBreaker.check
          eba.quarantinePolicy.cooldownPeriodMs d.clock.breaker with
          ⟨verdict, cb⟩
        simp only [hasked, Prod.mk.injEq] at hcheck
        obtain ⟨rfl, rfl⟩ := hcheck
        obtain ⟨rfl, hfree⟩ := check_pass hasked
        refine ⟨by rw [ActorEntry.setActor, ← heba], ?_⟩
        rintro other hother - -
        obtain rfl : eba = other := Option.some.inj (heba.symm.trans hother)
        exact hfree

theorem checkCircuitBreaker_probe {checked : ActorEntry}
    (hcheck : checkCircuitBreaker entry d = (.probe, checked)) :
    wouldProbe entry d = true ∧ isSystemMessage d.msg.typeId = false ∧
      checked.mailbox = entry.mailbox ∧
      ∃ eba, checked.eventBased = some eba ∧ eba.quarantinePolicy.enabled = true := by
  unfold checkCircuitBreaker at hcheck
  split at hcheck
  · cases hcheck
  · rename_i eba heba
    split at hcheck
    · cases hcheck
    · rename_i henabled
      split at hcheck
      · cases hcheck
      · rename_i huser
        simp only [Prod.mk.injEq] at hcheck
        obtain ⟨hverdict, rfl⟩ := hcheck
        rw [Bool.not_eq_true] at huser
        rw [not_not] at henabled
        have hprobe := check_probe (Prod.ext hverdict rfl)
        exact ⟨by simp [wouldProbe, heba, henabled, huser, hprobe], huser, rfl, _, rfl, henabled⟩

/-- Behind the breaker a message is pushed unless it has expired or has been
seen, and then the directory stays as it is. -/
theorem expiryStage_cases :
    (SameActors p (p.expiryStage s d deadlineNs entry box).1 ∧
        (isExpired deadlineNs d.clock.expiry = true ∨ p.seen d = true)) ∨
      Lands p (p.expiryStage s d deadlineNs entry box).1 d deadlineNs entry box := by
  unfold expiryStage
  split
  · rename_i hexpired
    exact .inl ⟨deadLetter_same _ _, .inl hexpired⟩
  · rcases dedupStage_cases with ⟨hsame, hseen⟩ | hlands
    · exact .inl ⟨hsame, .inr hseen⟩
    · exact .inr hlands

/-- What a call does to the directory. -/
inductive CallEffect (s : PipelineSetup) (p p' : Pipeline) (d : Delivery) : Prop where
  | same (hsame : SameActors p p')
  | fixed {entry : ActorEntry} {binding : Option FixedBinding}
      (hlive : p.actors d.target = some entry) (hnone : entry.mailbox = none)
      (htouch : Touches p p' d.target { entry with fixedMailbox := binding })
  | pushed {entry : ActorEntry} {box : VariableMailbox} (hlive : p.actors d.target = some entry)
      (hbox : entry.mailbox = some box)
      (hpass : checkCircuitBreaker entry d = (.pass, entry))
      (hlands : Lands p p' d (applyDefaultTtl s d.deadlineNs d.clock.ttl) entry box)
  | lostProbe {entry checked : ActorEntry} {box : VariableMailbox}
      (hlive : p.actors d.target = some entry)
      (hbox : entry.mailbox = some box)
      (hprobe : checkCircuitBreaker entry d = (.probe, checked))
      (htouch : Touches (p.addProbe d.msg.ticket) p' d.target checked)
      (hlost : isExpired (applyDefaultTtl s d.deadlineNs d.clock.ttl)
          d.clock.expiry = true ∨ p.seen d = true)
  | probe {entry checked : ActorEntry} {box : VariableMailbox}
      (hlive : p.actors d.target = some entry)
      (hbox : entry.mailbox = some box)
      (hprobe : checkCircuitBreaker entry d = (.probe, checked))
      (hlands : Lands (p.addProbe d.msg.ticket) p' d
        (applyDefaultTtl s d.deadlineNs d.clock.ttl) checked box)

theorem deliverVariable_effect (hlive : p.actors d.target = some entry)
    (hbox : entry.mailbox = some box) :
    CallEffect s p (p.deliverVariable s d entry box).1 d := by
  rcases hcheck : checkCircuitBreaker entry d with ⟨verdict, checked⟩
  cases verdict with
  | blocked =>
    simp only [deliverVariable, hcheck]
    exact .same (deadLetter_same _ _)
  | pass =>
    obtain ⟨rfl, -⟩ := checkCircuitBreaker_pass hcheck
    have hentry := setEntry_same hlive
    simp only [deliverVariable, hcheck]
    rcases expiryStage_cases with ⟨hsame, -⟩ | hlands
    · exact .same (hentry.trans hsame)
    · exact .pushed hlive hbox hcheck (hlands.after_same hentry)
  | probe =>
    have hentry : Touches (p.addProbe d.msg.ticket)
        ((p.setEntry d.target checked).addProbe d.msg.ticket) d.target
        checked := setEntry_touches _ _
    simp only [deliverVariable, hcheck]
    rcases expiryStage_cases with ⟨hsame, hlost⟩ | ⟨gate, htouch⟩
    · exact .lostProbe hlive hbox hcheck (SameActors.trans hentry hsame) hlost
    · exact .probe hlive hbox hcheck ⟨gate, hentry.trans htouch⟩

theorem deliverFixed_effect {binding : FixedBinding}
    (hlive : p.actors d.target = some entry) (hnone : entry.mailbox = none) :
    CallEffect s p (p.deliverFixed d entry binding).1 d := by
  unfold deliverFixed
  dsimp only
  split
  · exact .fixed hlive hnone (setEntry_touches _ _)
  · split
    · exact .fixed hlive hnone (setEntry_touches _ _)
    · exact .same ⟨rfl, rfl⟩

/-- The inversion of a whole call. -/
theorem tryDeliver_effect : CallEffect s p.countAttempt (p.tryDeliver s d).1 (p.numbered d) := by
  unfold tryDeliver deliverNumbered
  split
  · exact .same rejectMissingActor_same
  · rename_i entry hlive
    split
    · rename_i box hbox
      exact deliverVariable_effect hlive hbox
    · rename_i hnone
      split
      · exact .same rejectMissingActor_same
      · split
        · exact deliverFixed_effect hlive hnone
        · exact .same rejectMissingActor_same

end Pipeline

end HPActor
