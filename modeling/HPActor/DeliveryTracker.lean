/-
`OutboundDeliveryTracker`: messages that wait for an acknowledgement.  A
message is tracked under a number of its own, its receipt is resolved by an
acknowledgement, a final negative one, exhausted attempts or a cancellation,
and until then it stands in the pending table.

The table is a map from numbers to entries.  A pass over it treats each entry
by itself, so the order of the hash table plays no part.
-/
import HPActor.Message

namespace HPActor

/-- A code that comes in a frame is cast to the enumeration whether or not it
has a name there. -/
inductive DeliveryStatus where
  | accepted
  | acceptedWithPressure
  | noRoute
  | actorDead
  | mailboxFull
  | expired
  | duplicate
  | remoteUnavailable
  | rejectedByPolicy
  | serializationError
  | transportError
  | shuttingDown
  | cancelled
  | unnamed (code : UInt8)
deriving Repr, DecidableEq

/-- `static_cast<DeliveryStatus>`: the low byte of the code. -/
def DeliveryStatus.ofCode (code : UInt32) : DeliveryStatus :=
  match code.toUInt8 with
  | 0 => .accepted
  | 1 => .acceptedWithPressure
  | 2 => .noRoute
  | 3 => .actorDead
  | 4 => .mailboxFull
  | 5 => .expired
  | 6 => .duplicate
  | 7 => .remoteUnavailable
  | 8 => .rejectedByPolicy
  | 9 => .serializationError
  | 10 => .transportError
  | 11 => .shuttingDown
  | 12 => .cancelled
  | other => .unnamed other

structure DeliveryResult where
  status : DeliveryStatus := .accepted
  target : ActorAddress := {}
  messageId : Nat := 0
  detailCode : UInt32 := 0

/-- The state a receipt shares with the tracker.  Callbacks and ports are
named by numbers; `completed` is a ghost field, the calls made of them. -/
structure SharedState where
  result : Option DeliveryResult := none
  callback : Option Nat := none
  fixedPort : Option Nat := none
  fixedPortSet : Bool := false
  msgId : Nat := 0
  completed : List (Nat × DeliveryResult) := []

namespace SharedState

variable (state : SharedState)

def resolve (r : DeliveryResult) : SharedState :=
  if state.result.isSome then state
  else
    { result := some r
      msgId := r.messageId
      completed := state.completed ++
        (state.fixedPort.toList ++ state.callback.toList).map fun name =>
          (name, r) }

/-- `on_complete` with a function. -/
def onComplete (callback : Nat) : SharedState :=
  if state.fixedPortSet then state
  else
    match state.result with
    | some result =>
      { state with completed := state.completed ++ [(callback, result)] }
    | none => { state with callback := some callback }

/-- `on_complete` with a port of fixed size. -/
def onCompletePort (port : Nat) : SharedState × Bool :=
  if state.fixedPortSet || state.callback.isSome then (state, false)
  else
    match state.result with
    | some result =>
      ({ state with completed := state.completed ++ [(port, result)] }, true)
    | none =>
      ({ state with fixedPort := some port, fixedPortSet := true }, true)

theorem resolve_result (r : DeliveryResult) : (state.resolve r).result ≠ none := by
  rw [resolve]
  split
  · intro hnone
    simp_all
  · exact Option.some_ne_none r

@[simp] theorem onComplete_result (callback : Nat) :
    (state.onComplete callback).result = state.result := by
  rw [onComplete]
  split
  · rfl
  · split <;> simp_all

@[simp] theorem onCompletePort_result (port : Nat) :
    (state.onCompletePort port).1.result = state.result := by
  rw [onCompletePort]
  split
  · rfl
  · split <;> simp_all

end SharedState

inductive RetryBackoff where
  | fixed
  | linear
  | exponential

/-- Durations are in milliseconds. -/
structure RetryPolicy where
  maxAttempts : UInt8 := 1
  perAttemptTimeout : Int64 := 5000
  initialBackoff : Int64 := 100
  maxBackoff : Int64 := 30000
  backoff : RetryBackoff := .exponential
  jitter : Bool := true

namespace RetryPolicy

/-- Signed 64-bit arithmetic as the machine does it; `jitterPct` is what the
generator of the thread gives. -/
def backoffDelay (policy : RetryPolicy) (attemptNumber : UInt8) (jitterPct : Int64) : Int64 :=
  let attempt : Int64 := Int64.ofNat attemptNumber.toNat
  let wanted :=
    match policy.backoff with
    | .fixed => policy.initialBackoff
    | .linear => policy.initialBackoff * attempt
    | .exponential => policy.initialBackoff * ((1 : Int64) <<< (attempt - 1))
  let baseMs := if policy.maxBackoff < wanted then policy.maxBackoff else wanted
  if policy.jitter && decide (0 < baseMs) then
    let jittered := baseMs + baseMs * jitterPct / 100
    if jittered < 1 then 1 else jittered
  else baseMs

end RetryPolicy

/-- An entry of the table.  Its receipt is the one of its number. -/
structure OutboundDeliveryTracker.PendingSend where
  msgId : Nat
  serializedFrame : List UInt8
  remoteEndpoint : EndPoint
  policy : RetryPolicy
  retryCount : UInt8 := 0
  deadlineNs : UInt64 := 0
  nextRetryNs : UInt64 := 0
  retryAfterMs : UInt32 := 0

namespace OutboundDeliveryTracker

/-- What a pass of `process_retries` does with an entry. -/
inductive RetryOutcome where
  | keep (entry : PendingSend)
  | resend (entry : PendingSend)
  | finish (status : DeliveryStatus)

namespace PendingSend

variable (ps : PendingSend)

def expired (nowNs : UInt64) : Bool :=
  decide (0 < ps.deadlineNs) && decide (ps.deadlineNs ≤ nowNs)

/-- The hint of a negative acknowledgement comes before the backoff. -/
def delayNs (jitterPct : Int64) : UInt64 :=
  if 0 < ps.retryAfterMs then ps.retryAfterMs.toUInt64 * 1000000
  else
    (ps.policy.backoffDelay ps.retryCount jitterPct).toUInt64 * 1000000

def countRetry : PendingSend :=
  { ps with retryCount := ps.retryCount + 1 }

def exhausted : Bool :=
  decide (ps.policy.maxAttempts.toNat ≤ ps.retryCount.toNat + 1)

/-- One iteration of the loop of `process_retries`. -/
def retry (nowNs : UInt64) (jitterPct : Int64) : RetryOutcome :=
  if 0 < ps.nextRetryNs ∧ ps.nextRetryNs ≤ nowNs then
    if ps.exhausted || ps.expired nowNs then
      .finish (if ps.expired nowNs then .expired else .transportError)
    else
      .resend { ps.countRetry with
        nextRetryNs := nowNs + ps.countRetry.delayNs jitterPct }
  else if ps.nextRetryNs = 0 ∧ 0 < ps.policy.perAttemptTimeout then
    if ps.expired nowNs then .finish .expired
    else
      .keep { ps with
        nextRetryNs :=
          nowNs + ps.policy.perAttemptTimeout.toUInt64 * 1000000 }
  else .keep ps

variable {ps next : PendingSend} {nowNs : UInt64} {jitterPct : Int64}

/-- A message is resent only while an attempt is left, and that attempt is
counted. -/
theorem retry_resend (hretry : ps.retry nowNs jitterPct = .resend next) :
    ps.retryCount.toNat + 1 < ps.policy.maxAttempts.toNat ∧
      next.retryCount = ps.retryCount + 1 ∧ next.policy = ps.policy := by
  rw [retry] at hretry
  split at hretry
  · split at hretry
    · cases hretry
    · rename_i hleft
      cases hretry
      simp only [exhausted, Bool.or_eq_true, decide_eq_true_eq, not_or, Nat.not_le] at hleft
      exact ⟨hleft.1, rfl, rfl⟩
  · split at hretry
    · split at hretry <;> cases hretry
    · cases hretry

theorem retry_keep (hretry : ps.retry nowNs jitterPct = .keep next) :
    next.retryCount = ps.retryCount ∧ next.policy = ps.policy := by
  rw [retry] at hretry
  split at hretry
  · split at hretry <;> cases hretry
  · split at hretry
    · split at hretry <;> cases hretry
      exact ⟨rfl, rfl⟩
    · cases hretry
      exact ⟨rfl, rfl⟩

end PendingSend

end OutboundDeliveryTracker

/-- What the outside has of a tracked message: the policy it gave and the
receipt it got.  `resolves` and `resends` are ghost counters of the calls of
`SharedState::resolve` and of the resend callback. -/
structure TrackedMessage where
  policy : RetryPolicy
  receipt : SharedState
  resolves : Nat := 0
  resends : Nat := 0

namespace TrackedMessage

def resolve (message : TrackedMessage) (r : DeliveryResult) : TrackedMessage :=
  { message with
    receipt := message.receipt.resolve r
    resolves := message.resolves + 1 }

def resend (message : TrackedMessage) : TrackedMessage :=
  { message with resends := message.resends + 1 }

def setReceipt (message : TrackedMessage) (receipt : SharedState) : TrackedMessage :=
  { message with receipt := receipt }

end TrackedMessage

structure OutboundDeliveryTracker where
  pending : Nat → Option OutboundDeliveryTracker.PendingSend := fun _ => none
  nextMsgId : Nat := 1
  messages : Nat → Option TrackedMessage := fun _ => none

namespace OutboundDeliveryTracker

variable (t : OutboundDeliveryTracker) (msgId : Nat)

def setPending (entry : Option PendingSend) : OutboundDeliveryTracker :=
  { t with pending := Function.update t.pending msgId entry }

def setMessage (message : Option TrackedMessage) : OutboundDeliveryTracker :=
  { t with messages := Function.update t.messages msgId message }

/-- The number of the message names its receipt. -/
def track (serializedFrame : List UInt8)
    (remote : EndPoint) (policy : RetryPolicy) (deadlineNs : UInt64) :
    OutboundDeliveryTracker × Nat :=
  let msgId := t.nextMsgId
  let entry : PendingSend :=
    { msgId := msgId, serializedFrame := serializedFrame,
      remoteEndpoint := remote, policy := policy, deadlineNs := deadlineNs }
  let message : TrackedMessage :=
    { policy := policy, receipt := { msgId := msgId } }
  (({ t with nextMsgId := msgId + 1 }.setPending msgId entry).setMessage msgId message, msgId)

/-- Take an entry out of the table and resolve its receipt. -/
def finish (result : DeliveryResult) : OutboundDeliveryTracker :=
  (t.setPending msgId none).setMessage msgId
    ((t.messages msgId).map fun message => message.resolve result)

def resolve (result : DeliveryResult) : OutboundDeliveryTracker :=
  match t.pending msgId with
  | none => t
  | some _ => t.finish msgId result

def onAck : OutboundDeliveryTracker :=
  t.resolve msgId { status := .accepted, messageId := msgId }

def isRetryableNack (status : DeliveryStatus) : Bool :=
  decide (status = .mailboxFull)

/-- A duplicate counts as an acknowledgement: the receiver has the message.
The entry of a retryable code is due at the next pass. -/
def onNack (reasonCode : UInt32) (retryAfterMs : UInt32) : OutboundDeliveryTracker :=
  let status := DeliveryStatus.ofCode reasonCode
  if status = .duplicate then t.onAck msgId
  else
    match t.pending msgId with
    | none => t
    | some entry =>
      if isRetryableNack status then
        t.setPending msgId (some { entry with
          retryAfterMs := retryAfterMs, nextRetryNs := 1 })
      else t.finish msgId { status := status, messageId := msgId }

/-- The entry and the message of one number after a pass. -/
def retryOne (nowNs : UInt64) (jitterPct : Int64) : Option PendingSend → Option TrackedMessage →
      Option PendingSend × Option TrackedMessage
  | none, message => (none, message)
  | some entry, message =>
    match entry.retry nowNs jitterPct with
    | .keep next => (some next, message)
    | .resend next => (some next, message.map TrackedMessage.resend)
    | .finish status =>
      (none, message.map fun message =>
        message.resolve { status := status, messageId := entry.msgId })

def processRetries (nowNs : UInt64) (jitterPct : Nat → Int64) : OutboundDeliveryTracker :=
  { t with
    pending := fun id =>
      (retryOne nowNs (jitterPct id) (t.pending id) (t.messages id)).1
    messages := fun id =>
      (retryOne nowNs (jitterPct id) (t.pending id) (t.messages id)).2 }

/-- The entry and the message of one number after `cancel_endpoint`. -/
def cancelOne (endpoint : EndPoint) (reason : DeliveryStatus) :
    Option PendingSend → Option TrackedMessage → Option PendingSend × Option TrackedMessage
  | none, message => (none, message)
  | some entry, message =>
    if entry.remoteEndpoint = endpoint then
      (none, message.map fun message =>
        message.resolve { status := reason, messageId := entry.msgId })
    else (some entry, message)

def cancelEndpoint (endpoint : EndPoint) (reason : DeliveryStatus) : OutboundDeliveryTracker :=
  { t with
    pending := fun id =>
      (cancelOne endpoint reason (t.pending id) (t.messages id)).1
    messages := fun id =>
      (cancelOne endpoint reason (t.pending id) (t.messages id)).2 }

def cancel : OutboundDeliveryTracker :=
  t.resolve msgId { status := .cancelled, messageId := msgId }

/-- The holder of a receipt asks to be called back. -/
def onComplete (t : OutboundDeliveryTracker) (msgId callback : Nat) : OutboundDeliveryTracker :=
  t.setMessage msgId ((t.messages msgId).map fun message =>
    message.setReceipt (message.receipt.onComplete callback))

def onCompletePort (t : OutboundDeliveryTracker) (msgId port : Nat) : OutboundDeliveryTracker :=
  t.setMessage msgId ((t.messages msgId).map fun message =>
    message.setReceipt (message.receipt.onCompletePort port).1)

inductive Call where
  | track (serializedFrame : List UInt8) (remote : EndPoint)
      (policy : RetryPolicy) (deadlineNs : UInt64)
  | onAck (msgId : Nat)
  | onNack (msgId : Nat) (reasonCode retryAfterMs : UInt32)
  | processRetries (nowNs : UInt64) (jitterPct : Nat → Int64)
  | cancel (msgId : Nat)
  | cancelEndpoint (endpoint : EndPoint) (reason : DeliveryStatus)
  | onComplete (msgId callback : Nat)
  | onCompletePort (msgId port : Nat)

def call : Call → OutboundDeliveryTracker
  | .track serializedFrame remote policy deadlineNs =>
    (t.track serializedFrame remote policy deadlineNs).1
  | .onAck msgId => t.onAck msgId
  | .onNack msgId reasonCode retryAfterMs =>
    t.onNack msgId reasonCode retryAfterMs
  | .processRetries nowNs jitterPct => t.processRetries nowNs jitterPct
  | .cancel msgId => t.cancel msgId
  | .cancelEndpoint endpoint reason => t.cancelEndpoint endpoint reason
  | .onComplete msgId callback => t.onComplete msgId callback
  | .onCompletePort msgId port => t.onCompletePort msgId port

def after (calls : List Call) : OutboundDeliveryTracker :=
  calls.foldl call t

/-- The books of one number.  A pending message is unresolved, and its resends
are the retries its entry has counted; a message that is not pending was
resolved once. -/
def Balanced : Option PendingSend → Option TrackedMessage → Prop
  | none, none => True
  | some _, none => False
  | some entry, some message =>
    entry.policy = message.policy ∧ message.receipt.result = none ∧
      message.resolves = 0 ∧ message.resends = entry.retryCount.toNat ∧
      message.resends ≤ message.policy.maxAttempts.toNat - 1
  | none, some message =>
    message.receipt.result ≠ none ∧ message.resolves = 1 ∧
      message.resends ≤ message.policy.maxAttempts.toNat - 1

theorem Balanced.resolve {entry : PendingSend} {message : Option TrackedMessage}
    (hone : Balanced (some entry) message) (r : DeliveryResult) :
    Balanced none (message.map fun message => message.resolve r) := by
  cases message with
  | none => exact hone.elim
  | some message =>
    obtain ⟨-, -, hresolves, -, hresends⟩ := hone
    refine ⟨message.receipt.resolve_result r, ?_, hresends⟩
    change message.resolves + 1 = 1
    rw [hresolves]

variable {entry next : PendingSend} {message : Option TrackedMessage}

/-- A new entry with the policy and the count of the old one. -/
theorem Balanced.replace (hone : Balanced (some entry) message)
    (hcount : next.retryCount = entry.retryCount)
    (hpolicy : next.policy = entry.policy) : Balanced (some next) message := by
  cases message with
  | none => exact hone.elim
  | some message =>
    obtain ⟨hsame, hresult, hresolves, hresends, hle⟩ := hone
    exact ⟨hpolicy.trans hsame, hresult, hresolves, by rw [hresends, hcount], hle⟩

theorem Balanced.resend (hone : Balanced (some entry) message)
    (hleft : entry.retryCount.toNat + 1 < entry.policy.maxAttempts.toNat)
    (hcount : next.retryCount = entry.retryCount + 1) (hpolicy : next.policy = entry.policy) :
    Balanced (some next) (message.map TrackedMessage.resend) := by
  cases message with
  | none => exact hone.elim
  | some message =>
    obtain ⟨hsame, hresult, hresolves, hresends, -⟩ := hone
    -- the counter of eight bits does not wrap: an attempt was left
    have hmax := message.policy.maxAttempts.toNat_lt
    rw [hsame] at hleft
    have hnext : next.retryCount.toNat = entry.retryCount.toNat + 1 := by
      rw [hcount, UInt8.toNat_add, UInt8.toNat_one]
      exact Nat.mod_eq_of_lt (by omega)
    refine ⟨hpolicy.trans hsame, hresult, hresolves, ?_, ?_⟩
    · change message.resends + 1 = _
      rw [hresends, hnext]
    · change message.resends + 1 ≤ message.policy.maxAttempts.toNat - 1
      omega

variable {entry : Option PendingSend} {message : Option TrackedMessage}

section

variable (hone : Balanced entry message)
include hone

/-- A receipt that answers a registration keeps its result. -/
theorem Balanced.setReceipt (f : SharedState → SharedState)
    (hresult : ∀ state, (f state).result = state.result) :
    Balanced entry (message.map fun message => message.setReceipt (f message.receipt)) := by
  cases message with
  | none => exact hone
  | some message =>
    cases entry with
    | none =>
      obtain ⟨hsome, hrest⟩ := hone
      refine ⟨?_, hrest⟩
      change (f message.receipt).result ≠ none
      rwa [hresult]
    | some entry =>
      obtain ⟨hsame, hnone, hrest⟩ := hone
      refine ⟨hsame, ?_, hrest⟩
      change (f message.receipt).result = none
      rwa [hresult]

theorem Balanced.retryOne (nowNs : UInt64) (jitterPct : Int64) :
    Balanced (retryOne nowNs jitterPct entry message).1
      (retryOne nowNs jitterPct entry message).2 := by
  cases entry with
  | none => exact hone
  | some entry =>
    rw [retryOne]
    cases hretry : entry.retry nowNs jitterPct with
    | keep next =>
      obtain ⟨hcount, hpolicy⟩ := PendingSend.retry_keep hretry
      exact hone.replace hcount hpolicy
    | resend next =>
      obtain ⟨hleft, hcount, hpolicy⟩ := PendingSend.retry_resend hretry
      exact hone.resend hleft hcount hpolicy
    | finish status => exact hone.resolve _

theorem Balanced.cancelOne (endpoint : EndPoint) (reason : DeliveryStatus) :
    Balanced (cancelOne endpoint reason entry message).1
      (cancelOne endpoint reason entry message).2 := by
  cases entry with
  | none => exact hone
  | some entry =>
    rw [cancelOne]
    split
    · exact hone.resolve _
    · exact hone

end

/-- The books of every number balance. -/
def Sound (t : OutboundDeliveryTracker) : Prop :=
  ∀ id, Balanced (t.pending id) (t.messages id)

variable {t : OutboundDeliveryTracker}

section

variable (hsound : t.Sound)
include hsound

variable {msgId : Nat} {message : Option TrackedMessage}

theorem Sound.update {entry : Option PendingSend} (hone : Balanced entry message) :
    ((t.setPending msgId entry).setMessage msgId message).Sound := by
  intro id
  change Balanced (Function.update t.pending msgId entry id)
    (Function.update t.messages msgId message id)
  by_cases hid : id = msgId
  · subst hid
    rwa [Function.update_self, Function.update_self]
  · rw [Function.update_of_ne hid, Function.update_of_ne hid]
    exact hsound id

theorem Sound.setMessage (hone : Balanced (t.pending msgId) message) :
    (t.setMessage msgId message).Sound := by
  have hboth := @Sound.update t hsound msgId _ _ hone
  rwa [setPending, Function.update_eq_self] at hboth

theorem Sound.setPending {entry : Option PendingSend} (hone : Balanced entry (t.messages msgId)) :
    (t.setPending msgId entry).Sound := by
  have hboth := @Sound.update t hsound msgId _ _ hone
  have hsame : Function.update (t.setPending msgId entry).messages msgId
      (t.messages msgId) = t.messages := Function.update_eq_self msgId _
  rwa [OutboundDeliveryTracker.setMessage, hsame] at hboth

theorem Sound.finish {entry : PendingSend}
    (hentry : t.pending msgId = some entry) (result : DeliveryResult) :
    (t.finish msgId result).Sound := by
  have hone := hsound msgId
  rw [hentry] at hone
  exact hsound.update (hone.resolve result)

theorem Sound.resolve (msgId : Nat) (result : DeliveryResult) : (t.resolve msgId result).Sound := by
  rw [OutboundDeliveryTracker.resolve]
  split
  · exact hsound
  · rename_i hentry
    exact hsound.finish hentry result

theorem Sound.onNack (msgId : Nat) (reasonCode retryAfterMs : UInt32) :
    (t.onNack msgId reasonCode retryAfterMs).Sound := by
  rw [OutboundDeliveryTracker.onNack]
  split
  · exact hsound.resolve _ _
  · split
    · exact hsound
    · rename_i entry hentry
      split
      · have hone := hsound msgId
        rw [hentry] at hone
        exact hsound.setPending (hone.replace rfl rfl)
      · exact hsound.finish hentry _

/-- Every call keeps the books. -/
theorem Sound.call (c : Call) : (t.call c).Sound := by
  cases c with
  | track serializedFrame remote policy deadlineNs =>
    apply Sound.update (t := { t with nextMsgId := t.nextMsgId + 1 }) hsound
    exact ⟨rfl, rfl, rfl, rfl, Nat.zero_le _⟩
  | onAck msgId | cancel msgId => exact hsound.resolve _ _
  | onNack msgId reasonCode retryAfterMs => exact hsound.onNack _ _ _
  | processRetries nowNs jitterPct =>
    exact fun id => (hsound id).retryOne nowNs (jitterPct id)
  | cancelEndpoint endpoint reason =>
    exact fun id => (hsound id).cancelOne endpoint reason
  | onComplete msgId callback =>
    exact hsound.setMessage ((hsound msgId).setReceipt
      (fun state => state.onComplete callback) fun state => by simp)
  | onCompletePort msgId port =>
    exact hsound.setMessage ((hsound msgId).setReceipt
      (fun state => (state.onCompletePort port).1) fun state => by simp)

theorem Sound.after (calls : List Call) : (t.after calls).Sound := by
  induction calls generalizing t with
  | nil => exact hsound
  | cons c rest ih => exact ih (hsound.call c)

end

theorem empty_sound : ({} : OutboundDeliveryTracker).Sound :=
  fun _ => trivial

/-- After any calls the receipt of a tracked message was resolved at most
once, the message is pending exactly while its receipt is unresolved, and it
was resent at most once for each attempt after the first. -/
theorem deliveries_resolve_once (calls : List Call) {msgId : Nat} {message : TrackedMessage}
    (htracked : (after {} calls).messages msgId = some message) :
    message.resolves ≤ 1 ∧
      ((∃ entry, (after {} calls).pending msgId = some entry) ↔ message.receipt.result = none) ∧
      message.resends ≤ message.policy.maxAttempts.toNat - 1 := by
  have hone := empty_sound.after calls msgId
  rw [htracked] at hone
  cases hentry : (after {} calls).pending msgId with
  | none =>
    rw [hentry] at hone
    obtain ⟨hresult, hresolves, hresends⟩ := hone
    refine ⟨hresolves.le, ?_, hresends⟩
    constructor
    · rintro ⟨entry, hsome⟩
      cases hsome
    · exact fun hnone => absurd hnone hresult
  | some entry =>
    rw [hentry] at hone
    obtain ⟨-, hresult, hresolves, -, hresends⟩ := hone
    exact ⟨by omega, ⟨fun _ => hresult, fun _ => ⟨entry, rfl⟩⟩, hresends⟩

namespace DeliveryWitness

def twice : RetryPolicy := { maxAttempts := 2, jitter := false }

/-- The mailbox of the receiver is full, the message is sent again, and the
second attempt is the last. -/
def calls : List Call :=
  [.track [] (.ipv4 0 0) twice 0, .onNack 1 4 0, .processRetries 10 fun _ => 0,
    .onNack 1 4 0, .processRetries 20 fun _ => 0, .onAck 1]

theorem exhausted_resolves_once :
    ∃ message, (after {} calls).messages 1 = some message ∧
      message.resends = 1 ∧ message.resolves ≤ 1 ∧
      ((∃ entry, (after {} calls).pending 1 = some entry) ↔ message.receipt.result = none) ∧
      message.resends ≤ message.policy.maxAttempts.toNat - 1 := by
  have hview : ((after {} calls).messages 1).map TrackedMessage.resends = some 1 := by
    decide +kernel
  obtain ⟨message, hmessage, hresends⟩ := Option.map_eq_some_iff.mp hview
  exact ⟨message, hmessage, hresends, deliveries_resolve_once calls hmessage⟩

end DeliveryWitness

end OutboundDeliveryTracker

end HPActor
