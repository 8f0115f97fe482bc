/-
What stands between a sender and the connections to one remote endpoint: a
circuit breaker that counts connection failures, and a bounded queue with a lane
for control messages and one for data.

The ratios of the queue's limits are rationals here, where the source computes
with doubles.
-/
import HPActor.Machines
import HPActor.Message
import Mathlib.Data.Rat.Floor

namespace HPActor

open TypeTag

inductive TransportSendResult where
  | sent
  | notConnected
  | queueFull
  | circuitOpen
  | encodeError
  | shuttingDown
  | writeError
deriving Repr, DecidableEq

/-- The cooldown is in milliseconds. -/
structure EndpointCircuitBreakerConfig where
  failureThreshold : Nat := 5
  cooldown : Nat := 30000
  halfOpenProbeLimit : Nat := 1
deriving Repr, DecidableEq

namespace EndpointCircuitBreaker

inductive State where
  | closed
  | «open»
  | halfOpen
deriving Repr, DecidableEq

end EndpointCircuitBreaker

structure EndpointCircuitBreaker where
  config : EndpointCircuitBreakerConfig := {}
  state : EndpointCircuitBreaker.State := .closed
  failureCount : Nat := 0
  halfOpenProbes : Nat := 0
  openedAt : Nat := 0
deriving Repr, DecidableEq

namespace EndpointCircuitBreaker

variable (b : EndpointCircuitBreaker)

/-- A failure of a probe opens the breaker again and leaves the time at which
it was opened as it is. -/
def recordFailure (now : Nat) : EndpointCircuitBreaker :=
  match b.state with
  | .closed =>
    let count := b.failureCount + 1
    if b.config.failureThreshold ≤ count then
      { b with failureCount := count, openedAt := now, state := .open }
    else { b with failureCount := count }
  | .halfOpen =>
    { b with failureCount := 0, halfOpenProbes := 0, state := .open }
  | .open => b

/-- An open breaker takes no notice of a success. -/
def recordSuccess : EndpointCircuitBreaker :=
  match b.state with
  | .closed => { b with failureCount := 0 }
  | .halfOpen =>
    { b with failureCount := 0, halfOpenProbes := 0, state := .closed }
  | .open => b

/-- A probe is counted whether it is let through or not. -/
def probe : EndpointCircuitBreaker × Bool :=
  ({ b with halfOpenProbes := b.halfOpenProbes + 1 },
    decide (b.halfOpenProbes < b.config.halfOpenProbeLimit))

def allowSend (now : Nat) : EndpointCircuitBreaker × Bool :=
  match b.state with
  | .closed => (b, true)
  | .halfOpen => b.probe
  | .open =>
    if b.openedAt + b.config.cooldown ≤ now then
      probe { b with halfOpenProbes := 0, state := .halfOpen }
    else (b, false)

inductive Call where
  | allowSend
  | recordSuccess
  | recordFailure

/-- A breaker with a clock and ghost fields: the time of the latest entry into
Open, whether it was made from HalfOpen, and how many sends were allowed in the
latest stay in HalfOpen. -/
structure Watched where
  breaker : EndpointCircuitBreaker
  clock : Nat := 0
  enteredAt : Nat := 0
  reopened : Bool := false
  allowed : Nat := 0

namespace Watched

/-- Each call comes some time after the one before it. -/
def step (s : Watched) : Nat × Call → Watched
  | (wait, .allowSend) =>
    let now := s.clock + wait
    let (after, answer) := s.breaker.allowSend now
    { s with
      breaker := after
      clock := now
      allowed :=
        if after.state = .halfOpen then
          (if s.breaker.state = .halfOpen then s.allowed else 0) + answer.toNat
        else s.allowed }
  | (wait, .recordSuccess) =>
    { s with breaker := s.breaker.recordSuccess, clock := s.clock + wait }
  | (wait, .recordFailure) =>
    let now := s.clock + wait
    let after := s.breaker.recordFailure now
    let entered := s.breaker.state ≠ .open ∧ after.state = .open
    { s with
      breaker := after
      clock := now
      enteredAt := if entered then now else s.enteredAt
      reopened :=
        if entered then s.breaker.state = .halfOpen else s.reopened }

/-- What holds in each state.  A breaker that was opened from HalfOpen still has
the time of the opening before, from which the cooldown has passed. -/
def Tracked (config : EndpointCircuitBreakerConfig) (s : Watched) : Prop :=
  s.breaker.config = config ∧ s.allowed ≤ config.halfOpenProbeLimit ∧
    match s.breaker.state with
    | .closed => True
    | .open =>
      if s.reopened then s.breaker.openedAt + config.cooldown ≤ s.clock
      else s.breaker.openedAt = s.enteredAt
    | .halfOpen =>
      s.breaker.openedAt + config.cooldown ≤ s.clock ∧ s.allowed ≤ s.breaker.halfOpenProbes

variable {config : EndpointCircuitBreakerConfig} {s : Watched}

theorem Tracked.step (hs : s.Tracked config) (call : Nat × Call) :
    (s.step call).Tracked config := by
  obtain ⟨wait, call⟩ := call
  obtain ⟨rfl, hallowed, htimes⟩ := hs
  cases call with
  | allowSend =>
    cases hstate : s.breaker.state with
    | closed =>
      simpa [Tracked, step, allowSend, hstate] using hallowed
    | halfOpen =>
      by_cases hroom : s.breaker.halfOpenProbes < s.breaker.config.halfOpenProbeLimit <;>
        simp [Tracked, step, allowSend, probe, hstate, hroom] at htimes ⊢ <;> omega
    | «open» =>
      by_cases hcool : s.breaker.openedAt + s.breaker.config.cooldown ≤ s.clock + wait
      · by_cases hroom : 0 < s.breaker.config.halfOpenProbeLimit <;>
          simp [Tracked, step, allowSend, probe, hstate, hcool, hroom]
        omega
      · simp only [hstate] at htimes
        simp only [Tracked, step, allowSend, hstate, if_neg hcool, reduceCtorEq, if_false]
        grind
  | recordSuccess =>
    grind [Tracked, step, recordSuccess]
  | recordFailure =>
    grind [Tracked, step, recordFailure]

end Watched

end EndpointCircuitBreaker

/-- What the queue keeps of a message. -/
structure PendingMessage where
  target : ActorAddress := {}
  data : List UInt8

structure EndpointOutboundLimits where
  maxMessages : Nat := 1000
  maxBytes : Nat := 16 * 1024 * 1024
  controlLaneReserve : Nat := 64
  reliableHeadroomPct : Rat := 1 / 5

structure EndpointOutboundQueue where
  limits : EndpointOutboundLimits := {}
  controlMessages : Nat := 0
  controlBytes : Nat := 0
  dataMessages : Nat := 0
  dataBytes : Nat := 0
  controlLane : List PendingMessage := []
  dataLane : List PendingMessage := []

namespace EndpointOutboundQueue

variable (q : EndpointOutboundQueue)

def effectiveMessages : Nat :=
  if q.limits.controlLaneReserve < q.limits.maxMessages then
    q.limits.maxMessages - q.limits.controlLaneReserve
  else 0

def byteRatio : Rat :=
  if 0 < q.limits.maxMessages then
    (q.effectiveMessages : Rat) / q.limits.maxMessages
  else 0

def effectiveBytes : Nat :=
  Nat.floor ((q.limits.maxBytes : Rat) * q.byteRatio)

def isReliable : DeliveryMode → Bool
  | .atLeastOnce | .durableAtLeastOnce => true
  | _ => false

/-- Best-effort messages leave some of the room to reliable ones. -/
def dataLimit (limit : Nat) (mode : DeliveryMode) : Nat :=
  if isReliable mode then limit
  else Nat.floor ((limit : Rat) * (1 - q.limits.reliableHeadroomPct))

def checkAdmission (msgBytes : Nat) (isControl : Bool) (mode : DeliveryMode) : Bool :=
  let totalBytes := q.controlBytes + q.dataBytes
  if isControl then
    if q.controlMessages < q.limits.controlLaneReserve then
      decide (totalBytes + msgBytes ≤ q.limits.maxBytes)
    else
      decide (q.controlMessages + q.dataMessages < q.limits.maxMessages) &&
        decide (totalBytes + msgBytes ≤ q.limits.maxBytes)
  else
    decide (q.dataMessages < q.dataLimit q.effectiveMessages mode) &&
      decide (q.dataBytes + msgBytes ≤ q.dataLimit q.effectiveBytes mode)

def tryEnqueue (msg : PendingMessage) (mode : DeliveryMode) (typeTag : TypeTag) :
    EndpointOutboundQueue × TransportSendResult :=
  let isControl := isSystemMessage typeTag
  let msgBytes := msg.data.length
  if q.checkAdmission msgBytes isControl mode then
    if isControl then
      ({ q with
          controlMessages := q.controlMessages + 1
          controlBytes := q.controlBytes + msgBytes
          controlLane := q.controlLane ++ [msg] }, .sent)
    else
      ({ q with
          dataMessages := q.dataMessages + 1
          dataBytes := q.dataBytes + msgBytes
          dataLane := q.dataLane ++ [msg] }, .sent)
  else (q, .queueFull)

def tryDequeue : EndpointOutboundQueue × Option PendingMessage :=
  match q.controlLane with
  | msg :: rest =>
    ({ q with
        controlMessages := q.controlMessages - 1
        controlBytes := q.controlBytes - msg.data.length
        controlLane := rest }, some msg)
  | [] =>
    match q.dataLane with
    | msg :: rest =>
      ({ q with
          dataMessages := q.dataMessages - 1
          dataBytes := q.dataBytes - msg.data.length
          dataLane := rest }, some msg)
    | [] => (q, none)

variable {q : EndpointOutboundQueue} {msg : PendingMessage}

/-- User messages go to the data lane. -/
theorem tryEnqueue_user (q : EndpointOutboundQueue) (msg : PendingMessage) (mode : DeliveryMode) :
    ((q.tryEnqueue msg mode user).2 = .sent ∧
      (q.tryEnqueue msg mode user).1.dataLane = q.dataLane ++ [msg] ∧
      (q.tryEnqueue msg mode user).1.controlLane = q.controlLane) ∨
    ((q.tryEnqueue msg mode user).2 = .queueFull ∧
      (q.tryEnqueue msg mode user).1 = q) := by
  have huser : isSystemMessage user = false := by decide
  simp only [tryEnqueue, huser, Bool.false_eq_true, if_false]
  split
  · exact .inl ⟨rfl, rfl, rfl⟩
  · exact .inr ⟨rfl, rfl⟩

/-- Without control messages, the first data message is taken out. -/
theorem tryDequeue_data (hcontrol : q.controlLane = []) :
    (q.dataLane = [] ∧ q.tryDequeue = (q, none)) ∨ ∃ msg rest q', q.dataLane = msg :: rest ∧
        q.tryDequeue = (q', some msg) ∧ q'.dataLane = rest ∧
        q'.controlLane = [] := by
  rw [tryDequeue, hcontrol]
  cases hdata : q.dataLane with
  | nil => exact .inl ⟨rfl, rfl⟩
  | cons msg rest =>
    exact .inr ⟨msg, rest, _, rfl, rfl, rfl, rfl⟩

end EndpointOutboundQueue

end HPActor
