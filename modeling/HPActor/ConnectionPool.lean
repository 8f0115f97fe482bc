/-
The connections to one remote endpoint.  Senders and the handlers of connection
events run on threads of their own, and a thread takes one step for each access
to shared data: the breaker, the list of connections, the queue, a connection.

A connection is in the list before the queue is flushed to it, so a sender that
finds it may hand its message over ahead of queued ones.
-/
import HPActor.EndpointOutbound
import HPActor.Interleaving

namespace HPActor

structure PoolConfig where
  maxAttempts : Nat := 5
  outboundLimits : EndpointOutboundLimits := {}
  circuitBreakerCfg : EndpointCircuitBreakerConfig := {}

/-- Where a thread is in a call of the pool.  The flag of an admitted message
says that it is a probe; the source does not keep it. -/
inductive PoolPhase where
  | idle
  | entered (msg : PendingMessage)
  | checked (msg : PendingMessage)
  | admitted (msg : PendingMessage) (isProbe : Bool)
  | found (msg : PendingMessage) (conn : Nat)
  | unfound (msg : PendingMessage) (isProbe : Bool)
  | returned (result : TransportSendResult)
  | readied
  | flushing
  | dequeued (msg : PendingMessage)
  | handing (msg : PendingMessage) (conn : Nat)
  | erased
  | failed

namespace PoolPhase

def isFree : PoolPhase → Bool
  | .idle | .returned _ => true
  | _ => false

/-- What a flush has taken out of the queue and not handed over yet. -/
def held : PoolPhase → List (List UInt8)
  | .dequeued msg | .handing msg _ => [msg.data]
  | _ => []

end PoolPhase

/-- `accepted` has the data of the messages for which `try_send` reported
`Sent`, `handed` what was given to which connection, `probes` the messages that
the breaker let through while it was not closed. -/
structure ConnectionPool (n : Nat) where
  maxAttempts : Nat := 5
  shuttingDown : Bool := false
  activeConnections : List Nat := []
  nextIndex : Nat := 0
  outboundQueue : EndpointOutboundQueue := {}
  circuitBreaker : EndpointCircuitBreaker := {}
  reconnectAttempts : Nat := 0
  reconnectScheduled : Bool := false
  threads : Fin n → PoolPhase := fun _ => .idle
  accepted : List (List UInt8) := []
  handed : List (Nat × List UInt8) := []
  probes : List PendingMessage := []

namespace ConnectionPool

variable {n : Nat}

def start (n : Nat) (config : PoolConfig) : ConnectionPool n :=
  { maxAttempts := config.maxAttempts
    outboundQueue := { limits := config.outboundLimits }
    circuitBreaker := { config := config.circuitBreakerCfg } }

variable (s : ConnectionPool n)

def setThread (t : Fin n) (phase : PoolPhase) : ConnectionPool n :=
  { s with threads := Function.update s.threads t phase }

/-- The connections take turns. -/
def getConnection : ConnectionPool n × Option Nat :=
  match s.activeConnections with
  | [] => (s, none)
  | _ :: _ =>
    ({ s with nextIndex := s.nextIndex + 1 },
      s.activeConnections[s.nextIndex % s.activeConnections.length]?)

def enqueue (msg : PendingMessage) : EndpointOutboundQueue × TransportSendResult :=
  s.outboundQueue.tryEnqueue msg .bestEffort TypeTag.user

def hand (conn : Nat) (data : List UInt8) : ConnectionPool n :=
  { s with handed := s.handed ++ [(conn, data)] }

/-- The timer does nothing but allow the next reconnect to be scheduled. -/
def scheduleReconnect : ConnectionPool n :=
  if s.shuttingDown = true ∨ s.maxAttempts ≤ s.reconnectAttempts ∨
      s.reconnectScheduled = true then s
  else
    { s with
      reconnectScheduled := true
      reconnectAttempts := s.reconnectAttempts + 1 }

/-- The next step of a thread. -/
def move (t : Fin n) (now : Nat) : Option (ConnectionPool n) :=
  match s.threads t with
  | .idle | .returned _ => none
  -- try_send
  | .entered msg =>
    some (s.setThread t (if s.shuttingDown then .returned .shuttingDown else .checked msg))
  | .checked msg =>
    let (circuitBreaker, allowed) := s.circuitBreaker.allowSend now
    let isProbe := decide (s.circuitBreaker.state ≠ .closed)
    let s := { s with circuitBreaker := circuitBreaker }
    if allowed then
      some { s.setThread t (.admitted msg isProbe) with
        probes := if isProbe then msg :: s.probes else s.probes }
    else some (s.setThread t (.returned .circuitOpen))
  | .admitted msg isProbe =>
    match s.getConnection with
    | (s, none) => some (s.setThread t (.unfound msg isProbe))
    | (s, some conn) => some (s.setThread t (.found msg conn))
  | .found msg conn =>
    some { (s.hand conn msg.data).setThread t (.returned .sent) with
      accepted := s.accepted ++ [msg.data] }
  | .unfound msg _ =>
    let (outboundQueue, result) := s.enqueue msg
    let s := { s with outboundQueue := outboundQueue }
    some { s.setThread t (.returned result) with
      accepted :=
        if result = .sent then s.accepted ++ [msg.data] else s.accepted }
  -- on_connection_ready
  | .readied =>
    some (setThread
      { s with circuitBreaker := s.circuitBreaker.recordSuccess } t .flushing)
  | .flushing =>
    match s.outboundQueue.tryDequeue with
    | (_, none) => some (s.setThread t .idle)
    | (outboundQueue, some msg) =>
      some (setThread { s with outboundQueue := outboundQueue } t (.dequeued msg))
  | .dequeued msg =>
    match s.getConnection with
    | (s, none) => some (s.setThread t .idle)
    | (s, some conn) => some (s.setThread t (.handing msg conn))
  | .handing msg conn => some ((s.hand conn msg.data).setThread t .flushing)
  -- on_connection_error
  | .erased =>
    some (setThread
      { s with circuitBreaker := s.circuitBreaker.recordFailure now } t
      .failed)
  | .failed => some (s.scheduleReconnect.setThread t .idle)

inductive Action (n : Nat) where
  | trySend (t : Fin n) (msg : PendingMessage)
  | onConnectionReady (t : Fin n) (conn : Nat)
  | onConnectionError (t : Fin n) (conn : Nat)
  | addConnection (conn : Nat)
  | reconnectTimer
  | move (t : Fin n) (now : Nat)

/-- A free thread takes up a call; the first step of a handler is its change
of the list of connections. -/
def step : Action n → Option (ConnectionPool n)
  | .trySend t msg =>
    if (s.threads t).isFree then some (s.setThread t (.entered msg)) else none
  | .onConnectionReady t conn =>
    if (s.threads t).isFree then
      some (setThread
        { s with activeConnections := s.activeConnections ++ [conn] } t
        .readied)
    else none
  | .onConnectionError t conn =>
    if (s.threads t).isFree then
      some (setThread
        { s with
          activeConnections :=
            s.activeConnections.filter fun c => decide (c ≠ conn) } t .erased)
    else none
  | .addConnection conn =>
    some { s with activeConnections := s.activeConnections ++ [conn] }
  | .reconnectTimer => some { s with reconnectScheduled := false }
  | .move t now => s.move t now

theorem getConnection_cases :
    (s.activeConnections = [] ∧ s.getConnection = (s, none)) ∨
      (s.activeConnections ≠ [] ∧ ∃ conn, s.getConnection =
        ({ s with nextIndex := s.nextIndex + 1 }, some conn)) := by
  rw [getConnection]
  cases hactive : s.activeConnections with
  | nil => exact .inl ⟨rfl, rfl⟩
  | cons first rest =>
    refine .inr ⟨List.cons_ne_nil _ _, ?_⟩
    have hlt : s.nextIndex % (first :: rest).length < (first :: rest).length :=
      Nat.mod_lt _ (Nat.succ_pos _)
    exact ⟨_, congrArg (Prod.mk _) (List.getElem?_eq_getElem hlt)⟩

/-- The data in the queue, in the order in which it will be taken out. -/
def queued : List (List UInt8) :=
  s.outboundQueue.dataLane.map PendingMessage.data

def handedData : List (List UInt8) :=
  s.handed.map Prod.snd

/-- A flush that has taken a message out of the queue finds a connection. -/
def FindsIn : PoolPhase → Prop
  | .dequeued _ => s.activeConnections ≠ []
  | _ => True

def Finds : Action n → Prop
  | .move t _ => s.FindsIn (s.threads t)
  | _ => True

/-- Besides, a sender hands its message over itself only if nothing is queued
or being flushed, and a flush takes a message out only if no other flush has
one in hand. -/
def OrderlyIn : PoolPhase → Prop
  | .dequeued _ => s.activeConnections ≠ []
  | .found _ _ => s.queued = [] ∧ ∀ u, (s.threads u).held = []
  | .flushing => ∀ u, (s.threads u).held = []
  | _ => True

def Orderly : Action n → Prop
  | .move t _ => s.OrderlyIn (s.threads t)
  | _ => True

/-- A probe finds no connection and has room in the queue, and no flush takes
messages out while the breaker is half open. -/
def ProbingIn : PoolPhase → Prop
  | .admitted _ true => s.activeConnections = []
  | .unfound msg true => (s.enqueue msg).2 = .sent
  | .flushing => s.circuitBreaker.state ≠ .halfOpen
  | _ => True

def Probing : Action n → Prop
  | .move t _ => s.ProbingIn (s.threads t)
  | _ => True

instance (s : ConnectionPool n) (phase : PoolPhase) : Decidable (s.FindsIn phase) := by
  unfold FindsIn
  split <;> infer_instance

instance (s : ConnectionPool n) (action : Action n) : Decidable (s.Finds action) := by
  unfold Finds
  split <;> infer_instance

instance (s : ConnectionPool n) : Decidable (∀ u, (s.threads u).held = []) :=
  Nat.decidableForallFin fun u => (s.threads u).held = []

instance (s : ConnectionPool n) (phase : PoolPhase) : Decidable (s.OrderlyIn phase) := by
  unfold OrderlyIn
  split <;> infer_instance

instance (s : ConnectionPool n) (action : Action n) : Decidable (s.Orderly action) := by
  unfold Orderly
  split <;> infer_instance

instance (s : ConnectionPool n) (phase : PoolPhase) : Decidable (s.ProbingIn phase) := by
  unfold ProbingIn
  split <;> infer_instance

instance (s : ConnectionPool n) (action : Action n) : Decidable (s.Probing action) := by
  unfold Probing
  split <;> infer_instance

namespace PoolWitness

/-- The thread of the event loop, and one that sends. -/
def loop : Fin 2 := ⟨0, Nat.zero_lt_two⟩
def sender : Fin 2 := ⟨1, Nat.one_lt_two⟩

def message (byte : UInt8) : PendingMessage := { data := [byte] }

/-- A thread goes on for a number of steps. -/
def moves (t : Fin 2) (k now : Nat) : List (Action 2) :=
  List.replicate k (.move t now)

end PoolWitness

end ConnectionPool

end HPActor
