/-
The wakeup protocol of one actor: producers in `try_push`, workers in
`execute_actor`, the flag `mailbox_was_empty_`, the consumer lock, the lanes and
the actor's state word, each atomic operation one step.  The lanes are the
intrusive queues of `MpscMailbox`; counters and pressure states, which no
wakeup depends on, are left out.
-/
import HPActor.MpscMailbox
import HPActor.Scheduler

namespace HPActor.Wakeup

universe u v w x

variable {N : Type u} {M : Type v} {W : Type w} {L : Type x}

/-- The lanes in the order `dequeue` and `empty` go through all of them, the
orders of the two ways of dropping a message, and the lane of repeated
enqueues. -/
structure Setup (L : Type x) where
  scanOrder : List L
  scans_all : ∀ lane, lane ∈ scanOrder
  dropOldestOrder : List L
  dropLowestOrder : List L
  systemLane : L
  lane0 : L
  rateLimited : Bool := false
  workersPaused : Bool := false

/-- What the threads share.  A queued work item is its sequence number; nodes
are those of producers and those the consumer enqueues itself. -/
structure Shared (N : Type u) (M : Type v) (L : Type x) where
  lanes : L → Mpsc.State (N ⊕ M) := fun _ => {}
  wasEmpty : Bool := true
  locked : Bool := false
  word : ActorState := .idle
  queued : List Nat := []

/-- What a producer's `try_push` decides on admission: refuse (or spill) the
message, drop another one first, or enqueue it. -/
inductive PushChoice (L : Type x) where
  | refuse
  | dropOldest
  | dropLowest
  | enqueue (lane : L)

inductive PushPc (L : Type x) where
  | idle
  | admitting (evicted : Bool)
  | dropLock (order : List L)
  | dropScan (order : List L)
  | dropCheck (rest : List L)
  | dropArm
  | dropUnlock (dropped : Bool)
  | enqueue (lane : L)
  | claim
  | notify (gate : GatePc .tryMarkReady)
  | place
  | done

/-- Where a worker is in `MPSCActorMailbox::dequeue`. -/
inductive DequeuePc (M : Type v) (L : Type x) where
  | lock
  | rearm
  | scan (rest : List L)
  | limiter
  | reenqueue (node : M)
  | disarmDenied
  | unlockDenied
  | checkEmpty (rest : List L)
  | disarm
  | drainOverflow
  | drainEnqueue (node : M)
  | unlock (found : Bool)
  | doubleCheck (found : Bool) (rest : List L)
  | swap (found : Bool)
  | selfNotify (found : Bool) (gate : GatePc .tryMarkReady)
  | selfPlace (found : Bool)
deriving DecidableEq

/-- The two looks of an activation at `empty`. -/
inductive Look where
  | readMore (hasWork : Bool)
  | recheck (lostWakeup : Bool)

def Look.pc : Look → RunnerPc
  | .readMore hasWork => .readMore hasWork
  | .recheck lostWakeup => .recheck lostWakeup

/-- Where a worker is in `execute_actor`: at a position of the activation, in
the pop, or in one of the activation's two looks at `empty`. -/
inductive WorkerPc (M : Type v) (L : Type x) where
  | idle
  | activation (sequence round : Nat) (pc : RunnerPc)
  | popping (sequence round : Nat) (pc : DequeuePc M L)
  | looking (sequence round : Nat) (look : Look) (rest : List L)

/-- What the environment contributes to a step of a worker: the answer of the
limiter or the clock, a node to enqueue, the item taken from the queues. -/
structure WorkAnswer (M : Type v) where
  flag : Bool := false
  node : Option M := none
  index : Nat := 0

variable [DecidableEq N] [DecidableEq M] [DecidableEq L]

section

variable (sh : Shared N M L)

def Shared.setLane (lane : L) (queue : Mpsc.State (N ⊕ M)) : Shared N M L :=
  { sh with lanes := Function.update sh.lanes lane queue }

def Shared.setWasEmpty (value : Bool) : Shared N M L :=
  { sh with wasEmpty := value }

def Shared.setLocked (value : Bool) : Shared N M L :=
  { sh with locked := value }

def Shared.setWord (value : ActorState) : Shared N M L :=
  { sh with word := value }

def Shared.enqueueItem (sequence : Nat) : Shared N M L :=
  { sh with queued := sh.queued ++ [sequence] }

end

variable (sh : Shared N M L) (lane : L)

/-- A step inside the `enqueue` of a lane. -/
def enqueueLane (node : N ⊕ M) : Option (Shared N M L) :=
  (Mpsc.enqueueStep (sh.lanes lane) node).map (sh.setLane lane)

def enqueued (node : N ⊕ M) : Bool :=
  (sh.lanes lane).producer node = .done

/-- A step inside the `dequeue` of a lane. -/
def dequeueLane : Shared N M L :=
  sh.setLane lane (Mpsc.dequeueStep (sh.lanes lane))

/-- The `dequeue` in progress on a lane returns a node with its next step. -/
def returnsNode : Bool :=
  match (sh.lanes lane).consumer with
  | .finish _ => true
  | _ => false

/-- The next step of the `dequeue` in progress on a lane is its last. -/
def returns : Bool :=
  match (Mpsc.dequeueStep (sh.lanes lane)).consumer with
  | .idle => true
  | _ => false

def laneEmpty : Bool :=
  (sh.lanes lane).count = 0

section

variable (setup : Setup L)

def afterClaim (outcome : GateOutcome .tryMarkReady) : PushPc L :=
  match outcome with
  | .again gate => .notify gate
  | .answer .accepted => .place
  | .answer _ => .done

/-- One atomic step of the `try_push` of a node. -/
def pushStep (sh : Shared N M L) (n : N) (choice : PushChoice L) :
    PushPc L → Option (Shared N M L × PushPc L)
  | .idle => some (sh, .admitting false)
  | .admitting evicted =>
    match choice, evicted with
    | .refuse, _ => some (sh, .done)
    | .enqueue lane, _ => some (sh, .enqueue lane)
    | .dropOldest, false => some (sh, .dropLock setup.dropOldestOrder)
    | .dropLowest, false => some (sh, .dropLock setup.dropLowestOrder)
    | _, true => none
  | .dropLock order =>
    if sh.locked then none else some (sh.setLocked true, .dropScan order)
  | .dropScan [] => some (sh, .dropUnlock false)
  | .dropScan (lane :: rest) =>
    some (dequeueLane sh lane,
      if returnsNode sh lane then .dropCheck setup.scanOrder
      else if returns sh lane then .dropScan rest
      else .dropScan (lane :: rest))
  | .dropCheck [] => some (sh, .dropArm)
  | .dropCheck (lane :: rest) =>
    some (sh, if laneEmpty sh lane then .dropCheck rest else .dropUnlock true)
  | .dropArm => some (sh.setWasEmpty true, .dropUnlock true)
  | .dropUnlock dropped =>
    some (sh.setLocked false, if dropped then .admitting true else .done)
  | .enqueue lane =>
    (enqueueLane sh lane (.inl n)).map fun next =>
      (next, if enqueued next lane (.inl n) then .claim else .enqueue lane)
  | .claim =>
    some (if sh.wasEmpty then (sh.setWasEmpty false, .notify .load)
      else (sh, .done))
  | .notify gate =>
    some (sh.setWord (gateStep sh.word gate).1, afterClaim (gateStep sh.word gate).2)
  | .place => some (sh.enqueueItem 0, .done)
  | .done => none

end

section

variable (setup : Setup L)

/-- Where a step of `dequeue` leads: on, or out with its result. -/
inductive PopOutcome (M : Type v) (L : Type x) where
  | on (pc : DequeuePc M L)
  | result (found : Bool)

def afterSelfNotify (found : Bool) : GateOutcome .tryMarkReady → PopOutcome M L
  | .again gate => .on (.selfNotify found gate)
  | .answer .accepted => .on (.selfPlace found)
  | .answer _ => .result found

/-- A message was taken from a lane: user messages pass the rate limiter. -/
def afterTake (lane : L) : DequeuePc M L :=
  if setup.rateLimited && decide (lane ≠ setup.systemLane) then .limiter
  else .checkEmpty setup.scanOrder

variable (sh : Shared N M L)

/-- One atomic step of `MPSCActorMailbox::dequeue`. -/
def popStep (answer : WorkAnswer M) : DequeuePc M L → Option (Shared N M L × PopOutcome M L)
  | .lock =>
    if sh.locked then none else some (sh.setLocked true, .on .rearm)
  | .rearm => some (sh.setWasEmpty true, .on (.scan setup.scanOrder))
  | .scan [] => some (sh, .on (.unlock false))
  | .scan (lane :: rest) =>
    some (dequeueLane sh lane,
      .on (if returnsNode sh lane then afterTake setup lane
        else if returns sh lane then .scan rest
        else .scan (lane :: rest)))
  | .limiter =>
    if answer.flag then some (sh, .on (.checkEmpty setup.scanOrder))
    else answer.node.map fun node => (sh, .on (.reenqueue node))
  | .reenqueue node =>
    (enqueueLane sh setup.lane0 (.inr node)).map fun next =>
      (next, .on (if enqueued next setup.lane0 (.inr node)
        then .disarmDenied else .reenqueue node))
  | .disarmDenied => some (sh.setWasEmpty false, .on .unlockDenied)
  | .unlockDenied => some (sh.setLocked false, .result false)
  | .checkEmpty [] => some (sh, .on .drainOverflow)
  | .checkEmpty (lane :: rest) =>
    some (sh, .on (if laneEmpty sh lane then .checkEmpty rest else .disarm))
  | .disarm => some (sh.setWasEmpty false, .on .drainOverflow)
  | .drainOverflow =>
    match answer.node with
    | none => some (sh, .on (.unlock true))
    | some node => some (sh, .on (.drainEnqueue node))
  | .drainEnqueue node =>
    (enqueueLane sh setup.lane0 (.inr node)).map fun next =>
      (next, .on (if enqueued next setup.lane0 (.inr node)
        then .drainOverflow else .drainEnqueue node))
  | .unlock found =>
    some (sh.setLocked false, .on (.doubleCheck found setup.scanOrder))
  | .doubleCheck found [] => some (sh, .result found)
  | .doubleCheck found (lane :: rest) =>
    some (sh, .on (if laneEmpty sh lane then .doubleCheck found rest else .swap found))
  | .swap found =>
    some (if sh.wasEmpty
      then (sh.setWasEmpty false, .on (.selfNotify found .load))
      else (sh, .result found))
  | .selfNotify found gate =>
    some (sh.setWord (gateStep sh.word gate).1, afterSelfNotify found (gateStep sh.word gate).2)
  | .selfPlace found => some (sh.enqueueItem 0, .result found)

def runContext (sequence : Nat) : RunContext where
  mailboxKind := .variableMpsc
  registered := some .eventBased
  workersPaused := setup.workersPaused
  sequence := sequence

def bumpSequence (sequence : Nat) : Nat :=
  if sequence + 1 ≤ 128 then sequence + 1 else 0

/-- `execute_actor` after an activation. -/
def afterActivation (sequence round : Nat) : ActorRunDisposition → Shared N M L × WorkerPc M L
  | .requeueReady =>
    if (0 < round ∨ setup.workersPaused = false) ∧ round < kBatchLimit then
      (sh, .activation (bumpSequence sequence) (round + 1) .claim)
    else
      (sh.enqueueItem (if setup.workersPaused then bumpSequence sequence else 0), .idle)
  | _ => (sh, .idle)

/-- A step of the activation on the state word; the mailbox exists. -/
def activate (answer : Bool) (sequence round : Nat) (pc : RunnerPc) : Shared N M L × WorkerPc M L :=
  (sh.setWord (runnerStep (runContext setup sequence) answer sh.word pc).1,
    .activation sequence round (runnerStep (runContext setup sequence) answer sh.word pc).2)

/-- A position of the activation: the pop and the two looks at `empty` are
programs of their own. -/
def activationStep (answer : Bool) (sequence round : Nat) : RunnerPc → Shared N M L × WorkerPc M L
  | .consume => (sh, .popping sequence round .lock)
  | .readMore hasWork =>
    (sh, .looking sequence round (.readMore hasWork) setup.scanOrder)
  | .recheck lostWakeup =>
    (sh, .looking sequence round (.recheck lostWakeup) setup.scanOrder)
  | .done disposition => afterActivation setup sh sequence round disposition
  | .lookup => activate setup sh true sequence round .lookup
  | pc => activate setup sh answer sequence round pc

/-- A look at `empty` reads one lane after the other. -/
def lookStep (sequence round : Nat) (look : Look) : List L → Shared N M L × WorkerPc M L
  | [] => activate setup sh false sequence round look.pc
  | lane :: rest =>
    if laneEmpty sh lane then (sh, .looking sequence round look rest)
    else activate setup sh true sequence round look.pc

def afterPop (sequence round : Nat) : PopOutcome M L → WorkerPc M L
  | .on pc => .popping sequence round pc
  | .result found =>
    .activation sequence round (afterConsume .variableMpsc found)

/-- One atomic step of a worker; an idle worker takes a queued item. -/
def workStep (answer : WorkAnswer M) : WorkerPc M L → Option (Shared N M L × WorkerPc M L)
  | .idle =>
    (sh.queued[answer.index]?).map fun sequence =>
      ({ sh with queued := sh.queued.eraseIdx answer.index }, .activation sequence 0 .claim)
  | .activation sequence round pc =>
    some (activationStep setup sh answer.flag sequence round pc)
  | .looking sequence round look rest =>
    some (lookStep setup sh sequence round look rest)
  | .popping sequence round pc =>
    (popStep setup sh answer pc).map fun next =>
      (next.1, afterPop sequence round next.2)

end

structure State (N : Type u) (M : Type v) (W : Type w) (L : Type x) where
  shared : Shared N M L := {}
  pushers : N → PushPc L := fun _ => .idle
  workers : W → WorkerPc M L := fun _ => .idle

inductive Act (N : Type u) (M : Type v) (W : Type w) (L : Type x) where
  | push (n : N) (choice : PushChoice L)
  | work (w : W) (answer : WorkAnswer M)

variable [DecidableEq W]

def State.movePusher (s : State N M W L) (n : N) (next : Shared N M L)
    (pc : PushPc L) : State N M W L :=
  { s with shared := next, pushers := Function.update s.pushers n pc }

def State.moveWorker (s : State N M W L) (w : W) (next : Shared N M L)
    (pc : WorkerPc M L) : State N M W L :=
  { s with shared := next, workers := Function.update s.workers w pc }

def step (setup : Setup L) (s : State N M W L) : Act N M W L → Option (State N M W L)
  | .push n choice =>
    (pushStep setup s.shared n choice (s.pushers n)).map fun next =>
      s.movePusher n next.1 next.2
  | .work w answer =>
    (workStep setup s.shared answer (s.workers w)).map fun next =>
      s.moveWorker w next.1 next.2

end HPActor.Wakeup
