/-
`HybridScheduler` as a system of threads: notifications, `pop_local`,
`try_steal`, the threads of dedicated pools and `execute_actor`, interleaved
over the state words of the actors and the queues of the placement layer.
-/
import HPActor.Message
import HPActor.WorkPlacement
import HPActor.Runs

namespace HPActor

universe u v

variable {T : Type u} {K : Type v}

def kBatchLimit : Nat := 63

structure SchedulerSetup (K : Type v) extends PlacementSetup K where
  registered : K → Option ActorClass
  mailboxKind : K → MailboxKind := fun _ => .variableMpsc

/-- The shared words and queues, the position of every thread and two ghost
logs: the admissions with their tickets, and the tickets whose items reached
`execute_actor`. -/
structure SchedulerState (T : Type u) (K : Type v) where
  words : K → ActorState := fun _ => .idle
  store : QueueId → List (Entry K) := fun _ => []
  threads : T → ThreadPc K := fun _ => .idle
  counters : Counters := {}
  running : Bool := true
  paused : Bool := false
  admitted : List (K × Nat) := []
  executed : List Nat := []

inductive NotifyKind where
  | notifyReady
  | notifyReadyFast
  | notifyReadyEdf
deriving Repr, DecidableEq

/-- A call a thread of the scheduler starts. -/
inductive Call (K : Type v) where
  | notify (kind : NotifyKind) (actor : K) (priority : UInt8) (deadlineNs : Int)
  | execute (item : WorkItem K)
  | popLocal (worker : Nat)
  | trySteal
  | takePool (pool thread : Nat)

/-- What the environment contributes to a step: the answer of a mailbox, and
the victim that the stealing table names. -/
structure Answer where
  flag : Bool := false
  victim : Nat := 0

inductive SchedulerAct (T : Type u) (K : Type v) where
  | begin (t : T) (call : Call K)
  | advance (t : T) (answer : Answer)
  | control (running paused : Bool)

def notifyItem (kind : NotifyKind) (actor : K) (deadlineNs : Int) : WorkItem K :=
  { actor, deadlineNs
    edfScheduled := kind = .notifyReadyEdf
    actorPtr := kind = .notifyReadyFast }

def Entry.stamp (entry : Entry K) (ticket : Nat) : Entry K :=
  { entry with item := { entry.item with ticket := some ticket } }

section

variable (setup : SchedulerSetup K) (s : SchedulerState T K)

/-- Enter `enqueue_admitted` with an entry; the admission is logged. -/
def enqueueItem (entry : Entry K) : Effect K :=
  { pc := .placing (entry.stamp s.admitted.length) .choose
    admits := some entry.item.actor }

/-- A notification after an access of the gate. -/
def afterNotify (entry : Entry K) (word : Option (K × ActorState)) :
    GateOutcome .tryMarkReady → Effect K
  | .again gate => { pc := .notifying entry gate, word }
  | .answer .accepted => { enqueueItem s entry with word }
  | .answer _ => { pc := .idle, word }

def beginCall : Call K → Effect K
  | .notify kind actor priority deadlineNs =>
    if s.running then
      afterNotify s ⟨notifyItem kind actor deadlineNs, priority⟩ none
        (tryMarkReady (setup.registered actor))
    else { pc := .idle }
  | .execute item => { pc := .dispatch ⟨{ item with ticket := none }, 0⟩ }
  | .popLocal worker => { pc := .drainRing worker }
  | .trySteal => { pc := .stealEdf 0 }
  | .takePool pool thread => takeFront s.store (.dedicatedPool pool thread) .idle

variable (item : WorkItem K)

def runContext (paused : Bool) : RunContext where
  mailboxKind := setup.mailboxKind item.actor
  registered := setup.registered item.actor
  workersPaused := paused
  sequence := item.sequence

/-- The class of the actor an item is executed on; a direct pointer needs no
lookup. -/
def executeClass : Option ActorClass :=
  if item.actorPtr then some .eventBased else setup.registered item.actor

def startExecute (entry : Entry K) : Effect K :=
  { pc :=
      match executeClass setup entry.item with
      | some .eventBased => .executing entry.item 0 s.paused .claim
      | _ => .idle
    executes := entry.item.ticket }

def WorkItem.bumpSequence : WorkItem K :=
  { item with
    sequence := if item.sequence + 1 ≤ 128 then item.sequence + 1 else 0
    deadlineNs := int64Max }

def WorkItem.resetSequence : WorkItem K :=
  { item with sequence := 0, deadlineNs := int64Max }

/-- `execute_actor` after an activation: the batch loop reruns the actor while
it asks for a requeue; the flag `workers_paused_` is read in front of the loop
and again for the sequence of the requeued item. -/
def afterRun (round : Nat) (paused : Bool) : ActorRunDisposition → Effect K
  | .requeueReady =>
    if (0 < round ∨ s.paused = false) ∧ round < kBatchLimit then
      { pc := .executing item.bumpSequence (round + 1) paused .claim }
    else if s.paused then enqueueItem s ⟨item.bumpSequence, 0⟩
    else enqueueItem s ⟨item.resetSequence, 0⟩
  | _ => { pc := .idle }

def executeStep (answer : Answer) (item : WorkItem K) (round : Nat)
    (paused : Bool) : RunnerPc → Effect K
  | .done disposition => afterRun s item round paused disposition
  | pc =>
    { pc := .executing item round paused
        (runnerStep (runContext setup item paused) answer.flag (s.words item.actor) pc).2
      word := some (item.actor,
        (runnerStep (runContext setup item paused) answer.flag (s.words item.actor) pc).1) }

theorem executeStep_of_ne_done (answer : Answer) (item : WorkItem K) (round : Nat) (paused : Bool)
    {pc : RunnerPc} (hpc : ∀ disposition, pc ≠ .done disposition) :
    executeStep setup s answer item round paused pc =
      { pc := .executing item round paused
          (runnerStep (runContext setup item paused) answer.flag (s.words item.actor) pc).2
        word := some (item.actor,
          (runnerStep (runContext setup item paused) answer.flag (s.words item.actor) pc).1) } := by
  cases pc with
  | done disposition => exact absurd rfl (hpc disposition)
  | _ => rfl

def threadStep (answer : Answer) : ThreadPc K → Effect K
  | .idle => { pc := .idle }
  | .notifying entry gate =>
    afterNotify s entry (some (entry.item.actor, (gateStep (s.words entry.item.actor) gate).1))
      (gateStep (s.words entry.item.actor) gate).2
  | .placing entry pc =>
    enqueueAdmitted setup.toPlacementSetup s.store s.counters s.paused entry pc
  | .drainRing worker => drainRing s.store worker
  | .moveRing worker entry =>
    pushBottom setup.toPlacementSetup s.store worker entry (.drainRing worker)
  | .takeStack worker =>
    { pc := .drainStack worker (s.store (.sharedInput worker)).reverse
      queue := some (.sharedInput worker, []) }
  | .drainStack worker entries =>
    drainStack setup.toPlacementSetup s.store worker entries
  | .popEdf worker => takeFront s.store (.edfQueue worker) (.popDeque worker 0)
  | .popDeque worker priority =>
    if priority < setup.numPriorities then
      popBottom s.store (.deque worker priority) (.popDeque worker (priority + 1))
    else { pc := .idle }
  | .stealEdf attempt =>
    if attempt < setup.numWorkers then
      takeFront s.store (.edfQueue answer.victim) (.stealDeque attempt answer.victim 0)
    else { pc := .idle }
  | .stealDeque attempt victim priority =>
    if priority < setup.numPriorities then
      takeFront s.store (.deque victim priority) (.stealDeque attempt victim (priority + 1))
    else { pc := .stealEdf (attempt + 1) }
  | .dispatch entry => startExecute setup s entry
  | .executing item round paused pc =>
    executeStep setup s answer item round paused pc

end

variable [DecidableEq T] [DecidableEq K]

def writeWord (words : K → ActorState) : Option (K × ActorState) → K → ActorState
  | none => words
  | some (actor, word) => Function.update words actor word

def writeQueue (store : QueueId → List (Entry K)) :
    Option (QueueId × List (Entry K)) → QueueId → List (Entry K)
  | none => store
  | some (queue, entries) => Function.update store queue entries

/-- The system after the step of one thread. -/
def SchedulerState.apply (s : SchedulerState T K) (t : T) (effect : Effect K) :
    SchedulerState T K :=
  { s with
    words := writeWord s.words effect.word
    store := writeQueue s.store effect.queue
    threads := Function.update s.threads t effect.pc
    counters := effect.counters.getD s.counters
    admitted := s.admitted ++ (effect.admits.map fun actor => (actor, s.admitted.length)).toList
    executed := s.executed ++ effect.executes.toList }

/-- One step of the system.  A call is begun by a thread that is in none. -/
def schedulerStep (setup : SchedulerSetup K) (s : SchedulerState T K) :
    SchedulerAct T K → Option (SchedulerState T K)
  | .begin t call =>
    if s.threads t = .idle then some (s.apply t (beginCall setup s call))
    else none
  | .advance t answer =>
    some (s.apply t (threadStep setup s answer (s.threads t)))
  | .control running paused => some { s with running, paused }

end HPActor
