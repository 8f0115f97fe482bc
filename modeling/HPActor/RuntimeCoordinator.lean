/-
`RuntimeCoordinator`: the startup stages of a runtime, started in the order of
their registration and rolled back in the reverse order.

Rollbacks are run at four places: a failed start takes back the stages it had
started, while `stop`, `shutdown` and the destructor go through all stages.
What the actions did is kept in a log with one episode for each call.
-/
import HPActor.Machines

namespace HPActor

inductive RuntimeLifecycleState where
  | built
  | preflighting
  | starting
  | running
  | rollingBack
  | failed
  | draining
  | stopping
  | stopped
deriving Repr, DecidableEq

/-- A stage, with the actions it has. -/
structure RuntimeLifecycleStage where
  name : String
  start : Bool := true
  rollback : Bool := true
  destroyContext : Bool := false

/-- What happened to the stage of an index.  A stage without a start action
counts as started when its turn comes. -/
inductive StageEvent where
  | started (stage : Nat)
  | startFailed (stage : Nat)
  | rolledBack (stage : Nat)
  | contextFreed (stage : Nat)
deriving Repr, DecidableEq

inductive LifecycleError where
  | invalidArgument (message : String)
  | actorDown (message : String)

structure RuntimeCoordinator where
  stages : List RuntimeLifecycleStage
  state : RuntimeLifecycleState := .built
  epoch : Nat := 0
  ready : Bool := false
  primaryError : Nat := 0
  lastStage : Option String := none
  episodes : List (List StageEvent) := []

/-- What the loop over the start actions did. -/
structure StartRun where
  events : List StageEvent
  failedAt : Option Nat
  lastStage : Option String

namespace RuntimeCoordinator

variable (c : RuntimeCoordinator)

def transitionTo (newState : RuntimeLifecycleState) : RuntimeCoordinator :=
  { c with
    state := newState, epoch := c.epoch + 1, ready := newState = .running }

def record (episode : List StageEvent) : RuntimeCoordinator :=
  { c with episodes := c.episodes ++ [episode] }

def hasRollback (stages : List RuntimeLifecycleStage) (i : Nat) : Bool :=
  stages[i]?.any (·.rollback)

/-- The rollback actions of the first `completedCount` stages, last first. -/
def rollback (stages : List RuntimeLifecycleStage) : Nat → List StageEvent
  | 0 => []
  | i + 1 =>
    (if hasRollback stages i then [.rolledBack i] else []) ++ rollback stages i

/-- The start actions from stage `i` on; `outcome` is what they return. -/
def startStages (outcome : Nat → Bool) : Nat → Option String → List RuntimeLifecycleStage → StartRun
  | _, lastStage, [] => { events := [], failedAt := none, lastStage }
  | i, _, stage :: rest =>
    if stage.start = true ∧ outcome i = false then
      { events := [.startFailed i], failedAt := some i, lastStage := stage.name }
    else
      { startStages outcome (i + 1) (some stage.name) rest with
        events := .started i :: (startStages outcome (i + 1) (some stage.name) rest).events }

def start (outcome : Nat → Bool) : Except LifecycleError Unit × RuntimeCoordinator :=
  if c.state ≠ .built ∧ c.state ≠ .failed then
    (.error (.invalidArgument "coordinator already started"), c)
  else
    let startRun := startStages outcome 0 c.lastStage c.stages
    let starting := { c.transitionTo .starting with lastStage := startRun.lastStage }
    match startRun.failedAt with
    | some i =>
      (.error (.actorDown "startup stage failed"),
        { (starting.record (startRun.events ++ rollback c.stages i)).transitionTo .failed with
          primaryError := 1 })
    | none => (.ok (), (starting.record startRun.events).transitionTo .running)

/-- The rollback actions of all stages, on the way to `stopped`. -/
def unwindAll : RuntimeCoordinator :=
  ((c.transitionTo .stopping).record (rollback c.stages c.stages.length)).transitionTo .stopped

def stop : RuntimeCoordinator :=
  if c.state = .stopped then c
  else if c.state = .running then (c.transitionTo .draining).unwindAll
  else c.unwindAll

def shutdown : RuntimeCoordinator :=
  if c.state = .stopped then c
  else if c.state = .built ∨ c.state = .failed then c.stop
  else if c.state = .running then
    ({ c with ready := false }.transitionTo .draining).unwindAll
  else c.unwindAll

def freeContexts (stages : List RuntimeLifecycleStage) : List StageEvent :=
  (List.range stages.length).filterMap fun i =>
    if stages[i]?.any (·.destroyContext) then some (.contextFreed i) else none

/-- The destructor looks at no state. -/
def destroy : RuntimeCoordinator :=
  c.record (rollback c.stages c.stages.length ++ freeContexts c.stages)

/-- The calls on a coordinator; a start comes with the outcomes of its
actions. -/
inductive Call where
  | start (outcome : Nat → Bool)
  | stop
  | shutdown

def apply : Call → RuntimeCoordinator
  | .start outcome => (c.start outcome).2
  | .stop => c.stop
  | .shutdown => c.shutdown

/-- All that happened, in its order. -/
def log : List StageEvent := c.episodes.flatten

end RuntimeCoordinator

end HPActor
