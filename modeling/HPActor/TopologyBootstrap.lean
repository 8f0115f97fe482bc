/-
`TopologyBootstrapTransaction::execute`: the actors of a topology are spawned one
by one, named together and committed together; after a failure they are rolled
back in reverse order.

The transaction holds each actor by an `ActorSpawnLease`, which is moved from the
provider's result into a journal entry and from there into the journal, and whose
destructor rolls back what was not committed.  Providers differ in what they
return for an actor they have spawned: an actor that was adopted unpublished comes
with a lease that names it, while the built-in C++ provider publishes the actor
itself and returns an empty lease.
-/
import HPActor.ActorDirectory

namespace HPActor

/-- The lease, and whether its pointer to the directory is set. -/
structure ActorSpawnLease where
  actorId : UInt64 := 0
  hasDirectory : Bool := false
  committed : Bool := false

namespace ActorSpawnLease

variable (lease : ActorSpawnLease)

def empty : Bool := lease.actorId = 0

def commit : ActorSpawnLease :=
  if lease.committed || lease.empty then lease
  else { lease with committed := true }

def rollback (directory : ActorDirectory) : ActorSpawnLease × ActorDirectory :=
  if lease.committed || lease.empty then (lease, directory)
  else
    ({ lease with committed := true },
      if lease.hasDirectory ∧ lease.actorId ≠ 0 then
        (directory.erase lease.actorId).2
      else directory)

/-- What a move leaves of its source. -/
def movedFrom : ActorSpawnLease :=
  { lease with committed := true, hasDirectory := false }

/-- The destructor. -/
def destroy (directory : ActorDirectory) : ActorDirectory :=
  (lease.rollback directory).2

/-- Move assignment to `old`: it is rolled back before it takes over. -/
def moveAssign (old source : ActorSpawnLease) (directory : ActorDirectory) :
    ActorSpawnLease × ActorDirectory :=
  (source, (old.rollback directory).2)

end ActorSpawnLease

inductive ConfiguredActorProviderKind where
  | builtinCpp
  | external
deriving Repr, DecidableEq

structure ConfiguredActorPlan where
  topologyIndex : Nat
  provider : ConfiguredActorProviderKind := .builtinCpp
  providerToken : UInt64 := 0
  argsFingerprint : UInt64 := 0
deriving Repr, DecidableEq

/-- What a provider does when it is asked to spawn an actor.  The ids come from
the directory's counter, which starts at one. -/
inductive SpawnOutcome where
  | failed
  /-- `ActorSpawner::adopt_unpublished`, with a lease for the actor. -/
  | adopted (address : ActorAddress) (hid : address.id ≠ 0)
  /-- `ActorSystem::spawn_configured`, with an empty lease. -/
  | publishedAlready (address : ActorAddress) (hid : address.id ≠ 0)

/-- A provider: whether its port is set, and how it behaves for the plan at each
position. -/
structure ConfiguredActorProviderPort where
  installed : Bool := true
  spawnUnpublished : Nat → SpawnOutcome
  awaitReady : Nat → Bool

/-- An actor that was spawned, and whether its lease names it. -/
structure SpawnedActor where
  plan : ConfiguredActorPlan
  address : ActorAddress
  leased : Bool
deriving Repr, DecidableEq

/-- A call of a provider's `rollback_actor`. -/
structure RollbackCall where
  provider : ConfiguredActorProviderKind
  actorId : UInt64
  plan : ConfiguredActorPlan

structure JournalEntry where
  lease : ActorSpawnLease
  name : String
  actorId : UInt64
  topologyIndex : Nat
  spawned : Bool

inductive BootstrapError where
  | invalidArgument (message : String)
  | unknown (message : String)

structure TopologyBootstrapResult where
  fingerprint : UInt64
  actorCount : Nat

/-- The transaction under way: the directory, the journal, and what the
providers were asked to do. -/
structure Bootstrap where
  directory : ActorDirectory
  journal : List JournalEntry := []
  spawned : List SpawnedActor := []
  rollbacks : List RollbackCall := []

/-- What the transaction is given. -/
structure BootstrapSetup where
  /-- The ids of the actor definitions of the model. -/
  actors : List String
  specs : List ConfiguredActorPlan
  effectiveFp : UInt64 := 0
  cppProvider : ConfiguredActorProviderPort
  externalProvider : ConfiguredActorProviderPort

namespace BootstrapSetup

variable (setup : BootstrapSetup)

def chooseProvider (plan : ConfiguredActorPlan) : Option ConfiguredActorProviderPort :=
  match plan.provider with
  | .external =>
    if setup.externalProvider.installed then some setup.externalProvider
    else none
  | .builtinCpp =>
    if setup.cppProvider.installed then some setup.cppProvider else none

/-- `spawn_unpublished`: the lease of the result, the directory after it, and
the actor. -/
def spawnUnpublished (outcome : SpawnOutcome) (plan : ConfiguredActorPlan)
    (directory : ActorDirectory) :
    Option (ActorSpawnLease × ActorDirectory × SpawnedActor) :=
  match outcome with
  | .failed => none
  | .adopted address _ =>
    match directory.publish ⟨address⟩ none with
    | (.published, next) =>
      some ({ actorId := address.id, hasDirectory := true }, next,
        { plan, address, leased := true })
    | _ => none
  | .publishedAlready address _ =>
    some ({}, (directory.insert ⟨address⟩).2,
      { plan, address, leased := false })

/-- One round of the spawn loop; `false` jumps to the rollback.  An entry whose
actor is not ready is still put into the journal. -/
def spawnOne (i : Nat) (plan : ConfiguredActorPlan) (b : Bootstrap) : Bool × Bootstrap :=
  match setup.chooseProvider plan with
  | none => (false, b)
  | some provider =>
    match spawnUnpublished (provider.spawnUnpublished i) plan b.directory with
    | none => (false, b)
    | some (result, spawnDirectory, actor) =>
      -- entry.lease takes over from the result, the journal from the entry;
      -- what is left of both is destroyed at the end of the round
      let (lease, directory) :=
        ActorSpawnLease.moveAssign {} result spawnDirectory
      let entry : JournalEntry :=
        { lease
          name := setup.actors.getD plan.topologyIndex ""
          actorId := lease.actorId
          topologyIndex := plan.topologyIndex
          spawned := true }
      (provider.awaitReady i,
        { b with
          directory :=
            result.movedFrom.destroy (lease.movedFrom.destroy directory)
          journal := b.journal ++ [entry]
          spawned := b.spawned ++ [actor] })

def spawnAll : Nat → List ConfiguredActorPlan → Bootstrap → Bool × Bootstrap
  | _, [], b => (true, b)
  | i, plan :: rest, b =>
    match setup.spawnOne i plan b with
    | (true, next) => spawnAll (i + 1) rest next
    | (false, next) => (false, next)

variable (b : Bootstrap)

/-- One round of the rollback loop, which finds the plan by its index. -/
def rollbackEntry (entry : JournalEntry) : Bootstrap :=
  if entry.spawned then
    { b with
      directory := (entry.lease.rollback b.directory).2
      journal :=
        { entry with lease := (entry.lease.rollback b.directory).1 } :: b.journal
      rollbacks := b.rollbacks ++
        match setup.specs.find? (·.topologyIndex = entry.topologyIndex) with
        | none => []
        | some plan =>
          match setup.chooseProvider plan with
          | none => []
          | some _ => [{ provider := plan.provider, actorId := entry.actorId, plan }] }
  else { b with journal := entry :: b.journal }

/-- The rollback of the whole journal, last entry first. -/
def rollbackAll : Bootstrap :=
  b.journal.reverse.foldl setup.rollbackEntry { b with journal := [] }

def fail : Except BootstrapError TopologyBootstrapResult × Bootstrap :=
  (.error (.unknown "topology bootstrap failed"), setup.rollbackAll b)

def commitAll : Bootstrap :=
  { b with
    journal := b.journal.map fun entry =>
      { entry with lease := entry.lease.commit } }

def succeed : Except BootstrapError TopologyBootstrapResult × Bootstrap :=
  (.ok
    { fingerprint := setup.effectiveFp, actorCount := setup.specs.length },
    commitAll b)

/-- The names of the journal that are not empty. -/
def namesOf (journal : List JournalEntry) : List ActorDirectory.NamedActor :=
  (journal.filter (·.name ≠ "")).map fun entry => ⟨entry.name, entry.actorId⟩

def execute (directory : ActorDirectory) :
    Except BootstrapError TopologyBootstrapResult × Bootstrap :=
  if setup.specs.length ≠ setup.actors.length then
    (.error (.invalidArgument "spec count != actor count"), { directory })
  else
    match setup.spawnAll 0 setup.specs { directory } with
    | (false, b) => setup.fail b
    | (true, b) =>
      if namesOf b.journal = [] then setup.succeed b
      else
        match b.directory.registerNamesAtomically (namesOf b.journal) with
        | (false, _) => setup.fail b
        | (true, named) => setup.succeed { b with directory := named }

/-- The directory when the journal has been destroyed. -/
def afterDestruction : ActorDirectory :=
  b.journal.foldl (fun directory entry => entry.lease.destroy directory) b.directory

end BootstrapSetup

end HPActor
