/-
Singletons of a cluster under a leadership backend.  Each node has a manager
with an adapter to the one backend, which hands out leases with rising fencing
tokens.  A change of the node states makes a manager ask for every singleton;
it copies the token of the lease when it becomes active, and not again while
it stays active.

The backend of the tests never expires a lease by itself: a lease that expires
is one that is released or revoked.
-/
import HPActor.Runs
import Mathlib.Data.List.Perm.Basic

namespace HPActor

open Function

structure LeadershipLease where
  singletonName : String
  ownerNodeId : String
  fencingToken : Nat
deriving Repr, DecidableEq

/-- The codes the backend of the tests answers with. -/
inductive LeadershipStatusCode where
  | granted
  | alreadyOwned
  | renewed
  | released
  | lost
  | notOwner
  | backendUnavailable

structure LeadershipResult where
  status : LeadershipStatusCode := .notOwner
  lease : Option LeadershipLease := none
  currentOwner : Option String := none

namespace LeadershipResult

def granted (lease : LeadershipLease) : LeadershipResult :=
  { status := .granted, lease := some lease }

def renewed (lease : LeadershipLease) : LeadershipResult :=
  { status := .renewed, lease := some lease }

def alreadyOwned (owner : String) (lease : LeadershipLease) : LeadershipResult :=
  { status := .alreadyOwned, lease := some lease, currentOwner := some owner }

def released : LeadershipResult := { status := .released }
def lost : LeadershipResult := { status := .lost }
def unavailable : LeadershipResult := { status := .backendUnavailable }

end LeadershipResult

structure StoredLease where
  lease : LeadershipLease
  owned : Bool := false

structure FakeLeadershipBackend where
  leases : String → Option StoredLease := fun _ => none
  nextToken : Nat := 1
  unavailable : Bool := false

namespace FakeLeadershipBackend

variable (b : FakeLeadershipBackend)

/-- Store a lease that took the next token. -/
def issue (name : String) (stored : StoredLease) : FakeLeadershipBackend :=
  { b with
    leases := update b.leases name (some stored)
    nextToken := b.nextToken + 1 }

def tryAcquire (singletonName selfNodeId : String) : FakeLeadershipBackend × LeadershipResult :=
  if b.unavailable then (b, .unavailable)
  else
    match b.leases singletonName with
    | none => (b, {})
    | some stored =>
      if stored.owned then
        if stored.lease.ownerNodeId = selfNodeId then
          (b, .granted stored.lease)
        else (b, .alreadyOwned stored.lease.ownerNodeId stored.lease)
      else
        let lease : LeadershipLease :=
          { singletonName := singletonName, ownerNodeId := selfNodeId,
            fencingToken := b.nextToken }
        (b.issue singletonName { lease := lease, owned := true }, .granted lease)

/-- A renewal takes a new token. -/
def renew (lease : LeadershipLease) : FakeLeadershipBackend × LeadershipResult :=
  if b.unavailable then (b, .unavailable)
  else
    match b.leases lease.singletonName with
    | none => (b, .lost)
    | some stored =>
      if stored.owned then
        if stored.lease.ownerNodeId = lease.ownerNodeId then
          let next := { stored.lease with fencingToken := b.nextToken }
          (b.issue lease.singletonName { stored with lease := next }, .renewed next)
        else (b, .lost)
      else (b, .lost)

def release (lease : LeadershipLease) : FakeLeadershipBackend × LeadershipResult :=
  if b.unavailable then (b, .unavailable)
  else
    match b.leases lease.singletonName with
    | none => (b, .released)
    | some stored =>
      if stored.owned then
        if stored.lease.ownerNodeId = lease.ownerNodeId then
          let free : StoredLease := { stored with owned := false }
          let leases := update b.leases lease.singletonName (some free)
          ({ b with leases := leases }, .released)
        else (b, .lost)
      else (b, .released)

def forceGrant (singletonName ownerNodeId : String) : FakeLeadershipBackend :=
  let lease : LeadershipLease :=
    { singletonName := singletonName, ownerNodeId := ownerNodeId,
      fencingToken := b.nextToken }
  b.issue singletonName { lease := lease, owned := true }

def forceRevoke (singletonName : String) : FakeLeadershipBackend :=
  { b with leases := update b.leases singletonName none }

def simulateUnavailable (unavailable : Bool) : FakeLeadershipBackend :=
  { b with unavailable := unavailable }

/-- The lease of a singleton, if some node owns it. -/
def ownedLease (name : String) : Option LeadershipLease :=
  match b.leases name with
  | none => none
  | some stored => if stored.owned then some stored.lease else none

/-- An entry that the next node to ask becomes the owner of. -/
def Vacant (name : String) : Prop :=
  ∃ stored, b.leases name = some stored ∧ stored.owned = false

end FakeLeadershipBackend

structure LeadershipBackendAdapter where
  selfNodeId : String
  leases : String → Option LeadershipLease := fun _ => none

namespace LeadershipBackendAdapter

def remember (a : LeadershipBackendAdapter) (name : String)
    (lease : Option LeadershipLease) : LeadershipBackendAdapter :=
  { a with leases := update a.leases name lease }

/-- The backend decides; the alive nodes are not looked at. -/
def elect (a : LeadershipBackendAdapter) (b : FakeLeadershipBackend) (name : String) :
    LeadershipBackendAdapter × FakeLeadershipBackend × Option String :=
  let (b, result) := b.tryAcquire name a.selfNodeId
  match result.status, result.lease with
  | .granted, some lease =>
    (a.remember name (some lease), b, some lease.ownerNodeId)
  | .alreadyOwned, some lease =>
    (a.remember name (some lease), b, result.currentOwner)
  | .alreadyOwned, none => (a, b, result.currentOwner)
  | .renewed, some lease =>
    (a.remember name (some lease), b, some lease.ownerNodeId)
  | _, _ => (a.remember name none, b, none)

def getFencingToken (a : LeadershipBackendAdapter) (name : String) : Nat :=
  match a.leases name with
  | none => 0
  | some lease => lease.fencingToken

end LeadershipBackendAdapter

structure SingletonIdentity where
  name : String
  fencingToken : Nat := 0
deriving Repr, DecidableEq

inductive SingletonState where
  | standby
  | activating
  | active
  | draining
deriving Repr, DecidableEq

structure SingletonRecord where
  identity : SingletonIdentity
  state : SingletonState := .standby
deriving Repr, DecidableEq

namespace SingletonRecord

variable (record : SingletonRecord)

/-- Standby and activating records become active in the same call. -/
def isWaiting : Bool :=
  record.state = .standby || record.state = .activating

/-- Activation prefers the token of the backend. -/
def activate (backendToken : Nat) : SingletonRecord :=
  { identity :=
      { record.identity with
        fencingToken :=
          if 0 < backendToken then backendToken
          else record.identity.fencingToken + 1 }
    state := .active }

def win (backendToken : Nat) : SingletonRecord :=
  if record.isWaiting then record.activate backendToken else record

def lose : SingletonRecord :=
  if record.state = .active ∨ record.state = .draining then
    { record with state := .standby }
  else record

end SingletonRecord

/-- `names` are the keys of the table of singletons. -/
structure SingletonManagerCore where
  selfNode : String
  election : LeadershipBackendAdapter
  names : List String := []
  singletons : String → Option SingletonRecord := fun _ => none

namespace SingletonManagerCore

variable (m : SingletonManagerCore)

def setRecord (name : String) (record : SingletonRecord) : SingletonManagerCore :=
  { m with singletons := update m.singletons name (some record) }

def setElection (election : LeadershipBackendAdapter) : SingletonManagerCore :=
  { m with election := election }

def registerSingleton (id : SingletonIdentity) : SingletonManagerCore :=
  match m.singletons id.name with
  | some _ => m
  | none =>
    { m.setRecord id.name { identity := id } with names := id.name :: m.names }

def beginDrain (name : String) : SingletonManagerCore :=
  match m.singletons name with
  | none => m
  | some record =>
    if record.state = .active then
      m.setRecord name { record with state := .draining }
    else m

def completeDrain (name : String) : SingletonManagerCore :=
  match m.singletons name with
  | none => m
  | some record =>
    if record.state = .draining then
      m.setRecord name { record with state := .standby }
    else m

end SingletonManagerCore

/-- A singleton that became active on a node, and the token it uses. -/
structure Activation where
  name : String
  node : String
  token : Nat

/-- The managers of all nodes and their backend.  `activations` is a ghost
field, the activations so far in their order. -/
structure SingletonCluster where
  backend : FakeLeadershipBackend := {}
  managers : String → SingletonManagerCore := fun node =>
    { selfNode := node, election := { selfNodeId := node } }
  activations : List Activation := []

namespace SingletonCluster

variable (s : SingletonCluster) (node name : String)

def setBackend (backend : FakeLeadershipBackend) : SingletonCluster :=
  { s with backend := backend }

def setManager (node : String) (manager : SingletonManagerCore) : SingletonCluster :=
  { s with managers := update s.managers node manager }

def recordAt : Option SingletonRecord :=
  (s.managers node).singletons name

/-- One iteration of `on_node_state_change`. -/
def electOne (node : String) (s : SingletonCluster) (name : String) : SingletonCluster :=
  let manager := s.managers node
  match manager.singletons name with
  | none => s
  | some record =>
    let (election, backend, winner) := manager.election.elect s.backend name
    let manager := manager.setElection election
    let s := s.setBackend backend
    if winner = some manager.selfNode then
      let won := record.win (election.getFencingToken name)
      let s := s.setManager node (manager.setRecord name won)
      if record.isWaiting then
        { s with
          activations := s.activations ++ [⟨name, node, won.identity.fencingToken⟩] }
      else s
    else s.setManager node (manager.setRecord name record.lose)

inductive Action where
  | registerSingleton (node : String) (id : SingletonIdentity)
  | onNodeStateChange (node : String) (order : List String)
  | beginDrain (node name : String)
  | completeDrain (node name : String)
  | renew (lease : LeadershipLease)
  | release (lease : LeadershipLease)
  | forceGrant (singletonName ownerNodeId : String)
  | forceRevoke (singletonName : String)
  | simulateUnavailable (unavailable : Bool)

/-- A change of the node states goes through the table in the order in which
the hash table has its keys, whatever that is. -/
def step : Action → Option SingletonCluster
  | .registerSingleton node id =>
    some (s.setManager node ((s.managers node).registerSingleton id))
  | .onNodeStateChange node order =>
    if order.Perm (s.managers node).names then
      some (order.foldl (electOne node) s)
    else none
  | .beginDrain node name =>
    some (s.setManager node ((s.managers node).beginDrain name))
  | .completeDrain node name =>
    some (s.setManager node ((s.managers node).completeDrain name))
  | .renew lease => some (s.setBackend (s.backend.renew lease).1)
  | .release lease => some (s.setBackend (s.backend.release lease).1)
  | .forceGrant singletonName ownerNodeId =>
    some (s.setBackend (s.backend.forceGrant singletonName ownerNodeId))
  | .forceRevoke singletonName =>
    some (s.setBackend (s.backend.forceRevoke singletonName))
  | .simulateUnavailable unavailable =>
    some (s.setBackend (s.backend.simulateUnavailable unavailable))

/-- A node is active for a singleton. -/
def IsActive : Prop :=
  ∃ record, s.recordAt node name = some record ∧ record.state = .active

/-- A node is active or draining under a lease that it owns. -/
def Holds : Prop :=
  ∃ record lease, s.recordAt node name = some record ∧
    s.backend.ownedLease name = some lease ∧ record.isWaiting = false ∧
    lease.ownerNodeId = node ∧
    record.identity.fencingToken = lease.fencingToken

/-- What a node's manager may find when it asks for a singleton: an active one
does not come by a new lease, and none stands down from a lease it holds. -/
def AskWell : Prop :=
  (s.IsActive node name → ¬ s.backend.Vacant name) ∧
    (s.backend.unavailable = true → ¬ s.Holds node name)

/-- The token of a lease does not change while its owner is active, and a
drain is completed only after the lease is gone. -/
def Careful : Action → Prop
  | .onNodeStateChange node order => ∀ name ∈ order, s.AskWell node name
  | .completeDrain node name => ¬ s.Holds node name
  | .renew lease => ¬ s.IsActive lease.ownerNodeId lease.singletonName
  | .forceGrant singletonName ownerNodeId =>
    ¬ s.IsActive ownerNodeId singletonName
  | _ => True

instance (b : FakeLeadershipBackend) (name : String) : Decidable (b.Vacant name) :=
  inferInstanceAs (Decidable (∃ stored ∈ b.leases name, _))

instance (s : SingletonCluster) (node name : String) : Decidable (s.IsActive node name) :=
  inferInstanceAs (Decidable (∃ record ∈ s.recordAt node name, _))

instance (s : SingletonCluster) (node name : String) : Decidable (s.Holds node name) :=
  decidable_of_iff (∃ record ∈ s.recordAt node name,
    ∃ lease ∈ s.backend.ownedLease name, record.isWaiting = false ∧ lease.ownerNodeId = node ∧
      record.identity.fencingToken = lease.fencingToken)
    (by simp only [Holds, Option.mem_def, exists_and_left])

instance (s : SingletonCluster) (node name : String) : Decidable (s.AskWell node name) :=
  inferInstanceAs (Decidable (_ ∧ _))

instance (s : SingletonCluster) (action : Action) : Decidable (s.Careful action) := by
  unfold Careful
  split <;> infer_instance

end SingletonCluster

end HPActor
