/-
Shards and their owners.  A table holds one entry for each shard and ignores
updates that are not newer than what it has.  The coordinator writes its table
when an actor is registered and when all shards are placed anew, each time with
the epoch after the current one.  Without nodes alive there is nothing to place,
and the table is cleared.

Placement is an interface; of the strategies, the one by rendezvous hashing is
below.  `std::hash` is a parameter.
-/
import Mathlib.Data.Finset.Basic
import Mathlib.Data.List.AList

namespace HPActor

universe u

abbrev ShardId := UInt32

structure ShardEntry where
  shardId : ShardId := 0
  ownerNode : String := ""
  epoch : Nat := 0
deriving Repr, DecidableEq

structure ShardTable where
  entries : AList (fun _ : ShardId => ShardEntry) := ∅
  currentEpoch : Nat := 0

namespace ShardTable

def lookup (table : ShardTable) (shard : ShardId) : Option ShardEntry :=
  table.entries.lookup shard

variable (table : ShardTable)

def store (shard : ShardId) (ownerNode : String) (epoch : Nat) : ShardTable where
  entries := table.entries.insert shard ⟨shard, ownerNode, epoch⟩
  currentEpoch :=
    if table.currentEpoch < epoch then epoch else table.currentEpoch

/-- An epoch that is stale or the same is ignored. -/
def update (shard : ShardId) (ownerNode : String) (epoch : Nat) : ShardTable :=
  match table.entries.lookup shard with
  | some entry =>
    if epoch ≤ entry.epoch then table else table.store shard ownerNode epoch
  | none => table.store shard ownerNode epoch

def clear (_ : ShardTable) : ShardTable := { entries := ∅, currentEpoch := 0 }

def epoch : Nat := table.currentEpoch

/-- All entries, in no particular order. -/
def entryList : List ShardEntry :=
  table.entries.entries.map fun entry => entry.2

end ShardTable

/-- Shards and the nodes they are placed on. -/
abbrev PlacementPlan := AList fun _ : ShardId => String

/-- A strategy may change its own state when it is asked. -/
structure PlacementStrategy (σ : Type u) where
  plan : σ → List ShardId → List String → List ShardEntry → PlacementPlan × σ

namespace RendezvousHash

variable (hash : String → UInt64)

def weight (shard : ShardId) (node : String) : UInt64 :=
  hash (toString shard ++ ":" ++ node)

/-- The highest weight so far and its node; a tie stays with the first. -/
def improve (shard : ShardId) (best : UInt64 × String) (node : String) : UInt64 × String :=
  if best.1 < weight hash shard node then (weight hash shard node, node)
  else best

def bestNode (shard : ShardId) (aliveNodes : List String) : UInt64 × String :=
  aliveNodes.foldl (improve hash shard) (0, "")

def plan (shards : List ShardId)
    (aliveNodes : List String) (_currentAssignments : List ShardEntry) :
    PlacementPlan :=
  if aliveNodes.isEmpty then ∅
  else
    shards.foldl
      (fun result shard =>
        result.insert shard (bestNode hash shard aliveNodes).2)
      ∅

def strategy : PlacementStrategy Unit where
  plan := fun _ shards aliveNodes current =>
    (plan hash shards aliveNodes current, ())

end RendezvousHash

namespace ShardResolver

def resolve (hash : String → UInt64) (persistenceId : String) (totalShards : UInt32) : ShardId :=
  if totalShards = 0 then 0
  else (hash persistenceId % totalShards.toUInt64).toUInt32

end ShardResolver

structure ShardCoordinatorCore (σ : Type u) where
  totalShards : UInt32
  strategy : σ
  shardTable : ShardTable := {}
  registeredActors : Finset String := ∅

namespace ShardCoordinatorCore

variable {σ : Type u}

section

variable (hash : String → UInt64) (strategy : PlacementStrategy σ) (core : ShardCoordinatorCore σ)

/-- A second registration of an actor changes nothing. -/
def registerActor (persistenceId : String) (ownerNode : String) : ShardCoordinatorCore σ :=
  if persistenceId ∈ core.registeredActors then core
  else
    let shard := ShardResolver.resolve hash persistenceId core.totalShards
    let newEpoch := core.shardTable.epoch + 1
    { core with
      registeredActors := insert persistenceId core.registeredActors
      shardTable := core.shardTable.update shard ownerNode newEpoch }

def unregisterActor (persistenceId : String) : ShardCoordinatorCore σ :=
  { core with registeredActors := core.registeredActors.erase persistenceId }

def allShards : List ShardId :=
  (List.range core.totalShards.toNat).map UInt32.ofNat

def rebalance (aliveNodes : List String) : ShardCoordinatorCore σ :=
  if aliveNodes.isEmpty then { core with shardTable := core.shardTable.clear }
  else
    let (plan, next) := strategy.plan core.strategy core.allShards aliveNodes
      core.shardTable.entryList
    let newEpoch := core.shardTable.epoch + 1
    { core with
      strategy := next
      shardTable := plan.entries.foldl
        (fun table assignment =>
          table.update assignment.1 assignment.2 newEpoch)
        core.shardTable }

end

end ShardCoordinatorCore

inductive ShardCall where
  | registerActor (persistenceId ownerNode : String)
  | unregisterActor (persistenceId : String)
  | rebalance (aliveNodes : List String)
deriving Repr, DecidableEq

def ShardCoordinatorCore.call {σ : Type u} (hash : String → UInt64)
    (strategy : PlacementStrategy σ) (core : ShardCoordinatorCore σ) :
    ShardCall → ShardCoordinatorCore σ
  | .registerActor persistenceId ownerNode =>
    core.registerActor hash persistenceId ownerNode
  | .unregisterActor persistenceId => core.unregisterActor persistenceId
  | .rebalance aliveNodes => core.rebalance strategy aliveNodes

end HPActor
