/-
The receptionist of a cluster node.  It knows which local actors are registered
under a service key, tells the other nodes of every change, and keeps the latest
word of each of them.  Keys are compared by their names.
-/
import HPActor.NodeTables

namespace HPActor

structure ServiceKey where
  name : String
  typeTag : UInt32 := 0
deriving Repr, DecidableEq

structure ClusterRegistration where
  key : ServiceKey
  nodeId : String
  actorIds : List UInt64
  incarnation : Nat := 0
deriving Repr, DecidableEq

structure ClusterReceptionistCore where
  nodeId : String := ""
  incarnation : Nat := 0
  localRegs : AList (fun _ : String => List UInt64) := ∅
  remoteRegs : NodeTables.Table String String ClusterRegistration := ∅
  dirtyRegs : List ClusterRegistration := []

namespace ClusterReceptionistCore

variable (core : ClusterReceptionistCore)

/-- The actors are the new ones under the key, be they more or fewer. -/
def applyLocalRegistration (key : ServiceKey) (actorIds : List UInt64) : ClusterReceptionistCore :=
  let dirty : ClusterRegistration := {
    key := key
    nodeId := core.nodeId
    actorIds := actorIds
    incarnation := core.incarnation + 1 }
  { core with
    localRegs := core.localRegs.insert key.name actorIds
    incarnation := core.incarnation + 1
    dirtyRegs := core.dirtyRegs ++ [dirty] }

def mergeRemoteRegistration (reg : ClusterRegistration) : ClusterReceptionistCore :=
  { core with
    remoteRegs := NodeTables.mergeEntry (fun reg => reg.key.name)
      ClusterRegistration.nodeId ClusterRegistration.incarnation
      core.remoteRegs reg }

/-- Local actors first, then those of the other nodes. -/
def getClusterListing (key : ServiceKey) : List UInt64 :=
  (core.localRegs.lookup key.name).getD [] ++
    (NodeTables.nodesOf core.remoteRegs key.name).entries.flatMap
      fun entry => entry.2.actorIds

def drainDirtyRegistrations : List ClusterRegistration × ClusterReceptionistCore :=
  (core.dirtyRegs, { core with dirtyRegs := [] })

end ClusterReceptionistCore

end HPActor
