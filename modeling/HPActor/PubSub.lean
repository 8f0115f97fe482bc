/-
The mediator of topics on a cluster node.  It keeps the local subscribers of
every topic, up to its limits, and tells the other nodes of new subscriptions.
Of what the others say it keeps one entry for each topic and node.
-/
import HPActor.NodeTables

namespace HPActor

structure PubSubTopic where
  name : String
deriving Repr, DecidableEq

structure TopicSubscription where
  topic : PubSubTopic
  subscriberNode : String
  subscriberActorId : UInt64
  incarnation : Nat := 0
deriving Repr, DecidableEq

namespace PubSub

def kMaxTopics : Nat := 4096
def kMaxSubscribersPerTopic : Nat := 1024

end PubSub

/-- A set of actors, in the order in which it is walked through. -/
abbrev ActorSet := { actors : List UInt64 // actors.Nodup }

namespace ActorSet

def empty : ActorSet := ⟨[], List.nodup_nil⟩

def insert (subs : ActorSet) (actorId : UInt64) : ActorSet :=
  ⟨subs.1.insert actorId, subs.2.insert⟩

def erase (subs : ActorSet) (actorId : UInt64) : ActorSet :=
  ⟨subs.1.erase actorId, subs.2.erase actorId⟩

end ActorSet

structure PubSubMediatorCore where
  nodeId : String := ""
  incarnation : Nat := 0
  localSubs : AList (fun _ : PubSubTopic => ActorSet) := ∅
  remoteSubs : NodeTables.Table PubSubTopic String TopicSubscription := ∅
  dirtySubs : List TopicSubscription := []

namespace PubSubMediatorCore

variable (core : PubSubMediatorCore) (topic : PubSubTopic)

/-- The subscribers of a topic, if it has any. -/
def localSet : ActorSet :=
  (core.localSubs.lookup topic).getD ActorSet.empty

/-- A topic beyond the limit, or a subscriber beyond the limit of its topic, is
refused; who is subscribed already is not counted again. -/
def subscribe (actorId : UInt64) : Bool × PubSubMediatorCore :=
  if PubSub.kMaxTopics ≤ core.localSubs.entries.length ∧ topic ∉ core.localSubs then (false, core)
  else
    let subs := core.localSet topic
    if PubSub.kMaxSubscribersPerTopic ≤ subs.1.length ∧ actorId ∉ subs.1 then
      (false, { core with localSubs := core.localSubs.insert topic subs })
    else if actorId ∈ subs.1 then
      (true, { core with localSubs := core.localSubs.insert topic subs })
    else
      let dirty : TopicSubscription := {
        topic := topic
        subscriberNode := core.nodeId
        subscriberActorId := actorId
        incarnation := core.incarnation + 1 }
      (true, { core with
        localSubs := core.localSubs.insert topic (subs.insert actorId)
        incarnation := core.incarnation + 1
        dirtySubs := core.dirtySubs ++ [dirty] })

/-- A topic without subscribers is removed.  The other nodes are not told. -/
def unsubscribe (actorId : UInt64) : PubSubMediatorCore :=
  match core.localSubs.lookup topic with
  | none => core
  | some subs =>
    if (subs.erase actorId).1 = [] then
      { core with localSubs := core.localSubs.erase topic }
    else
      { core with
        localSubs := core.localSubs.insert topic (subs.erase actorId) }

def mergeRemoteSubscription (sub : TopicSubscription) : PubSubMediatorCore :=
  { core with
    remoteSubs := NodeTables.mergeEntry TopicSubscription.topic
      TopicSubscription.subscriberNode TopicSubscription.incarnation
      core.remoteSubs sub }

/-- Local subscribers first, then the entries of the other nodes. -/
def allSubscribersFor : List TopicSubscription :=
  ((core.localSet topic).1.map fun actorId => {
      topic := topic
      subscriberNode := core.nodeId
      subscriberActorId := actorId }) ++
    (NodeTables.nodesOf core.remoteSubs topic).entries.map fun entry => entry.2

def drainDirtySubscriptions : List TopicSubscription × PubSubMediatorCore :=
  (core.dirtySubs, { core with dirtySubs := [] })

end PubSubMediatorCore

end HPActor
