/-
What the mediators of a cluster know of each other's subscribers.  A node keeps
one entry for a topic and another node, and is not told when a subscription
ends.  So once everything has arrived, the listing of a topic is right just if
the subscribers on each of the other nodes are the actor who was the last there
to subscribe newly, and nobody else.
-/
import HPActor.Dissemination
import HPActor.PubSub

namespace HPActor.PubSubMediatorCore

open Dissemination LatestWins NodeTables List TopicSubscription AList

variable {core : PubSubMediatorCore} {topic : PubSubTopic} {actorId : UInt64}

theorem localSet_insert_self (core : PubSubMediatorCore) (topic : PubSubTopic) (subs : ActorSet) :
    localSet { core with localSubs := core.localSubs.insert topic subs } topic =
      subs := by
  rw [localSet, lookup_insert, Option.getD_some]

theorem localSet_insert_ne {other : PubSubTopic} (hne : other ≠ topic)
    (core : PubSubMediatorCore) (subs : ActorSet) :
    localSet { core with localSubs := core.localSubs.insert topic subs } other =
      core.localSet other := by
  rw [localSet, lookup_insert_ne hne, localSet]

/-- The entry that a new subscription is told with. -/
def newEntry (core : PubSubMediatorCore) (topic : PubSubTopic)
    (actorId : UInt64) : TopicSubscription where
  topic := topic
  subscriberNode := core.nodeId
  subscriberActorId := actorId
  incarnation := core.incarnation + 1

/-- A subscription is new, and told, or it changes no set. -/
theorem subscribe_cases (core : PubSubMediatorCore) (topic : PubSubTopic) (actorId : UInt64) :
    (∃ subs, (core.subscribe topic actorId).2 =
        { core with localSubs := subs } ∧
      (∀ other, ((core.subscribe topic actorId).2).localSet other = core.localSet other) ∧
      ((core.subscribe topic actorId).1 = true → actorId ∈ (core.localSet topic).1)) ∨
    actorId ∉ (core.localSet topic).1 ∧ (core.subscribe topic actorId).2 = { core with
      localSubs := core.localSubs.insert topic ((core.localSet topic).insert actorId)
      incarnation := core.incarnation + 1
      dirtySubs := core.dirtySubs ++ [core.newEntry topic actorId] } := by
  have hsame : ∀ other, localSet { core with
      localSubs := core.localSubs.insert topic (core.localSet topic) } other =
        core.localSet other := by
    intro other
    by_cases hother : other = topic
    · subst hother
      exact localSet_insert_self core other _
    · exact localSet_insert_ne hother core _
  rw [subscribe]
  split
  · exact .inl ⟨core.localSubs, rfl, fun _ => rfl, fun h => by cases h⟩
  · simp only
    split
    · exact .inl ⟨_, rfl, hsame, fun h => by cases h⟩
    · split
      · next hmem => exact .inl ⟨_, rfl, hsame, fun _ => hmem⟩
      · next hmem => exact .inr ⟨hmem, rfl⟩

/-- An accepted subscription adds its actor to its topic. -/
theorem mem_subscribe (haccepted : (core.subscribe topic actorId).1 = true)
    (other : PubSubTopic) (actor : UInt64) :
    actor ∈ (((core.subscribe topic actorId).2).localSet other).1 ↔
      (topic = other ∧ actorId = actor) ∨ actor ∈ (core.localSet other).1 := by
  rcases subscribe_cases core topic actorId with
    ⟨subs, -, hsets, hmem⟩ | ⟨-, hnew⟩
  · rw [hsets]
    constructor
    · exact .inr
    · rintro (⟨rfl, rfl⟩ | hactor)
      · exact hmem haccepted
      · exact hactor
  · rw [hnew]
    by_cases hother : other = topic
    · subst hother
      have hset := localSet_insert_self core other ((core.localSet other).insert actorId)
      simp only [localSet] at hset ⊢
      rw [hset]
      simp [ActorSet.insert, mem_insert_iff, eq_comm]
    · have hset := localSet_insert_ne hother core ((core.localSet topic).insert actorId)
      simp only [localSet] at hset ⊢
      rw [hset]
      simp [Ne.symm hother]

theorem localSet_unsubscribe_self (core : PubSubMediatorCore)
    (topic : PubSubTopic) (actorId : UInt64) :
    ((core.unsubscribe topic actorId).localSet topic).1 =
      (core.localSet topic).1.erase actorId := by
  rw [unsubscribe]
  cases hlookup : core.localSubs.lookup topic with
  | none =>
    simp only [localSet, hlookup]
    rfl
  | some subs =>
    have hself : core.localSet topic = subs := by
      rw [localSet, hlookup, Option.getD_some]
    simp only
    split
    · next hempty =>
        rw [hself, localSet, lookup_erase]
        exact hempty.symm
    · rw [hself, localSet_insert_self]
      rfl

theorem localSet_unsubscribe_ne {other : PubSubTopic} (hne : other ≠ topic)
    (core : PubSubMediatorCore) (actorId : UInt64) :
    (core.unsubscribe topic actorId).localSet other = core.localSet other := by
  rw [unsubscribe]
  cases core.localSubs.lookup topic with
  | none => rfl
  | some subs =>
    simp only
    split
    · rw [localSet, lookup_erase_ne hne, localSet]
    · exact localSet_insert_ne hne core _

/-- The end of a subscription takes its actor from its topic. -/
theorem mem_unsubscribe (core : PubSubMediatorCore) (topic : PubSubTopic)
    (actorId : UInt64) (other : PubSubTopic) (actor : UInt64) :
    actor ∈ ((core.unsubscribe topic actorId).localSet other).1 ↔
      ¬(topic = other ∧ actorId = actor) ∧ actor ∈ (core.localSet other).1 := by
  by_cases hother : other = topic
  · subst hother
    rw [localSet_unsubscribe_self, (core.localSet other).2.mem_erase_iff]
    simp [eq_comm]
  · rw [localSet_unsubscribe_ne hother]
    simp [Ne.symm hother]

inductive TopicCall where
  | subscribe (topic : PubSubTopic) (actorId : UInt64)
  | unsubscribe (topic : PubSubTopic) (actorId : UInt64)
deriving Repr, DecidableEq

def topicCall (core : PubSubMediatorCore) : TopicCall → PubSubMediatorCore
  | .subscribe topic actorId => (core.subscribe topic actorId).2
  | .unsubscribe topic actorId => core.unsubscribe topic actorId

def mediator : Node PubSubMediatorCore TopicCall TopicSubscription where
  call := topicCall
  drain := drainDirtySubscriptions
  merge := mergeRemoteSubscription

abbrev MediatorAction := Action String TopicCall TopicSubscription

abbrev Mediators := System String PubSubMediatorCore TopicSubscription

def mediatorStep (members : Finset String) : Mediators → MediatorAction → Option Mediators :=
  step mediator TopicSubscription.subscriberNode members

def freshMediators : Mediators where
  cores := fun nodeId => { nodeId := nodeId }

/-- No limit is reached: subscriptions are accepted. -/
def BelowLimits (s : Mediators) : MediatorAction → Prop
  | .call n (.subscribe topic actorId) =>
    ((s.cores n).subscribe topic actorId).1 = true
  | _ => True

instance (s : Mediators) (action : MediatorAction) : Decidable (BelowLimits s action) := by
  unfold BelowLimits
  split <;> infer_instance

/-- Whether an action subscribes the actor, or ends its subscription. -/
def subscription (nodeId : String) (topic : PubSubTopic) (actorId : UInt64) :
    MediatorAction → Option Bool
  | .call n (.subscribe other actor) =>
    if n = nodeId ∧ other = topic ∧ actor = actorId then some true else none
  | .call n (.unsubscribe other actor) =>
    if n = nodeId ∧ other = topic ∧ actor = actorId then some false else none
  | _ => none

/-- The last action about the subscription has made it. -/
def Subscribed (actions : List MediatorAction) (nodeId : String)
    (topic : PubSubTopic) (actorId : UInt64) : Prop :=
  actions.reverse.findSome? (subscription nodeId topic actorId) = some true

def slot (sub : TopicSubscription) : PubSubTopic × String :=
  (sub.topic, sub.subscriberNode)

instance (actions : List MediatorAction) (nodeId : String) (topic : PubSubTopic)
    (actorId : UInt64) : Decidable (Subscribed actions nodeId topic actorId) :=
  inferInstanceAs (Decidable (_ = _))

/-- The actor that was the last on a node to subscribe to a topic newly, without
being subscribed already.  The last action comes first. -/
def lastNew (nodeId : String) (topic : PubSubTopic) : List MediatorAction → Option UInt64
  | [] => none
  | .call n (.subscribe other actorId) :: before =>
    if n = nodeId ∧ other = topic ∧ ¬ Subscribed before.reverse nodeId topic actorId then
      some actorId
    else lastNew nodeId topic before
  | _ :: before => lastNew nodeId topic before

/-- The subscribers that a node lists. -/
def listed (s : Mediators) (nodeId : String) (topic : PubSubTopic) : List (String × UInt64) :=
  ((s.cores nodeId).allSubscribersFor topic).map fun sub =>
    (sub.subscriberNode, sub.subscriberActorId)

/-- A node lists every subscriber of the cluster once, and nobody else. -/
def Reflects (members : Finset String) (actions : List MediatorAction)
    (s : Mediators) (nodeId : String) (topic : PubSubTopic) : Prop :=
  (listed s nodeId topic).Nodup ∧ ∀ m actorId, (m, actorId) ∈ listed s nodeId topic ↔
      m ∈ members ∧ Subscribed actions m topic actorId

/-- The entries of a node are its own, with ascending incarnations. -/
structure Tracks (nodeId : String) (core : PubSubMediatorCore)
    (log : List TopicSubscription) : Prop where
  nodeId_eq : core.nodeId = nodeId
  own : ∀ sub ∈ log, sub.subscriberNode = nodeId
  incarnation_le : ∀ sub ∈ log, sub.incarnation ≤ core.incarnation
  ascending : Ascending slot TopicSubscription.incarnation log

variable {nodeId : String} {log : List TopicSubscription}

theorem Tracks.subscribe (htracks : Tracks nodeId core log)
    (topic : PubSubTopic) (actorId : UInt64) :
    ∃ new, (core.subscribe topic actorId).2.dirtySubs = core.dirtySubs ++ new ∧
      Tracks nodeId (core.subscribe topic actorId).2 (log ++ new) := by
  rcases subscribe_cases core topic actorId with ⟨subs, hcore, -, -⟩ | ⟨-, hnew⟩
  · refine ⟨[], ?_, ?_⟩
    · rw [hcore, append_nil]
    · rw [hcore, append_nil]
      exact ⟨htracks.nodeId_eq, htracks.own, htracks.incarnation_le, htracks.ascending⟩
  · rw [hnew]
    refine ⟨[core.newEntry topic actorId], rfl, htracks.nodeId_eq, ?_, ?_, ?_⟩
    · exact forall_mem_append.mpr ⟨htracks.own, forall_mem_singleton.mpr htracks.nodeId_eq⟩
    · refine forall_mem_append.mpr ⟨fun sub hsub => ?_, forall_mem_singleton.mpr le_rfl⟩
      exact Nat.le_succ_of_le (htracks.incarnation_le sub hsub)
    · refine pairwise_append.mpr ⟨htracks.ascending, pairwise_singleton _ _, fun sub hsub =>
        forall_mem_singleton.mpr fun _ => ?_⟩
      exact Nat.lt_succ_of_le (htracks.incarnation_le sub hsub)

theorem unsubscribe_eq (core : PubSubMediatorCore) (topic : PubSubTopic) (actorId : UInt64) :
    ∃ subs, core.unsubscribe topic actorId = { core with localSubs := subs } := by
  rw [unsubscribe]
  split
  · exact ⟨_, rfl⟩
  · split <;> exact ⟨_, rfl⟩

theorem Tracks.call (htracks : Tracks nodeId core log) (request : TopicCall) :
    ∃ new, (core.topicCall request).dirtySubs = core.dirtySubs ++ new ∧
      Tracks nodeId (core.topicCall request) (log ++ new) := by
  cases request with
  | subscribe topic actorId => exact htracks.subscribe topic actorId
  | unsubscribe topic actorId =>
    obtain ⟨subs, hcore⟩ := unsubscribe_eq core topic actorId
    refine ⟨[], ?_, ?_⟩
    · rw [topicCall, hcore, append_nil]
    · rw [topicCall, hcore, append_nil]
      exact ⟨htracks.nodeId_eq, htracks.own, htracks.incarnation_le, htracks.ascending⟩

theorem topicCall_remoteSubs (core : PubSubMediatorCore) (request : TopicCall) :
    (core.topicCall request).remoteSubs = core.remoteSubs := by
  cases request with
  | subscribe topic actorId =>
    rcases subscribe_cases core topic actorId with ⟨subs, hcore, -, -⟩ | ⟨-, hnew⟩
    · rw [topicCall, hcore]
    · rw [topicCall, hnew]
  | unsubscribe topic actorId =>
    obtain ⟨subs, hcore⟩ := unsubscribe_eq core topic actorId
    rw [topicCall, hcore]

/-- Mediators are nodes that keep the latest entries. -/
def gossip : Gossip mediator TopicSubscription.subscriberNode slot
    TopicSubscription.incarnation where
  dirty := dirtySubs
  view := fun core => slotOf core.remoteSubs
  Tracks := Tracks
  tracks_origin := fun _ _ _ htracks => htracks.own
  tracks_ascending := fun _ _ _ htracks => htracks.ascending
  tracks_call := fun _ _ _ request htracks => htracks.call request
  tracks_drain := fun _ _ _ htracks =>
    ⟨htracks.nodeId_eq, htracks.own, htracks.incarnation_le, htracks.ascending⟩
  tracks_merge := fun _ _ _ _ htracks =>
    ⟨htracks.nodeId_eq, htracks.own, htracks.incarnation_le, htracks.ascending⟩
  drained := fun _ => rfl
  dirty_drain := fun _ => rfl
  dirty_merge := fun _ _ => rfl
  view_call := fun core request =>
    congrArg slotOf (core.topicCall_remoteSubs request)
  view_drain := fun _ => rfl
  view_merge := fun core sub => slotOf_mergeEntry core.remoteSubs sub

variable {members : Finset String} {actions : List MediatorAction} {s : Mediators}

theorem run_inv (hrun : Runs.run (mediatorStep members) freshMediators actions = some s) :
    gossip.Inv members actions s := by
  refine Gossip.run_inv gossip ?_ (fun _ _ => rfl) (fun _ _ => rfl) hrun
  intro n _
  refine ⟨rfl, ?_, ?_, .nil⟩
  · intro sub hsub
    cases hsub
  · intro sub hsub
    cases hsub

theorem subscribed_append (action : MediatorAction) (nodeId : String)
    (topic : PubSubTopic) (actorId : UInt64) :
    Subscribed (actions ++ [action]) nodeId topic actorId ↔
      subscription nodeId topic actorId action = some true ∨
        subscription nodeId topic actorId action = none ∧
          Subscribed actions nodeId topic actorId := by
  rw [Subscribed, reverse_append, reverse_singleton, singleton_append, findSome?_cons]
  cases subscription nodeId topic actorId action with
  | none => simp [Subscribed]
  | some made => simp

/-- Only the calls about a subscription change who is subscribed. -/
theorem mem_act {action : MediatorAction} (hbelow : BelowLimits s action)
    (nodeId : String) (topic : PubSubTopic) (actorId : UInt64) :
    actorId ∈ ((act mediator nodeId action (s.cores nodeId)).localSet topic).1 ↔
      subscription nodeId topic actorId action = some true ∨
        subscription nodeId topic actorId action = none ∧
          actorId ∈ ((s.cores nodeId).localSet topic).1 := by
  cases action with
  | call n request =>
    by_cases hn : n = nodeId
    · subst hn
      cases request with
      | subscribe other actor =>
        have hmem := mem_subscribe hbelow topic actorId
        by_cases hsame : other = topic ∧ actor = actorId
        · obtain ⟨rfl, rfl⟩ := hsame
          simp [act, subscription, mediator, topicCall, hmem]
        · simp [act, subscription, mediator, topicCall, hmem, hsame]
      | unsubscribe other actor =>
        have hmem := mem_unsubscribe (s.cores n) other actor topic actorId
        by_cases hsame : other = topic ∧ actor = actorId
        · obtain ⟨rfl, rfl⟩ := hsame
          simp [act, subscription, mediator, topicCall, hmem]
        · simp [act, subscription, mediator, topicCall, hmem, hsame]
    · cases request <;> simp [act, subscription, hn]
  | drain n | merge n sub =>
    simp only [subscription, reduceCtorEq, false_or, true_and, act]
    split <;> rfl

/-- What the actions so far say of the nodes: who is subscribed, and who was the
last to be told of. -/
structure Known (members : Finset String) (done : List MediatorAction) (s : Mediators) : Prop where
  inv : gossip.Inv members done s
  subscribed : ∀ nodeId topic actorId, actorId ∈ ((s.cores nodeId).localSet topic).1 ↔
    Subscribed done nodeId topic actorId
  told : ∀ m topic, (last slot (gossip.log s m) (topic, m)).map subscriberActorId =
    lastNew m topic done.reverse

theorem Known.told_subscribe {other : PubSubTopic} (hknown : Known members actions s)
    (hnode : nodeId ∈ members)
    (hbelow : ((s.cores nodeId).subscribe other actorId).1 = true) (topic : PubSubTopic) :
    (last slot (s.sent.filter (fun sub => sub.subscriberNode = nodeId) ++
        ((s.cores nodeId).subscribe other actorId).2.dirtySubs) (topic, nodeId)).map
          subscriberActorId =
      lastNew nodeId topic (.call nodeId (.subscribe other actorId) :: actions.reverse) := by
  have htold := hknown.told nodeId topic
  have hiff := hknown.subscribed nodeId other actorId
  rcases subscribe_cases (s.cores nodeId) other actorId with ⟨subs, hcore, -, hmem⟩ | ⟨hmem, hnew⟩
  · rw [lastNew, if_neg, hcore]
    · exact htold
    · rintro ⟨-, rfl, hnot⟩
      rw [reverse_reverse] at hnot
      exact hnot (hiff.mp (hmem hbelow))
  · have hnot : ¬ Subscribed actions nodeId other actorId := fun h => hmem (hiff.mpr h)
    have hid := (hknown.inv.tracks nodeId hnode).nodeId_eq
    rw [hnew, lastNew, ← append_assoc, last_append]
    by_cases hother : other = topic
    · subst hother
      simp [slot, newEntry, hid, hnot]
    · rw [if_neg fun h => hother (congrArg Prod.fst h), if_neg fun h => hother h.2.1]
      exact htold

/-- The local sets of a node are its subscribers. -/
theorem run_known (hrun : Runs.run (mediatorStep members) freshMediators actions = some s)
    (hbelow : Runs.EachStep (mediatorStep members) BelowLimits freshMediators actions) :
    Known members actions s := by
  have hkeep : ∀ done s action t, Known members done s → BelowLimits s action →
      mediatorStep members s action = some t → Known members (done ++ [action]) t := by
    intro done s action t hknown hbelow hstep
    refine ⟨hknown.inv.step hstep, fun nodeId topic actorId => ?_, fun m topic => ?_⟩
    · rw [step_cores hstep, mem_act hbelow, hknown.subscribed, subscribed_append]
    · rw [Gossip.log_step hknown.inv hstep, reverse_append, reverse_singleton, singleton_append]
      cases action with
      | drain n | merge n sub => exact hknown.told m topic
      | call n request =>
        by_cases hn : n = m
        · subst hn
          cases request with
          | subscribe other actorId =>
            rw [asked, if_pos rfl]
            exact hknown.told_subscribe (Option.ite_none_right_eq_some.mp hstep).1 hbelow topic
          | unsubscribe other actorId =>
            obtain ⟨subs, hcore⟩ := unsubscribe_eq (s.cores n) other actorId
            simp only [asked, mediator, topicCall, hcore]
            exact hknown.told n topic
        · rw [asked, if_neg hn]
          cases request with
          | subscribe other actorId =>
            rw [lastNew, if_neg fun h => hn h.1]
            exact hknown.told m topic
          | unsubscribe other actorId => exact hknown.told m topic
  have hstart : Known members [] freshMediators :=
    ⟨run_inv rfl, fun _ _ _ => iff_of_false not_mem_nil (by simp [Subscribed]), fun _ _ => rfl⟩
  exact Runs.run_history hkeep hstart hbelow hrun

theorem listed_eq (s : Mediators) (nodeId : String) (topic : PubSubTopic) :
    listed s nodeId topic =
      (((s.cores nodeId).localSet topic).1.map fun actorId =>
        ((s.cores nodeId).nodeId, actorId)) ++
      (nodesOf (s.cores nodeId).remoteSubs topic).entries.map
        fun entry => (entry.2.subscriberNode, entry.2.subscriberActorId) := by
  rw [listed, allSubscribersFor, map_append, map_map, map_map]
  rfl

section

variable (hinv : gossip.Inv members actions s)
include hinv

/-- What a node sees of a topic is under the node that has sent it. -/
theorem node_of_entry (hnode : nodeId ∈ members) (topic : PubSubTopic)
    {entry : Sigma fun _ : String => TopicSubscription}
    (hentry : entry ∈ (nodesOf (s.cores nodeId).remoteSubs topic).entries) :
    entry.2.subscriberNode = entry.1 ∧ entry.1 ∈ members ∧ entry.1 ≠ nodeId := by
  have hview : gossip.view (s.cores nodeId) (topic, entry.1) = some entry.2 :=
    mem_lookup_iff.mpr hentry
  obtain ⟨hslot, hmember, hne⟩ := hinv.origin_of_view hnode hview
  have hsub : entry.2.subscriberNode = entry.1 := congrArg Prod.snd hslot
  rw [hsub] at hmember hne
  exact ⟨hsub, hmember, hne⟩

theorem mem_listed (hnode : nodeId ∈ members) (topic : PubSubTopic) (m : String)
    (actorId : UInt64) :
    (m, actorId) ∈ listed s nodeId topic ↔
      m = nodeId ∧ actorId ∈ ((s.cores nodeId).localSet topic).1 ∨
        (gossip.view (s.cores nodeId) (topic, m)).map
          subscriberActorId = some actorId := by
  have hid : (s.cores nodeId).nodeId = nodeId :=
    (hinv.tracks nodeId hnode).nodeId_eq
  rw [listed_eq, mem_append, hid]
  refine or_congr ?_ ?_
  · simp [and_comm, eq_comm]
  · rw [mem_map, Option.map_eq_some_iff]
    constructor
    · rintro ⟨entry, hentry, hpair⟩
      obtain ⟨hsub, -, -⟩ := node_of_entry hinv hnode topic hentry
      rw [hsub, Prod.mk.injEq] at hpair
      obtain ⟨rfl, rfl⟩ := hpair
      exact ⟨entry.2, mem_lookup_iff.mpr hentry, rfl⟩
    · rintro ⟨sub, hsub, rfl⟩
      have hentry := mem_lookup_iff.mp hsub
      refine ⟨⟨m, sub⟩, hentry, ?_⟩
      obtain ⟨hnodeOf, -, -⟩ := node_of_entry hinv hnode topic hentry
      exact Prod.ext hnodeOf rfl

theorem listed_nodup (hnode : nodeId ∈ members) (topic : PubSubTopic) :
    (listed s nodeId topic).Nodup := by
  have hid : (s.cores nodeId).nodeId = nodeId :=
    (hinv.tracks nodeId hnode).nodeId_eq
  rw [listed_eq, nodup_append]
  refine ⟨?_, ?_, ?_⟩
  · refine List.Nodup.map ?_ ((s.cores nodeId).localSet topic).2
    intro actor actor' heq
    exact congrArg Prod.snd heq
  · apply List.Nodup.of_map Prod.fst
    rw [map_map]
    have hkeys : (nodesOf (s.cores nodeId).remoteSubs topic).entries.map (Prod.fst ∘ fun entry =>
          (entry.2.subscriberNode, entry.2.subscriberActorId)) =
        (nodesOf (s.cores nodeId).remoteSubs topic).keys := by
      apply map_congr_left
      intro entry hentry
      exact (node_of_entry hinv hnode topic hentry).1
    rw [hkeys]
    exact keys_nodup _
  · intro pair hpair other hother heq
    obtain ⟨actor, -, rfl⟩ := mem_map.mp hpair
    obtain ⟨entry, hentry, rfl⟩ := mem_map.mp hother
    obtain ⟨hsub, -, hne⟩ := node_of_entry hinv hnode topic hentry
    rw [hid, hsub, Prod.mk.injEq] at heq
    exact hne heq.1.symm

/-- A node sees nothing of itself, nor of nodes outside the cluster. -/
theorem view_eq_none (hnode : nodeId ∈ members) {m : String}
    (hm : ¬(m ∈ members ∧ m ≠ nodeId)) (topic : PubSubTopic) :
    gossip.view (s.cores nodeId) (topic, m) = none := by
  cases hview : gossip.view (s.cores nodeId) (topic, m) with
  | none => rfl
  | some sub =>
    obtain ⟨hslot, hmember, hne⟩ := hinv.origin_of_view hnode hview
    have hsub : sub.subscriberNode = m := congrArg Prod.snd hslot
    rw [hsub] at hmember hne
    exact absurd ⟨hmember, hne⟩ hm

end

/-- When all entries have arrived, a node lists the subscribers of a topic right
just if on each of the other nodes they are the actor who was the last there to
subscribe newly. -/
theorem reflects_iff (hrun : Runs.run (mediatorStep members) freshMediators actions = some s)
    (hbelow : Runs.EachStep (mediatorStep members) BelowLimits freshMediators actions)
    (hsettled : Settled dirtySubs TopicSubscription.subscriberNode members actions s)
    (hnode : nodeId ∈ members) (topic : PubSubTopic) :
    Reflects members actions s nodeId topic ↔ ∀ m ∈ members, m ≠ nodeId → ∀ actorId,
        Subscribed actions m topic actorId ↔ lastNew m topic actions.reverse = some actorId := by
  have hknown := run_known hrun hbelow
  have hinv := hknown.inv
  have hmem : ∀ m ∈ members, m ≠ nodeId → ∀ actorId, (m, actorId) ∈ listed s nodeId topic ↔
        lastNew m topic actions.reverse = some actorId := by
    intro m hm hne actorId
    rw [mem_listed hinv hnode, hinv.view_eq_last hsettled hnode hm (Ne.symm hne), hknown.told]
    · simp [hne]
    · exact fun sub hsub => congrArg Prod.snd hsub
  constructor
  · rintro ⟨-, hlists⟩ m hm hne actorId
    rw [← hmem m hm hne, hlists]
    simp [hm]
  · intro hothers
    refine ⟨listed_nodup hinv hnode topic, ?_⟩
    intro m actorId
    by_cases hother : m ∈ members ∧ m ≠ nodeId
    · obtain ⟨hm, hne⟩ := hother
      rw [hmem m hm hne, hothers m hm hne]
      simp [hm]
    · -- only the local subscribers of the node itself are left
      rw [mem_listed hinv hnode, view_eq_none hinv hnode hother]
      by_cases hself : m = nodeId
      · subst hself
        simp [hknown.subscribed, hnode]
      · have hm : m ∉ members := fun h => hother ⟨h, hself⟩
        simp [hself, hm]

namespace MediatorWitness

def pair : Finset String := {"a", "b"}

def news : PubSubTopic := ⟨"news"⟩

/-- Two actors of node `a` subscribe, and node `b` hears of both. -/
def crowded : List MediatorAction :=
  [.call "a" (.subscribe news 1), .call "a" (.subscribe news 2), .drain "a",
    .merge "b" ⟨news, "a", 1, 1⟩, .merge "b" ⟨news, "a", 2, 2⟩]

/-- The only subscriber of node `a` leaves after node `b` has heard of it. -/
def left : List MediatorAction :=
  [.call "a" (.subscribe news 1), .drain "a", .merge "b" ⟨news, "a", 1, 1⟩,
    .call "a" (.unsubscribe news 1)]

/-- One actor of node `a` subscribes. -/
def single : List MediatorAction :=
  [.call "a" (.subscribe news 1), .drain "a", .merge "b" ⟨news, "a", 1, 1⟩]

/-- With a single subscriber the listing is right. -/
theorem reflects_iff_single :
    ∃ s, Runs.run (mediatorStep pair) freshMediators single = some s ∧
      Runs.EachStep (mediatorStep pair) BelowLimits freshMediators single ∧
      Settled dirtySubs TopicSubscription.subscriberNode pair single s ∧
      Reflects pair single s "b" news := by
  have hsettled : ∃ s, Runs.run (mediatorStep pair) freshMediators single = some s ∧
      Settled dirtySubs TopicSubscription.subscriberNode pair single s :=
    ⟨_, rfl, by unfold Settled; decide⟩
  have hbelow : Runs.EachStep (mediatorStep pair) BelowLimits freshMediators
      single := by decide
  obtain ⟨s, hrun, hsettled⟩ := hsettled
  refine ⟨s, hrun, hbelow, hsettled, (reflects_iff hrun hbelow hsettled (by decide) news).mpr ?_⟩
  intro m hm hne actorId
  have ha : m = "a" := by
    simpa [pair, hne] using hm
  rw [ha, show lastNew "a" news single.reverse = some 1 from rfl]
  by_cases hactor : 1 = actorId <;>
    simp [Subscribed, single, findSome?_cons, subscription, hactor]

/-- Node `b` lists one of the two subscribers of node `a`, and it still lists
the one who has left. -/
theorem listing_is_wrong :
    (∃ s, Runs.run (mediatorStep pair) freshMediators crowded = some s ∧
      Settled dirtySubs TopicSubscription.subscriberNode pair crowded s ∧
      listed s "b" news = [("a", 2)] ∧ ¬Reflects pair crowded s "b" news) ∧
    ∃ s, Runs.run (mediatorStep pair) freshMediators left = some s ∧
      Settled dirtySubs TopicSubscription.subscriberNode pair left s ∧
      listed s "b" news = [("a", 1)] ∧ ¬Reflects pair left s "b" news := by
  refine ⟨⟨_, rfl, by unfold Settled; decide, rfl, ?_⟩,
    ⟨_, rfl, by unfold Settled; decide, rfl, ?_⟩⟩
  · rintro ⟨-, hlists⟩
    have hone := (hlists "a" 1).mpr ⟨by decide, rfl⟩
    revert hone
    decide
  · rintro ⟨-, hlists⟩
    have hone := ((hlists "a" 1).mp (by decide)).2
    cases hone

end MediatorWitness

end HPActor.PubSubMediatorCore
