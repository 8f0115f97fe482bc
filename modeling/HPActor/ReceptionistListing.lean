/-
The receptionists of a cluster agree with what was registered.  When every
change has reached every node, the listing of a key on any node has the actors
that each node has registered last, and no others.
-/
import HPActor.Dissemination
import HPActor.Receptionist

namespace HPActor

open AList

open Dissemination LatestWins List
namespace ClusterReceptionistCore

/-- A local registration. -/
abbrev Registering := ServiceKey × List UInt64

def receptionist : Node ClusterReceptionistCore Registering ClusterRegistration where
  call := fun core request => core.applyLocalRegistration request.1 request.2
  drain := drainDirtyRegistrations
  merge := mergeRemoteRegistration

abbrev ClusterAction := Action String Registering ClusterRegistration

abbrev Cluster := System String ClusterReceptionistCore ClusterRegistration

def clusterStep (members : Finset String) : Cluster → ClusterAction → Option Cluster :=
  step receptionist ClusterRegistration.nodeId members

def freshCluster : Cluster where
  cores := fun nodeId => { nodeId := nodeId }

/-- What a node registers under the name in an action. -/
def registeredBy (nodeId name : String) : ClusterAction → Option (List UInt64)
  | .call n (key, actorIds) =>
    if n = nodeId ∧ key.name = name then some actorIds else none
  | _ => none

/-- What a node has registered last, nothing at first. -/
def lastRegistered (actions : List ClusterAction) (nodeId name : String) : Option (List UInt64) :=
  actions.reverse.findSome? (registeredBy nodeId name)

def slot (reg : ClusterRegistration) : String × String :=
  (reg.key.name, reg.nodeId)

/-- The local table has the last entries that were made. -/
structure Tracks (nodeId : String) (core : ClusterReceptionistCore)
    (log : List ClusterRegistration) : Prop where
  nodeId_eq : core.nodeId = nodeId
  own : ∀ reg ∈ log, reg.nodeId = nodeId
  incarnation_le : ∀ reg ∈ log, reg.incarnation ≤ core.incarnation
  ascending : Ascending slot ClusterRegistration.incarnation log
  localRegs : ∀ name, core.localRegs.lookup name =
    (last slot log (name, nodeId)).map ClusterRegistration.actorIds

theorem Tracks.call {nodeId : String} {core : ClusterReceptionistCore}
    {log : List ClusterRegistration} (htracks : Tracks nodeId core log) (request : Registering) :
    ∃ new, (receptionist.call core request).dirtyRegs = core.dirtyRegs ++ new ∧
      Tracks nodeId (receptionist.call core request) (log ++ new) := by
  obtain ⟨key, actorIds⟩ := request
  refine ⟨_, rfl, htracks.nodeId_eq, ?_, ?_, ?_, ?_⟩
  · exact forall_mem_append.mpr ⟨htracks.own, forall_mem_singleton.mpr htracks.nodeId_eq⟩
  · refine forall_mem_append.mpr ⟨fun reg hreg => ?_, forall_mem_singleton.mpr le_rfl⟩
    exact Nat.le_succ_of_le (htracks.incarnation_le reg hreg)
  · refine pairwise_append.mpr ⟨htracks.ascending, pairwise_singleton _ _, fun reg hreg =>
      forall_mem_singleton.mpr fun _ => ?_⟩
    exact Nat.lt_succ_of_le (htracks.incarnation_le reg hreg)
  · intro name
    have hslot : slot (ClusterRegistration.mk key core.nodeId actorIds
        (core.incarnation + 1)) = (key.name, nodeId) :=
      Prod.ext rfl htracks.nodeId_eq
    rw [last_append, hslot]
    by_cases hname : name = key.name
    · subst hname
      rw [if_pos rfl]
      exact lookup_insert _
    · rw [if_neg (by simpa using Ne.symm hname), ← htracks.localRegs name]
      exact lookup_insert_ne hname

/-- Receptionists are nodes that keep the latest entries. -/
def gossip : Gossip receptionist ClusterRegistration.nodeId slot
    ClusterRegistration.incarnation where
  dirty := dirtyRegs
  view := fun core => NodeTables.slotOf core.remoteRegs
  Tracks := Tracks
  tracks_origin := fun _ _ _ htracks => htracks.own
  tracks_ascending := fun _ _ _ htracks => htracks.ascending
  tracks_call := fun _ _ _ request htracks => htracks.call request
  tracks_drain := fun _ _ _ htracks =>
    ⟨htracks.nodeId_eq, htracks.own, htracks.incarnation_le, htracks.ascending, htracks.localRegs⟩
  tracks_merge := fun _ _ _ _ htracks =>
    ⟨htracks.nodeId_eq, htracks.own, htracks.incarnation_le, htracks.ascending, htracks.localRegs⟩
  drained := fun _ => rfl
  dirty_drain := fun _ => rfl
  dirty_merge := fun _ _ => rfl
  view_call := fun _ _ => rfl
  view_drain := fun _ => rfl
  view_merge := fun core reg => NodeTables.slotOf_mergeEntry core.remoteRegs reg

variable {members : Finset String} {actions : List ClusterAction} {s : Cluster} {nodeId : String}

theorem run_inv (hrun : Runs.run (clusterStep members) freshCluster actions = some s) :
    gossip.Inv members actions s := by
  refine Gossip.run_inv gossip ?_ (fun _ _ => rfl) (fun _ _ => rfl) hrun
  intro n _
  refine ⟨rfl, ?_, ?_, .nil, fun _ => rfl⟩
  · intro reg hreg
    cases hreg
  · intro reg hreg
    cases hreg

theorem lastRegistered_append (action : ClusterAction) (nodeId name : String) :
    lastRegistered (actions ++ [action]) nodeId name = (registeredBy nodeId name action).or
        (lastRegistered actions nodeId name) := by
  rw [lastRegistered, reverse_append, reverse_singleton, singleton_append, findSome?_cons]
  cases registeredBy nodeId name action <;> rfl

/-- Only a registration of the node itself changes its local table. -/
theorem lookup_act (action : ClusterAction) (core : ClusterReceptionistCore)
    (nodeId name : String) :
    (act receptionist nodeId action core).localRegs.lookup name =
      (registeredBy nodeId name action).or (core.localRegs.lookup name) := by
  cases action with
  | call n request =>
    obtain ⟨key, actorIds⟩ := request
    rw [act, registeredBy]
    by_cases hn : n = nodeId
    · by_cases hname : name = key.name
      · subst hname
        rw [if_pos hn, if_pos ⟨hn, rfl⟩]
        exact lookup_insert _
      · rw [if_pos hn, if_neg fun h => hname h.2.symm]
        exact lookup_insert_ne hname
    · rw [if_neg hn, if_neg fun h => hn h.1]
      rfl
  | drain n | merge n reg =>
    rw [act]
    split <;> rfl

section

variable (hrun : Runs.run (clusterStep members) freshCluster actions = some s)
include hrun

/-- The local table of a node has what was registered there last. -/
theorem run_localRegs (nodeId name : String) :
    (s.cores nodeId).localRegs.lookup name = lastRegistered actions nodeId name := by
  have hkeep : ∀ done s action t,
      (∀ nodeId name, (s.cores nodeId).localRegs.lookup name = lastRegistered done nodeId name) →
      clusterStep members s action = some t →
      ∀ nodeId name, (t.cores nodeId).localRegs.lookup name =
        lastRegistered (done ++ [action]) nodeId name := by
    intro done s action t hinv hstep nodeId name
    rw [lastRegistered_append, ← hinv, step_cores hstep]
    exact lookup_act action (s.cores nodeId) nodeId name
  exact Runs.run_history' hkeep (fun _ _ => rfl) hrun nodeId name

/-- What the nodes of the cluster have under a key comes to what they have
registered. -/
theorem listing_converges
    (hsettled : Settled dirtyRegs ClusterRegistration.nodeId members actions s)
    (hnode : nodeId ∈ members) (key : ServiceKey) :
    ((s.cores nodeId).getClusterListing key : Multiset UInt64) = ∑ m ∈ members,
        ((lastRegistered actions m key.name).getD [] : Multiset UInt64) := by
  have hinv := run_inv hrun
  have hlocal := run_localRegs hrun
  have hslots : ∀ m, (NodeTables.nodesOf (s.cores nodeId).remoteRegs
      key.name).lookup m = gossip.view (s.cores nodeId) (key.name, m) :=
    fun _ => rfl
  have hkeys : ∀ m reg, (NodeTables.nodesOf (s.cores nodeId).remoteRegs
      key.name).lookup m = some reg → m ∈ members.erase nodeId := by
    intro m reg hreg
    rw [hslots] at hreg
    obtain ⟨hslot, hmember, hne⟩ := hinv.origin_of_view hnode hreg
    have hm : reg.nodeId = m := congrArg Prod.snd hslot
    rw [hm] at hmember hne
    exact Finset.mem_erase.mpr ⟨hne, hmember⟩
  rw [getClusterListing, ← Multiset.coe_add, hlocal nodeId key.name,
    NodeTables.coe_flatMap_entries _ _ hkeys, ← Finset.add_sum_erase _ _ hnode]
  congr 1
  apply Finset.sum_congr rfl
  intro m hm
  obtain ⟨hne, hmember⟩ := Finset.mem_erase.mp hm
  have hview := hinv.view_eq_last hsettled hnode hmember (Ne.symm hne)
    (k := (key.name, m)) fun reg hreg => congrArg Prod.snd hreg
  rw [hslots, hview, ← (hinv.tracks m hmember).localRegs key.name, hlocal]

end

namespace ListingWitness

def pair : Finset String := {"a", "b"}

def service : ServiceKey := { name := "s" }

/-- Node `a` registers two actors, then one of them less; the entries reach node
`b` in the other order, and one of them twice. -/
def shrinking : List ClusterAction :=
  [.call "a" (service, [1, 2]), .call "b" (service, [7]),
    .call "a" (service, [2]), .drain "b", .drain "a",
    .merge "b" ⟨service, "a", [2], 2⟩, .merge "b" ⟨service, "a", [1, 2], 1⟩,
    .merge "a" ⟨service, "b", [7], 1⟩, .merge "b" ⟨service, "a", [2], 2⟩]

theorem listing_converges_shrinking :
    ∃ s, Runs.run (clusterStep pair) freshCluster shrinking = some s ∧
      Settled dirtyRegs ClusterRegistration.nodeId pair shrinking s ∧
      ((s.cores "b").getClusterListing service : Multiset UInt64) = ∑ m ∈ pair,
          ((lastRegistered shrinking m "s").getD [] : Multiset UInt64) := by
  have hsettled : ∃ s, Runs.run (clusterStep pair) freshCluster shrinking = some s ∧
      Settled dirtyRegs ClusterRegistration.nodeId pair shrinking s :=
    ⟨_, rfl, by unfold Settled; decide⟩
  obtain ⟨s, hrun, hsettled⟩ := hsettled
  exact ⟨s, hrun, hsettled, listing_converges hrun hsettled (by decide) service⟩

end ListingWitness

end ClusterReceptionistCore

end HPActor
