/-
`ClusterFailureModel`: the nodes of a cluster and their states.  A node that was
removed stays in the table: it keeps counting towards the size of the cluster,
and it is not accepted again.
-/
import HPActor.Machines
import Mathlib.Data.List.AList

namespace HPActor

inductive ClusterNodeState where
  | joining
  | alive
  | suspect
  | unreachable
  | quarantined
  | leaving
  | down
  | removed
deriving Repr, DecidableEq

def canTransition : ClusterNodeState → ClusterNodeState → Bool
  | .joining, .alive => true
  | .alive, .suspect | .alive, .unreachable | .alive, .quarantined
  | .alive, .leaving => true
  | .suspect, .alive | .suspect, .unreachable | .suspect, .quarantined => true
  | .unreachable, .alive | .unreachable, .down => true
  | .leaving, .down | .down, .removed | .quarantined, .joining => true
  | _, _ => false

structure ClusterNodeIdentity where
  nodeId : String
  incarnation : UInt64 := 0

structure NodeRecord where
  identity : ClusterNodeIdentity
  state : ClusterNodeState

structure TransitionResult where
  success : Bool
  invalidated : Bool
  error : String

structure ClusterFailureModel where
  nodes : AList fun _ : String => NodeRecord := ∅
  invalidationQueue : List String := []

namespace ClusterFailureModel

variable (m : ClusterFailureModel)

def registerNode (id : ClusterNodeIdentity) : Bool × ClusterFailureModel :=
  if id.nodeId ∈ m.nodes then (false, m)
  else (true, { m with nodes := m.nodes.insert id.nodeId ⟨id, .joining⟩ })

def transition (m : ClusterFailureModel) (nodeId : String)
    (target : ClusterNodeState) : TransitionResult × ClusterFailureModel :=
  match m.nodes.lookup nodeId with
  | none => (⟨false, false, "node not found"⟩, m)
  | some record =>
    if canTransition record.state target then
      let invalidated := target = .down ∨ target = .quarantined ∨ target = .removed
      (⟨true, invalidated, ""⟩,
        { nodes := m.nodes.insert nodeId { record with state := target }
          invalidationQueue :=
            if invalidated then m.invalidationQueue ++ [nodeId]
            else m.invalidationQueue })
    else (⟨false, false, "illegal transition"⟩, m)

def countIn (states : ClusterNodeState → Bool) : Nat :=
  m.nodes.entries.countP fun entry => states entry.2.state

def quorumPresent : Bool :=
  if m.nodes.entries.isEmpty then false
  else decide (m.nodes.entries.length / 2 < m.countIn (· = .alive))

inductive Call where
  | registerNode (id : ClusterNodeIdentity)
  | transition (nodeId : String) (target : ClusterNodeState)

def step : Call → ClusterFailureModel
  | .registerNode id => (m.registerNode id).2
  | .transition nodeId target => (m.transition nodeId target).2

theorem quorumPresent_iff :
    m.quorumPresent = true ↔ m.nodes.entries.length < 2 * m.countIn (· = .alive) := by
  have hle : m.countIn (· = .alive) ≤ m.nodes.entries.length :=
    List.countP_le_length
  rw [quorumPresent]
  split
  · next hempty =>
      rw [List.isEmpty_iff.mp hempty, List.length_nil] at hle ⊢
      simp only [Bool.false_eq_true, false_iff]
      omega
  · rw [decide_eq_true_eq]
    omega

theorem mem_step {m : ClusterFailureModel} {nodeId : String}
    (hmem : nodeId ∈ m.nodes) (call : Call) : nodeId ∈ (m.step call).nodes := by
  cases call with
  | registerNode id =>
    rw [step, registerNode]
    split
    · exact hmem
    · exact (AList.mem_insert _).mpr (.inr hmem)
  | transition other target =>
    rw [step, transition]
    split
    · exact hmem
    · split
      · exact (AList.mem_insert _).mpr (.inr hmem)
      · exact hmem

/-- The quorum is that of the nodes which were not removed, unless their majority
is alive and the removed ones outweigh it.  A node that is known, removed or
not, is never accepted again. -/
theorem quorum_of_members_iff (m : ClusterFailureModel) :
    ((m.quorumPresent = true ↔ m.countIn (· ≠ .removed) < 2 * m.countIn (· = .alive)) ↔
      ¬ (m.countIn (· ≠ .removed) < 2 * m.countIn (· = .alive) ∧
        2 * m.countIn (· = .alive) ≤ m.nodes.entries.length)) ∧
    ∀ calls id, id.nodeId ∈ m.nodes → (Machines.final step m calls).registerNode id =
        (false, Machines.final step m calls) := by
  have hle : m.countIn (· ≠ .removed) ≤ m.nodes.entries.length :=
    List.countP_le_length
  refine ⟨?_, fun calls id hmem => if_pos ?_⟩
  · rw [quorumPresent_iff]
    omega
  · exact Machines.final_invariant' (fun m : ClusterFailureModel => id.nodeId ∈ m.nodes)
      (fun _ call hmem => mem_step hmem call) hmem calls

/-- Two nodes join, and one of them leaves and is removed.  There is no quorum
although the remaining node is alive, and the other one is turned away. -/
theorem removed_node_counts :
    let m := Machines.final step {} [.registerNode ⟨"a", 1⟩,
      .registerNode ⟨"b", 1⟩, .transition "a" .alive, .transition "b" .alive,
      .transition "b" .leaving, .transition "b" .down, .transition "b" .removed]
    m.countIn (· ≠ .removed) = 1 ∧ m.countIn (· = .alive) = 1 ∧
      m.quorumPresent = false ∧ (m.registerNode ⟨"b", 2⟩).1 = false := by
  decide +kernel

end ClusterFailureModel

end HPActor
