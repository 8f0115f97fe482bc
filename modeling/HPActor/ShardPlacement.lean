/-
Placement by rendezvous hashing is stable.  Where the weights of a shard's nodes
are positive and distinct, the loop ends with the node of the highest weight, so
the owner depends on which nodes there are and not on their order, and it
changes only for the sake of a heavier node or when it leaves.
-/
import HPActor.Sharding

namespace HPActor.RendezvousHash

open List

variable {hash : String → UInt64} {shard : ShardId} {nodes others : List String} {owner : String}

/-- The weights of the nodes are positive, and no two nodes have the same. -/
structure GoodWeights (hash : String → UInt64) (shard : ShardId) (nodes : List String) : Prop where
  positive : ∀ node ∈ nodes, 0 < weight hash shard node
  distinct : ∀ node ∈ nodes, ∀ other ∈ nodes,
    weight hash shard node = weight hash shard other → node = other

theorem GoodWeights.subset (hgood : GoodWeights hash shard nodes)
    (hsub : ∀ node ∈ others, node ∈ nodes) : GoodWeights hash shard others where
  positive := fun node hnode => hgood.positive node (hsub node hnode)
  distinct := fun node hnode other hother =>
    hgood.distinct node (hsub node hnode) other (hsub other hother)

/-- A node that no other outweighs. -/
def Heaviest (hash : String → UInt64) (shard : ShardId) (nodes : List String)
    (owner : String) : Prop :=
  owner ∈ nodes ∧ ∀ node ∈ nodes, weight hash shard node ≤ weight hash shard owner

/-- What the loop knows of the nodes that it has seen; before the first one it
has the weight 0 and no node. -/
structure IsBest (hash : String → UInt64) (shard : ShardId)
    (seen : List String) (best : UInt64 × String) : Prop where
  highest : ∀ node ∈ seen, weight hash shard node ≤ best.1
  origin : (seen = [] ∧ best.1 = 0) ∨ (best.2 ∈ seen ∧ best.1 = weight hash shard best.2)

theorem IsBest.improve {seen : List String} {best : UInt64 × String} {node : String}
    (hbest : IsBest hash shard seen best) (hpositive : 0 < weight hash shard node) :
    IsBest hash shard (seen ++ [node]) (RendezvousHash.improve hash shard best node) := by
  by_cases hlt : best.1 < weight hash shard node
  · rw [RendezvousHash.improve, if_pos hlt]
    refine ⟨?_, .inr ⟨mem_concat_self, rfl⟩⟩
    intro other hother
    rcases mem_append.mp hother with hin | hin
    · exact UInt64.le_trans (hbest.highest other hin) (UInt64.le_of_lt hlt)
    · rw [mem_singleton.mp hin]
      exact UInt64.le_refl _
  · rw [RendezvousHash.improve, if_neg hlt]
    refine ⟨?_, ?_⟩
    · exact forall_mem_append.mpr ⟨hbest.highest, forall_mem_singleton.mpr (UInt64.not_lt.mp hlt)⟩
    · rcases hbest.origin with ⟨-, hzero⟩ | ⟨hmem, hweight⟩
      · -- the first node always has more than nothing
        rw [hzero] at hlt
        exact absurd hpositive hlt
      · exact .inr ⟨mem_append_left _ hmem, hweight⟩

theorem bestNode_isBest (hpositive : ∀ node ∈ nodes, 0 < weight hash shard node) :
    IsBest hash shard nodes (bestNode hash shard nodes) := by
  induction nodes using List.reverseRecOn with
  | nil =>
    refine ⟨?_, .inl ⟨rfl, rfl⟩⟩
    intro node hnode
    cases hnode
  | append_singleton nodes node ih =>
    rw [bestNode, foldl_append]
    refine IsBest.improve (ih ?_) (hpositive node mem_concat_self)
    intro other hother
    exact hpositive other (mem_append_left _ hother)

theorem bestNode_heaviest (hnodes : nodes ≠ []) (hgood : GoodWeights hash shard nodes) :
    Heaviest hash shard nodes (bestNode hash shard nodes).2 := by
  obtain ⟨hhighest, horigin⟩ := bestNode_isBest hgood.positive
  rcases horigin with ⟨hempty, -⟩ | ⟨hmem, hweight⟩
  · exact absurd hempty hnodes
  · rw [hweight] at hhighest
    exact ⟨hmem, hhighest⟩

theorem Heaviest.unique (hgood : GoodWeights hash shard nodes)
    {owner' : String} (howner : Heaviest hash shard nodes owner)
    (howner' : Heaviest hash shard nodes owner') : owner = owner' :=
  hgood.distinct owner howner.1 owner' howner'.1
    (UInt64.le_antisymm (howner'.2 owner howner.1) (howner.2 owner' howner'.1))

theorem lookup_foldl_insert (place : ShardId → String) (shards : List ShardId)
    (result : PlacementPlan) (shard : ShardId) :
    (shards.foldl (fun result shard => result.insert shard (place shard)) result).lookup shard =
      if shard ∈ shards then some (place shard) else result.lookup shard := by
  induction shards using List.reverseRecOn with
  | nil => rw [if_neg not_mem_nil, foldl_nil]
  | append_singleton shards next ih =>
    rw [foldl_append, foldl_cons, foldl_nil]
    by_cases hnext : shard = next
    · subst hnext
      rw [AList.lookup_insert, if_pos mem_concat_self]
    · rw [AList.lookup_insert_ne hnext, ih]
      simp [hnext]

/-- The owner in the plan is the heaviest node. -/
theorem lookup_plan_eq {shards : List ShardId} (hshard : shard ∈ shards)
    (hgood : GoodWeights hash shard nodes)
    (howner : Heaviest hash shard nodes owner) (current : List ShardEntry) :
    (plan hash shards nodes current).lookup shard = some owner := by
  have hnodes : nodes ≠ [] := ne_nil_of_mem howner.1
  rw [plan, if_neg (by simpa using hnodes), lookup_foldl_insert, if_pos hshard,
    (bestNode_heaviest hnodes hgood).unique hgood howner]

/-- Where some of the nodes are left, and the owner is, it stays the owner. -/
theorem Heaviest.lookup_plan_subset (howner : Heaviest hash shard nodes owner)
    (hgood : GoodWeights hash shard nodes) {shards : List ShardId} (hshard : shard ∈ shards)
    {others : List String} (hsubset : ∀ node ∈ others, node ∈ nodes) (hmem : owner ∈ others)
    (later : List ShardEntry) :
    (plan hash shards others later).lookup shard = some owner := by
  refine lookup_plan_eq hshard (hgood.subset hsubset) ⟨hmem, ?_⟩ later
  intro node hnode
  exact howner.2 node (hsubset node hnode)

/-- The owner of a shard does not depend on the order of the nodes, and it stays
when another node leaves; when a node is added, it stays or the new node is
the owner. -/
theorem plan_stable {shards : List ShardId} (hshard : shard ∈ shards) (hnodes : nodes ≠ [])
    (hgood : GoodWeights hash shard nodes) (current : List ShardEntry) :
    ∃ owner ∈ nodes, (plan hash shards nodes current).lookup shard = some owner ∧
      (∀ others later, (∀ node, node ∈ others ↔ node ∈ nodes) →
        (plan hash shards others later).lookup shard = some owner) ∧
      (∀ removed others later, removed ≠ owner →
        (∀ node, node ∈ others ↔ node ∈ nodes ∧ node ≠ removed) →
        (plan hash shards others later).lookup shard = some owner) ∧
      ∀ added others later, GoodWeights hash shard (added :: nodes) →
        (∀ node, node ∈ others ↔ node ∈ nodes ∨ node = added) →
        (plan hash shards others later).lookup shard = some owner ∨
          (plan hash shards others later).lookup shard = some added := by
  have hheaviest := bestNode_heaviest hnodes hgood
  generalize (bestNode hash shard nodes).2 = owner at hheaviest
  obtain ⟨hmem, hhighest⟩ := hheaviest
  refine ⟨owner, hmem, lookup_plan_eq hshard hgood ⟨hmem, hhighest⟩ current, ?_, ?_, ?_⟩
  · intro others later hsame
    apply Heaviest.lookup_plan_subset ⟨hmem, hhighest⟩ hgood hshard
    · exact fun node => (hsame node).mp
    · exact (hsame owner).mpr hmem
  · intro removed others later hne hsame
    apply Heaviest.lookup_plan_subset ⟨hmem, hhighest⟩ hgood hshard
    · exact fun node hnode => ((hsame node).mp hnode).1
    · exact (hsame owner).mpr ⟨hmem, hne.symm⟩
  · intro added others later hgoodAdded hsame
    have hgoodOthers : GoodWeights hash shard others := by
      apply hgoodAdded.subset
      intro node hnode
      rw [mem_cons, or_comm]
      exact (hsame node).mp hnode
    rcases UInt64.le_total (weight hash shard added) (weight hash shard owner)
      with hle | hle
    · refine .inl (lookup_plan_eq hshard hgoodOthers ⟨(hsame owner).mpr (.inl hmem), ?_⟩ later)
      intro node hnode
      rcases (hsame node).mp hnode with hin | rfl
      · exact hhighest node hin
      · exact hle
    · refine .inr (lookup_plan_eq hshard hgoodOthers ⟨(hsame added).mpr (.inr rfl), ?_⟩ later)
      intro node hnode
      rcases (hsame node).mp hnode with hin | rfl
      · exact UInt64.le_trans (hhighest node hin) hle
      · exact UInt64.le_refl _

namespace PlacementWitness

/-- Longer texts weigh more. -/
def byLength (text : String) : UInt64 := UInt64.ofNat text.length

def pair : List String := ["a", "bc"]

theorem goodWeights_added : GoodWeights byLength 0 ("def" :: pair) := by
  constructor <;> decide

theorem goodWeights_pair : GoodWeights byLength 0 pair :=
  goodWeights_added.subset fun _ hnode => mem_cons_of_mem _ hnode

/-- A third node is added in front. -/
theorem plan_stable_added :
    GoodWeights byLength 0 pair ∧ GoodWeights byLength 0 ("def" :: pair) ∧ ∃ owner ∈ pair,
        (plan byLength [0] ("def" :: pair) []).lookup 0 = some owner ∨
          (plan byLength [0] ("def" :: pair) []).lookup 0 = some "def" := by
  obtain ⟨owner, hmem, -, -, -, hadded⟩ := @plan_stable byLength 0 pair [0]
    mem_cons_self (by decide) goodWeights_pair []
  refine ⟨goodWeights_pair, goodWeights_added, owner, hmem,
    hadded "def" ("def" :: pair) [] goodWeights_added ?_⟩
  intro node
  rw [mem_cons, or_comm]

end PlacementWitness

end HPActor.RendezvousHash
