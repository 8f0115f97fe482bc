/-
Epochs order the assignments of a coordinator, as long as its table is not
cleared after it was written: clearing sets the epoch back to 0, and the epochs
that were used are used again.  In the runs without such a reset every write has
an epoch above all earlier ones, so a follower that has all entries has the last
owner of every shard, in whatever order they arrived.
-/
import HPActor.LatestWins
import HPActor.Sharding

namespace HPActor

open LatestWins ShardCoordinatorCore ShardTable Function

universe u

namespace ShardTable

/-- An entry of the coordinator is applied by a follower. -/
def apply (table : ShardTable) (entry : ShardEntry) : ShardTable :=
  table.update entry.shardId entry.ownerNode entry.epoch

/-- Whether the entry is written. -/
def accepts (table : ShardTable) (entry : ShardEntry) : Bool :=
  match table.lookup entry.shardId with
  | some old => decide (old.epoch < entry.epoch)
  | none => true

/-- Those of the entries that are written, if they are applied in turn. -/
def accepted : ShardTable → List ShardEntry → List ShardEntry
  | _, [] => []
  | table, entry :: entries =>
    if table.accepts entry then entry :: accepted (table.apply entry) entries
    else accepted (table.apply entry) entries

def follow (delivered : List ShardEntry) : ShardTable :=
  delivered.foldl apply {}

variable {table : ShardTable} {entry : ShardEntry} {entries : List ShardEntry}

theorem apply_of_not_accepts (hignored : table.accepts entry = false) :
    table.apply entry = table := by
  unfold accepts lookup at hignored
  unfold apply update
  cases hold : table.entries.lookup entry.shardId with
  | none => simp [hold] at hignored
  | some old =>
    simp only [hold, decide_eq_false_iff_not] at hignored ⊢
    exact if_pos (Nat.not_lt.mp hignored)

theorem apply_of_accepts (haccepts : table.accepts entry = true) :
    table.apply entry = table.store entry.shardId entry.ownerNode entry.epoch := by
  unfold accepts lookup at haccepts
  unfold apply update
  cases hold : table.entries.lookup entry.shardId with
  | none => rfl
  | some old =>
    simp only [hold, decide_eq_true_eq] at haccepts ⊢
    exact if_neg (Nat.not_le.mpr haccepts)

section

variable (table : ShardTable)

theorem le_store_epoch (shard : ShardId) (ownerNode : String) (epoch : Nat) :
    table.currentEpoch ≤ (table.store shard ownerNode epoch).currentEpoch ∧
      epoch ≤ (table.store shard ownerNode epoch).currentEpoch := by
  simp only [store]
  split <;> omega

theorem le_apply_epoch (entry : ShardEntry) :
    table.currentEpoch ≤ (table.apply entry).currentEpoch := by
  cases haccepts : table.accepts entry with
  | false => rw [apply_of_not_accepts haccepts]
  | true =>
    rw [apply_of_accepts haccepts]
    exact (le_store_epoch _ _ _ _).1

theorem le_foldl_epoch (entries : List ShardEntry) :
    table.currentEpoch ≤ (entries.foldl apply table).currentEpoch := by
  induction entries generalizing table with
  | nil => exact Nat.le_refl _
  | cons entry entries ih =>
    exact Nat.le_trans (le_apply_epoch table entry) (ih _)

theorem accepted_sublist (entries : List ShardEntry) :
    (accepted table entries).Sublist entries := by
  induction entries generalizing table with
  | nil => exact .slnil
  | cons entry entries ih =>
    rw [accepted]
    split
    · exact (ih _).cons_cons entry
    · exact (ih _).cons entry

end

/-- The epoch of the table is as high as what is written. -/
theorem accepted_le_epoch (hentry : entry ∈ accepted table entries) :
    entry.epoch ≤ (entries.foldl apply table).currentEpoch := by
  induction entries generalizing table with
  | nil => cases hentry
  | cons first entries ih =>
    rw [accepted] at hentry
    rw [List.foldl_cons]
    split at hentry
    · next haccepts =>
        rcases List.mem_cons.mp hentry with rfl | hin
        · refine Nat.le_trans ?_ (le_foldl_epoch _ _)
          rw [apply_of_accepts haccepts]
          exact (le_store_epoch _ _ _ _).2
        · exact ih hin
    · exact ih hentry

theorem newer_eq (table : ShardTable) (entry : ShardEntry) :
    newer ShardEntry.epoch (table.lookup entry.shardId) entry =
      if table.accepts entry then some entry
      else table.lookup entry.shardId := by
  rw [accepts]
  cases table.lookup entry.shardId with
  | none => rfl
  | some old =>
    by_cases hlt : old.epoch < entry.epoch
    · simp [newer, hlt]
    · simp [newer, hlt, Nat.not_lt.mp hlt]

/-- A table is a replica that keeps the latest entries. -/
theorem lookup_apply (table : ShardTable) (entry : ShardEntry) :
    (table.apply entry).lookup = merge ShardEntry.shardId ShardEntry.epoch table.lookup entry := by
  rw [merge, newer_eq]
  cases haccepts : table.accepts entry with
  | false =>
    rw [apply_of_not_accepts haccepts, if_neg Bool.false_ne_true, update_eq_self]
  | true =>
    rw [apply_of_accepts haccepts, if_pos rfl]
    funext shard
    by_cases hshard : shard = entry.shardId
    · subst hshard
      rw [update_self, lookup, store, AList.lookup_insert]
    · rw [update_of_ne hshard, lookup, store, AList.lookup_insert_ne hshard, lookup]

theorem lookup_follow (delivered : List ShardEntry) :
    (follow delivered).lookup = mergeAll ShardEntry.shardId ShardEntry.epoch delivered := by
  induction delivered using List.reverseRecOn with
  | nil => rfl
  | append_singleton delivered entry ih =>
    rw [follow, List.foldl_append, mergeAll_append, ← ih]
    exact lookup_apply _ entry

end ShardTable

namespace ShardCoordinatorCore

variable {σ : Type u}

section

variable (hash : String → UInt64) (strategy : PlacementStrategy σ)

/-- The entries that a call hands to the table. -/
def updates (core : ShardCoordinatorCore σ) : ShardCall → List ShardEntry
  | .registerActor persistenceId ownerNode =>
    if persistenceId ∈ core.registeredActors then []
    else [{
      shardId := ShardResolver.resolve hash persistenceId core.totalShards
      ownerNode := ownerNode
      epoch := core.shardTable.epoch + 1 }]
  | .unregisterActor _ => []
  | .rebalance aliveNodes =>
    if aliveNodes.isEmpty then []
    else
      (strategy.plan core.strategy core.allShards aliveNodes
        core.shardTable.entryList).1.entries.map fun assignment =>
          { shardId := assignment.1
            ownerNode := assignment.2
            epoch := core.shardTable.epoch + 1 }

end

variable {hash : String → UInt64} {strategy : PlacementStrategy σ}
  {core : ShardCoordinatorCore σ} {request : ShardCall}

theorem call_shardTable (hrequest : request ≠ .rebalance []) :
    (core.call hash strategy request).shardTable =
      (core.updates hash strategy request).foldl apply core.shardTable := by
  cases request with
  | registerActor persistenceId ownerNode =>
    rw [call, registerActor, updates]
    split <;> rfl
  | unregisterActor persistenceId => rfl
  | rebalance aliveNodes =>
    have halive : ¬aliveNodes.isEmpty = true := by
      intro hempty
      exact hrequest (congrArg _ (List.isEmpty_iff.mp hempty))
    rw [call, rebalance, if_neg halive, updates, if_neg halive, List.foldl_map]
    rfl

/-- All entries of a call have the next epoch. -/
theorem updates_epoch {entry : ShardEntry} (hentry : entry ∈ core.updates hash strategy request) :
    entry.epoch = core.shardTable.epoch + 1 := by
  cases request with
  | registerActor persistenceId ownerNode =>
    rw [updates] at hentry
    split at hentry
    · cases hentry
    · rw [List.mem_singleton.mp hentry]
  | unregisterActor persistenceId => cases hentry
  | rebalance aliveNodes =>
    rw [updates] at hentry
    split at hentry
    · cases hentry
    · obtain ⟨assignment, -, rfl⟩ := List.mem_map.mp hentry
      rfl

/-- A call has one entry for a shard at most. -/
theorem updates_distinct (core : ShardCoordinatorCore σ) (request : ShardCall) :
    (core.updates hash strategy request).Pairwise fun entry other =>
      entry.shardId ≠ other.shardId := by
  cases request with
  | registerActor persistenceId ownerNode =>
    rw [updates]
    split
    · exact .nil
    · exact List.pairwise_singleton _ _
  | unregisterActor persistenceId => exact .nil
  | rebalance aliveNodes =>
    rw [updates]
    split
    · exact .nil
    · rw [List.pairwise_map]
      exact List.nodupKeys_iff_pairwise.mp (AList.nodupKeys _)

end ShardCoordinatorCore

/-- A coordinator and the entries that it has written. -/
structure ShardJournal (σ : Type u) where
  core : ShardCoordinatorCore σ
  written : List ShardEntry := []

namespace ShardJournal

variable {σ : Type u}

section

variable (hash : String → UInt64) (strategy : PlacementStrategy σ)

def record (journal : ShardJournal σ) (request : ShardCall) : ShardJournal σ where
  core := journal.core.call hash strategy request
  written := journal.written ++ journal.core.shardTable.accepted
      (journal.core.updates hash strategy request)

/-- A new coordinator after some calls. -/
def after (totalShards : UInt32) (state : σ) (requests : List ShardCall) : ShardJournal σ :=
  requests.foldl (record hash strategy)
    { core := { totalShards := totalShards, strategy := state } }

/-- The table is only cleared while its epoch is 0. -/
def NoReset (totalShards : UInt32) (state : σ) (requests : List ShardCall) : Prop :=
  ∀ front back, requests = front ++ .rebalance [] :: back →
    (after hash strategy totalShards state front).core.shardTable.epoch = 0

/-- Epochs order the entries of the run. -/
structure EpochsOrder (totalShards : UInt32) (state : σ) (requests : List ShardCall) : Prop where
  monotone : ∀ front middle back, requests = front ++ middle ++ back →
    (after hash strategy totalShards state front).core.shardTable.epoch ≤
      (after hash strategy totalShards state (front ++ middle)).core.shardTable.epoch
  oneOwner : ∀ entry ∈ (after hash strategy totalShards state requests).written,
    ∀ other ∈ (after hash strategy totalShards state requests).written,
    entry.shardId = other.shardId → entry.epoch = other.epoch → entry.ownerNode = other.ownerNode
  follower : ∀ delivered,
    (∀ entry, entry ∈ delivered ↔
      entry ∈ (after hash strategy totalShards state requests).written) →
    ∀ shard, (ShardTable.follow delivered).lookup shard = last ShardEntry.shardId
        (after hash strategy totalShards state requests).written shard

end

/-- What was written is ordered by its epochs, up to that of the table. -/
structure Orderly (journal : ShardJournal σ) : Prop where
  written_le : ∀ entry ∈ journal.written, entry.epoch ≤ journal.core.shardTable.epoch
  ascending : Ascending ShardEntry.shardId ShardEntry.epoch journal.written

variable {hash : String → UInt64} {strategy : PlacementStrategy σ} {journal : ShardJournal σ}
  {request : ShardCall} {totalShards : UInt32} {state : σ} {requests : List ShardCall}

theorem record_epoch (hreset : request = .rebalance [] → journal.core.shardTable.epoch = 0) :
    journal.core.shardTable.epoch ≤
      (journal.record hash strategy request).core.shardTable.epoch := by
  by_cases hclear : request = .rebalance []
  · rw [hreset hclear]
    exact Nat.zero_le _
  · simp only [record, epoch, call_shardTable hclear]
    exact le_foldl_epoch _ _

theorem Orderly.record (horderly : journal.Orderly)
    (hreset : request = .rebalance [] → journal.core.shardTable.epoch = 0) :
    (journal.record hash strategy request).Orderly where
  written_le := by
    intro entry hentry
    rcases List.mem_append.mp hentry with hold | hnew
    · exact Nat.le_trans (horderly.written_le entry hold) (record_epoch hreset)
    · by_cases hclear : request = .rebalance []
      · subst hclear
        cases hnew
      · simp only [ShardJournal.record, epoch, call_shardTable hclear]
        exact accepted_le_epoch hnew
  ascending := by
    have hsub := accepted_sublist journal.core.shardTable
      (journal.core.updates hash strategy request)
    refine List.pairwise_append.mpr ⟨horderly.ascending, ?_, ?_⟩
    · have hdistinct := (updates_distinct journal.core request).sublist hsub
      exact hdistinct.imp fun hne hsame => absurd hsame hne
    · intro entry hentry later hlater _
      have hle := horderly.written_le entry hentry
      rw [updates_epoch (hsub.subset hlater)]
      exact Nat.lt_succ_of_le hle

theorem after_append (front : List ShardCall) (request : ShardCall) :
    after hash strategy totalShards state (front ++ [request]) =
      (after hash strategy totalShards state front).record hash strategy request := by
  rw [after, List.foldl_append]
  rfl

theorem NoReset.front {back : List ShardCall}
    (hreset : NoReset hash strategy totalShards state (requests ++ back)) :
    NoReset hash strategy totalShards state requests := by
  rintro front rest rfl
  exact hreset front (rest ++ back) (by simp)

theorem NoReset.last (hreset : NoReset hash strategy totalShards state (requests ++ [request])) :
    request = .rebalance [] →
      (after hash strategy totalShards state requests).core.shardTable.epoch = 0 := by
  rintro rfl
  exact hreset requests [] rfl

theorem after_orderly (hreset : NoReset hash strategy totalShards state requests) :
    (after hash strategy totalShards state requests).Orderly := by
  induction requests using List.reverseRecOn with
  | nil =>
    refine ⟨?_, .nil⟩
    intro entry hentry
    cases hentry
  | append_singleton requests request ih =>
    rw [after_append]
    exact (ih hreset.front).record hreset.last

theorem after_epoch {front middle : List ShardCall}
    (hreset : NoReset hash strategy totalShards state (front ++ middle)) :
    (after hash strategy totalShards state front).core.shardTable.epoch ≤
      (after hash strategy totalShards state (front ++ middle)).core.shardTable.epoch := by
  induction middle using List.reverseRecOn with
  | nil => rw [List.append_nil]
  | append_singleton middle request ih =>
    rw [← List.append_assoc] at hreset ⊢
    rw [after_append]
    exact Nat.le_trans (ih hreset.front) (record_epoch hreset.last)

/-- Epochs order the entries of a run just if the table is not cleared after it
was written. -/
theorem epochsOrder_iff (hash : String → UInt64) (strategy : PlacementStrategy σ)
    (totalShards : UInt32) (state : σ) (requests : List ShardCall) :
    EpochsOrder hash strategy totalShards state requests ↔
      NoReset hash strategy totalShards state requests := by
  constructor
  · rintro horder front back rfl
    have hle := horder.monotone front [.rebalance []] back (by simp)
    rw [after_append] at hle
    exact Nat.le_zero.mp hle
  · intro hreset
    have horderly := after_orderly hreset
    refine ⟨?_, ?_, ?_⟩
    · rintro front middle back rfl
      exact after_epoch hreset.front
    · intro entry hentry other hother hshard hepoch
      rw [horderly.ascending.eq_of_version hentry hother hshard hepoch]
    · intro delivered hdelivered shard
      rw [ShardTable.lookup_follow]
      exact mergeAll_eq_last horderly.ascending
        fun entry _ => hdelivered entry

namespace EpochsWitness

/-- Every node has the weight 1. -/
def even : PlacementStrategy Unit := RendezvousHash.strategy fun _ => 1

/-- The only node leaves, and another one comes. -/
def replaced : List ShardCall :=
  [.rebalance ["a"], .rebalance [], .rebalance ["b"]]

/-- Shard 0 is given to both nodes in epoch 1, and a follower that has seen the
first entry keeps it. -/
theorem replaced_not_ordered :
    (after (fun _ => 1) even 1 () replaced).written = [⟨0, "a", 1⟩, ⟨0, "b", 1⟩] ∧
      ((ShardTable.follow (after (fun _ => 1) even 1 () replaced).written).lookup 0).map
        ShardEntry.ownerNode = some "a" ∧
      ¬EpochsOrder (fun _ => 1) even 1 () replaced := by
  have hwritten : (after (fun _ => 1) even 1 () replaced).written =
      [⟨0, "a", 1⟩, ⟨0, "b", 1⟩] := by decide
  refine ⟨hwritten, by decide, ?_⟩
  intro horder
  have howners := horder.oneOwner ⟨0, "a", 1⟩ (by rw [hwritten]; decide)
    ⟨0, "b", 1⟩ (by rw [hwritten]; decide) rfl rfl
  exact absurd howners (by decide)

end EpochsWitness

end ShardJournal

end HPActor
