/-
Tables of what the nodes have said, by key and then by node.  There is one slot
for each node under a key, and an entry takes its slot if it is newer than what
is there.
-/
import HPActor.LatestWins
import Mathlib.Algebra.BigOperators.Group.Finset.Basic
import Mathlib.Data.List.AList

namespace NodeTables

open LatestWins Function AList

universe u v w x

/-- Entries by key and node. -/
abbrev Table (K : Type u) (N : Type v) (E : Type w) :=
  AList fun _ : K => AList fun _ : N => E

variable {K : Type u} {N : Type v} {E : Type w} [DecidableEq K]

/-- The nodes that have an entry under the key. -/
def nodesOf (table : Table K N E) (k : K) : AList fun _ : N => E :=
  (table.lookup k).getD ∅

variable [DecidableEq N]

def slotOf (table : Table K N E) (place : K × N) : Option E :=
  (nodesOf table place.1).lookup place.2

section

variable (key : E → K) (node : E → N) (version : E → Nat)

/-- Stale entries and duplicates are ignored. -/
def mergeEntry (table : Table K N E) (entry : E) : Table K N E :=
  let nodeMap := nodesOf table (key entry)
  match nodeMap.lookup (node entry) with
  | some existing =>
    if version entry ≤ version existing then table
    else table.insert (key entry) (nodeMap.insert (node entry) entry)
  | none => table.insert (key entry) (nodeMap.insert (node entry) entry)

end

variable {key : E → K} {node : E → N} {version : E → Nat}

theorem slotOf_insert (table : Table K N E) (k : K) (n : N) (entry : E) :
    slotOf (table.insert k ((nodesOf table k).insert n entry)) =
      update (slotOf table) (k, n) (some entry) := by
  funext place
  obtain ⟨k', n'⟩ := place
  simp only [slotOf]
  by_cases hkey : k' = k
  · subst hkey
    rw [nodesOf, lookup_insert, Option.getD_some]
    by_cases hnode : n' = n
    · subst hnode
      rw [lookup_insert, update_self]
    · rw [lookup_insert_ne hnode, update_of_ne (by simp [hnode])]
      rfl
  · rw [nodesOf, lookup_insert_ne hkey, update_of_ne (by simp [hkey])]
    rfl

/-- The slots are a replica that keeps the latest entries. -/
theorem slotOf_mergeEntry (table : Table K N E) (entry : E) :
    slotOf (mergeEntry key node version table entry) =
      merge (fun entry => (key entry, node entry)) version (slotOf table) entry := by
  have hslot : (nodesOf table (key entry)).lookup (node entry) =
      slotOf table (key entry, node entry) := rfl
  rw [mergeEntry, merge]
  simp only [hslot]
  cases hold : slotOf table (key entry, node entry) with
  | none => exact slotOf_insert table _ _ entry
  | some existing =>
    by_cases hle : version entry ≤ version existing
    · simp only [newer, if_pos hle]
      rw [← hold, update_eq_self]
    · simp only [newer, if_neg hle]
      exact slotOf_insert table _ _ entry

/-- What the values of a table come to, by the keys that may occur. -/
theorem coe_flatMap_entries {V : Type w} {A : Type x} (t : AList fun _ : N => V) (f : V → List A)
    {nodes : Finset N} (hkeys : ∀ n v, t.lookup n = some v → n ∈ nodes) :
    (t.entries.flatMap fun e => f e.2 : Multiset A) =
      ∑ n ∈ nodes, (((t.lookup n).map f).getD [] : Multiset A) := by
  have hflat : (t.entries.flatMap fun e => f e.2 : Multiset A) =
      (t.entries.map fun e => (f e.2 : Multiset A)).sum := by
    induction t.entries with
    | nil => rfl
    | cons e rest ih =>
      rw [List.flatMap_cons, List.map_cons, List.sum_cons, ← ih]
      rfl
  have hentries : (t.entries.map fun e => (f e.2 : Multiset A)) =
      t.keys.map fun n => (((t.lookup n).map f).getD [] : Multiset A) := by
    rw [keys, List.keys, List.map_map]
    apply List.map_congr_left
    intro e he
    have hlookup : t.lookup e.1 = some e.2 := mem_lookup_iff.mpr he
    simp [hlookup]
  rw [hflat, hentries, ← List.sum_toFinset _ t.keys_nodup]
  apply Finset.sum_subset
  · intro n hn
    rw [List.mem_toFinset] at hn
    obtain ⟨v, hv⟩ := Option.isSome_iff_exists.mp (lookup_isSome.mpr hn)
    exact hkeys n v hv
  · intro n _ hn
    rw [List.mem_toFinset] at hn
    have hnone : t.lookup n = none := lookup_eq_none.mpr hn
    simp [hnone]

end NodeTables
