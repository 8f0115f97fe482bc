/-
The receiver-side deduplication cache: a map from (source node, source actor,
message id) to a time stamp, with a bound on its size.  The order in which the
hash map is walked when it evicts is not fixed by the source; it is given here
by a function that may answer differently every time.
-/
import HPActor.Message
import Mathlib.Data.List.Perm.Basic

namespace HPActor

structure DedupKey where
  sourceNode : EndPoint
  sourceActor : UInt64
  messageId : UInt64
deriving Repr, DecidableEq

/-- The configuration, and the order of the entries at the n-th eviction. -/
structure DedupSetup where
  maxEntries : Nat := 65536
  ttlNs : Nat := 300000000000
  order : Nat → List (DedupKey × Nat) → List (DedupKey × Nat) :=
    fun _ entries => entries
  order_perm : ∀ n entries, (order n entries).Perm entries := by
    intros
    exact List.Perm.refl _

structure DedupCache where
  setup : DedupSetup := {}
  entries : List (DedupKey × Nat) := []
  evictions : Nat := 0
  hits : Nat := 0
  inserts : Nat := 0

namespace DedupCache

variable (c : DedupCache)

def contains (key : DedupKey) : Bool :=
  c.entries.any fun entry => entry.1 = key

/-- Evict the front of the walk when there are too many entries. -/
def evict : DedupCache :=
  if c.setup.maxEntries < c.entries.length then
    { c with
      entries := (c.setup.order c.evictions c.entries).drop (max (c.setup.maxEntries / 10) 1)
      evictions := c.evictions + 1 }
  else c

/-- Check and set: a key that is not there is inserted, with no time stamp. -/
def isDuplicate (key : DedupKey) : Bool × DedupCache :=
  if c.contains key then (true, { c with hits := c.hits + 1 })
  else
    (false, evict
      { c with
        entries := c.entries ++ [(key, 0)]
        inserts := c.inserts + 1 })

def remove (key : DedupKey) : DedupCache :=
  { c with entries := c.entries.filter fun entry => entry.1 ≠ key }

end DedupCache

end HPActor
