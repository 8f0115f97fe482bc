/-
`SuperCarrier`: slabs are carved from one reservation by adding to an atomic
offset, one for each NUMA node and one for the rest.  A carve that fails takes
its bump back with a later subtraction.  If another carve was granted in
between, the offset drops below that grant and the bytes are handed out again.
-/
import Mathlib.Algebra.Group.Nat.Defs
import Mathlib.Data.Fintype.Basic
import HPActor.Runs

namespace HPActor

inductive CarveRegion where
  | whole
  | node (n : Nat)
deriving Repr, DecidableEq

/-- The reservation and its partition, as `init` makes it. -/
structure CarrierLayout where
  carrierSize : Nat
  numaNodeCount : Nat
  carrierSize_lt : carrierSize < 2 ^ 64

namespace CarrierLayout

variable (layout : CarrierLayout)

def numaNodeSize : Nat := layout.carrierSize / layout.numaNodeCount

def regionBase : CarveRegion → Nat
  | .whole => 0
  | .node n => n * layout.numaNodeSize

def regionEnd : CarveRegion → Nat
  | .whole => layout.carrierSize
  | .node n => n * layout.numaNodeSize + layout.numaNodeSize

/-- The first value of a region's offset. -/
def startOffset : CarveRegion → Nat
  | .whole =>
    if 1 < layout.numaNodeCount then
      layout.numaNodeSize * layout.numaNodeCount
    else 0
  | .node _ => 0

/-- Nodes that have a region of their own. -/
def HasRegion : CarveRegion → Prop
  | .whole => True
  | .node n => 1 < layout.numaNodeCount ∧ n < layout.numaNodeCount

end CarrierLayout

/-- Bytes `off` to `off + size` of a region. -/
structure CarvedRange where
  region : CarveRegion
  off : Nat
  size : Nat
deriving Repr, DecidableEq

namespace CarvedRange

def first (layout : CarrierLayout) (r : CarvedRange) : Nat :=
  layout.regionBase r.region + r.off

def last (layout : CarrierLayout) (r : CarvedRange) : Nat :=
  layout.regionBase r.region + r.off + r.size

end CarvedRange

/-- Where a thread is in `carve_from_offset`.  After a failure a thread that
tried a node's region goes on with the rest of the carrier. -/
inductive CarveThread where
  | idle
  | adding (region : CarveRegion) (size : Nat) (fallback : Bool)
  | checking (region : CarveRegion) (size : Nat) (fallback : Bool) (off : Nat)
  | undoing (region : CarveRegion) (size : Nat) (fallback : Bool)
deriving Repr, DecidableEq

structure SuperCarrier (T : Type) where
  layout : CarrierLayout
  offsets : CarveRegion → Nat
  threads : T → CarveThread
  granted : List CarvedRange

namespace SuperCarrier

variable {T : Type}

def init (T : Type) (layout : CarrierLayout) : SuperCarrier T :=
  { layout, offsets := layout.startOffset, threads := fun _ => .idle
    granted := [] }

inductive Action (T : Type) where
  | carve (t : T) (size : Nat)
  | carveNuma (t : T) (size numaNode : Nat)
  | fetchAdd (t : T)
  | protect (t : T) (succeeds : Bool)
  | fetchSub (t : T)

/-- The first region that `carve_numa` tries. -/
def firstRegion (layout : CarrierLayout) (numaNode : Nat) : CarveRegion :=
  if 1 < layout.numaNodeCount ∧ numaNode < layout.numaNodeCount then
    .node numaNode
  else .whole

section

variable [DecidableEq T] (s : SuperCarrier T)

def setThread (t : T) (thread : CarveThread) : SuperCarrier T :=
  { s with threads := Function.update s.threads t thread }

def setOffset (region : CarveRegion) (offset : Nat) : SuperCarrier T :=
  { s with offsets := Function.update s.offsets region offset }

def grant (range : CarvedRange) : SuperCarrier T :=
  { s with granted := s.granted ++ [range] }

/-- The end of a range as the source computes it. -/
def rangeEnd (layout : CarrierLayout) (region : CarveRegion) (off size : Nat) : Nat :=
  (layout.regionBase region + off + size) % 2 ^ 64

def step : Action T → Option (SuperCarrier T)
  | .carve t size =>
    if s.threads t = .idle ∧ size < 2 ^ 64 then
      some (s.setThread t (.adding .whole size false))
    else none
  | .carveNuma t size numaNode =>
    if s.threads t = .idle ∧ size < 2 ^ 64 then
      some (s.setThread t (.adding (firstRegion s.layout numaNode) size
        (decide (firstRegion s.layout numaNode ≠ .whole))))
    else none
  | .fetchAdd t =>
    match s.threads t with
    | .adding region size fallback =>
      some ((s.setOffset region ((s.offsets region + size) % 2 ^ 64)).setThread t
          (.checking region size fallback (s.offsets region)))
    | _ => none
  | .protect t succeeds =>
    match s.threads t with
    | .checking region size fallback off =>
      if s.layout.regionEnd region < rangeEnd s.layout region off size then
        some (s.setThread t (.undoing region size fallback))
      else if succeeds then
        some ((s.grant ⟨region, off, size⟩).setThread t .idle)
      else some (s.setThread t (.undoing region size fallback))
    | _ => none
  | .fetchSub t =>
    match s.threads t with
    | .undoing region size fallback =>
      some ((s.setOffset region ((s.offsets region + (2 ^ 64 - size)) % 2 ^ 64)).setThread t
          (if fallback then .adding .whole size false else .idle))
    | _ => none

end

/-- The range a thread will be granted unless `mprotect` fails. -/
def claimOf (layout : CarrierLayout) : CarveThread → Option CarvedRange
  | .checking region size _ off =>
    if layout.regionBase region + off + size ≤ layout.regionEnd region then
      some ⟨region, off, size⟩
    else none
  | .idle | .adding .. | .undoing .. => none

variable (s : SuperCarrier T)

/-- No range of the region reaches above the offset less `size`. -/
def RoomBelow (region : CarveRegion) (size : Nat) : Prop :=
  (∀ range ∈ s.granted, range.region = region → range.off + range.size + size ≤ s.offsets region) ∧
    ∀ t, ∀ range ∈ claimOf s.layout (s.threads t), range.region = region →
      range.off + range.size + size ≤ s.offsets region

instance [Fintype T] (s : SuperCarrier T) (region : CarveRegion)
    (size : Nat) : Decidable (s.RoomBelow region size) :=
  inferInstanceAs (Decidable ((∀ range ∈ s.granted, _) ∧ ∀ _, _))

/-- The addition a thread is about to make fits into 64 bits. -/
def AddFits : CarveThread → Prop
  | .adding region size _ =>
    s.layout.regionBase region + s.offsets region + size < 2 ^ 64
  | .idle | .checking .. | .undoing .. => True

/-- The subtraction a thread is about to make takes back no bytes of another
call. -/
def SubClear : CarveThread → Prop
  | .undoing region size _ => s.RoomBelow region size
  | .idle | .adding .. | .checking .. => True

def Careful : Action T → Prop
  | .fetchAdd t => s.AddFits (s.threads t)
  | .fetchSub t => s.SubClear (s.threads t)
  | .carve .. | .carveNuma .. | .protect .. => True

instance (s : SuperCarrier T) (thread : CarveThread) : Decidable (s.AddFits thread) := by
  unfold AddFits
  split <;> infer_instance

instance [Fintype T] (s : SuperCarrier T) (thread : CarveThread) :
    Decidable (s.SubClear thread) := by
  unfold SubClear
  split <;> infer_instance

instance [Fintype T] (s : SuperCarrier T) (action : Action T) : Decidable (s.Careful action) := by
  unfold Careful
  split <;> infer_instance

/-- The granted ranges lie in the reservation and apart from each other. -/
def Disjoint : Prop :=
  (∀ range ∈ s.granted, range.last s.layout ≤ s.layout.carrierSize) ∧ s.granted.Pairwise fun a b =>
      a.last s.layout ≤ b.first s.layout ∨ b.last s.layout ≤ a.first s.layout

instance (s : SuperCarrier T) : Decidable s.Disjoint :=
  inferInstanceAs (Decidable (_ ∧ List.Pairwise _ _))

end SuperCarrier

end HPActor
