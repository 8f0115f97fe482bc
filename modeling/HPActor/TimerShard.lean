/-
One shard of the timer plane.  A shard is a hierarchical wheel of four levels
with 256 buckets each, a table of 65536 slots that a handle points into, and a
generation for each slot that a handle must match.  Freed slots are reused in
last-in first-out order.  Commands of other threads wait in a bounded queue until
the next advance.

Times are integers: the 64-bit clock of the source is never near its end.
`min_deadline_` is an option, with `none` for the value INT64_MAX of an empty
shard.
-/
import HPActor.Runs
import HPActor.WheelSweep

namespace HPActor

universe u

open HierarchicalWheel

variable {α : Type u}

/-- A handle: type tag, shard index, generation and slot index in one word. -/
structure TimerHandle where
  value : Nat

namespace TimerHandle

def makeEncoded (shardIndex slotIndex : Nat) (generation : UInt8) (typeTag : Nat) : TimerHandle :=
  ⟨typeTag <<< 48 ||| shardIndex <<< 32 ||| generation.toNat <<< 24 ||| slotIndex⟩

def slotIndex (handle : TimerHandle) : Nat :=
  handle.value &&& 0xFFFFFF

def generation (handle : TimerHandle) : UInt8 :=
  UInt8.ofNat (handle.value >>> 24 &&& 0xFF)

def shardIndex (handle : TimerHandle) : Nat :=
  handle.value >>> 32 &&& 0xFFFF

/-- The handle of a refused schedule. -/
def invalid : TimerHandle := ⟨0⟩

end TimerHandle

/-- What a node carries besides its expiry and its place in the wheel.  The key
of a node is its slot index. -/
structure TimerNode (α : Type u) where
  generation : UInt8
  groupHandle : Nat
  callback : α

inductive TimerCommand (α : Type u) where
  | schedule (expireNs : Int) (groupHandle : Nat) (callback : α)
  | cancel (handle : TimerHandle)
  | drainGroup (groupHandle : Nat)

def kMaxSlots : Nat := 65536
def kNumLevels : Nat := 4
def kBucketsPerLevel : Nat := 256
def kMaxAdvanceNs : Int := 100000000

/-- Four levels of 256 buckets. -/
def timerGeometry (tickNs : Nat) : Geometry where
  tick := tickNs
  size := kBucketsPerLevel
  levels := kNumLevels
  size_pos := by decide
  levels_pos := by decide

structure TimerPlaneShard (α : Type u) where
  shardIndex : Nat
  tickNs : Nat
  currentTimeNs : Int
  wheel : Wheel Nat (TimerNode α)
  slots : Nat → Bool
  generations : Nat → UInt8
  freeSlots : List Nat
  minDeadline : Option Int
  cmdQueue : List (TimerCommand α)
  pending : Nat
  scheduled : Nat
  fired : Nat
  cancelled : Nat
  late : Nat
  dropped : Nat

namespace TimerPlaneShard

/-- A new shard: the first slot handed out is slot 0. -/
def create (shardIndex tickNs : Nat) : TimerPlaneShard α where
  shardIndex := shardIndex
  tickNs := tickNs
  currentTimeNs := 0
  wheel := Wheel.empty
  slots := fun _ => false
  generations := fun _ => 0
  freeSlots := List.range kMaxSlots
  minDeadline := none
  cmdQueue := []
  pending := 0
  scheduled := 0
  fired := 0
  cancelled := 0
  late := 0
  dropped := 0

variable (s : TimerPlaneShard α)

def geometry : Geometry := timerGeometry s.tickNs

/-- The next generation of a slot; zero is skipped. -/
def nextGeneration (generation : UInt8) : UInt8 :=
  if generation + 1 = 0 then 1 else generation + 1

def setWheel (wheel : Wheel Nat (TimerNode α)) : TimerPlaneShard α :=
  { s with wheel := wheel }

def acquireSlot : Option (Nat × TimerPlaneShard α) :=
  match s.freeSlots with
  | [] => none
  | slot :: rest =>
    some (slot,
      { s with
        freeSlots := rest
        generations := fun i =>
          if i = slot then nextGeneration (s.generations i)
          else s.generations i
        slots := fun i => if i = slot then true else s.slots i })

def releaseSlot (slot : Nat) (expected : UInt8) : TimerPlaneShard α :=
  if kMaxSlots ≤ slot then s
  else if s.generations slot ≠ expected then s
  else
    { s with
      slots := fun i => if i = slot then false else s.slots i
      freeSlots := slot :: s.freeSlots }

/-- Placement never aims at less than one tick ahead.  `kept` is the expiry the
node ends up with: `schedule` clamps it as well, a queued command does not. -/
def insertIntoWheel (slot : Nat) (node : TimerNode α) (expire kept : Int) : TimerPlaneShard α :=
  s.setWheel (s.wheel.insert s.geometry slot node kept
    (max expire (s.currentTimeNs + s.tickNs)) s.currentTimeNs)

def removeFromWheel (slot : Nat) (node : Node (TimerNode α)) : TimerPlaneShard α :=
  s.setWheel (s.wheel.take node.level node.bucket slot)

def recomputeMinDeadline : TimerPlaneShard α :=
  { s with minDeadline := s.wheel.earliest s.geometry }

/-- A node taken into the wheel. -/
def countScheduled (expire : Int) : TimerPlaneShard α :=
  { s with
    minDeadline := sooner expire s.minDeadline
    pending := s.pending + 1
    scheduled := s.scheduled + 1 }

def countCancelled : TimerPlaneShard α :=
  { s with pending := s.pending - 1, cancelled := s.cancelled + 1 }

def countDropped : TimerPlaneShard α :=
  { s with dropped := s.dropped + 1 }

def schedule (delayNs : Int) (groupHandle : Nat) (callback : α) : TimerHandle × TimerPlaneShard α :=
  let expire := s.currentTimeNs + delayNs
  let kept := max expire (s.currentTimeNs + s.tickNs)
  match s.acquireSlot with
  | none => (TimerHandle.invalid, s.countDropped)
  | some (slot, t) =>
    let generation := t.generations slot
    (TimerHandle.makeEncoded s.shardIndex slot generation 0,
      (t.insertIntoWheel slot ⟨generation, groupHandle, callback⟩ expire kept).countScheduled kept)

def cancel (handle : TimerHandle) : Bool × TimerPlaneShard α :=
  let slot := handle.slotIndex
  if handle.shardIndex ≠ s.shardIndex then (false, s)
  else if kMaxSlots ≤ slot then (false, s)
  else if s.slots slot = false then (false, s)
  else if s.generations slot ≠ handle.generation then (false, s)
  else
    match s.wheel.nodes slot with
    | none => (false, s)
    | some node =>
      let t := (s.removeFromWheel slot node).releaseSlot slot handle.generation
      let t := if NotLater node.expire t.minDeadline then
        t.recomputeMinDeadline else t
      (true, t.countCancelled)

/-- One node of a bucket that a group drain walks. -/
def drainNode (groupHandle level bucket : Nat) (s : TimerPlaneShard α)
    (slot : Nat) : TimerPlaneShard α :=
  match s.wheel.nodes slot with
  | none => s
  | some node =>
    if node.data.groupHandle = groupHandle then
      ((s.setWheel (s.wheel.take level bucket slot)).releaseSlot slot
        node.data.generation).countCancelled
    else s

def drainGroup (groupHandle : Nat) : TimerPlaneShard α :=
  let drainBucket := fun level (t : TimerPlaneShard α) bucket =>
    (t.wheel.buckets level bucket).foldl (drainNode groupHandle level bucket) t
  let drainLevel := fun t level =>
    (List.range kBucketsPerLevel).foldl (drainBucket level) t
  ((List.range kNumLevels).foldl drainLevel s).recomputeMinDeadline

def applyCommand : TimerCommand α → TimerPlaneShard α
  | .schedule expireNs groupHandle callback =>
    match s.acquireSlot with
    | none => s.countDropped
    | some (slot, t) =>
      (t.insertIntoWheel slot ⟨t.generations slot, groupHandle, callback⟩
        expireNs expireNs).countScheduled expireNs
  | .cancel handle => (s.cancel handle).2
  | .drainGroup groupHandle => s.drainGroup groupHandle

def drainCommands : TimerPlaneShard α :=
  s.cmdQueue.foldl applyCommand { s with cmdQueue := [] }

/-- The bookkeeping of one fired node. -/
def fireNode (nowNs : Int) (s : TimerPlaneShard α)
    (entry : Nat × Node (TimerNode α)) : TimerPlaneShard α :=
  let t := s.releaseSlot entry.1 entry.2.data.generation
  { t with
    pending := t.pending - 1
    fired := t.fired + 1
    late := if t.tickNs < nowNs - entry.2.expire then t.late + 1 else t.late }

def keepData (_level : Nat) (node : TimerNode α) : TimerNode α := node

/-- The clock step of an advance is at most 100 ms. -/
def cappedNow (clock nowNs : Int) : Int :=
  if kMaxAdvanceNs < nowNs - clock then clock + kMaxAdvanceNs else nowNs

/-- Move the clock and sweep the wheel; the callbacks run in the order in which
the nodes were taken out. -/
def advanceTo (nowNs : Int) : List α × TimerPlaneShard α :=
  let swept := sweep s.geometry keepData s.currentTimeNs nowNs s.wheel
  let t := swept.fired.foldl (fireNode nowNs)
    { s with currentTimeNs := nowNs, wheel := swept.wheel }
  (swept.fired.map fun entry => entry.2.data.callback,
    if swept.fired.isEmpty then t else t.recomputeMinDeadline)

def advance (nowNs : Int) : List α × TimerPlaneShard α :=
  let t := s.drainCommands
  if nowNs ≤ t.currentTimeNs then
    ([], if s.cmdQueue.isEmpty then t else t.recomputeMinDeadline)
  else t.advanceTo (cappedNow t.currentTimeNs nowNs)

end TimerPlaneShard

end HPActor
