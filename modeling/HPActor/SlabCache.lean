/-
`SlabCache` with segregated bins and coalescing.  A free block is on the
tagged free list of its bin, linked through `AllocHeader::next`, and on a
doubly linked list whose links are kept in the block's user data.  When a block
is freed next to a free one, `dll_remove` takes the neighbour off the doubly
linked list; on the tagged free list only the head can be taken off.

A block is named by the address of its header, and 0 is the null pointer.
-/
import Mathlib
import HPActor.IntrusiveStack
import HPActor.Runs

namespace HPActor

open Function

inductive SizeClass where
  | k32B
  | k64B
  | k128B
  | k256B
  | k512B
  | k1KB
  | k2KB
  | k4KB

namespace SizeClass

def sizeForClass : SizeClass → Nat
  | .k32B => 32
  | .k64B => 64
  | .k128B => 128
  | .k256B => 256
  | .k512B => 512
  | .k1KB => 1024
  | .k2KB => 2048
  | .k4KB => 4096

/-- Header, user data and footer, rounded up to the alignment. -/
def blockSize (sc : SizeClass) : Nat := (sc.sizeForClass + 40 + 31) / 32 * 32

/-- `SegmentProvider::slab_size`. -/
def slabSize : SizeClass → Nat
  | .k32B | .k64B | .k128B => 64 * 1024
  | .k256B => 2 * (64 * 1024)
  | .k512B | .k1KB => 4 * (64 * 1024)
  | .k2KB | .k4KB => 8 * (64 * 1024)

end SizeClass

def kAllocMagic : UInt32 := 0xAC70AC70

def kFreedMagic : UInt32 := 0xDEADDEAD

def kBoundaryFlagFree : UInt8 := 1

abbrev kNumSegregatedBins : Nat := 8

instance : NeZero kNumSegregatedBins := ⟨by decide⟩

def kMinCoalesceBlockSize : Nat := 64

/-- The words of memory that the cache reads, by the address of the header or
footer they are part of.  Headers stand a block size apart, so the words of
different blocks are different words.  `next` is also the owner of a live
block, and the links are user data of a live block. -/
structure BlockMemory where
  next : Nat → Nat
  magic : Nat → UInt32
  linkNext : Nat → Nat
  linkPrev : Nat → Nat
  footerSize : Nat → Nat
  footerFlags : Nat → UInt8

/-- Memory and the top of one `FreeList`. -/
structure BinState where
  memory : BlockMemory
  top : Nat

namespace BinState

variable (b : BinState)

/-- `FreeList::push`. -/
def push (node : Nat) : BinState :=
  { memory := { b.memory with
      next := update b.memory.next node b.top }
    top := node }

/-- `FreeList::pop`. -/
def pop : Nat × BinState :=
  if b.top = 0 then (0, b)
  else (b.top, { b with top := b.memory.next b.top })

def setLinkNext (block next : Nat) : BinState :=
  { b with memory := { b.memory with
      linkNext := update b.memory.linkNext block next } }

def setLinkPrev (block prev : Nat) : BinState :=
  { b with memory := { b.memory with
      linkPrev := update b.memory.linkPrev block prev } }

def dllPush (block : Nat) : BinState :=
  let popped := b.pop
  let linked := (popped.2.setLinkNext block popped.1).setLinkPrev block 0
  if popped.1 = 0 then linked.push block
  else ((linked.setLinkPrev popped.1 block).push popped.1).push block

def dllPop : Nat × BinState :=
  let popped := b.pop
  if popped.1 = 0 then popped
  else
    let following := popped.2.memory.linkNext popped.1
    if following = 0 then popped
    else (popped.1, popped.2.setLinkPrev following 0)

def dllRemove (block : Nat) : BinState :=
  let prev := b.memory.linkPrev block
  let next := b.memory.linkNext block
  let b := if prev = 0 then b else b.setLinkNext prev next
  let b := if next = 0 then b else b.setLinkPrev next prev
  let popped := b.pop
  let b :=
    if popped.1 = block then
      if next = 0 then popped.2 else popped.2.push next
    else if popped.1 = 0 then popped.2
    else popped.2.push popped.1
  (b.setLinkNext block 0).setLinkPrev block 0

end BinState

/-- The last two fields record the blocks that were returned and not freed,
and how many bytes a block had when it was put into a bin. -/
structure SlabCache where
  sizeClass : SizeClass
  memory : BlockMemory
  currentSlab : Nat
  slabSize : Nat
  bumpOffset : Nat
  binStrideBytes : Nat
  startBin : Fin kNumSegregatedBins
  bins : Fin kNumSegregatedBins → Nat
  slabs : List Nat
  live : List Nat
  extent : Nat → Nat

namespace SlabCache

def init (sizeClass : SizeClass) (memory : BlockMemory) : SlabCache :=
  { sizeClass, memory
    currentSlab := 0
    slabSize := 0
    bumpOffset := 0
    binStrideBytes := 0
    startBin := 0
    bins := fun _ => 0
    slabs := []
    live := []
    extent := fun _ => 0 }

def blockSize (c : SlabCache) : Nat := c.sizeClass.blockSize

variable (c : SlabCache)

def binState (bin : Fin kNumSegregatedBins) : BinState :=
  ⟨c.memory, c.bins bin⟩

def putBin (bin : Fin kNumSegregatedBins) (b : BinState) : SlabCache :=
  { c with memory := b.memory, bins := update c.bins bin b.top }

/-- The offset is taken from the slab that is current now, whichever slab the
block is in. -/
def computeBinIndex (header : Nat) : Fin kNumSegregatedBins :=
  if c.binStrideBytes = 0 then 0
  else Fin.ofNat kNumSegregatedBins ((header + 2 ^ 64 - c.currentSlab) % 2 ^ 64 / c.binStrideBytes)

/-- What `AllocHeader::stamp` and `stamp_freelist_block` have in common, with
the canary of the footer. -/
def stamp (block owner : Nat) : SlabCache :=
  { c with memory := { c.memory with
      next := update c.memory.next block owner
      magic := update c.memory.magic block kAllocMagic
      footerSize := update c.memory.footerSize (block + c.blockSize - 8) kAllocMagic.toNat
      footerFlags := update c.memory.footerFlags (block + c.blockSize - 8) 0 } }

/-- The first bin with a block, from `start_bin_` on. -/
def findBin : Option (Fin kNumSegregatedBins) :=
  ((List.finRange kNumSegregatedBins).map (c.startBin + ·)).find?
    fun bin => c.bins bin ≠ 0

/-- A block of the current slab that was never used, or one from a bin. -/
def takeBlock (owner : Nat) : Option (Nat × SlabCache) :=
  if c.currentSlab ≠ 0 ∧ c.bumpOffset + c.blockSize ≤ c.slabSize then
    let block := c.currentSlab + c.bumpOffset
    some (block,
      { c with bumpOffset := c.bumpOffset + c.blockSize }.stamp block owner)
  else
    match c.findBin with
    | some bin =>
      let popped := (c.binState bin).dllPop
      some (popped.1,
        { c.putBin bin popped.2 with startBin := bin + 1 }.stamp popped.1 owner)
    | none => none

/-- `acquire_slab` has returned `slab`. -/
def refill (slab : Nat) : SlabCache :=
  if slab = 0 then { c with currentSlab := 0 }
  else
    { c with
      currentSlab := slab
      slabSize := c.sizeClass.slabSize
      bumpOffset := 0
      binStrideBytes := c.sizeClass.slabSize / kNumSegregatedBins
      slabs := c.slabs ++ [slab] }

def addLive (block : Nat) : SlabCache :=
  { c with live := block :: c.live }

/-- A slab is asked for only when nothing else is left; the second attempt
then finds room in it. -/
def allocate (owner slab : Nat) : SlabCache :=
  match c.takeBlock owner with
  | some (block, taken) => taken.addLive block
  | none =>
    let refilled := c.refill slab
    if refilled.currentSlab = 0 then refilled
    else
      match refilled.takeBlock owner with
      | some (block, taken) => taken.addLive block
      | none => refilled

def stampBoundaryFooter (header blockSz : Nat) : SlabCache :=
  { c with memory := { c.memory with
      footerSize := update c.memory.footerSize (header + blockSz - 8) (blockSz % 2 ^ 32)
      footerFlags := update c.memory.footerFlags (header + blockSz - 8) kBoundaryFlagFree } }

def slabBase (header : Nat) : Nat :=
  (c.slabs.find? fun s => s ≤ header ∧ header < s + c.slabSize).getD c.currentSlab

/-- The block that the merged block starts with, the bytes gained and the
cache after the neighbour's removal. -/
def coalesceLeft (header base : Nat) : Nat × Nat × SlabCache :=
  let footer := header - 8
  let leftSz := c.memory.footerSize footer
  let leftHeader := (header + 2 ^ 64 - leftSz) % 2 ^ 64
  if base < header ∧ c.memory.footerFlags footer &&& kBoundaryFlagFree ≠ 0 ∧
      base ≤ leftHeader ∧ leftHeader < base + c.slabSize ∧
      c.memory.magic leftHeader = kFreedMagic then
    (leftHeader, leftSz, c.putBin (c.computeBinIndex leftHeader)
      ((c.binState (c.computeBinIndex leftHeader)).dllRemove leftHeader))
  else (header, 0, c)

def coalesceRight (header base : Nat) : Nat × SlabCache :=
  let rightHeader := header + c.blockSize
  if rightHeader + 32 ≤ base + c.slabSize ∧ c.memory.magic rightHeader = kFreedMagic then
    (c.blockSize, c.putBin (c.computeBinIndex rightHeader)
      ((c.binState (c.computeBinIndex rightHeader)).dllRemove rightHeader))
  else (0, c)

def tryCoalesce (header : Nat) : Nat × Nat × SlabCache :=
  if c.currentSlab = 0 ∨ c.blockSize < kMinCoalesceBlockSize then
    (header, c.blockSize, c)
  else
    let stamped := c.stampBoundaryFooter header c.blockSize
    let base := stamped.slabBase header
    let left := stamped.coalesceLeft header base
    let right := left.2.2.coalesceRight header base
    let size := c.blockSize + left.2.1 + right.1
    if left.1 ≠ header ∨ size ≠ c.blockSize then
      (left.1, size, right.2.stampBoundaryFooter left.1 size)
    else (left.1, size, right.2)

def markFreed (header : Nat) : SlabCache :=
  { c with
    live := c.live.erase header
    memory := { c.memory with
      magic := update c.memory.magic header kFreedMagic } }

def deallocate (header : Nat) : SlabCache :=
  let merged := (c.markFreed header).tryCoalesce header
  let bin := merged.2.2.computeBinIndex merged.1
  { merged.2.2.putBin bin ((merged.2.2.binState bin).dllPush merged.1) with
    extent := update merged.2.2.extent merged.1 merged.2.1 }

/-- The owner of a live block writes to the start of its user data. -/
def store (block next prev : Nat) : SlabCache :=
  { c with memory := { c.memory with
      linkNext := update c.memory.linkNext block next
      linkPrev := update c.memory.linkPrev block prev } }

inductive Action where
  | allocate (owner slab : Nat)
  | deallocate (block : Nat)
  | store (block next prev : Nat)

/-- A slab that the provider may hand out: memory of no other slab. -/
def FreshSlab (slab : Nat) : Prop :=
  slab + c.sizeClass.slabSize ≤ 2 ^ 64 ∧ ∀ s ∈ c.slabs,
    slab + c.sizeClass.slabSize ≤ s ∨ s + c.sizeClass.slabSize ≤ slab

instance (c : SlabCache) (slab : Nat) : Decidable (c.FreshSlab slab) :=
  inferInstanceAs (Decidable (_ ∧ ∀ s ∈ c.slabs, _))

def step : Action → Option SlabCache
  | .allocate owner slab =>
    if slab = 0 ∨ c.FreshSlab slab then some (c.allocate owner slab)
    else none
  | .deallocate block =>
    if block ∈ c.live then some (c.deallocate block) else none
  | .store block next prev =>
    if block ∈ c.live then some (c.store block next prev) else none

def slabBlocks (sizeClass : SizeClass) (slab : Nat) : List Nat :=
  (List.range (sizeClass.slabSize / sizeClass.blockSize)).map fun i =>
    slab + i * sizeClass.blockSize

/-- Every block of every slab. -/
def blocks : List Nat :=
  c.slabs.flatMap (slabBlocks c.sizeClass)

/-- The blocks that were not bumped yet. -/
def tail : List Nat :=
  if c.currentSlab = 0 then []
  else (slabBlocks c.sizeClass c.currentSlab).drop (c.bumpOffset / c.blockSize)

/-- Every block is in one place, once: live, in a bin, merged into a block
that is in a bin, or not bumped yet. -/
def Accounted : Prop :=
  ∃ (free : Fin kNumSegregatedBins → List Nat) (merged : List Nat),
    (∀ bin, IntrusiveStack.Chain 0 c.memory.next (c.bins bin) (free bin)) ∧
    (∀ block ∈ merged, ∃ bin, ∃ whole ∈ free bin,
      whole < block ∧ block + c.blockSize ≤ whole + c.extent whole) ∧
    ∀ block, c.live.count block + ∑ bin, (free bin).count block +
      merged.count block + c.tail.count block =
        if block ∈ c.blocks then 1 else 0

/-- No two live blocks have a byte in common. -/
def LiveApart : Prop :=
  c.live.Pairwise fun a b => a + c.blockSize ≤ b ∨ b + c.blockSize ≤ a

/-- The blocks next to this one in its slab are not free: the one before it is
live, the one after it is live or has no freed header. -/
def Alone (block : Nat) : Prop :=
  ∀ slab ∈ c.slabs, slab ≤ block → block < slab + c.slabSize →
    (slab < block → block - c.blockSize ∈ c.live) ∧
    (block + c.blockSize + 32 ≤ slab + c.slabSize → block + c.blockSize ∈ c.live ∨
        c.memory.magic (block + c.blockSize) ≠ kFreedMagic)

instance (c : SlabCache) (block : Nat) : Decidable (c.Alone block) :=
  inferInstanceAs (Decidable (∀ slab ∈ c.slabs, _))

def FreesAlone : Action → Prop
  | .deallocate block => c.Alone block
  | .allocate .. | .store .. => True

instance (c : SlabCache) (action : Action) : Decidable (c.FreesAlone action) := by
  unfold FreesAlone
  split <;> infer_instance

end SlabCache

end HPActor
