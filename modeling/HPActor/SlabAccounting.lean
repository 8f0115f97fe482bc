/-
As long as no block is freed next to a free one, the blocks of a slab cache are
accounted for: each is live, in one bin, or not bumped yet.  Nothing is then
ever taken off a bin except its head, so the doubly linked list, from which
`dll_remove` takes a neighbour, plays no part.
-/
import HPActor.Interleaving
import HPActor.SlabCache

namespace HPActor

open IntrusiveStack Function List Interleaving

namespace SizeClass

theorem blockSize_ge (sc : SizeClass) : 96 ≤ sc.blockSize := by
  cases sc <;> decide

end SizeClass

namespace BinState

/-- What popping a block changes. -/
theorem dllPop_eq {b : BinState} (htop : b.top ≠ 0) :
    b.dllPop = (b.top,
      { memory := { b.memory with
          linkPrev :=
            if b.memory.linkNext b.top = 0 then b.memory.linkPrev
            else update b.memory.linkPrev (b.memory.linkNext b.top) 0 }
        top := b.memory.next b.top }) := by
  simp only [dllPop, pop, if_neg htop]
  by_cases hlast : b.memory.linkNext b.top = 0
  · simp only [if_pos hlast]
  · simp only [if_neg hlast]
    rfl

/-- What pushing a block changes: the old head is put back as it was. -/
theorem dllPush_eq (b : BinState) (block : Nat) :
    b.dllPush block =
      { memory := { b.memory with
          next := update b.memory.next block b.top
          linkNext := update b.memory.linkNext block b.top
          linkPrev :=
            if b.top = 0 then update b.memory.linkPrev block 0
            else update (update b.memory.linkPrev block 0) b.top block }
        top := block } := by
  by_cases htop : b.top = 0
  · simp only [dllPush, pop, push, setLinkNext, setLinkPrev, htop, if_true]
  · simp only [dllPush, pop, if_neg htop, push, setLinkNext, setLinkPrev, update_eq_self]

end BinState

namespace SlabCache

variable {slab : Nat} {sc : SizeClass}

theorem slabBlocks_bounds {block : Nat} (hblock : block ∈ slabBlocks sc slab) :
    slab ≤ block ∧ block + sc.blockSize ≤ slab + sc.slabSize := by
  simp only [slabBlocks, mem_map, mem_range] at hblock
  obtain ⟨i, hi, rfl⟩ := hblock
  refine ⟨Nat.le_add_right _ _, ?_⟩
  have hend : (i + 1) * sc.blockSize ≤ sc.slabSize :=
    (Nat.mul_le_mul_right _ hi).trans (Nat.div_mul_le_self _ _)
  rw [Nat.succ_mul] at hend
  omega

/-- Two blocks of this size share no byte. -/
def Apart (size : Nat) (a b : Nat) : Prop := a + size ≤ b ∨ b + size ≤ a

theorem slabBlocks_apart (sc : SizeClass) (slab : Nat) :
    (slabBlocks sc slab).Pairwise (Apart sc.blockSize) := by
  rw [slabBlocks, pairwise_map]
  refine pairwise_lt_range.imp ?_
  intro i j hij
  have hnext := Nat.mul_le_mul_right sc.blockSize hij
  rw [Nat.succ_mul] at hnext
  left
  omega

theorem slabs_blocks_apart {slabs : List Nat} (hslabs : slabs.Pairwise (Apart sc.slabSize)) :
    (slabs.flatMap (slabBlocks sc)).Pairwise (Apart sc.blockSize) := by
  apply pairwise_flatMap.mpr
  refine ⟨fun slab _ => slabBlocks_apart sc slab, hslabs.imp ?_⟩
  intro s t hst a ha b hb
  have hsa := slabBlocks_bounds ha
  have htb := slabBlocks_bounds hb
  rcases hst with hst | hst
  · left
    omega
  · right
    omega

theorem nodup_of_apart {size : Nat} (hsize : 0 < size) {l : List Nat}
    (hl : l.Pairwise (Apart size)) : l.Nodup := by
  refine hl.imp ?_
  rintro a b hab rfl
  rcases hab with h | h <;> omega

/-! While a call is under way, a block may be in no place of its own: it is held
by the call. -/

/-- The slabs, and the part of the current one that was bumped. -/
structure Carved (sizeClass : SizeClass) (slabs : List Nat)
    (currentSlab slabSize bumpOffset : Nat) : Prop where
  apart : slabs.Pairwise (Apart sizeClass.slabSize)
  pos : ∀ slab ∈ slabs, 0 < slab
  current : currentSlab ≠ 0 → currentSlab ∈ slabs
  sized : slabs ≠ [] → slabSize = sizeClass.slabSize
  bumped : sizeClass.blockSize ∣ bumpOffset

/-- A slab that is apart from the others becomes the current one. -/
theorem Carved.addSlab {sizeClass : SizeClass} {slabs : List Nat}
    {currentSlab slabSize bumpOffset : Nat}
    (hcarved : Carved sizeClass slabs currentSlab slabSize bumpOffset)
    (hslab : slab ≠ 0) (hfresh : ∀ s ∈ slabs, Apart sizeClass.slabSize slab s) :
    Carved sizeClass (slabs ++ [slab]) slab sizeClass.slabSize 0 where
  apart := by
    apply pairwise_append.mpr
    refine ⟨hcarved.apart, pairwise_singleton _ _, ?_⟩
    intro old hold new hnew
    rw [mem_singleton.mp hnew]
    exact (hfresh old hold).symm
  pos := by
    exact forall_mem_append.mpr ⟨hcarved.pos, forall_mem_singleton.mpr (Nat.pos_of_ne_zero hslab)⟩
  current := fun _ => mem_append_right _ (mem_singleton_self _)
  sized := fun _ => rfl
  bumped := Nat.dvd_zero _

structure Kept (c : SlabCache) (free : Fin kNumSegregatedBins → List Nat)
    (held : List Nat) : Prop where
  carved : Carved c.sizeClass c.slabs c.currentSlab c.slabSize c.bumpOffset
  chains : ∀ bin, Chain 0 c.memory.next (c.bins bin) (free bin)
  counts : ∀ block, c.live.count block + ∑ bin, (free bin).count block +
    held.count block + c.tail.count block = c.blocks.count block
  stamped : ∀ block ∈ c.live, c.memory.magic block = kAllocMagic ∧
    c.memory.footerFlags (block + c.blockSize - 8) = 0

namespace Kept

variable {c : SlabCache} {free : Fin kNumSegregatedBins → List Nat} {held : List Nat}

theorem blockSize_pos (c : SlabCache) : 0 < c.blockSize :=
  Nat.lt_of_lt_of_le (by decide) c.sizeClass.blockSize_ge

theorem blocks_apart (hc : Kept c free held) :
    c.blocks.Pairwise (Apart c.blockSize) := slabs_blocks_apart hc.carved.apart

theorem blocks_nodup (hc : Kept c free held) : c.blocks.Nodup :=
  nodup_of_apart (blockSize_pos c) hc.blocks_apart

/-- No block is in two places. -/
theorem once (hc : Kept c free held) (block : Nat) :
    c.live.count block + ∑ bin, (free bin).count block +
      held.count block + c.tail.count block ≤ 1 := by
  rw [hc.counts]
  exact nodup_iff_count_le_one.mp hc.blocks_nodup block

theorem count_free_le (free : Fin kNumSegregatedBins → List Nat)
    (bin : Fin kNumSegregatedBins) (block : Nat) :
    (free bin).count block ≤ ∑ bin, (free bin).count block :=
  Finset.single_le_sum (fun i _ => Nat.zero_le ((free i).count block)) (Finset.mem_univ bin)

variable {block slab : Nat} {bin : Fin kNumSegregatedBins}

section

variable (hc : Kept c free held)
include hc

theorem not_mem_free_of_held (hblock : block ∈ held)
    (bin : Fin kNumSegregatedBins) : block ∉ free bin := by
  intro hmem
  have honce := hc.once block
  have hheld := count_pos_iff.mpr hblock
  have hfree := count_pos_iff.mpr hmem
  have hle := count_free_le free bin block
  omega

theorem not_mem_live_of_held (hblock : block ∈ held) : block ∉ c.live := by
  intro hmem
  have honce := hc.once block
  have hheld := count_pos_iff.mpr hblock
  have hlive := count_pos_iff.mpr hmem
  omega

theorem mem_blocks_of_live (hblock : block ∈ c.live) : block ∈ c.blocks := by
  have hlive := count_pos_iff.mpr hblock
  have hcounts := hc.counts block
  exact count_pos_iff.mp (by omega)

theorem mem_blocks_of_held (hblock : block ∈ held) : block ∈ c.blocks := by
  have hheld := count_pos_iff.mpr hblock
  have hcounts := hc.counts block
  exact count_pos_iff.mp (by omega)

/-- The slab that a block is in. -/
theorem exists_slab (hblock : block ∈ c.blocks) :
    ∃ slab ∈ c.slabs, slab ≤ block ∧ block + c.blockSize ≤ slab + c.slabSize := by
  obtain ⟨slab, hslab, hmem⟩ := mem_flatMap.mp hblock
  have hbounds := slabBlocks_bounds hmem
  rw [hc.carved.sized (ne_nil_of_mem hslab)]
  exact ⟨slab, hslab, hbounds⟩

theorem ne_zero_of_mem_blocks (hblock : block ∈ c.blocks) : block ≠ 0 := by
  obtain ⟨slab, hslab, hle, -⟩ := hc.exists_slab hblock
  exact Nat.ne_of_gt ((hc.carved.pos slab hslab).trans_le hle)

theorem liveApart : c.LiveApart := by
  have hsub : c.live.Subperm c.blocks := by
    rw [subperm_ext_iff]
    intro block _
    have hcounts := hc.counts block
    omega
  obtain ⟨l, hperm, hsublist⟩ := hsub
  have hl := hc.blocks_apart.sublist hsublist
  exact (hperm.pairwise_iff fun {a b} h => Or.symm h).mp hl

end

theorem accounted (hc : Kept c free []) : c.Accounted := by
  refine ⟨free, [], hc.chains, fun _ h => absurd h not_mem_nil, ?_⟩
  intro block
  rw [hc.counts]
  exact hc.blocks_nodup.count

/-- The next block of the current slab. -/
theorem tail_eq_cons (hc : Kept c free held) (hcurrent : c.currentSlab ≠ 0)
    (hroom : c.bumpOffset + c.blockSize ≤ c.slabSize) :
    c.tail = (c.currentSlab + c.bumpOffset) ::
      { c with bumpOffset := c.bumpOffset + c.blockSize }.tail := by
  obtain ⟨k, hk⟩ : c.blockSize ∣ c.bumpOffset := hc.carved.bumped
  have hpos := blockSize_pos c
  have hsize := hc.carved.sized (ne_nil_of_mem (hc.carved.current hcurrent))
  have hdiv : c.bumpOffset / c.blockSize = k := by
    rw [hk, Nat.mul_div_cancel_left _ hpos]
  have hdiv' : (c.bumpOffset + c.blockSize) / c.blockSize = k + 1 := by
    rw [Nat.add_div_right _ hpos, hdiv]
  have hlt : k < (slabBlocks c.sizeClass c.currentSlab).length := by
    rw [slabBlocks, length_map, length_range]
    apply (Nat.le_div_iff_mul_le hpos).mpr
    rw [hk, hsize, Nat.mul_comm] at hroom
    rw [Nat.succ_mul]
    exact hroom
  have hget : (slabBlocks c.sizeClass c.currentSlab)[k] = c.currentSlab + c.bumpOffset := by
    simp only [slabBlocks, getElem_map, getElem_range]
    rw [hk, Nat.mul_comm]
    rfl
  change (if c.currentSlab = 0 then [] else _) =
    _ :: (if c.currentSlab = 0 then [] else _)
  rw [if_neg hcurrent, if_neg hcurrent, hdiv, ← hget]
  change _ = _ :: (slabBlocks c.sizeClass c.currentSlab).drop
    ((c.bumpOffset + c.blockSize) / c.blockSize)
  rw [hdiv']
  exact drop_eq_getElem_cons hlt

theorem bump (hc : Kept c free []) (hcurrent : c.currentSlab ≠ 0)
    (hroom : c.bumpOffset + c.blockSize ≤ c.slabSize) :
    Kept { c with bumpOffset := c.bumpOffset + c.blockSize } free
      [c.currentSlab + c.bumpOffset] where
  carved := { hc.carved with
    bumped := Nat.dvd_add hc.carved.bumped (Nat.dvd_refl _) }
  chains := hc.chains
  counts := by
    intro block
    have hcounts := hc.counts block
    rw [hc.tail_eq_cons hcurrent hroom, count_cons] at hcounts
    rw [count_singleton]
    change _ = c.blocks.count block
    rw [← hcounts, count_nil]
    change c.live.count block + _ + _ + _ = _
    omega
  stamped := hc.stamped

/-- Nothing is left of the current slab. -/
theorem tail_eq_nil (hc : Kept c free held)
    (hfull : ¬ (c.currentSlab ≠ 0 ∧ c.bumpOffset + c.blockSize ≤ c.slabSize)) : c.tail = [] := by
  by_cases hcurrent : c.currentSlab = 0
  · rw [tail, if_pos hcurrent]
  · have hroom : ¬ c.bumpOffset + c.blockSize ≤ c.slabSize :=
      fun h => hfull ⟨hcurrent, h⟩
    obtain ⟨k, hk⟩ : c.blockSize ∣ c.bumpOffset := hc.carved.bumped
    have hpos := blockSize_pos c
    rw [tail, if_neg hcurrent]
    apply drop_eq_nil_of_le
    rw [slabBlocks, length_map, length_range, hk, Nat.mul_div_cancel_left _ hpos]
    rw [hc.carved.sized (ne_nil_of_mem (hc.carved.current hcurrent))] at hroom
    apply Nat.le_of_lt_succ
    apply (Nat.div_lt_iff_lt_mul hpos).mpr
    rw [Nat.succ_mul, Nat.mul_comm]
    omega

/-- The head of a bin. -/
theorem popBin (hc : Kept c free []) (hbin : c.bins bin ≠ 0) :
    ∃ rest, Kept { c.putBin bin (c.binState bin).dllPop.2 with
        startBin := bin + 1 } (update free bin rest)
      [(c.binState bin).dllPop.1] := by
  obtain ⟨rest, hcells, hrest⟩ := (hc.chains bin).pop hbin
  refine ⟨rest, ?_⟩
  rw [@BinState.dllPop_eq (c.binState bin) hbin]
  exact
    { carved := hc.carved
      chains := by
        intro other
        change Chain 0 c.memory.next (update c.bins bin _ other) _
        by_cases hother : other = bin
        · subst hother
          rw [update_self, update_self]
          exact hrest
        · rw [update_of_ne hother, update_of_ne hother]
          exact hc.chains other
      counts := by
        intro block
        have hcounts := hc.counts block
        have hsum := sum_update (List.count block) free bin rest
        rw [hcells, count_cons] at hsum
        rw [count_nil] at hcounts
        rw [count_singleton]
        change c.live.count block + _ + (if c.bins bin == block then 1 else 0) +
          c.tail.count block = c.blocks.count block
        omega
      stamped := hc.stamped }

/-- The block that a call holds is handed out. -/
theorem issue (hc : Kept c free [block]) (owner : Nat) :
    Kept ((c.stamp block owner).addLive block) free [] := by
  have hmem : block ∈ [block] := mem_singleton_self block
  exact
    { carved := hc.carved
      chains := fun bin =>
        (hc.chains bin).frame owner (hc.not_mem_free_of_held hmem bin)
      counts := by
        intro other
        have hcounts := hc.counts other
        rw [count_singleton] at hcounts
        change (block :: c.live).count other + _ + 0 + c.tail.count other = c.blocks.count other
        rw [count_cons]
        omega
      stamped := by
        intro other hother
        change update c.memory.magic block kAllocMagic other = _ ∧
          update c.memory.footerFlags (block + c.blockSize - 8) 0 (other + c.blockSize - 8) = 0
        by_cases hsame : other = block
        · subst hsame
          exact ⟨update_self .., update_self ..⟩
        · have hlive := (mem_cons.mp hother).resolve_left hsame
          have hsize := c.sizeClass.blockSize_ge
          have hfooter : other + c.blockSize - 8 ≠ block + c.blockSize - 8 := by
            change other + c.sizeClass.blockSize - 8 ≠ block + c.sizeClass.blockSize - 8
            omega
          rw [update_of_ne hsame, update_of_ne hfooter]
          exact hc.stamped other hlive }

section

variable (hc : Kept c free [])
include hc

theorem takeBlock_some {owner : Nat} {taken : SlabCache}
    (htake : c.takeBlock owner = some (block, taken)) :
    ∃ free', Kept (taken.addLive block) free' [] := by
  rw [takeBlock] at htake
  by_cases hroom : c.currentSlab ≠ 0 ∧ c.bumpOffset + c.blockSize ≤ c.slabSize
  · rw [if_pos hroom] at htake
    cases htake
    exact ⟨free, (hc.bump hroom.1 hroom.2).issue owner⟩
  · rw [if_neg hroom] at htake
    cases hfind : c.findBin with
    | none =>
      rw [hfind] at htake
      cases htake
    | some bin =>
      have hbin : c.bins bin ≠ 0 := by
        simpa using find?_some hfind
      obtain ⟨rest, hpopped⟩ := hc.popBin hbin
      rw [hfind] at htake
      cases htake
      exact ⟨_, hpopped.issue owner⟩

theorem tail_of_takeBlock_none {owner : Nat} (htake : c.takeBlock owner = none) : c.tail = [] := by
  apply hc.tail_eq_nil
  intro hroom
  rw [takeBlock, if_pos hroom] at htake
  cases htake

/-- A new slab comes with blocks that were not bumped yet. -/
theorem refill_slab (htail : c.tail = []) (hslab : slab ≠ 0)
    (hfresh : c.FreshSlab slab) : Kept (c.refill slab) free [] := by
  rw [refill, if_neg hslab]
  exact
    { carved := hc.carved.addSlab hslab hfresh.2
      chains := hc.chains
      counts := by
        intro block
        have hcounts := hc.counts block
        rw [htail, count_nil, Nat.add_zero] at hcounts
        change c.live.count block + _ + _ +
          (if slab = 0 then [] else (slabBlocks c.sizeClass slab).drop
            (0 / c.blockSize)).count block =
          ((c.slabs ++ [slab]).flatMap (slabBlocks c.sizeClass)).count block
        rw [if_neg hslab, Nat.zero_div, drop_zero, flatMap_append,
          count_append, flatMap_singleton, hcounts]
        rfl
      stamped := hc.stamped }

/-- Without a new slab there is no current slab any more. -/
theorem refill_null (htail : c.tail = []) : Kept (c.refill 0) free [] where
  carved := { hc.carved with current := fun h => absurd rfl h }
  chains := hc.chains
  counts := by
    intro block
    have hcounts := hc.counts block
    rw [htail] at hcounts
    exact hcounts
  stamped := hc.stamped

end

theorem allocate_kept (hc : Kept c free []) (owner : Nat) (hslab : slab = 0 ∨ c.FreshSlab slab) :
    ∃ free', Kept (c.allocate owner slab) free' [] := by
  rw [allocate]
  cases htake : c.takeBlock owner with
  | some pair => exact hc.takeBlock_some htake
  | none =>
    have htail := hc.tail_of_takeBlock_none htake
    have hrefilled : Kept (c.refill slab) free [] := by
      by_cases hnull : slab = 0
      · subst hnull
        exact hc.refill_null htail
      · exact hc.refill_slab htail hnull (hslab.resolve_left hnull)
    by_cases hcurrent : (c.refill slab).currentSlab = 0
    · simp only [if_pos hcurrent]
      exact ⟨free, hrefilled⟩
    · simp only [if_neg hcurrent]
      cases hagain : (c.refill slab).takeBlock owner with
      | some pair => exact hrefilled.takeBlock_some hagain
      | none => exact ⟨free, hrefilled⟩

/-- The block that is freed is held by the call until it is in a bin. -/
theorem release (hc : Kept c free []) (hlive : block ∈ c.live) :
    Kept (c.markFreed block) free [block] where
  carved := hc.carved
  chains := hc.chains
  counts := by
    intro other
    have hcounts := hc.counts other
    have hpos := count_pos_iff.mpr hlive
    rw [count_nil] at hcounts
    rw [count_singleton]
    change (c.live.erase block).count other + _ + _ + c.tail.count other = c.blocks.count other
    by_cases hsame : other = block
    · subst hsame
      rw [count_erase_self, if_pos (beq_self_eq_true other)]
      omega
    · have hbeq : (block == other) = false := by
        simpa using Ne.symm hsame
      rw [count_erase_of_ne hsame, hbeq]
      simpa using hcounts
  stamped := by
    intro other hother
    have hne : other ≠ block := by
      rintro rfl
      have honce := hc.once other
      have htwice : 0 < (c.live.erase other).count other :=
        count_pos_iff.mpr hother
      rw [count_erase_self] at htwice
      omega
    change update c.memory.magic block kFreedMagic other = _ ∧ _
    rw [update_of_ne hne]
    exact hc.stamped other (mem_of_mem_erase hother)

/-- The footer of the block that a call holds is nobody else's. -/
theorem stampFooter (hc : Kept c free [block]) :
    Kept (c.stampBoundaryFooter block c.blockSize) free [block] where
  carved := hc.carved
  chains := hc.chains
  counts := hc.counts
  stamped := by
    intro other hother
    have hne : other ≠ block := by
      rintro rfl
      exact hc.not_mem_live_of_held (mem_singleton_self _) hother
    have hsize : 96 ≤ c.blockSize := c.sizeClass.blockSize_ge
    have hfooter : other + c.blockSize - 8 ≠ block + c.blockSize - 8 := by
      omega
    refine ⟨(hc.stamped other hother).1, ?_⟩
    change update c.memory.footerFlags (block + c.blockSize - 8) _ (other + c.blockSize - 8) = 0
    rw [update_of_ne hfooter]
    exact (hc.stamped other hother).2

/-- The block that a call holds becomes the head of a bin. -/
theorem pushBin (hc : Kept c free [block]) (bin : Fin kNumSegregatedBins) (extent : Nat → Nat) :
    Kept { c.putBin bin ((c.binState bin).dllPush block) with extent }
      (update free bin (block :: free bin)) [] := by
  have hmem : block ∈ [block] := mem_singleton_self block
  have hblock := hc.ne_zero_of_mem_blocks (hc.mem_blocks_of_held hmem)
  have hfresh := hc.not_mem_free_of_held hmem
  rw [BinState.dllPush_eq]
  exact
    { carved := hc.carved
      chains := by
        intro other
        change Chain 0 (update c.memory.next block (c.bins bin)) (update c.bins bin block other) _
        by_cases hother : other = bin
        · subst hother
          rw [update_self, update_self]
          exact (hc.chains other).push hblock (hfresh other)
        · rw [update_of_ne hother, update_of_ne hother]
          exact (hc.chains other).frame _ (hfresh other)
      counts := by
        intro other
        have hcounts := hc.counts other
        have hsum := sum_update (List.count other) free bin (block :: free bin)
        rw [count_cons] at hsum
        rw [count_singleton] at hcounts
        change c.live.count other + _ + 0 + c.tail.count other = c.blocks.count other
        omega
      stamped := hc.stamped }

/-- A slab with the block is found. -/
theorem slabBase_spec (hc : Kept c free held) (hblock : block ∈ c.blocks) :
    c.slabBase block ∈ c.slabs ∧ c.slabBase block ≤ block ∧
      block < c.slabBase block + c.slabSize := by
  obtain ⟨slab, hslab, hle, hend⟩ := hc.exists_slab hblock
  have hpos := blockSize_pos c
  have hlt : block < slab + c.slabSize := by omega
  cases hfind : c.slabs.find? (fun s => decide (s ≤ block ∧ block < s + c.slabSize)) with
  | none =>
    have hnone := find?_eq_none.mp hfind slab hslab
    exact absurd (decide_eq_true ⟨hle, hlt⟩) hnone
  | some found =>
    have hfound : found ≤ block ∧ block < found + c.slabSize := by
      simpa using find?_some hfind
    have hbase : c.slabBase block = found := by
      rw [slabBase, hfind, Option.getD_some]
    rw [hbase]
    exact ⟨mem_of_find?_eq_some hfind, hfound⟩

/-- The footer before the block is the canary of a live block. -/
theorem coalesceLeft_alone (hc : Kept c free held) {base : Nat}
    (hleft : base < block → block - c.blockSize ∈ c.live) :
    c.coalesceLeft block base = (block, 0, c) := by
  rw [coalesceLeft]
  apply if_neg
  rintro ⟨hbase, hflag, -⟩
  have hlive := hleft hbase
  have hne := hc.ne_zero_of_mem_blocks (hc.mem_blocks_of_live hlive)
  have hfooter : block - c.blockSize + c.blockSize - 8 = block - 8 := by
    omega
  have hzero := (hc.stamped _ hlive).2
  rw [hfooter] at hzero
  apply hflag
  rw [hzero]
  decide

/-- The header behind the block is live or was never stamped as freed. -/
theorem coalesceRight_alone (hc : Kept c free held) {base : Nat}
    (hright : block + c.blockSize + 32 ≤ base + c.slabSize → block + c.blockSize ∈ c.live ∨
        c.memory.magic (block + c.blockSize) ≠ kFreedMagic) :
    c.coalesceRight block base = (0, c) := by
  rw [coalesceRight]
  apply if_neg
  rintro ⟨hend, hmagic⟩
  rcases hright hend with hlive | hne
  · have halloc := (hc.stamped _ hlive).1
    rw [hmagic] at halloc
    exact absurd halloc (by decide)
  · exact hne hmagic

theorem tryCoalesce_alone (hc : Kept c free [block]) (halone : c.Alone block) :
    ∃ d, c.tryCoalesce block = (block, c.blockSize, d) ∧ Kept d free [block] := by
  by_cases hskip : c.currentSlab = 0 ∨ c.blockSize < kMinCoalesceBlockSize
  · exact ⟨c, if_pos hskip, hc⟩
  have hmem : block ∈ [block] := mem_singleton_self block
  have hstamped := hc.stampFooter
  obtain ⟨hslab, hle, hlt⟩ :=
    hstamped.slabBase_spec (hstamped.mem_blocks_of_held hmem)
  obtain ⟨hleft, hright⟩ := halone _ hslab hle hlt
  refine ⟨c.stampBoundaryFooter block c.blockSize, ?_, hstamped⟩
  rw [tryCoalesce, if_neg hskip]
  simp only [hstamped.coalesceLeft_alone hleft, hstamped.coalesceRight_alone hright, Nat.add_zero,
    ne_eq, not_true_eq_false, or_self, if_false]

section

variable (hc : Kept c free []) (hlive : block ∈ c.live)
include hc hlive

/-- The mark on the block itself does not make its neighbours free. -/
theorem alone_markFreed (halone : c.Alone block) : (c.markFreed block).Alone block := by
  have hpos := blockSize_pos c
  have hblock := hc.ne_zero_of_mem_blocks (hc.mem_blocks_of_live hlive)
  intro slab hslab hle hlt
  obtain ⟨hleft, hright⟩ := halone slab hslab hle hlt
  constructor
  · intro hbase
    have hne : block - c.blockSize ≠ block := by omega
    exact (mem_erase_of_ne hne).mpr (hleft hbase)
  · intro hend
    have hne : block + c.blockSize ≠ block := by omega
    rcases hright hend with hnext | hmagic
    · exact .inl ((mem_erase_of_ne hne).mpr hnext)
    · right
      change update c.memory.magic block kFreedMagic (block + c.blockSize) ≠ kFreedMagic
      rw [update_of_ne hne]
      exact hmagic

/-- Freeing a block with no free block beside it. -/
theorem deallocate_alone (halone : c.Alone block) :
    ∃ free', Kept (c.deallocate block) free' [] := by
  obtain ⟨d, hcoalesce, hkept⟩ := (hc.release hlive).tryCoalesce_alone
    (hc.alone_markFreed hlive halone)
  refine ⟨update free (d.computeBinIndex block) (block :: free (d.computeBinIndex block)), ?_⟩
  rw [deallocate, hcoalesce]
  exact hkept.pushBin _ _

end

/-- Links and user data are no part of the account. -/
theorem store_kept (hc : Kept c free []) (next prev : Nat) :
    Kept (c.store block next prev) free [] :=
  ⟨hc.carved, hc.chains, hc.counts, hc.stamped⟩

end Kept

/-- Between calls no block is held. -/
def Orderly (c : SlabCache) : Prop := ∃ free, Kept c free []

theorem orderly_init (sizeClass : SizeClass) (memory : BlockMemory) :
    (init sizeClass memory).Orderly := by
  refine ⟨fun _ => [], ?_⟩
  exact
    { carved :=
        { apart := List.Pairwise.nil
          pos := fun _ h => absurd h not_mem_nil
          current := fun h => absurd rfl h
          sized := fun h => absurd rfl h
          bumped := Nat.dvd_zero _ }
      chains := fun _ => rfl
      counts := fun _ => rfl
      stamped := fun _ h => absurd h not_mem_nil }

theorem Orderly.step {c d : SlabCache} {action : Action} (hc : c.Orderly)
    (halone : c.FreesAlone action) (hstep : c.step action = some d) :
    d.Orderly := by
  obtain ⟨free, hkept⟩ := hc
  cases action with
  | allocate owner slab =>
    obtain ⟨hslab, ⟨⟩⟩ := Option.ite_none_right_eq_some.mp hstep
    exact hkept.allocate_kept owner hslab
  | deallocate block =>
    obtain ⟨hlive, ⟨⟩⟩ := Option.ite_none_right_eq_some.mp hstep
    exact hkept.deallocate_alone hlive halone
  | store block next prev =>
    obtain ⟨-, ⟨⟩⟩ := Option.ite_none_right_eq_some.mp hstep
    exact ⟨free, hkept.store_kept next prev⟩

theorem run_orderly {sizeClass : SizeClass} {memory : BlockMemory} {actions : List Action}
    {c : SlabCache} (halone : Runs.EachStep step FreesAlone (init sizeClass memory) actions)
    (hrun : Runs.run step (init sizeClass memory) actions = some c) :
    c.Orderly :=
  Runs.run_invariant (fun _ _ _ hc hcond hstep => hc.step hcond hstep)
    (orderly_init sizeClass memory) halone hrun

/-- As long as no block is freed beside a free one, every block is in one place
and live blocks have no byte in common. -/
theorem blocks_accounted (sizeClass : SizeClass) (memory : BlockMemory) (actions : List Action)
    (c : SlabCache) (halone : Runs.EachStep step FreesAlone (init sizeClass memory) actions)
    (hrun : Runs.run step (init sizeClass memory) actions = some c) :
    c.Accounted ∧ c.LiveApart := by
  obtain ⟨free, hkept⟩ := run_orderly halone hrun
  exact ⟨hkept.accounted, hkept.liveApart⟩

namespace SlabWitness

def blank : BlockMemory :=
  ⟨fun _ => 0, fun _ => 0, fun _ => 0, fun _ => 0, fun _ => 0, fun _ => 0⟩

/-- Three blocks of a slab, the middle one freed with its neighbours live. -/
def spaced : List Action :=
  [.allocate 7 4096, .allocate 7 0, .store (4096 + 4160) 1 2,
    .allocate 7 0, .deallocate (4096 + 4160)]

theorem spaced_accounted :
    ∃ c, Runs.run step (init .k4KB blank) spaced = some c ∧
      c.live = [4096 + 2 * 4160, 4096] ∧ c.Accounted ∧ c.LiveApart := by
  have hview : (Runs.run step (init .k4KB blank) spaced).map live =
      some [4096 + 2 * 4160, 4096] := by decide +kernel
  obtain ⟨c, hrun, hlive⟩ := Option.map_eq_some_iff.mp hview
  exact ⟨c, hrun, hlive, blocks_accounted .k4KB blank spaced c (by decide +kernel) hrun⟩

/-- All 126 blocks of the slab are handed out; then the first, the third and
the second are freed, and two blocks are allocated. -/
def merging : List Action :=
  .allocate 7 4096 :: List.replicate 125 (.allocate 7 0) ++
    [.deallocate 4096, .deallocate (4096 + 2 * 4160),
      .deallocate (4096 + 4160), .allocate 7 0, .allocate 7 0]

/-- The merged block is on its own bin twice, and it is handed out twice. -/
theorem merging_hands_out_twice :
    ∃ c, Runs.run step (init .k4KB blank) merging = some c ∧
      c.live.count 4096 = 2 ∧ ¬ c.Accounted ∧ ¬ c.LiveApart := by
  have hview : (Runs.run step (init .k4KB blank) merging).map
      (fun c => c.live.count 4096) = some 2 := by decide +kernel
  obtain ⟨c, hrun, htwice⟩ := Option.map_eq_some_iff.mp hview
  refine ⟨c, hrun, htwice, ?_, ?_⟩
  · rintro ⟨free, merged, -, -, hcounts⟩
    have hcount := hcounts 4096
    split at hcount <;> omega
  · intro hapart
    have hnodup := nodup_of_apart (Kept.blockSize_pos c) hapart
    have honce := nodup_iff_count_le_one.mp hnodup 4096
    omega

end SlabWitness

end SlabCache

end HPActor
