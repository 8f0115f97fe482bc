/-
What the timer plane's shard and the timing wheel are for: a set of numbered
timers with a clock.  Scheduling adds the next number, cancelling takes a number
out, advancing moves the clock and takes out what is due.  Both implementations
keep such a set.  The shard starts its clock at zero and the wheel at a reading
of the steady clock, so the expiries of the wheel are shifted.

A handle of the shard keeps 16 bits of the shard index, so the shard is one whose
index fits.
-/
import HPActor.TimerFiring
import HPActor.TimingWheel
import Mathlib.Data.List.Perm.Basic

namespace HPActor

open HierarchicalWheel List TimerHandle Wheel TimerPlaneShard

namespace TimerHandle

variable {slot : Nat}

theorem value_eq {generation : UInt8} (shard : Nat) (hslot : slot < 2 ^ 24) :
    (makeEncoded shard slot generation 0).value =
      (shard * 256 + generation.toNat) * 2 ^ 24 + slot := by
  have hgen : generation.toNat < 2 ^ 8 := generation.toNat_lt
  calc (makeEncoded shard slot generation 0).value
      = (shard <<< 8 ||| generation.toNat) <<< 24 ||| slot := by
        simp [makeEncoded, Nat.shiftLeft_or_distrib, ← Nat.shiftLeft_add]
    _ = (shard * 256 + generation.toNat) * 2 ^ 24 + slot := by
        rw [← Nat.shiftLeft_add_eq_or_of_lt hgen, ← Nat.shiftLeft_add_eq_or_of_lt hslot,
          Nat.shiftLeft_eq, Nat.shiftLeft_eq]

theorem slotIndex_makeEncoded (generation : UInt8) (shard : Nat) (hslot : slot < 2 ^ 24) :
    (makeEncoded shard slot generation 0).slotIndex = slot := by
  have hmask : (0xFFFFFF : Nat) = 2 ^ 24 - 1 := by decide
  rw [slotIndex, value_eq shard hslot, hmask, Nat.and_two_pow_sub_one_eq_mod]
  omega

theorem generation_makeEncoded (generation : UInt8) (shard : Nat) (hslot : slot < 2 ^ 24) :
    (makeEncoded shard slot generation 0).generation = generation := by
  have hmask : (0xFF : Nat) = 2 ^ 8 - 1 := by decide
  have hgen : generation.toNat < 2 ^ 8 := generation.toNat_lt
  rw [TimerHandle.generation, value_eq shard hslot, hmask,
    Nat.and_two_pow_sub_one_eq_mod, Nat.shiftRight_eq_div_pow]
  have hbyte : ((shard * 256 + generation.toNat) * 2 ^ 24 + slot) / 2 ^ 24 %
      2 ^ 8 = generation.toNat := by omega
  rw [hbyte, UInt8.ofNat_toNat]

theorem shardIndex_makeEncoded {shard : Nat} (generation : UInt8)
    (hslot : slot < 2 ^ 24) (hshard : shard < 2 ^ 16) :
    (makeEncoded shard slot generation 0).shardIndex = shard := by
  have hmask : (0xFFFF : Nat) = 2 ^ 16 - 1 := by decide
  have hgen : generation.toNat < 2 ^ 8 := generation.toNat_lt
  rw [shardIndex, value_eq shard hslot, hmask, Nat.and_two_pow_sub_one_eq_mod,
    Nat.shiftRight_eq_div_pow]
  omega

end TimerHandle

/-- Numbered timers with their expiries, and a clock. -/
structure TimerSet where
  clock : Int
  live : Nat → Option Int

namespace TimerSet

def start : TimerSet := ⟨0, fun _ => none⟩

variable (a : TimerSet)

def add (number : Nat) (expire : Int) : TimerSet :=
  { a with live := fun i => if i = number then some expire else a.live i }

def remove (number : Nat) : TimerSet :=
  { a with live := fun i => if i = number then none else a.live i }

/-- The clock at `now`, without the timers due by then. -/
def moveTo (now : Int) : TimerSet where
  clock := now
  live := fun i => (a.live i).filter fun expire => decide (now < expire)

/-- The expiries of all timers. -/
def deadlines : Set Int := { x | ∃ i, a.live i = some x }

/-- A list of numbers fired at `now`: the due timers, each once. -/
structure Fires (a : TimerSet) (now : Int) (fired : List Nat) : Prop where
  nodup : fired.Nodup
  due : ∀ i, i ∈ fired ↔ ∃ x, a.live i = some x ∧ x ≤ now

theorem Fires.perm {a : TimerSet} {now : Int} {left right : List Nat}
    (hleft : a.Fires now left) (hright : a.Fires now right) :
    left.Perm right := by
  rw [perm_ext_iff_of_nodup hleft.nodup hright.nodup]
  intro i
  rw [hleft.due, hright.due]

theorem moveTo_live (now : Int) (i : Nat) (x : Int) :
    (a.moveTo now).live i = some x ↔ a.live i = some x ∧ now < x := by
  simp [moveTo, Option.filter_eq_some_iff]

end TimerSet

namespace TimerPlaneShard

/-- How often a slot was handed out. -/
def uses (issued : List TimerHandle) (slot : Nat) : Nat :=
  issued.countP fun handle => handle.slotIndex = slot

/-- The shard keeps the timer set: timer number `i` has callback `i` and the
`i`-th issued handle. -/
structure Shows (s : TimerPlaneShard Nat) (issued : List TimerHandle) (a : TimerSet) : Prop where
  sound : s.Sound
  clock : s.currentTimeNs = a.clock
  fits : s.shardIndex < 2 ^ 16
  shown : ∀ slot x node, s.timerAt slot = some (x, node) →
    a.live node.callback = some x ∧ issued[node.callback]? =
      some (TimerHandle.makeEncoded s.shardIndex slot node.generation 0)
  held : ∀ i x, a.live i = some x → ∃ slot node, s.timerAt slot = some (x, node) ∧ node.callback = i
  made : ∀ handle ∈ issued, ∃ slot generation, slot < kMaxSlots ∧
    handle = TimerHandle.makeEncoded s.shardIndex slot generation 0 ∧
      generation.toNat ≤ (s.generations slot).toNat
  distinct : issued.Nodup
  counted : ∀ slot, (s.generations slot).toNat = uses issued slot

section

variable {s : TimerPlaneShard Nat} {issued : List TimerHandle} {a : TimerSet} {slot i : Nat}
  {x : Int} {handle : TimerHandle}

theorem slot_lt_handle (hslot : slot < kMaxSlots) : slot < 2 ^ 24 :=
  lt_trans hslot (by decide)

section

variable (h : s.Shows issued a)
include h

theorem Shows.inRange {node : TimerNode Nat} (htimer : s.timerAt slot = some (x, node)) :
    slot < kMaxSlots ∧ s.slots slot = true ∧ s.generations slot = node.generation := by
  obtain ⟨found, hfound, -, hdata⟩ := (look_eq_some id).1 htimer
  have hslot := (h.sound.slotted.occupied slot).2 (.inl ⟨found, hfound⟩)
  refine ⟨h.sound.slotted.inRange slot hslot, hslot, ?_⟩
  rw [h.sound.slotted.current slot found (.inl hfound)]
  exact congrArg TimerNode.generation hdata

/-- A number is found in one slot only. -/
theorem Shows.slot_unique {slot' : Nat} {y : Int} {node node' : TimerNode Nat}
    (htimer : s.timerAt slot = some (x, node))
    (htimer' : s.timerAt slot' = some (y, node'))
    (hnumber : node'.callback = node.callback) : slot = slot' := by
  have hissued := (h.shown slot x node htimer).2
  have hissued' := (h.shown slot' y node' htimer').2
  rw [hnumber, hissued, Option.some.injEq] at hissued'
  have heq := congrArg slotIndex hissued'
  rwa [slotIndex_makeEncoded _ _ (slot_lt_handle (h.inRange htimer).1),
    slotIndex_makeEncoded _ _ (slot_lt_handle (h.inRange htimer').1)] at heq

/-- A live number is a live timer whose handle passes the checks of `cancel`. -/
theorem Shows.names_of_live (hissued : issued[i]? = some handle) (hlive : a.live i = some x) :
    s.Names handle ∧ ∃ node, s.timerAt handle.slotIndex = some (x, node) ∧ node.callback = i := by
  obtain ⟨slot, node, htimer, rfl⟩ := h.held i x hlive
  obtain ⟨hslot, hoccupied, hgen⟩ := h.inRange htimer
  have hhandle := (h.shown slot x node htimer).2
  rw [hissued, Option.some.injEq] at hhandle
  subst hhandle
  have hword := slot_lt_handle hslot
  rw [Names, slotIndex_makeEncoded _ _ hword,
    generation_makeEncoded _ _ hword, shardIndex_makeEncoded _ hword h.fits]
  exact ⟨⟨rfl, hslot, hoccupied, hgen⟩, node, htimer, rfl⟩

/-- A handle that passes the checks of `cancel` belongs to a live number. -/
theorem Shows.live_of_names (hissued : issued[i]? = some handle)
    (hnames : s.Names handle) : ∃ x, a.live i = some x := by
  obtain ⟨-, -, hoccupied, hgen⟩ := hnames
  obtain ⟨slot, generation, hslot, rfl, -⟩ :=
    h.made handle (mem_of_getElem? hissued)
  have hword := slot_lt_handle hslot
  rw [slotIndex_makeEncoded _ _ hword] at hoccupied hgen
  rw [generation_makeEncoded _ _ hword] at hgen
  obtain ⟨found, hfound⟩ := h.sound.slotted.node_of_occupied hoccupied
  have htimer : s.timerAt slot = some (found.expire, found.data) :=
    (look_eq_some id).2 ⟨found, hfound, rfl, rfl⟩
  obtain ⟨hlive, hsame⟩ := h.shown slot _ _ htimer
  rw [← (h.inRange htimer).2.2, hgen, ← hissued] at hsame
  have hnumber : found.data.callback = i :=
    ((getElem?_inj (List.getElem?_eq_some_iff.mp hissued).1 h.distinct).1 hsame.symm).symm
  exact ⟨found.expire, hnumber ▸ hlive⟩

end

theorem nextGeneration_toNat {generation : UInt8} (hsmall : generation.toNat < 255) :
    (nextGeneration generation).toNat = generation.toNat + 1 := by
  have hsum : (generation + 1).toNat = generation.toNat + 1 := by
    rw [UInt8.toNat_add]
    exact Nat.mod_eq_of_lt (by simpa using Nat.succ_lt_succ hsmall)
  have hne : generation + 1 ≠ 0 := by
    intro hzero
    rw [hzero] at hsum
    simp at hsum
  rw [nextGeneration, if_neg hne, hsum]

/-- The handle of a generation beyond a slot's last one was not issued. -/
theorem Shows.not_issued (h : s.Shows issued a) (hslot : slot < kMaxSlots)
    {generation : UInt8} (hgen : (s.generations slot).toNat < generation.toNat) :
    TimerHandle.makeEncoded s.shardIndex slot generation 0 ∉ issued := by
  intro hold
  obtain ⟨other, before, hother, heq, hle⟩ := h.made _ hold
  have hslots := congrArg TimerHandle.slotIndex heq
  have hgens := congrArg TimerHandle.generation heq
  have hword := slot_lt_handle hslot
  rw [TimerHandle.slotIndex_makeEncoded _ _ hword,
    TimerHandle.slotIndex_makeEncoded _ _ (slot_lt_handle hother)] at hslots
  rw [TimerHandle.generation_makeEncoded _ _ hword,
    TimerHandle.generation_makeEncoded _ _ (slot_lt_handle hother)] at hgens
  rw [← hgens, ← hslots] at hle
  exact Nat.not_le_of_lt hgen hle

/-- A handle made for a slot is one more use of that slot. -/
theorem uses_append_made (issued : List TimerHandle) (shardIndex : Nat)
    (hslot : slot < kMaxSlots) (generation : UInt8) (other : Nat) :
    uses (issued ++ [makeEncoded shardIndex slot generation 0]) other =
      uses issued other + if other = slot then 1 else 0 := by
  rw [uses, countP_append, ← uses, countP_singleton,
    slotIndex_makeEncoded _ _ (slot_lt_handle hslot)]
  by_cases heq : other = slot
  · simp [heq]
  · simp [heq, Ne.symm heq]

open TimerSet

/-- A schedule that finds a slot used less than 255 times before adds the next
number. -/
theorem Shows.schedule (h : s.Shows issued a) {rest : List Nat} (hfree : s.freeSlots = slot :: rest)
    (huses : uses issued slot < 255) {delayNs : Int} (hdelay : s.tickNs ≤ delayNs) :
    (s.schedule delayNs 0 issued.length).2.Shows
      (issued ++ [(s.schedule delayNs 0 issued.length).1])
      (a.add issued.length (a.clock + delayNs)) := by
  have hmem : slot ∈ s.freeSlots := by simp [hfree]
  have hslot : slot < kMaxSlots := ((h.sound.slotted.free slot).1 hmem).1
  have hsmall : (s.generations slot).toNat < 255 := h.counted slot ▸ huses
  have hnext := nextGeneration_toNat hsmall
  have hkept : s.keptExpire delayNs = a.clock + delayNs := by
    rw [keptExpire, h.clock]
    exact max_eq_left (by omega)
  have htimers := schedule_timerAt hfree delayNs 0 issued.length
  have hsound := h.sound.schedule delayNs 0 issued.length
  have hnone : s.timerAt slot = none :=
    (look_eq_none id).2 (h.sound.slotted.no_node_of_free hmem)
  rw [schedule_free hfree] at htimers hsound ⊢
  have hgens : ∀ other, (s.entered slot rest ⟨nextGeneration (s.generations slot), 0, issued.length⟩
        (s.keptExpire delayNs)).generations other =
      if other = slot then nextGeneration (s.generations other)
      else s.generations other := fun _ => rfl
  refine
    { sound := hsound
      clock := h.clock
      fits := h.fits
      shown := ?_
      held := ?_
      made := ?_
      distinct := ?_
      counted := ?_ }
  · intro other x node htimer
    rw [htimers] at htimer
    split_ifs at htimer with heq
    · rw [Option.some.injEq, Prod.mk.injEq] at htimer
      obtain ⟨rfl, rfl⟩ := htimer
      subst heq
      exact ⟨by simp [add, hkept], by simp; rfl⟩
    · obtain ⟨hlive, hissued⟩ := h.shown other x node htimer
      have hlt := (List.getElem?_eq_some_iff.mp hissued).1
      refine ⟨?_, ?_⟩
      · simpa [add, (ne_of_lt hlt)] using hlive
      · rw [getElem?_append_left hlt]
        exact hissued
  · intro i x hlive
    simp only [add] at hlive
    split_ifs at hlive with heq
    · rw [Option.some.injEq] at hlive
      refine ⟨slot, ⟨nextGeneration (s.generations slot), 0, issued.length⟩, ?_, heq.symm⟩
      rw [htimers, if_pos rfl, hkept, hlive]
    · obtain ⟨other, node, htimer, hcallback⟩ := h.held i x hlive
      have hne : other ≠ slot := by
        rintro rfl
        rw [hnone] at htimer
        cases htimer
      exact ⟨other, node, by rw [htimers, if_neg hne, htimer], hcallback⟩
  · intro handle hhandle
    rcases mem_append.mp hhandle with hold | hnew
    · obtain ⟨other, generation, hother, rfl, hle⟩ := h.made handle hold
      refine ⟨other, generation, hother, rfl, ?_⟩
      rw [hgens]
      split_ifs with heq
      · rw [heq] at hle ⊢
        omega
      · exact hle
    · rw [mem_singleton] at hnew
      refine ⟨slot, nextGeneration (s.generations slot), hslot, hnew, ?_⟩
      rw [hgens, if_pos rfl]
  · rw [← concat_eq_append]
    apply h.distinct.concat
    apply h.not_issued hslot
    rw [hnext]
    exact Nat.lt_succ_self _
  · intro other
    rw [hgens, uses_append_made issued _ hslot]
    by_cases heq : other = slot
    · rw [if_pos heq, if_pos heq, heq, hnext, h.counted slot]
    · rw [if_neg heq, if_neg heq, h.counted other, add_zero]

theorem Shows.cancel_dead (h : s.Shows issued a)
    (hissued : issued[i]? = some handle) (hdead : a.live i = none) :
    s.cancel handle = (false, s) := by
  apply cancel_refused
  intro hnames
  obtain ⟨x, hlive⟩ := h.live_of_names hissued hnames
  rw [hdead] at hlive
  cases hlive

theorem withoutNode_timerAt (s : TimerPlaneShard Nat) (slot : Nat)
    (node : Node (TimerNode Nat)) (other : Nat) :
    (s.withoutNode slot node).timerAt other =
      if other = slot then none else s.timerAt other := by
  rw [timerAt, withoutNode_wheel]
  exact look_take id s.wheel _ _ slot other

theorem Shows.cancel_live (h : s.Shows issued a)
    (hissued : issued[i]? = some handle) (hlive : a.live i = some x) :
    (s.cancel handle).1 = true ∧ (s.cancel handle).2.Shows issued (a.remove i) := by
  obtain ⟨hnames, data, htimer, hnumber⟩ := h.names_of_live hissued hlive
  obtain ⟨node, hnode, hcancel⟩ := cancel_named h.sound hnames
  have hsound := h.sound.cancel handle
  rw [hcancel] at hsound ⊢
  refine ⟨rfl, ?_⟩
  obtain ⟨-, -, hclock, hindex, hgens⟩ :=
    withoutNode_frame s handle.slotIndex node
  have htimers := withoutNode_timerAt s handle.slotIndex node
  have hother : ∀ other y found, other ≠ handle.slotIndex →
      s.timerAt other = some (y, found) → found.callback ≠ i := by
    intro other y found hne hfound hcallback
    exact hne (h.slot_unique hfound htimer (hnumber.trans hcallback.symm))
  refine
    { sound := hsound
      clock := hclock.trans h.clock
      fits := by rw [hindex]; exact h.fits
      shown := ?_
      held := ?_
      made := by rw [hindex, hgens]; exact h.made
      distinct := h.distinct
      counted := by rw [hgens]; exact h.counted }
  · intro other y found hfound
    rw [htimers] at hfound
    split_ifs at hfound with heq
    obtain ⟨hlive', hissued'⟩ := h.shown other y found hfound
    rw [hindex]
    refine ⟨?_, hissued'⟩
    simpa [remove, hother other y found heq hfound] using hlive'
  · intro j y hj
    simp only [remove] at hj
    split_ifs at hj with heq
    obtain ⟨other, found, hfound, hcallback⟩ := h.held j y hj
    refine ⟨other, found, ?_, hcallback⟩
    rw [htimers, if_neg, hfound]
    rintro rfl
    rw [htimer, Option.some.injEq, Prod.mk.injEq] at hfound
    obtain ⟨-, rfl⟩ := hfound
    exact heq (hcallback.symm.trans hnumber)

theorem Shows.advanceTo (h : s.Shows issued a) {now : Int} (hcap : now ≤ a.clock + kMaxAdvanceNs) :
    a.Fires now (s.advanceTo now).1 ∧ (s.advanceTo now).2.Shows issued (a.moveTo now) := by
  rw [← h.clock] at hcap
  have hlook : ∀ slot x node, (s.advanceTo now).2.timerAt slot =
      some (x, node) ↔ s.timerAt slot = some (x, node) ∧ now < x := by
    intro slot x node
    rw [timerAt, advanceTo_wheel]
    exact sweep_look keepData_id h.sound.linked h.sound.onKey h.sound.ahead
      (turn_lt h.sound.turn hcap) slot x node
  have hindex : (s.advanceTo now).2.shardIndex = s.shardIndex :=
    advanceTo_keeps shardIndex (fun _ _ => by simp [fireNode]) (fun _ => rfl) s
  have hgens : (s.advanceTo now).2.generations = s.generations :=
    advanceTo_keeps generations (fun _ _ => by simp [fireNode]) (fun _ => rfl) s
  constructor
  · obtain ⟨slots, hnodup, hslots, hfired⟩ := h.sound.advanceTo_fires hcap
    rw [hfired]
    refine ⟨?_, ?_⟩
    · apply hnodup.filterMap
      intro left right number hleft hright
      simp only [Option.mem_def, Option.map_eq_some_iff, Prod.exists] at hleft hright
      obtain ⟨x, node, htimer, rfl⟩ := hleft
      obtain ⟨y, node', htimer', hnumber⟩ := hright
      exact h.slot_unique htimer htimer' hnumber
    · intro i
      simp only [mem_filterMap, Option.map_eq_some_iff, Prod.exists, hslots]
      constructor
      · rintro ⟨slot, ⟨x, node, htimer, hdue⟩, y, node', htimer', rfl⟩
        rw [htimer, Option.some.injEq, Prod.mk.injEq] at htimer'
        obtain ⟨rfl, rfl⟩ := htimer'
        exact ⟨x, (h.shown slot x node htimer).1, hdue⟩
      · rintro ⟨x, hlive, hdue⟩
        obtain ⟨slot, node, htimer, hcallback⟩ := h.held i x hlive
        exact ⟨slot, ⟨x, node, htimer, hdue⟩, x, node, htimer, hcallback⟩
  · refine
      { sound := h.sound.advanceTo hcap
        clock := advanceTo_clock s now
        fits := by rw [hindex]; exact h.fits
        shown := ?_
        held := ?_
        made := by rw [hindex, hgens]; exact h.made
        distinct := h.distinct
        counted := by rw [hgens]; exact h.counted }
    · intro slot x node htimer
      obtain ⟨hold, hlater⟩ := (hlook slot x node).1 htimer
      obtain ⟨hlive, hissued⟩ := h.shown slot x node hold
      rw [hindex]
      exact ⟨(a.moveTo_live now _ x).2 ⟨hlive, hlater⟩, hissued⟩
    · intro i x hlive
      obtain ⟨hold, hlater⟩ := (a.moveTo_live now i x).1 hlive
      obtain ⟨slot, node, htimer, hcallback⟩ := h.held i x hold
      exact ⟨slot, node, (hlook slot x node).2 ⟨htimer, hlater⟩, hcallback⟩

theorem Shows.deadline (h : s.Shows issued a) : Tracks s.minDeadline a.deadlines := by
  have hset : s.wheel.expirySet = a.deadlines := by
    ext x
    rw [mem_expirySet id]
    constructor
    · rintro ⟨slot, node, htimer⟩
      exact ⟨node.callback, (h.shown slot x node htimer).1⟩
    · rintro ⟨i, hlive⟩
      obtain ⟨slot, node, htimer, -⟩ := h.held i x hlive
      exact ⟨slot, node, htimer⟩
  exact hset ▸ h.sound.deadline

end

end TimerPlaneShard

namespace TimingWheel

/-- The wheel keeps the timer set: timer number `i` has callback `i` and the id
`i + 1`, and all its times are shifted by the first clock reading. -/
structure Shows (s : TimingWheel Nat) (issued : List Nat) (t0 : Int) (a : TimerSet) : Prop where
  sound : s.Sound
  clock : s.currentTime = t0 + a.clock
  next : s.nextTimerId = issued.length + 1
  shown : ∀ timer x low i, s.wheel.look kept timer = some (x, (low, i)) →
    timer = i + 1 ∧ a.live i = some (x - t0)
  held : ∀ i x, a.live i = some x → ∃ low, s.wheel.look kept (i + 1) = some (t0 + x, (low, i))
  made : ∀ i timerId, issued[i]? = some timerId → timerId &&& idMask = i + 1

section

variable {s : TimingWheel Nat} {issued : List Nat} {t0 : Int} {a : TimerSet}

section

variable (h : s.Shows issued t0 a)
include h

theorem Shows.schedule (hid : issued.length + 1 < 2 ^ 48) {delayNs : Int} (hdelay : 0 < delayNs) :
    (s.schedule delayNs issued.length).2.Shows (issued ++ [(s.schedule delayNs issued.length).1]) t0
      (a.add issued.length (a.clock + delayNs)) := by
  rw [← h.next] at hid
  have hlow := schedule_id_lowBits hid delayNs issued.length
  have hlook : ∀ timer, (s.schedule delayNs issued.length).2.wheel.look kept
      timer = if timer = issued.length + 1 then
        some (t0 + (a.clock + delayNs), (issued.length + 1, issued.length))
      else s.wheel.look kept timer := by
    intro timer
    rw [schedule_wheel hdelay, Wheel.insert, Wheel.look_attach, kept, hlow,
      h.clock, h.next, Int.add_assoc]
  refine
    { sound := h.sound.schedule hid hdelay issued.length
      clock := h.clock
      next := ?_
      shown := ?_
      held := ?_
      made := ?_ }
  · show s.nextTimerId + 1 = _
    rw [h.next, length_append, length_singleton]
  · intro timer x low i htimer
    rw [hlook] at htimer
    split_ifs at htimer with heq
    · simp only [Option.some.injEq, Prod.mk.injEq] at htimer
      obtain ⟨rfl, -, rfl⟩ := htimer
      refine ⟨heq, ?_⟩
      simp only [TimerSet.add, ↓reduceIte, Option.some.injEq]
      omega
    · obtain ⟨rfl, hlive⟩ := h.shown timer x low i htimer
      have hne : i ≠ issued.length := by
        rintro rfl
        exact heq rfl
      refine ⟨rfl, ?_⟩
      simpa [TimerSet.add, hne] using hlive
  · intro i x hlive
    simp only [TimerSet.add] at hlive
    split_ifs at hlive with heq
    · rw [Option.some.injEq] at hlive
      refine ⟨issued.length + 1, ?_⟩
      rw [hlook, heq, if_pos rfl, hlive]
    · obtain ⟨low, hold⟩ := h.held i x hlive
      refine ⟨low, ?_⟩
      rw [hlook, if_neg (by omega), hold]
  · intro i timerId hissued
    rcases Nat.lt_trichotomy i issued.length with hlt | rfl | hgt
    · rw [getElem?_append_left hlt] at hissued
      exact h.made i timerId hissued
    · simp only [getElem?_concat_length, Option.some.injEq] at hissued
      rw [← hissued, hlow, h.next]
    · rw [getElem?_eq_none (by simp; omega)] at hissued
      cases hissued

theorem Shows.cancel_dead {i timerId : Nat}
    (hissued : issued[i]? = some timerId) (hdead : a.live i = none) :
    s.cancel timerId = (false, s) := by
  apply cancel_unknown h.sound
  rw [h.made i timerId hissued]
  cases hnode : s.wheel.nodes (i + 1) with
  | none => rfl
  | some node =>
    have hlook := (look_eq_some kept).2 ⟨node, hnode, rfl, rfl⟩
    obtain ⟨hnumber, hlive⟩ := h.shown (i + 1) _ _ _ hlook
    obtain rfl : node.data.callback = i := by omega
    rw [hdead] at hlive
    cases hlive

theorem Shows.cancel_live {i timerId : Nat} {x : Int}
    (hissued : issued[i]? = some timerId) (hlive : a.live i = some x) :
    (s.cancel timerId).1 = true ∧ (s.cancel timerId).2.Shows issued t0 (a.remove i) := by
  obtain ⟨low, hlook⟩ := h.held i x hlive
  obtain ⟨node, hnode, -, -⟩ := (look_eq_some kept).1 hlook
  have hmasked : s.wheel.nodes (timerId &&& idMask) = some node := by
    rw [h.made i timerId hissued]
    exact hnode
  rw [cancel_known h.sound hmasked, h.made i timerId hissued]
  refine ⟨rfl, ?_⟩
  obtain ⟨-, -, hclock, hnext, -⟩ := withoutTimer_frame s (i + 1) node
  have htimers : ∀ timer, (s.withoutTimer (i + 1) node).wheel.look kept timer =
      if timer = i + 1 then none else s.wheel.look kept timer := by
    intro timer
    rw [withoutTimer_wheel]
    exact look_take kept s.wheel _ _ _ _
  refine
    { sound := h.sound.withoutTimer hnode
      clock := hclock.trans h.clock
      next := hnext.trans h.next
      shown := ?_
      held := ?_
      made := h.made }
  · intro timer y low' j hfound
    rw [htimers] at hfound
    split_ifs at hfound with heq
    obtain ⟨rfl, hlive'⟩ := h.shown timer y low' j hfound
    have hne : j ≠ i := by
      rintro rfl
      exact heq rfl
    exact ⟨rfl, by simpa [TimerSet.remove, hne] using hlive'⟩
  · intro j y hj
    simp only [TimerSet.remove] at hj
    split_ifs at hj with heq
    obtain ⟨low', hfound⟩ := h.held j y hj
    exact ⟨low', by rw [htimers, if_neg (by omega), hfound]⟩

theorem Shows.advanceTo {now : Int} (hcap : now ≤ a.clock + kMaxAdvanceNs) :
    a.Fires now (s.advanceTo (t0 + now)).1 ∧
      (s.advanceTo (t0 + now)).2.Shows issued t0 (a.moveTo now) := by
  have hcap' : t0 + now ≤ s.currentTime + kMaxAdvanceNs := by
    rw [h.clock]
    omega
  have hsound := h.sound
  have hlook : ∀ timer x seen, (s.advanceTo (t0 + now)).2.wheel.look kept timer = some (x, seen) ↔
        s.wheel.look kept timer = some (x, seen) ∧ t0 + now < x := by
    intro timer x seen
    rw [advanceTo_wheel]
    exact sweep_look relabel_kept hsound.linked hsound.onKey hsound.ahead
      (turn_lt hsound hcap') timer x seen
  have hswept := (hsound.swept_facts hcap').1
  -- the number a fired timer had when the sweep began
  have hnumber : ∀ timer node, (timer, node) ∈ (s.swept (t0 + now)).fired →
        timer = node.data.callback + 1 ∧ a.live node.data.callback = some (node.expire - t0) ∧
          node.expire ≤ t0 + now := by
    intro timer node hfired
    obtain ⟨hstart, hdue⟩ := hswept.due timer node hfired
    obtain ⟨htimer, hlive⟩ := h.shown timer _ _ _ hstart
    exact ⟨htimer, hlive, hdue⟩
  constructor
  · rw [advanceTo_fired]
    refine ⟨?_, ?_⟩
    · have hkeys := hswept.nodup
      rw [map_congr_left (g := fun entry => entry.2.data.callback + 1)
        (fun entry hentry => (hnumber entry.1 entry.2 hentry).1)] at hkeys
      exact List.Nodup.of_map (· + 1) (by rw [map_map]; exact hkeys)
    · intro i
      simp only [mem_map, Prod.exists]
      constructor
      · rintro ⟨timer, node, hfired, rfl⟩
        obtain ⟨-, hlive, hdue⟩ := hnumber timer node hfired
        exact ⟨node.expire - t0, hlive, by omega⟩
      · rintro ⟨x, hlive, hdue⟩
        obtain ⟨low, hfound⟩ := h.held i x hlive
        obtain ⟨node, hfired, -, hkept⟩ := (sweep_fired_iff relabel_kept
          hsound.linked hsound.onKey hsound.ahead (turn_lt hsound hcap') _ _
          _).2 ⟨hfound, show t0 + x ≤ t0 + now by omega⟩
        exact ⟨i + 1, node, hfired, congrArg Prod.snd hkept⟩
  · refine
      { sound := hsound.advanceTo hcap'
        clock := advanceTo_clock s _
        next := (advanceTo_nextTimerId s _).trans h.next
        shown := ?_
        held := ?_
        made := h.made }
    · intro timer x low i hfound
      obtain ⟨hold, hlater⟩ := (hlook timer x (low, i)).1 hfound
      obtain ⟨htimer, hlive⟩ := h.shown timer x low i hold
      exact ⟨htimer, (a.moveTo_live now i _).2 ⟨hlive, by omega⟩⟩
    · intro i x hlive
      obtain ⟨hold, hlater⟩ := (a.moveTo_live now i x).1 hlive
      obtain ⟨low, hfound⟩ := h.held i x hold
      exact ⟨low, (hlook _ _ _).2 ⟨hfound, by omega⟩⟩

theorem Shows.deadline : Tracks s.minDeadline ((t0 + ·) '' a.deadlines) := by
  have hset : s.wheel.expirySet = (t0 + ·) '' a.deadlines := by
    ext x
    rw [mem_expirySet kept]
    constructor
    · rintro ⟨timer, ⟨low, i⟩, hfound⟩
      obtain ⟨-, hlive⟩ := h.shown timer x low i hfound
      exact ⟨x - t0, ⟨i, hlive⟩, by show t0 + (x - t0) = x; omega⟩
    · rintro ⟨y, ⟨i, hlive⟩, rfl⟩
      obtain ⟨low, hfound⟩ := h.held i y hlive
      exact ⟨i + 1, (low, i), hfound⟩
  exact hset ▸ h.sound.deadline

end

end

end TimingWheel

end HPActor
