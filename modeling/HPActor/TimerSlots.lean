/-
The invariant of a shard between two calls.  Slot table, generations, free list
and wheel describe one set of nodes; every node is linked in the bucket of its
own expiry and is not yet due; the cached deadline is the earliest expiry.
Scheduling and cancelling keep it.
-/
import HPActor.TimerShard

namespace HPActor

open List

universe u

open HierarchicalWheel Wheel

variable {α : Type u}

namespace TimerPlaneShard

/-- The slot table, the generations and the free list agree with the nodes.
`leaving` are nodes already out of the wheel whose slots are still to be
released. -/
structure Slotted (s : TimerPlaneShard α) (leaving : List (Nat × Node (TimerNode α))) : Prop where
  occupied : ∀ slot, s.slots slot = true ↔
    (∃ node, s.wheel.nodes slot = some node) ∨ slot ∈ leaving.map Prod.fst
  current : ∀ slot node, s.wheel.nodes slot = some node ∨ (slot, node) ∈ leaving →
      s.generations slot = node.data.generation
  out : ∀ slot, slot ∈ leaving.map Prod.fst → s.wheel.nodes slot = none
  distinct : (leaving.map Prod.fst).Nodup
  inRange : ∀ slot, s.slots slot = true → slot < kMaxSlots
  free : ∀ slot, slot ∈ s.freeSlots ↔ slot < kMaxSlots ∧ s.slots slot = false
  free_nodup : s.freeSlots.Nodup
  counted : s.pending + s.freeSlots.length = kMaxSlots

/-- An advance never steps over a whole turn of the finest level. -/
def SlowTurn (s : TimerPlaneShard α) : Prop :=
  kMaxAdvanceNs < 255 * (s.tickNs : Int)

theorem SlowTurn.tick_pos {s : TimerPlaneShard α} (h : s.SlowTurn) : 0 < s.tickNs := by
  simp only [SlowTurn, kMaxAdvanceNs] at h
  omega

/-- What holds between two calls, as long as no command is queued. -/
structure Sound (s : TimerPlaneShard α) : Prop where
  turn : s.SlowTurn
  queue : s.cmdQueue = []
  linked : s.wheel.Linked s.geometry
  onKey : s.wheel.OnKey s.geometry
  ahead : s.wheel.Ahead s.currentTimeNs
  slotted : s.Slotted []
  deadline : Tracks s.minDeadline s.wheel.expirySet

section

variable (shardIndex tickNs : Nat)

theorem create_freeSlots :
    (create shardIndex tickNs : TimerPlaneShard α).freeSlots = List.range kMaxSlots := by
  simp only [create]

theorem create_slotted : (create shardIndex tickNs : TimerPlaneShard α).Slotted [] where
  occupied := by simp [create, empty]
  current := by simp [create, empty]
  out := by simp
  distinct := nodup_nil
  inRange := by simp [create]
  free := by
    intro slot
    rw [create_freeSlots, mem_range]
    simp [create]
  free_nodup := by
    rw [create_freeSlots]
    exact nodup_range
  counted := by
    rw [create_freeSlots, length_range]
    exact Nat.zero_add _

end

theorem create_sound (shardIndex : Nat) {tickNs : Nat}
    (hturn : kMaxAdvanceNs < 255 * (tickNs : Int)) :
    (create shardIndex tickNs : TimerPlaneShard α).Sound where
  turn := hturn
  queue := rfl
  linked := empty_linked _
  onKey := empty_onKey _
  ahead := by
    intro k node hnode
    cases hnode
  slotted := create_slotted shardIndex tickNs
  deadline := empty_expirySet

namespace Slotted

variable {s : TimerPlaneShard α} {leaving : List (Nat × Node (TimerNode α))} {slot : Nat}
  {node : Node (TimerNode α)}

theorem node_of_occupied (h : s.Slotted []) (hslot : s.slots slot = true) :
    ∃ node, s.wheel.nodes slot = some node := by
  rcases (h.occupied slot).1 hslot with hnode | hleaving
  · exact hnode
  · simp at hleaving

theorem no_node_of_free (h : s.Slotted leaving) (hfree : slot ∈ s.freeSlots) :
    s.wheel.nodes slot = none := by
  cases hnode : s.wheel.nodes slot with
  | none => rfl
  | some node =>
    have hoccupied := (h.occupied slot).2 (.inl ⟨node, hnode⟩)
    rw [((h.free slot).1 hfree).2] at hoccupied
    cases hoccupied

/-- Nodes that leave the wheel keep their slots until these are released. -/
theorem leave (h : s.Slotted []) {wheel : Wheel Nat (TimerNode α)}
    (hnodes : ∀ slot node, wheel.nodes slot = some node → ∃ old, s.wheel.nodes slot = some old ∧
        old.data.generation = node.data.generation)
    (hleaving : ∀ slot node, (slot, node) ∈ leaving →
      wheel.nodes slot = none ∧ ∃ old, s.wheel.nodes slot = some old ∧
        old.data.generation = node.data.generation)
    (hrest : ∀ slot node, s.wheel.nodes slot = some node →
      slot ∉ leaving.map Prod.fst → ∃ node, wheel.nodes slot = some node)
    (hdistinct : (leaving.map Prod.fst).Nodup) :
    (s.setWheel wheel).Slotted leaving := by
  refine { h with occupied := ?_, current := ?_, out := ?_, distinct := hdistinct }
  · intro slot
    show s.slots slot = true ↔ _
    constructor
    · intro hslot
      obtain ⟨node, hnode⟩ := h.node_of_occupied hslot
      by_cases hmem : slot ∈ leaving.map Prod.fst
      · exact .inr hmem
      · exact .inl (hrest slot node hnode hmem)
    · rintro (⟨node, hnode⟩ | hmem)
      · obtain ⟨old, hold, -⟩ := hnodes slot node hnode
        exact (h.occupied slot).2 (.inl ⟨old, hold⟩)
      · obtain ⟨⟨slot', node⟩, hentry, rfl⟩ := mem_map.mp hmem
        obtain ⟨-, old, hold, -⟩ := hleaving slot' node hentry
        exact (h.occupied slot').2 (.inl ⟨old, hold⟩)
  · rintro slot node (hnode | hentry)
    · obtain ⟨old, hold, hgen⟩ := hnodes slot node hnode
      exact (h.current slot old (.inl hold)).trans hgen
    · obtain ⟨-, old, hold, hgen⟩ := hleaving slot node hentry
      exact (h.current slot old (.inl hold)).trans hgen
  · intro slot hmem
    obtain ⟨⟨slot', node⟩, hentry, rfl⟩ := mem_map.mp hmem
    exact (hleaving slot' node hentry).1

theorem free_lt (h : s.Slotted leaving) (hslot : s.slots slot = true) :
    s.freeSlots.length < kMaxSlots := by
  have hnot : slot ∉ s.freeSlots := by
    intro hmem
    rw [((h.free slot).1 hmem).2] at hslot
    cases hslot
  have hsub : slot :: s.freeSlots ⊆ List.range kMaxSlots := by
    intro other hother
    rw [mem_range]
    rcases mem_cons.mp hother with rfl | hmem
    · exact h.inRange other hslot
    · exact ((h.free other).1 hmem).1
  have hle := (nodup_cons.mpr ⟨hnot, h.free_nodup⟩).length_le_of_subset hsub
  rw [length_range, length_cons] at hle
  omega

/-- The slot of the first leaving node goes back to the free list. -/
theorem release (h : s.Slotted ((slot, node) :: leaving)) :
    (s.releaseSlot slot node.data.generation).countCancelled.Slotted leaving := by
  have hslot : s.slots slot = true := (h.occupied slot).2 (.inr (by simp))
  have hout : s.wheel.nodes slot = none := h.out slot (by simp)
  obtain ⟨hfresh, hdistinct⟩ := nodup_cons.mp h.distinct
  have hpos := h.free_lt hslot
  have hcounted := h.counted
  have hrelease : s.releaseSlot slot node.data.generation =
      { s with
        slots := fun i => if i = slot then false else s.slots i
        freeSlots := slot :: s.freeSlots } := by
    have hrange := h.inRange slot hslot
    have hgen := h.current slot node (.inr mem_cons_self)
    simp [releaseSlot, Nat.not_le.mpr hrange, hgen]
  rw [hrelease]
  refine
    { occupied := ?_, current := ?_, out := ?_, distinct := hdistinct,
      inRange := ?_, free := ?_, free_nodup := ?_, counted := ?_ }
  · intro other
    simp only [countCancelled]
    by_cases heq : other = slot
    · simp only [heq, ↓reduceIte, Bool.false_eq_true, hout, false_iff, not_or]
      exact ⟨by simp, hfresh⟩
    · rw [if_neg heq, h.occupied other]
      simp [heq]
  · rintro other found (hnode | hentry)
    · exact h.current other found (.inl hnode)
    · exact h.current other found (.inr (mem_cons_of_mem _ hentry))
  · intro other hmem
    exact h.out other (mem_cons_of_mem _ hmem)
  · intro other hother
    simp only [countCancelled] at hother
    split at hother
    · cases hother
    · exact h.inRange other hother
  · intro other
    simp only [countCancelled, mem_cons, h.free other]
    by_cases heq : other = slot
    · simp [heq, h.inRange slot hslot]
    · simp [heq]
  · simp only [countCancelled]
    refine nodup_cons.mpr ⟨?_, h.free_nodup⟩
    intro hmem
    rw [((h.free slot).1 hmem).2] at hslot
    cases hslot
  · simp only [countCancelled, length_cons]
    omega

theorem fire (h : s.Slotted ((slot, node) :: leaving)) (nowNs : Int) :
    (fireNode nowNs s (slot, node)).Slotted leaving :=
  { h.release with }

/-- The first free slot is taken by a new node. -/
theorem acquire (h : s.Slotted []) {rest : List Nat}
    (hfree : s.freeSlots = slot :: rest) {t : TimerPlaneShard α}
    (hwheel : t.wheel = s.wheel.attach slot node)
    (hslots : t.slots = fun i => if i = slot then true else s.slots i)
    (hgen : t.generations = fun i =>
      if i = slot then nextGeneration (s.generations i) else s.generations i)
    (hnode : node.data.generation = nextGeneration (s.generations slot))
    (hrest : t.freeSlots = rest) (hpending : t.pending = s.pending + 1) :
    t.Slotted [] := by
  have hmem : slot ∈ s.freeSlots := by simp [hfree]
  have hnodup := h.free_nodup
  rw [hfree] at hnodup
  obtain ⟨hfresh, hrestNodup⟩ := nodup_cons.mp hnodup
  have hcounted := h.counted
  rw [hfree, length_cons] at hcounted
  refine
    { occupied := ?_, current := ?_, out := by simp, distinct := nodup_nil,
      inRange := ?_, free := ?_, free_nodup := hrest ▸ hrestNodup,
      counted := ?_ }
  · intro other
    rw [hslots, hwheel]
    by_cases heq : other = slot
    · simp [heq]
    · simpa [heq, attach_nodes_of_ne] using h.occupied other
  · rintro other found (hfound | hfound)
    · rw [hwheel] at hfound
      rw [hgen]
      by_cases heq : other = slot
      · rw [heq, attach_nodes_self, Option.some.injEq] at hfound
        simp [heq, ← hfound, hnode]
      · rw [attach_nodes_of_ne _ _ heq] at hfound
        simpa [heq] using h.current other found (.inl hfound)
    · cases hfound
  · intro other hother
    simp only [hslots] at hother
    by_cases heq : other = slot
    · exact heq ▸ ((h.free slot).1 hmem).1
    · exact h.inRange other (by simpa [heq] using hother)
  · intro other
    rw [hrest, hslots]
    by_cases heq : other = slot
    · simp [heq, hfresh]
    · have hother := h.free other
      rw [hfree, mem_cons] at hother
      simpa [heq] using hother
  · rw [hpending, hrest]
    omega

end Slotted

/-- The shard after a schedule that found a free slot. -/
def entered (s : TimerPlaneShard α) (slot : Nat) (rest : List Nat)
    (node : TimerNode α) (kept : Int) : TimerPlaneShard α :=
  { s with
    wheel := s.wheel.insert s.geometry slot node kept kept s.currentTimeNs
    slots := fun i => if i = slot then true else s.slots i
    generations := fun i =>
      if i = slot then nextGeneration (s.generations i) else s.generations i
    freeSlots := rest
    minDeadline := sooner kept s.minDeadline
    pending := s.pending + 1
    scheduled := s.scheduled + 1 }

/-- The expiry `schedule` gives a node: at least one tick ahead. -/
def keptExpire (s : TimerPlaneShard α) (delayNs : Int) : Int :=
  max (s.currentTimeNs + delayNs) (s.currentTimeNs + s.tickNs)

section

variable {s : TimerPlaneShard α}

theorem schedule_full (hfull : s.freeSlots = []) (delayNs : Int)
    (groupHandle : Nat) (callback : α) :
    s.schedule delayNs groupHandle callback = (TimerHandle.invalid, s.countDropped) := by
  simp [schedule, acquireSlot, hfull]

theorem schedule_free {slot : Nat} {rest : List Nat} (hfree : s.freeSlots = slot :: rest)
    (delayNs : Int) (groupHandle : Nat) (callback : α) :
    s.schedule delayNs groupHandle callback =
      (TimerHandle.makeEncoded s.shardIndex slot (nextGeneration (s.generations slot)) 0,
        s.entered slot rest ⟨nextGeneration (s.generations slot), groupHandle, callback⟩
          (s.keptExpire delayNs)) := by
  simp [schedule, acquireSlot, hfree, entered, keptExpire, insertIntoWheel,
    setWheel, countScheduled, geometry]

theorem Sound.entered (h : s.Sound) {slot : Nat} {rest : List Nat}
    (hfree : s.freeSlots = slot :: rest) (node : TimerNode α) {kept : Int}
    (hnode : node.generation = nextGeneration (s.generations slot))
    (hkept : s.currentTimeNs < kept) : (s.entered slot rest node kept).Sound := by
  have hnone : s.wheel.nodes slot = none :=
    h.slotted.no_node_of_free (by simp [hfree])
  refine
    { turn := h.turn
      queue := h.queue
      linked := h.linked.insert hnone node kept kept s.currentTimeNs
      onKey := h.onKey.insert slot node kept s.currentTimeNs
      ahead := ?_
      slotted := h.slotted.acquire hfree rfl rfl rfl hnode rfl rfl
      deadline := ?_ }
  · intro other found hfound
    by_cases heq : other = slot
    · subst heq
      have hself : some _ = some found :=
        (attach_nodes_self _ _ _).symm.trans hfound
      rw [Option.some.injEq] at hself
      rw [← hself]
      exact hkept
    · exact h.ahead other found ((attach_nodes_of_ne _ _ heq).symm.trans hfound)
  · have htracks := h.deadline.sooner kept
    rw [← expirySet_insert hnone] at htracks
    exact htracks

theorem keptExpire_gt (h : s.Sound) (delayNs : Int) : s.currentTimeNs < s.keptExpire delayNs := by
  have htick := h.turn.tick_pos
  have hle := le_max_right (s.currentTimeNs + delayNs) (s.currentTimeNs + s.tickNs)
  rw [keptExpire]
  omega

theorem Sound.schedule (h : s.Sound) (delayNs : Int) (groupHandle : Nat)
    (callback : α) : (s.schedule delayNs groupHandle callback).2.Sound := by
  cases hfree : s.freeSlots with
  | nil =>
    rw [schedule_full hfree]
    exact { h with slotted := { h.slotted with } }
  | cons slot rest =>
    rw [schedule_free hfree]
    exact h.entered hfree _ rfl (keptExpire_gt h delayNs)

/-- The handle passes every check of `cancel`. -/
def Names (s : TimerPlaneShard α) (handle : TimerHandle) : Prop :=
  handle.shardIndex = s.shardIndex ∧ handle.slotIndex < kMaxSlots ∧
    s.slots handle.slotIndex = true ∧
    s.generations handle.slotIndex = handle.generation

theorem cancel_refused {handle : TimerHandle} (hnames : ¬ s.Names handle) :
    s.cancel handle = (false, s) := by
  simp only [cancel]
  split_ifs with hshard hrange hslot hgen
  · rfl
  · rfl
  · rfl
  · rfl
  · exact absurd ⟨not_not.mp hshard, Nat.lt_of_not_le hrange,
      by simpa using hslot, not_not.mp hgen⟩ hnames

/-- The shard after the cancellation of a node. -/
def withoutNode (s : TimerPlaneShard α) (slot : Nat)
    (node : Node (TimerNode α)) : TimerPlaneShard α :=
  let t := (s.removeFromWheel slot node).releaseSlot slot node.data.generation
  (if NotLater node.expire t.minDeadline then t.recomputeMinDeadline
    else t).countCancelled

theorem cancel_named (h : s.Sound) {handle : TimerHandle} (hnames : s.Names handle) :
    ∃ node, s.wheel.nodes handle.slotIndex = some node ∧
      s.cancel handle = (true, s.withoutNode handle.slotIndex node) := by
  obtain ⟨hshard, hrange, hslot, hgen⟩ := hnames
  obtain ⟨node, hnode⟩ := h.slotted.node_of_occupied hslot
  refine ⟨node, hnode, ?_⟩
  have hcurrent := h.slotted.current _ node (.inl hnode)
  simp [cancel, withoutNode, hshard, Nat.not_le.mpr hrange, hslot, hgen, hnode, ← hcurrent]

/-- Releasing a slot touches the slot table and the free list only. -/
@[simp] theorem releaseSlot_frame (s : TimerPlaneShard α) (slot : Nat) (expected : UInt8) :
    (s.releaseSlot slot expected).wheel = s.wheel ∧
      (s.releaseSlot slot expected).minDeadline = s.minDeadline ∧
      (s.releaseSlot slot expected).tickNs = s.tickNs ∧
      (s.releaseSlot slot expected).cmdQueue = s.cmdQueue ∧
      (s.releaseSlot slot expected).currentTimeNs = s.currentTimeNs ∧
      (s.releaseSlot slot expected).shardIndex = s.shardIndex ∧
      (s.releaseSlot slot expected).generations = s.generations := by
  unfold releaseSlot
  split_ifs <;> exact ⟨rfl, rfl, rfl, rfl, rfl, rfl, rfl⟩

section

variable {slot : Nat} {node : Node (TimerNode α)}

@[simp] theorem withoutNode_wheel (s : TimerPlaneShard α) (slot : Nat) (node : Node (TimerNode α)) :
    (s.withoutNode slot node).wheel = s.wheel.take node.level node.bucket slot := by
  unfold withoutNode
  dsimp only
  split_ifs <;> simp [countCancelled, recomputeMinDeadline, removeFromWheel, setWheel]

/-- Cancelling a node leaves the constants, the clock and the generations. -/
theorem withoutNode_frame (s : TimerPlaneShard α) (slot : Nat) (node : Node (TimerNode α)) :
    (s.withoutNode slot node).tickNs = s.tickNs ∧ (s.withoutNode slot node).cmdQueue = s.cmdQueue ∧
      (s.withoutNode slot node).currentTimeNs = s.currentTimeNs ∧
      (s.withoutNode slot node).shardIndex = s.shardIndex ∧
      (s.withoutNode slot node).generations = s.generations := by
  unfold withoutNode
  dsimp only
  split_ifs <;> simp [countCancelled, recomputeMinDeadline, removeFromWheel, setWheel]

theorem Slotted.withoutNode (h : s.Slotted []) (hnode : s.wheel.nodes slot = some node) :
    (s.withoutNode slot node).Slotted [] := by
  have hleave : (s.removeFromWheel slot node).Slotted [(slot, node)] := by
    apply h.leave
    · intro other found hfound
      have hne : other ≠ slot := by
        rintro rfl
        simp at hfound
      rw [take_nodes_of_ne _ _ _ hne] at hfound
      exact ⟨found, hfound, rfl⟩
    · intro other found hentry
      obtain ⟨rfl, rfl⟩ : other = slot ∧ found = node := by simpa using hentry
      exact ⟨take_nodes_self _ _ _ _, found, hnode, rfl⟩
    · intro other found hfound hother
      have hne : other ≠ slot := by simpa using hother
      exact ⟨found, by rw [take_nodes_of_ne _ _ _ hne, hfound]⟩
    · simp
  have hrelease := hleave.release
  unfold TimerPlaneShard.withoutNode
  dsimp only
  split_ifs
  · exact { hrelease with }
  · exact hrelease

theorem withoutNode_deadline (h : s.Sound) (hnode : s.wheel.nodes slot = some node) :
    Tracks (s.withoutNode slot node).minDeadline
      (s.wheel.take node.level node.bucket slot).expirySet := by
  obtain ⟨-, -, hmem⟩ := h.linked.placed slot node hnode
  unfold withoutNode
  dsimp only
  split_ifs with hlater
  · have htracks := earliest_tracks (h.linked.take hmem)
    simpa [countCancelled, recomputeMinDeadline, removeFromWheel, setWheel, geometry] using htracks
  · simp only [releaseSlot_frame] at hlater
    simpa [countCancelled, removeFromWheel, setWheel] using
      h.deadline.remove hlater (expirySet_take_subset _ _ _ _) (expirySet_subset_take hnode _ _)

theorem Sound.withoutNode (h : s.Sound) (hnode : s.wheel.nodes slot = some node) :
    (s.withoutNode slot node).Sound := by
  obtain ⟨htick, hqueue, hclock, -, -⟩ := withoutNode_frame s slot node
  obtain ⟨-, -, hmem⟩ := h.linked.placed slot node hnode
  have hgeometry : (s.withoutNode slot node).geometry = s.geometry := by
    rw [geometry, htick, geometry]
  refine
    { turn := by
        rw [SlowTurn, htick]
        exact h.turn
      queue := hqueue.trans h.queue
      linked := ?_
      onKey := ?_
      ahead := ?_
      slotted := h.slotted.withoutNode hnode
      deadline := ?_ }
  · rw [hgeometry, withoutNode_wheel]
    exact h.linked.take hmem
  · rw [hgeometry, withoutNode_wheel]
    exact h.onKey.take _ _ _
  · rw [withoutNode_wheel, hclock]
    intro other found hfound
    exact h.ahead other found (take_nodes_some hfound).2
  · rw [withoutNode_wheel]
    exact withoutNode_deadline h hnode

theorem Sound.cancel (h : s.Sound) (handle : TimerHandle) : (s.cancel handle).2.Sound := by
  by_cases hnames : s.Names handle
  · obtain ⟨node, hnode, hcancel⟩ := cancel_named h hnames
    rw [hcancel]
    exact h.withoutNode hnode
  · rw [cancel_refused hnames]
    exact h

end

end

end TimerPlaneShard

end HPActor
