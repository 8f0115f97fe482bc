/-
Advancing a shard.  The capped clock step is less than one turn of the finest
level, so the sweep of the wheel takes out exactly the nodes that are due; their
slots are released one after the other.  From this the invariant holds after
every call, and every advance of every run fires exactly the timers that are due.
-/
import HPActor.TimerSlots

namespace HPActor

universe u

open HierarchicalWheel TimerPlaneShard Wheel List

variable {α : Type u}

namespace TimerPlaneShard

section

variable {s : TimerPlaneShard α}

theorem fireNode_wheel (nowNs : Int) (s : TimerPlaneShard α) (entry : Nat × Node (TimerNode α)) :
    (fireNode nowNs s entry).wheel = s.wheel := by
  simp [fireNode]

theorem fireNode_tickNs (nowNs : Int) (s : TimerPlaneShard α) (entry : Nat × Node (TimerNode α)) :
    (fireNode nowNs s entry).tickNs = s.tickNs := by
  simp [fireNode]

theorem Slotted.fires {leaving : List (Nat × Node (TimerNode α))}
    (h : s.Slotted leaving) (nowNs : Int) :
    (leaving.foldl (fireNode nowNs) s).Slotted [] := by
  induction leaving generalizing s with
  | nil => exact h
  | cons entry rest ih => exact ih (h.fire nowNs)

section

variable {nowNs : Int}

theorem turn_lt (hturn : s.SlowTurn) (hcap : nowNs ≤ s.currentTimeNs + kMaxAdvanceNs) :
    s.geometry.key 0 nowNs < s.geometry.key 0 s.currentTimeNs + s.geometry.size := by
  apply s.geometry.key_lt_turn hturn.tick_pos hcap
  simp only [SlowTurn] at hturn
  simp only [geometry, timerGeometry, kBucketsPerLevel]
  omega

theorem keepData_id (level : Nat) (node : TimerNode α) :
    id (keepData level node) = id node := rfl

/-- The sweep of an advance. -/
def swept (s : TimerPlaneShard α) (nowNs : Int) : Sweep Nat (TimerNode α) :=
  sweep s.geometry keepData s.currentTimeNs nowNs s.wheel

/-- The shard right after the sweep, with the fired nodes' slots still taken. -/
def afterSweep (s : TimerPlaneShard α) (nowNs : Int) : TimerPlaneShard α :=
  { s with currentTimeNs := nowNs, wheel := (s.swept nowNs).wheel }

theorem advanceTo_fired (s : TimerPlaneShard α) (nowNs : Int) :
    (s.advanceTo nowNs).1 = (s.swept nowNs).fired.map fun entry => entry.2.data.callback := rfl

theorem advanceTo_snd (s : TimerPlaneShard α) (nowNs : Int) :
    (s.advanceTo nowNs).2 =
      if (s.swept nowNs).fired.isEmpty then
        (s.swept nowNs).fired.foldl (fireNode nowNs) (s.afterSweep nowNs)
      else ((s.swept nowNs).fired.foldl (fireNode nowNs)
        (s.afterSweep nowNs)).recomputeMinDeadline := rfl

theorem recomputeMinDeadline_minDeadline (s : TimerPlaneShard α) :
    s.recomputeMinDeadline.minDeadline = s.wheel.earliest s.geometry := rfl

/-- The advance only moves the clock, the wheel, the slots and the counters. -/
theorem advanceTo_keeps {β : Type*} (field : TimerPlaneShard α → β)
    (hfire : ∀ s entry, field (fireNode nowNs s entry) = field s)
    (hrecompute : ∀ s : TimerPlaneShard α, field s.recomputeMinDeadline = field s)
    (s : TimerPlaneShard α) :
    field (s.advanceTo nowNs).2 = field (s.afterSweep nowNs) := by
  have hfires := Runs.foldl_keeps field (fireNode nowNs) hfire
    (s.swept nowNs).fired (s.afterSweep nowNs)
  rw [advanceTo_snd]
  split
  · exact hfires
  · rw [hrecompute]
    exact hfires

theorem advanceTo_wheel (s : TimerPlaneShard α) (nowNs : Int) :
    (s.advanceTo nowNs).2.wheel = (s.swept nowNs).wheel :=
  advanceTo_keeps wheel (fireNode_wheel nowNs) (fun _ => rfl) s

theorem advanceTo_clock (s : TimerPlaneShard α) (nowNs : Int) :
    (s.advanceTo nowNs).2.currentTimeNs = nowNs :=
  advanceTo_keeps currentTimeNs (fun _ _ => by simp [fireNode]) (fun _ => rfl) s

theorem advanceTo_tickNs (s : TimerPlaneShard α) (nowNs : Int) :
    (s.advanceTo nowNs).2.tickNs = s.tickNs :=
  advanceTo_keeps tickNs (fireNode_tickNs nowNs) (fun _ => rfl) s

section

variable (h : s.Sound) (hcap : nowNs ≤ s.currentTimeNs + kMaxAdvanceNs)
include h hcap

theorem Sound.swept_facts :
    Swept s.geometry id nowNs s.wheel (s.swept nowNs) ∧ (s.swept nowNs).wheel.Ahead nowNs :=
  ⟨(sweep_swept keepData_id h.linked _ _).1, sweep_leaves_later keepData_id h.linked h.onKey h.ahead
      (turn_lt h.turn hcap)⟩

theorem Sound.afterSweep_slotted : (s.afterSweep nowNs).Slotted (s.swept nowNs).fired := by
  have hswept := (h.swept_facts hcap).1
  have hleave : (s.setWheel (s.swept nowNs).wheel).Slotted (s.swept nowNs).fired := by
    apply h.slotted.leave
    · intro slot node hnode
      obtain ⟨old, hold, hdata⟩ := hswept.source hnode
      exact ⟨old, hold, congrArg TimerNode.generation hdata⟩
    · intro slot node hentry
      obtain ⟨old, hold, -, hdata⟩ :=
        (look_eq_some id).1 (hswept.due slot node hentry).1
      exact ⟨(look_eq_none id).1 (hswept.gone slot node hentry), old, hold,
        congrArg TimerNode.generation hdata⟩
    · exact fun slot node hnode hslot => hswept.left hnode hslot
    · exact hswept.nodup
  exact { hleave with }

theorem Sound.advanceTo_slotted : (s.advanceTo nowNs).2.Slotted [] := by
  have hfires := (h.afterSweep_slotted hcap).fires nowNs
  rw [advanceTo_snd]
  split
  · exact hfires
  · exact { hfires with }

/-- The cached deadline is recomputed if a timer fired; otherwise no expiry
changed. -/
theorem Sound.advanceTo_deadline :
    Tracks (s.advanceTo nowNs).2.minDeadline (s.swept nowNs).wheel.expirySet := by
  have hswept := (h.swept_facts hcap).1
  have hwheel := Runs.foldl_keeps wheel (fireNode nowNs)
    (fireNode_wheel nowNs) (s.swept nowNs).fired (s.afterSweep nowNs)
  have htick := Runs.foldl_keeps tickNs (fireNode nowNs)
    (fireNode_tickNs nowNs) (s.swept nowNs).fired (s.afterSweep nowNs)
  rw [advanceTo_snd]
  split
  · rename_i hempty
    have hnil : (s.swept nowNs).fired = [] := isEmpty_iff.mp hempty
    have hsame := expirySet_eq_of_look id fun k =>
      hswept.kept k (by simp [hnil])
    rw [hsame, hnil]
    exact h.deadline
  · rw [recomputeMinDeadline_minDeadline, geometry, hwheel, htick]
    exact earliest_tracks hswept.linked

theorem Sound.advanceTo : (s.advanceTo nowNs).2.Sound := by
  obtain ⟨hswept, hahead⟩ := h.swept_facts hcap
  have hgeometry : (s.advanceTo nowNs).2.geometry = s.geometry := by
    rw [geometry, advanceTo_tickNs, geometry]
  refine
    { turn := ?_
      queue := ?_
      linked := ?_
      onKey := ?_
      ahead := ?_
      slotted := h.advanceTo_slotted hcap
      deadline := ?_ }
  · rw [SlowTurn, advanceTo_tickNs]
    exact h.turn
  · rw [advanceTo_keeps cmdQueue (fun _ _ => by simp [fireNode]) (fun _ => rfl) s]
    exact h.queue
  · rw [hgeometry, advanceTo_wheel]
    exact hswept.linked
  · rw [hgeometry, advanceTo_wheel]
    exact hswept.onKey h.onKey
  · rw [advanceTo_wheel, advanceTo_clock]
    exact hahead
  · rw [advanceTo_wheel]
    exact h.advanceTo_deadline hcap

end

theorem cappedNow_le (clock nowNs : Int) : cappedNow clock nowNs ≤ clock + kMaxAdvanceNs := by
  unfold cappedNow
  split_ifs <;> omega

theorem cappedNow_eq_min (clock nowNs : Int) :
    cappedNow clock nowNs = min nowNs (clock + kMaxAdvanceNs) := by
  unfold cappedNow
  split_ifs with hfar
  · rw [min_eq_right (by omega)]
  · rw [min_eq_left (by omega)]

/-- Without queued commands an advance either does nothing or sweeps up to the
capped time. -/
theorem advance_idle (hqueue : s.cmdQueue = []) (hnow : nowNs ≤ s.currentTimeNs) :
    s.advance nowNs = ([], s) := by
  have hdrain : s.drainCommands = s := by
    cases s
    simp_all [drainCommands]
  simp [advance, hdrain, hnow, hqueue]

theorem advance_moves (hqueue : s.cmdQueue = []) (hnow : s.currentTimeNs < nowNs) :
    s.advance nowNs = s.advanceTo (cappedNow s.currentTimeNs nowNs) := by
  have hdrain : s.drainCommands = s := by
    cases s
    simp_all [drainCommands]
  simp [advance, hdrain, not_le.mpr hnow]

theorem Sound.advance (h : s.Sound) (nowNs : Int) : (s.advance nowNs).2.Sound := by
  by_cases hnow : nowNs ≤ s.currentTimeNs
  · rw [advance_idle h.queue hnow]
    exact h
  · rw [advance_moves h.queue (not_le.mp hnow)]
    exact h.advanceTo (cappedNow_le _ _)

end

end

/-- A call of a thread that does not go through the command queue. -/
inductive Call (α : Type u) where
  | schedule (delayNs : Int) (groupHandle : Nat) (callback : α)
  | cancel (handle : TimerHandle)
  | advance (nowNs : Int)

def call (s : TimerPlaneShard α) : Call α → Option (TimerPlaneShard α)
  | .schedule delayNs groupHandle callback =>
    some (s.schedule delayNs groupHandle callback).2
  | .cancel handle => some (s.cancel handle).2
  | .advance nowNs => some (s.advance nowNs).2

variable {c : Call α} {s t : TimerPlaneShard α}

theorem Sound.call (h : s.Sound) (hcall : s.call c = some t) : t.Sound := by
  cases c with
  | schedule delayNs groupHandle callback =>
    cases hcall
    exact h.schedule delayNs groupHandle callback
  | cancel handle =>
    cases hcall
    exact h.cancel handle
  | advance nowNs =>
    cases hcall
    exact h.advance nowNs

theorem Sound.call_tickNs (h : s.Sound) (hcall : s.call c = some t) : t.tickNs = s.tickNs := by
  cases c with
  | schedule delayNs groupHandle callback =>
    cases hcall
    cases hfree : s.freeSlots with
    | nil => rw [schedule_full hfree]; rfl
    | cons slot rest => rw [schedule_free hfree]; rfl
  | cancel handle =>
    cases hcall
    by_cases hnames : s.Names handle
    · obtain ⟨node, -, hcancel⟩ := cancel_named h hnames
      rw [hcancel]
      exact (withoutNode_frame s _ node).1
    · rw [cancel_refused hnames]
  | advance nowNs =>
    cases hcall
    by_cases hnow : nowNs ≤ s.currentTimeNs
    · rw [advance_idle h.queue hnow]
    · rw [advance_moves h.queue (not_le.mp hnow)]
      exact advanceTo_tickNs s _

/-- The invariant together with the tick the shard was made with. -/
def SoundAt (tickNs : Nat) (s : TimerPlaneShard α) : Prop :=
  s.Sound ∧ s.tickNs = tickNs

theorem SoundAt.call {tickNs : Nat} (h : SoundAt tickNs s)
    (hcall : s.call c = some t) : SoundAt tickNs t :=
  ⟨h.1.call hcall, (h.1.call_tickNs hcall).trans h.2⟩

/-- The pending timer of a slot: its expiry and what it is for. -/
def timerAt (s : TimerPlaneShard α) (slot : Nat) : Option (Int × TimerNode α) :=
  s.wheel.look id slot

theorem schedule_timerAt {slot : Nat} {rest : List Nat} (hfree : s.freeSlots = slot :: rest)
    (delayNs : Int) (groupHandle : Nat) (callback : α) (other : Nat) :
    (s.schedule delayNs groupHandle callback).2.timerAt other =
      if other = slot then
        some (s.keptExpire delayNs, ⟨nextGeneration (s.generations slot), groupHandle, callback⟩)
      else s.timerAt other := by
  rw [schedule_free hfree]
  exact look_attach id s.wheel slot other _

/-- The slots of an advance's fired nodes, in firing order. -/
theorem Sound.advanceTo_fires (h : s.Sound) {nowNs : Int}
    (hcap : nowNs ≤ s.currentTimeNs + kMaxAdvanceNs) :
    ∃ slots : List Nat, slots.Nodup ∧
      (∀ slot, slot ∈ slots ↔
        ∃ expire node, s.timerAt slot = some (expire, node) ∧ expire ≤ nowNs) ∧
      (s.advanceTo nowNs).1 =
        slots.filterMap fun slot => (s.timerAt slot).map fun t => t.2.callback := by
  have hswept := (h.swept_facts hcap).1
  refine ⟨(s.swept nowNs).fired.map Prod.fst, hswept.nodup, ?_, ?_⟩
  · intro slot
    constructor
    · intro hmem
      obtain ⟨⟨slot', node⟩, hfired, rfl⟩ := mem_map.mp hmem
      exact ⟨node.expire, node.data, hswept.due slot' node hfired⟩
    · rintro ⟨expire, data, htimer, hdue⟩
      obtain ⟨node, hfired, -, -⟩ := (sweep_fired_iff keepData_id h.linked
        h.onKey h.ahead (turn_lt h.turn hcap) slot expire data).2 ⟨htimer, hdue⟩
      exact mem_map.mpr ⟨(slot, node), hfired, rfl⟩
  · rw [advanceTo_fired, filterMap_map, ← filterMap_eq_map]
    apply filterMap_congr
    rintro ⟨slot, node⟩ hfired
    have hlook := (hswept.due slot node hfired).1
    simp only [Function.comp_apply, timerAt, hlook, Option.map_some]
    rfl

/-- A tick of one millisecond: whatever was called before, an advance moves the
clock to the capped time, fires exactly the timers that are due then, each once,
and keeps the others; a schedule adds one timer, due at least a tick ahead. -/
theorem advance_fires_exactly_due (shardIndex : Nat) (calls : List (Call α)) {s : TimerPlaneShard α}
    (hrun : Runs.run call (create shardIndex 1000000) calls = some s) :
    (∀ delayNs groupHandle callback slot rest, s.freeSlots = slot :: rest →
      ∀ other, (s.schedule delayNs groupHandle callback).2.timerAt other =
        if other = slot then
          some (max (s.currentTimeNs + delayNs) (s.currentTimeNs + 1000000),
            ⟨nextGeneration (s.generations slot), groupHandle, callback⟩)
        else s.timerAt other) ∧
    ∀ nowNs, s.currentTimeNs < nowNs → (s.advance nowNs).2.currentTimeNs =
          min nowNs (s.currentTimeNs + 100000000) ∧
        (∃ slots : List Nat, slots.Nodup ∧
          (∀ slot, slot ∈ slots ↔ ∃ expire node, s.timerAt slot = some (expire, node) ∧
              expire ≤ (s.advance nowNs).2.currentTimeNs) ∧
          (s.advance nowNs).1 = slots.filterMap fun slot =>
            (s.timerAt slot).map fun t => t.2.callback) ∧
        ∀ slot expire node, (s.advance nowNs).2.timerAt slot = some (expire, node) ↔
            s.timerAt slot = some (expire, node) ∧ (s.advance nowNs).2.currentTimeNs < expire := by
  have hinit : (create shardIndex 1000000 : TimerPlaneShard α).Sound :=
    create_sound shardIndex (by decide)
  have hsound : SoundAt 1000000 s :=
    Runs.run_invariant' (fun _ _ _ hs hcall => hs.call hcall) ⟨hinit, rfl⟩ hrun
  obtain ⟨h, htick⟩ := hsound
  constructor
  · intro delayNs groupHandle callback slot rest hfree other
    rw [schedule_timerAt hfree, keptExpire, htick]
    rfl
  · intro nowNs hnow
    have hcap := cappedNow_le s.currentTimeNs nowNs
    rw [advance_moves h.queue hnow, advanceTo_clock]
    refine ⟨cappedNow_eq_min _ _, h.advanceTo_fires hcap, ?_⟩
    intro slot expire node
    rw [timerAt, advanceTo_wheel]
    exact sweep_look keepData_id h.linked h.onKey h.ahead (turn_lt h.turn hcap) slot expire node

namespace FiringWitness

/-- One timer on the finest level, one on the next, one cancelled, and the clock
a little on its way. -/
def calls : List (Call Char) :=
  [.schedule 5000000 0 'a', .schedule 300000000 0 'b', .schedule 7000000 0 'c',
    .cancel (TimerHandle.makeEncoded 3 2 1 0), .advance 2500000]

def later : TimerPlaneShard Char :=
  ((((((create 3 1000000).schedule 5000000 0 'a').2.schedule 300000000 0
    'b').2.schedule 7000000 0 'c').2.cancel (TimerHandle.makeEncoded 3 2 1 0)).2.advance 2500000).2

theorem later_view : later.currentTimeNs < 250000000 ∧ (later.advance 250000000).1 = ['a'] := by
  decide +kernel

theorem later_fires_one :
    later.currentTimeNs < 250000000 ∧ (later.advance 250000000).1 = ['a'] ∧
      (later.advance 250000000).2.currentTimeNs = min 250000000 (later.currentTimeNs + 100000000) :=
  ⟨later_view.1, later_view.2,
    ((advance_fires_exactly_due 3 calls (s := later)
      (by simp only [calls, later, Runs.run_cons, Runs.run_nil, call,
        Option.bind_some])).2 250000000 later_view.1).1⟩

end FiringWitness

end TimerPlaneShard

end HPActor
