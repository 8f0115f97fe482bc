/-
The timing wheel that the timer plane replaces.  It is the same hierarchy of
levels, with vectors for buckets and a map from timer ids to timers instead of
slots with generations.  The id that a caller gets carries the level of the timer
in its bits from 48 on; the map knows the low 48 bits only.
-/
import HPActor.TimerShard

namespace HPActor

universe u

open HierarchicalWheel Wheel List

variable {α : Type u}

/-- What a timer carries besides its expiry and its place. -/
structure WheelTimer (α : Type u) where
  id : Nat
  callback : α

structure TimingWheel (α : Type u) where
  tickNs : Nat
  numLevels : Nat
  levels_pos : 0 < numLevels
  currentTime : Int
  wheel : Wheel Nat (WheelTimer α)
  timerMap : Nat → Option Nat
  nextTimerId : Nat
  minDeadline : Option Int

namespace TimingWheel

/-- A new wheel; its clock starts at a reading of the steady clock. -/
def create (tickNs : Nat) (numLevels : Nat) (hlevels : 0 < numLevels)
    (now : Int) : TimingWheel α where
  tickNs := tickNs
  numLevels := numLevels
  levels_pos := hlevels
  currentTime := now
  wheel := empty
  timerMap := fun _ => none
  nextTimerId := 1
  minDeadline := none

section

variable (s : TimingWheel α)

def geometry : Geometry where
  tick := s.tickNs
  size := 256
  levels := s.numLevels
  size_pos := by decide
  levels_pos := s.levels_pos

def idMask : Nat := 0xFFFFFFFFFFFF

def setMap (id : Nat) (timer : Option Nat) : TimingWheel α :=
  { s with timerMap := fun i => if i = id then timer else s.timerMap i }

/-- The level goes into the high bits of the id. -/
def insertTimer (timer : Nat) (callback : α) (expireNs : Int) : TimingWheel α :=
  let placed := max expireNs s.currentTime
  let level := s.geometry.levelFor (placed - s.currentTime)
  { s with
    wheel := s.wheel.insert s.geometry timer ⟨timer ||| level <<< 48, callback⟩
      expireNs placed s.currentTime }

/-- A timer is known by the id it is created with. -/
def addTimerInternal (expireNs : Int) (callback : α) : Nat × TimingWheel α :=
  let timer := s.nextTimerId
  let level := s.geometry.levelFor (max expireNs s.currentTime - s.currentTime)
  let t := { s with nextTimerId := timer + 1 }.setMap timer (some timer)
  let t := { t with minDeadline := sooner expireNs t.minDeadline }
  (timer ||| level <<< 48, t.insertTimer timer callback expireNs)

def schedule (delayNs : Int) (callback : α) : Nat × TimingWheel α :=
  s.addTimerInternal (s.currentTime + delayNs) callback

def recomputeMinDeadline : TimingWheel α :=
  { s with minDeadline := s.wheel.earliest s.geometry }

/-- Take a timer out by its id, if the map still has it. -/
def removeTimer (timerId : Nat) : Option (Node (WheelTimer α) × TimingWheel α) :=
  let id := timerId &&& idMask
  match s.timerMap id with
  | none => none
  | some timer =>
    (s.wheel.nodes timer).map fun node =>
      let t := s.setMap id none
      (node, { t with wheel := t.wheel.take node.level node.bucket timer })

def cancel (timerId : Nat) : Bool × TimingWheel α :=
  match s.removeTimer timerId with
  | none => (false, s)
  | some (node, t) =>
    (true, if NotLater node.expire t.minDeadline then t.recomputeMinDeadline
      else t)

/-- A cascaded timer gets its new level into the id. -/
def relabel (lower : Nat) (timer : WheelTimer α) : WheelTimer α :=
  { timer with id := timer.id &&& idMask ||| lower <<< 48 }

/-- A fired timer leaves the map. -/
def fireTimer (entry : Nat × Node (WheelTimer α)) : TimingWheel α :=
  s.setMap (entry.2.data.id &&& idMask) none

def advanceTo (nowNs : Int) : List α × TimingWheel α :=
  let swept := sweep s.geometry relabel s.currentTime nowNs s.wheel
  let t := swept.fired.foldl fireTimer
    { s with currentTime := nowNs, wheel := swept.wheel }
  (swept.fired.map fun entry => entry.2.data.callback,
    if swept.fired.isEmpty then t else t.recomputeMinDeadline)

def advance (nowNs : Int) : List α × TimingWheel α :=
  if nowNs ≤ s.currentTime then ([], s)
  else s.advanceTo (TimerPlaneShard.cappedNow s.currentTime nowNs)

end

/-- What holds between two calls: the wheel is in order, and the map has exactly
the timers of the wheel under the low bits of their ids. -/
structure Sound (s : TimingWheel α) : Prop where
  turn : kMaxAdvanceNs < 255 * (s.tickNs : Int)
  linked : s.wheel.Linked s.geometry
  onKey : s.wheel.OnKey s.geometry
  ahead : s.wheel.Ahead s.currentTime
  mapped : ∀ id timer, s.timerMap id = some timer ↔
    id = timer ∧ ∃ node, s.wheel.nodes timer = some node
  named : ∀ timer node, s.wheel.nodes timer = some node →
    node.data.id &&& idMask = timer ∧ timer < s.nextTimerId
  deadline : Tracks s.minDeadline s.wheel.expirySet

theorem lowBits_or (id level : Nat) : (id ||| level <<< 48) &&& idMask = id &&& idMask := by
  have hmask : idMask = 2 ^ 48 - 1 := by decide
  rw [hmask, Nat.and_two_pow_sub_one_eq_mod, Nat.and_two_pow_sub_one_eq_mod,
    Nat.or_mod_two_pow, Nat.shiftLeft_eq, Nat.mul_mod_left, Nat.or_zero]

theorem lowBits_of_lt {id : Nat} (hid : id < 2 ^ 48) : id &&& idMask = id := by
  have hmask : idMask = 2 ^ 48 - 1 := by decide
  rw [hmask, Nat.and_two_pow_sub_one_eq_mod, Nat.mod_eq_of_lt hid]

theorem create_sound {tickNs : Nat} (numLevels : Nat) (hlevels : 0 < numLevels)
    (now : Int) (hturn : kMaxAdvanceNs < 255 * (tickNs : Int)) :
    (create tickNs numLevels hlevels now : TimingWheel α).Sound where
  turn := hturn
  linked := empty_linked _
  onKey := empty_onKey _
  ahead := by
    intro timer node hnode
    cases hnode
  mapped := by simp [create, empty]
  named := by simp [create, empty]
  deadline := empty_expirySet

section

variable {s : TimingWheel α}

/-- A timer due later goes to the bucket of its expiry. -/
theorem schedule_wheel {delayNs : Int} (hdelay : 0 < delayNs) (callback : α) :
    (s.schedule delayNs callback).2.wheel = s.wheel.insert s.geometry s.nextTimerId
        ⟨(s.schedule delayNs callback).1, callback⟩ (s.currentTime + delayNs)
        (s.currentTime + delayNs) s.currentTime := by
  have hplaced : max (s.currentTime + delayNs) s.currentTime =
      s.currentTime + delayNs := max_eq_left (by omega)
  simp only [schedule, addTimerInternal, insertTimer, setMap, geometry, hplaced]

theorem Sound.unused (h : s.Sound) : s.wheel.nodes s.nextTimerId = none := by
  cases hnode : s.wheel.nodes s.nextTimerId with
  | none => rfl
  | some node => exact absurd (h.named _ node hnode).2 (lt_irrefl _)

theorem schedule_id_lowBits (hid : s.nextTimerId < 2 ^ 48) (delayNs : Int) (callback : α) :
    (s.schedule delayNs callback).1 &&& idMask = s.nextTimerId :=
  (lowBits_or _ _).trans (lowBits_of_lt hid)

theorem Sound.schedule (h : s.Sound) (hid : s.nextTimerId < 2 ^ 48)
    {delayNs : Int} (hdelay : 0 < delayNs) (callback : α) :
    (s.schedule delayNs callback).2.Sound := by
  have hwheel := schedule_wheel (s := s) hdelay callback
  have hnone := h.unused
  obtain ⟨new, hself, hexpire, hdata⟩ : ∃ new,
      (s.schedule delayNs callback).2.wheel.nodes s.nextTimerId = some new ∧
        new.expire = s.currentTime + delayNs ∧
        new.data = ⟨(s.schedule delayNs callback).1, callback⟩ := by
    rw [hwheel]
    exact ⟨_, attach_nodes_self _ _ _, rfl, rfl⟩
  have hother : ∀ timer, timer ≠ s.nextTimerId →
      (s.schedule delayNs callback).2.wheel.nodes timer =
        s.wheel.nodes timer := by
    intro timer hne
    rw [hwheel]
    exact attach_nodes_of_ne _ _ hne
  refine ⟨h.turn, ?_, ?_, ?_, ?_, ?_, ?_⟩
  · rw [hwheel]
    exact h.linked.insert hnone _ _ _ _
  · rw [hwheel]
    exact h.onKey.insert _ _ _ _
  · intro timer node hnode
    show s.currentTime < node.expire
    by_cases heq : timer = s.nextTimerId
    · rw [heq, hself, Option.some.injEq] at hnode
      rw [← hnode, hexpire]
      omega
    · exact h.ahead timer node ((hother timer heq).symm.trans hnode)
  · intro id timer
    show (if id = s.nextTimerId then some s.nextTimerId else s.timerMap id) =
      some timer ↔ _
    by_cases heq : timer = s.nextTimerId
    · rw [heq, hself]
      split_ifs with hnew
      · simp [hnew]
      · rw [h.mapped, hnone]
        simp [hnew]
    · rw [hother timer heq]
      split_ifs with hnew
      · simp only [Option.some.injEq, Ne.symm heq, false_iff, not_and]
        intro hid'
        exact absurd (hid'.symm.trans hnew) heq
      · exact h.mapped id timer
  · intro timer node hnode
    by_cases heq : timer = s.nextTimerId
    · rw [heq, hself, Option.some.injEq] at hnode
      rw [← hnode, heq, hdata]
      exact ⟨schedule_id_lowBits hid delayNs callback, Nat.lt_succ_self _⟩
    · exact (h.named timer node ((hother timer heq).symm.trans hnode)).imp_right Nat.lt_succ_of_lt
  · have htracks := h.deadline.sooner (s.currentTime + delayNs)
    rw [hwheel]
    rw [← expirySet_insert hnone] at htracks
    exact htracks

/-- The wheel after the removal of a timer. -/
def withoutTimer (s : TimingWheel α) (timer : Nat) (node : Node (WheelTimer α)) : TimingWheel α :=
  let t := s.setMap timer none
  let t := { t with wheel := t.wheel.take node.level node.bucket timer }
  if NotLater node.expire t.minDeadline then t.recomputeMinDeadline else t

theorem cancel_unknown (h : s.Sound) {timerId : Nat}
    (hnone : s.wheel.nodes (timerId &&& idMask) = none) :
    s.cancel timerId = (false, s) := by
  have hmap : s.timerMap (timerId &&& idMask) = none := by
    cases hfound : s.timerMap (timerId &&& idMask) with
    | none => rfl
    | some timer =>
      obtain ⟨rfl, node, hnode⟩ := (h.mapped _ timer).1 hfound
      rw [hnone] at hnode
      cases hnode
  simp [cancel, removeTimer, hmap]

theorem cancel_known (h : s.Sound) {timerId : Nat} {node : Node (WheelTimer α)}
    (hnode : s.wheel.nodes (timerId &&& idMask) = some node) :
    s.cancel timerId = (true, s.withoutTimer (timerId &&& idMask) node) := by
  have hmap := (h.mapped _ _).2 ⟨rfl, node, hnode⟩
  simp [cancel, removeTimer, hmap, hnode, withoutTimer]

section

variable {timer : Nat} {node : Node (WheelTimer α)}

@[simp] theorem withoutTimer_wheel (s : TimingWheel α) (timer : Nat) (node : Node (WheelTimer α)) :
    (s.withoutTimer timer node).wheel = s.wheel.take node.level node.bucket timer := by
  unfold withoutTimer
  dsimp only
  split_ifs <;> rfl

/-- Everything but the map, the wheel and the deadline stays. -/
theorem withoutTimer_frame (s : TimingWheel α) (timer : Nat) (node : Node (WheelTimer α)) :
    (s.withoutTimer timer node).tickNs = s.tickNs ∧
      (s.withoutTimer timer node).geometry = s.geometry ∧
      (s.withoutTimer timer node).currentTime = s.currentTime ∧
      (s.withoutTimer timer node).nextTimerId = s.nextTimerId ∧
      (s.withoutTimer timer node).timerMap =
        fun i => if i = timer then none else s.timerMap i := by
  unfold withoutTimer
  dsimp only
  split_ifs
  · exact ⟨rfl, rfl, rfl, rfl, rfl⟩
  · exact ⟨rfl, rfl, rfl, rfl, rfl⟩

theorem withoutTimer_deadline (h : s.Sound) (hnode : s.wheel.nodes timer = some node) :
    Tracks (s.withoutTimer timer node).minDeadline
      (s.wheel.take node.level node.bucket timer).expirySet := by
  obtain ⟨-, -, hmem⟩ := h.linked.placed timer node hnode
  unfold withoutTimer
  dsimp only
  split_ifs with hlater
  · exact earliest_tracks (h.linked.take hmem)
  · exact h.deadline.remove hlater (expirySet_take_subset _ _ _ _) (expirySet_subset_take hnode _ _)

theorem Sound.withoutTimer (h : s.Sound) (hnode : s.wheel.nodes timer = some node) :
    (s.withoutTimer timer node).Sound := by
  obtain ⟨htick, hgeometry, hclock, hnext, hmap⟩ :=
    withoutTimer_frame s timer node
  obtain ⟨-, -, hmem⟩ := h.linked.placed timer node hnode
  refine ⟨htick ▸ h.turn, ?_, ?_, ?_, ?_, ?_, ?_⟩
  · rw [hgeometry, withoutTimer_wheel]
    exact h.linked.take hmem
  · rw [hgeometry, withoutTimer_wheel]
    exact h.onKey.take _ _ _
  · rw [hclock, withoutTimer_wheel]
    intro other found hfound
    exact h.ahead other found (take_nodes_some hfound).2
  · intro id other
    rw [hmap, withoutTimer_wheel]
    by_cases heq : other = timer
    · subst heq
      simp only [take_nodes_self, reduceCtorEq, exists_false, and_false, iff_false]
      split_ifs with hid
      · simp
      · intro hfound
        exact hid ((h.mapped id other).1 hfound).1
    · rw [take_nodes_of_ne _ _ _ heq]
      by_cases hid : id = timer
      · subst hid
        simp [Ne.symm heq]
      · simpa [hid] using h.mapped id other
  · rw [withoutTimer_wheel, hnext]
    intro other found hfound
    exact h.named other found (take_nodes_some hfound).2
  · rw [withoutTimer_wheel]
    exact withoutTimer_deadline h hnode

end

section

variable {nowNs : Int}

/-- What a cascade keeps of a timer. -/
def kept (timer : WheelTimer α) : Nat × α := (timer.id &&& idMask, timer.callback)

theorem relabel_kept (lower : Nat) (timer : WheelTimer α) :
    kept (relabel lower timer) = kept timer := by
  have hbits : (timer.id &&& idMask ||| lower <<< 48) &&& idMask = timer.id &&& idMask := by
    rw [lowBits_or, Nat.and_assoc, Nat.and_self]
  rw [kept, relabel, hbits, kept]

def swept (s : TimingWheel α) (nowNs : Int) : Sweep Nat (WheelTimer α) :=
  sweep s.geometry relabel s.currentTime nowNs s.wheel

theorem turn_lt (h : s.Sound) (hcap : nowNs ≤ s.currentTime + kMaxAdvanceNs) :
    s.geometry.key 0 nowNs < s.geometry.key 0 s.currentTime + s.geometry.size := by
  have hturn := h.turn
  apply s.geometry.key_lt_turn _ hcap
  · simp only [geometry, Int.natCast_mul]
    exact hturn
  · simp only [kMaxAdvanceNs] at hturn
    show 0 < s.tickNs
    omega

theorem Sound.swept_facts (h : s.Sound) (hcap : nowNs ≤ s.currentTime + kMaxAdvanceNs) :
    Swept s.geometry kept nowNs s.wheel (s.swept nowNs) ∧ (s.swept nowNs).wheel.Ahead nowNs :=
  ⟨(sweep_swept relabel_kept h.linked _ _).1,
    sweep_leaves_later relabel_kept h.linked h.onKey h.ahead (turn_lt h hcap)⟩

theorem advanceTo_fired (s : TimingWheel α) (nowNs : Int) :
    (s.advanceTo nowNs).1 = (s.swept nowNs).fired.map fun entry => entry.2.data.callback := rfl

/-- The map loses the fired ids and nothing else. -/
theorem fires_map (entries : List (Nat × Node (WheelTimer α))) (s : TimingWheel α) (id : Nat) :
    (entries.foldl fireTimer s).timerMap id =
      if id ∈ entries.map (fun entry => entry.2.data.id &&& idMask) then none
      else s.timerMap id := by
  induction entries generalizing s with
  | nil => simp
  | cons entry rest ih =>
    rw [foldl_cons, ih]
    simp only [fireTimer, setMap, map_cons, mem_cons]
    by_cases hrest : id ∈ rest.map fun entry => entry.2.data.id &&& idMask
    · simp [hrest]
    · simp [hrest]

def afterSweep (s : TimingWheel α) (nowNs : Int) : TimingWheel α :=
  { s with currentTime := nowNs, wheel := (s.swept nowNs).wheel }

theorem advanceTo_snd (s : TimingWheel α) (nowNs : Int) :
    (s.advanceTo nowNs).2 =
      if (s.swept nowNs).fired.isEmpty then
        (s.swept nowNs).fired.foldl fireTimer (s.afterSweep nowNs)
      else ((s.swept nowNs).fired.foldl fireTimer (s.afterSweep nowNs)).recomputeMinDeadline := rfl

theorem recomputeMinDeadline_minDeadline (s : TimingWheel α) :
    s.recomputeMinDeadline.minDeadline = s.wheel.earliest s.geometry := rfl

theorem advanceTo_keeps {β : Type*} (field : TimingWheel α → β)
    (hfire : ∀ s entry, field (fireTimer s entry) = field s)
    (hrecompute : ∀ s : TimingWheel α, field s.recomputeMinDeadline = field s)
    (s : TimingWheel α) (nowNs : Int) :
    field (s.advanceTo nowNs).2 = field (s.afterSweep nowNs) := by
  have hfires := Runs.foldl_keeps field fireTimer hfire (s.swept nowNs).fired (s.afterSweep nowNs)
  rw [advanceTo_snd]
  split
  · exact hfires
  · rw [hrecompute]
    exact hfires

section

variable (s : TimingWheel α)

open TimingWheel

theorem advanceTo_wheel (nowNs : Int) : (s.advanceTo nowNs).2.wheel = (s.swept nowNs).wheel :=
  advanceTo_keeps wheel (fun _ _ => rfl) (fun _ => rfl) s nowNs

theorem advanceTo_clock (nowNs : Int) : (s.advanceTo nowNs).2.currentTime = nowNs :=
  advanceTo_keeps currentTime (fun _ _ => rfl) (fun _ => rfl) s nowNs

theorem advanceTo_geometry (nowNs : Int) : (s.advanceTo nowNs).2.geometry = s.geometry :=
  advanceTo_keeps geometry (fun _ _ => rfl) (fun _ => rfl) s nowNs

theorem advanceTo_nextTimerId (nowNs : Int) : (s.advanceTo nowNs).2.nextTimerId = s.nextTimerId :=
  advanceTo_keeps nextTimerId (fun _ _ => rfl) (fun _ => rfl) s nowNs

theorem advanceTo_map (nowNs : Int) (id : Nat) :
    (s.advanceTo nowNs).2.timerMap id =
      if id ∈ (s.swept nowNs).fired.map fun entry => entry.2.data.id &&& idMask
      then none else s.timerMap id := by
  have hfires := fires_map (s.swept nowNs).fired (s.afterSweep nowNs) id
  rw [advanceTo_snd]
  split
  · exact hfires
  · exact hfires

end

section

variable (h : s.Sound) (hcap : nowNs ≤ s.currentTime + kMaxAdvanceNs)
include h hcap

/-- The map knows a fired timer by its key. -/
theorem Sound.fired_ids :
    (s.swept nowNs).fired.map (fun entry => entry.2.data.id &&& idMask) =
      (s.swept nowNs).fired.map Prod.fst := by
  apply map_congr_left
  rintro ⟨timer, node⟩ hfired
  obtain ⟨first, hfirst, -, hkept⟩ := (look_eq_some kept).1
    (((h.swept_facts hcap).1).due timer node hfired).1
  exact (congrArg Prod.fst hkept).symm.trans (h.named timer first hfirst).1

theorem Sound.advanceTo_mapped (id timer : Nat) :
    (s.advanceTo nowNs).2.timerMap id = some timer ↔
      id = timer ∧ ∃ node, (s.swept nowNs).wheel.nodes timer = some node := by
  have hswept := (h.swept_facts hcap).1
  rw [advanceTo_map, h.fired_ids hcap]
  constructor
  · intro hmap
    split_ifs at hmap with hfired
    obtain ⟨rfl, node, hnode⟩ := (h.mapped id timer).1 hmap
    exact ⟨rfl, hswept.left hnode hfired⟩
  · rintro ⟨rfl, node, hnode⟩
    obtain ⟨first, hfirst, -⟩ := hswept.source hnode
    rw [if_neg (hswept.not_fired hnode)]
    exact (h.mapped id id).2 ⟨rfl, first, hfirst⟩

theorem Sound.advanceTo_deadline :
    Tracks (s.advanceTo nowNs).2.minDeadline (s.swept nowNs).wheel.expirySet := by
  have hswept := (h.swept_facts hcap).1
  have hwheel := Runs.foldl_keeps wheel fireTimer
    (fun _ _ => rfl) (s.swept nowNs).fired (s.afterSweep nowNs)
  have hgeometry := Runs.foldl_keeps geometry fireTimer
    (fun _ _ => rfl) (s.swept nowNs).fired (s.afterSweep nowNs)
  rw [advanceTo_snd]
  split
  · rename_i hempty
    have hnil : (s.swept nowNs).fired = [] := isEmpty_iff.mp hempty
    have hsame := expirySet_eq_of_look kept fun k =>
      hswept.kept k (by simp [hnil])
    rw [hsame, hnil]
    exact h.deadline
  · rw [recomputeMinDeadline_minDeadline, hwheel, hgeometry]
    exact earliest_tracks hswept.linked

theorem Sound.advanceTo : (s.advanceTo nowNs).2.Sound := by
  obtain ⟨hswept, hahead⟩ := h.swept_facts hcap
  refine ⟨?_, ?_, ?_, ?_, ?_, ?_, ?_⟩
  · have htick : (s.advanceTo nowNs).2.tickNs = s.tickNs :=
      advanceTo_keeps tickNs (fun _ _ => rfl) (fun _ => rfl) s nowNs
    rw [htick]
    exact h.turn
  · rw [advanceTo_geometry, advanceTo_wheel]
    exact hswept.linked
  · rw [advanceTo_geometry, advanceTo_wheel]
    exact hswept.onKey h.onKey
  · rw [advanceTo_wheel, advanceTo_clock]
    exact hahead
  · rw [advanceTo_wheel]
    exact h.advanceTo_mapped hcap
  · rw [advanceTo_wheel, advanceTo_nextTimerId]
    intro timer node hnode
    obtain ⟨first, hfirst, hkept⟩ := hswept.source hnode
    exact (h.named timer first hfirst).imp_left (congrArg Prod.fst hkept).symm.trans
  · rw [advanceTo_wheel]
    exact h.advanceTo_deadline hcap

end

theorem advance_idle (hnow : nowNs ≤ s.currentTime) : s.advance nowNs = ([], s) := by
  simp [advance, hnow]

theorem advance_moves (hnow : s.currentTime < nowNs) :
    s.advance nowNs = s.advanceTo (TimerPlaneShard.cappedNow s.currentTime nowNs) := by
  simp [advance, not_le.mpr hnow]

end

end

end TimingWheel

end HPActor
