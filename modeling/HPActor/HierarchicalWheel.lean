/-
A hierarchical timing wheel.  Timers sit in buckets on a few levels, each level
coarser than the one below by a constant factor; a bucket is chosen from the
absolute expiry, so a timer's place never depends on when it is looked at.  A
sweep from one clock reading to the next walks the buckets of every level that
the clock passed, takes out what is due and moves the rest one level down.

The wheel is generic in the key that names a timer and in the data a timer
carries.  What a sweep does is stated through the timers alone: the fired ones
are those that were due, and the others are still there.
-/
import Mathlib.Algebra.Group.Nat.Defs
import Mathlib.Data.List.Nodup
import Mathlib.Order.Bounds.Basic

namespace HierarchicalWheel

open Nat List

universe u v w

variable {K : Type u} {D : Type v} {V : Type w}

/-- The length of a tick, the number of buckets of a level and the number of
levels. -/
structure Geometry where
  tick : Nat
  size : Nat
  levels : Nat
  size_pos : 0 < size
  levels_pos : 0 < levels

namespace Geometry

variable (geo : Geometry)

/-- The time one turn of a level covers. -/
def range (level : Nat) : Nat :=
  geo.tick * geo.size ^ (level + 1)

/-- The finest level whose turn is longer than the distance, or the coarsest
level of all. -/
def levelFor (distance : Int) : Nat :=
  ((List.range geo.levels).find? fun level =>
    decide (distance < geo.range level)).getD (geo.levels - 1)

/-- The number of bucket widths of a level before a time. -/
def key (geo : Geometry) : Nat → Int → Nat
  | 0, time => time.toNat / geo.tick
  | level + 1, time => geo.key level time / geo.size

def bucket (level : Nat) (time : Int) : Nat :=
  geo.key level time % geo.size

/-- The buckets a level walks when the clock goes from `old` to `now`. -/
def window (old now : Int) (level : Nat) : List Nat :=
  let start := geo.bucket level old
  let stop := geo.bucket level now
  (List.range ((stop + geo.size - start) % geo.size + 1)).map fun i =>
    (start + i) % geo.size

variable (geo : Geometry)

theorem levelFor_lt (distance : Int) : geo.levelFor distance < geo.levels := by
  unfold levelFor
  cases hfind : (List.range geo.levels).find? fun level =>
      decide (distance < geo.range level) with
  | none =>
    have hpos := geo.levels_pos
    simp only [Option.getD_none]
    omega
  | some level =>
    have hmem := List.mem_of_find?_eq_some hfind
    simpa using hmem

theorem bucket_lt (level : Nat) (time : Int) : geo.bucket level time < geo.size :=
  mod_lt _ geo.size_pos

theorem key_mono (level : Nat) {a b : Int} (hab : a ≤ b) : geo.key level a ≤ geo.key level b := by
  induction level with
  | zero => exact Nat.div_le_div_right (Int.toNat_le_toNat hab)
  | succ level ih => exact Nat.div_le_div_right ih

/-- A coarser level never counts more bucket widths between two times. -/
theorem key_gap (level : Nat) {a b : Int} {gap : Nat} (hgap : geo.key 0 b ≤ geo.key 0 a + gap) :
    geo.key level b ≤ geo.key level a + gap := by
  induction level with
  | zero => exact hgap
  | succ level ih =>
    have hpos := geo.size_pos
    calc geo.key level b / geo.size ≤ (geo.key level a + geo.size * gap) / geo.size := by
          apply Nat.div_le_div_right
          exact ih.trans (Nat.add_le_add_left (Nat.le_mul_of_pos_left gap hpos) _)
      _ = geo.key level a / geo.size + gap := Nat.add_mul_div_left _ _ hpos

/-- A clock step shorter than a turn without one bucket stays within a turn of
the finest level. -/
theorem key_lt_turn (htick : 0 < geo.tick) {old now step : Int} (hnow : now ≤ old + step)
    (hstep : step < ((geo.size - 1) * geo.tick : Nat)) :
    geo.key 0 now < geo.key 0 old + geo.size := by
  obtain ⟨rest, hrest⟩ := Nat.exists_eq_add_of_le' geo.size_pos
  have hlt := Nat.lt_div_mul_add (a := old.toNat) htick
  show now.toNat / geo.tick < old.toNat / geo.tick + geo.size
  rw [Nat.div_lt_iff_lt_mul htick, hrest, Nat.add_mul, Nat.add_mul]
  rw [hrest, Nat.add_sub_cancel] at hstep
  omega

end Geometry

theorem window_length {size start gap : Nat} (hgap : gap < size) :
    ((start + gap) % size + size - start % size) % size = gap := by
  have hstart : start % size < size := mod_lt _ (by omega)
  rw [add_mod, mod_eq_of_lt hgap]
  by_cases hturn : start % size + gap < size
  · rw [mod_eq_of_lt hturn]
    have hback : start % size + gap + size - start % size = gap + size := by
      omega
    rw [hback, add_mod_right, mod_eq_of_lt hgap]
  · have hwrap : (start % size + gap) % size = start % size + gap - size := by
      rw [mod_eq_sub_mod (by omega), mod_eq_of_lt (by omega)]
    have hback : start % size + gap - size + size - start % size = gap := by
      omega
    rw [hwrap, hback, mod_eq_of_lt hgap]

/-- Every expiry between the two clock readings has its bucket in the window of
every level, as long as the clock passes less than one turn of the finest
level. -/
theorem Geometry.mem_window (geo : Geometry) {old expire now : Int} (level : Nat)
    (hold : old ≤ expire) (hnow : expire ≤ now) (hturn : geo.key 0 now < geo.key 0 old + geo.size) :
    geo.bucket level expire ∈ geo.window old now level := by
  have hpos := geo.size_pos
  obtain ⟨gap, hgap⟩ := Nat.exists_eq_add_of_le (geo.key_mono level (hold.trans hnow))
  obtain ⟨step, hstep⟩ := Nat.exists_eq_add_of_le (geo.key_mono level hold)
  have hstepGap : step ≤ gap := by
    have := geo.key_mono level hnow
    omega
  have hgapSize : gap < geo.size := by
    have hle : geo.key 0 now ≤ geo.key 0 old + (geo.size - 1) := by omega
    have := geo.key_gap level hle
    omega
  simp only [window, mem_map, mem_range]
  refine ⟨step, ?_, ?_⟩
  · simp only [bucket, hgap, window_length hgapSize]
    omega
  · simp only [bucket, hstep, Nat.mod_add_mod]

/-- A timer of the wheel: when it is due, where it is linked, what it is for. -/
structure Node (D : Type v) where
  expire : Int
  level : Nat
  bucket : Nat
  data : D

/-- The timers by key, and the keys linked in each bucket of each level. -/
structure Wheel (K : Type u) (D : Type v) where
  nodes : K → Option (Node D)
  buckets : Nat → Nat → List K

namespace Wheel

def empty : Wheel K D := ⟨fun _ => none, fun _ _ => []⟩

/-- The expiries of everything that is linked, bucket by bucket. -/
def expiries (geo : Geometry) (wheel : Wheel K D) : List Int :=
  (List.range geo.levels).flatMap fun level =>
    (List.range geo.size).flatMap fun bucket =>
      (wheel.buckets level bucket).filterMap fun k =>
        (wheel.nodes k).map Node.expire

/-- The earliest expiry found by walking every bucket. -/
def earliest (geo : Geometry) (wheel : Wheel K D) : Option Int :=
  (wheel.expiries geo).min?

/-- What is known of a timer apart from its place. -/
def look (view : D → V) (wheel : Wheel K D) (k : K) : Option (Int × V) :=
  (wheel.nodes k).map fun node => (node.expire, view node.data)

def setBucket (wheel : Wheel K D) (level bucket : Nat) (keys : List K) : Wheel K D :=
  { wheel with
    buckets := fun l b =>
      if l = level ∧ b = bucket then keys else wheel.buckets l b }

section

variable [DecidableEq K] (wheel : Wheel K D)

def setNode (k : K) (node : Option (Node D)) : Wheel K D :=
  { wheel with
    nodes := fun other => if other = k then node else wheel.nodes other }

/-- Link a timer at the end of the bucket its node names. -/
def attach (k : K) (node : Node D) : Wheel K D :=
  (wheel.setNode k (some node)).setBucket node.level node.bucket
    (wheel.buckets node.level node.bucket ++ [k])

/-- Unlink a timer from a bucket and forget it. -/
def take (level bucket : Nat) (k : K) : Wheel K D :=
  (wheel.setNode k none).setBucket level bucket ((wheel.buckets level bucket).erase k)

/-- Place a timer by the time `placed` as seen from `now`; its own expiry is
`expire`. -/
def insert (geo : Geometry) (wheel : Wheel K D) (k : K) (data : D)
    (expire placed now : Int) : Wheel K D :=
  let level := geo.levelFor (placed - now)
  wheel.attach k ⟨expire, level, geo.bucket level placed, data⟩

@[simp] theorem setNode_nodes_self (k : K)
    (node : Option (Node D)) : (wheel.setNode k node).nodes k = node := by
  simp [setNode]

variable {k other : K} (wheel : Wheel K D)

theorem setNode_nodes_of_ne (node : Option (Node D)) (hne : other ≠ k) :
    (wheel.setNode k node).nodes other = wheel.nodes other := by
  simp [setNode, hne]

@[simp] theorem attach_nodes_self (k : K) (node : Node D) :
    (wheel.attach k node).nodes k = some node :=
  setNode_nodes_self wheel k (some node)

theorem attach_nodes_of_ne (node : Node D) (hne : other ≠ k) :
    (wheel.attach k node).nodes other = wheel.nodes other :=
  setNode_nodes_of_ne wheel (some node) hne

@[simp] theorem take_nodes_self (level bucket : Nat) (k : K) :
    (wheel.take level bucket k).nodes k = none :=
  setNode_nodes_self wheel k none

theorem take_nodes_of_ne (level bucket : Nat) (hne : other ≠ k) :
    (wheel.take level bucket k).nodes other = wheel.nodes other :=
  setNode_nodes_of_ne wheel none hne

/-- What is left of a wheel that a node was taken from. -/
theorem take_nodes_some {wheel : Wheel K D} {level bucket : Nat} {found : Node D}
    (hfound : (wheel.take level bucket k).nodes other = some found) :
    other ≠ k ∧ wheel.nodes other = some found := by
  by_cases heq : other = k
  · simp [heq] at hfound
  · exact ⟨heq, by rwa [take_nodes_of_ne _ _ _ heq] at hfound⟩

theorem attach_buckets (k : K) (node : Node D) (l b : Nat) :
    (wheel.attach k node).buckets l b =
      if l = node.level ∧ b = node.bucket then wheel.buckets l b ++ [k]
      else wheel.buckets l b := by
  by_cases hplace : l = node.level ∧ b = node.bucket
  · obtain ⟨rfl, rfl⟩ := hplace
    simp [attach, setBucket]
  · simp [attach, setBucket, setNode, hplace]

theorem take_buckets (level bucket : Nat) (k : K) (l b : Nat) :
    (wheel.take level bucket k).buckets l b =
      if l = level ∧ b = bucket then (wheel.buckets l b).erase k
      else wheel.buckets l b := by
  by_cases hplace : l = level ∧ b = bucket
  · obtain ⟨rfl, rfl⟩ := hplace
    simp [take, setBucket]
  · simp [take, setBucket, setNode, hplace]

theorem mem_attach (k other : K) (node : Node D) (l b : Nat) :
    other ∈ (wheel.attach k node).buckets l b ↔ other ∈ wheel.buckets l b ∨
        (l = node.level ∧ b = node.bucket) ∧ other = k := by
  rw [attach_buckets]
  by_cases hplace : l = node.level ∧ b = node.bucket
  · simp [hplace]
  · simp [hplace]

end

/-- Timers and buckets agree: a timer is linked once, in the bucket its node
names, and nothing else is linked. -/
structure Linked (geo : Geometry) (wheel : Wheel K D) : Prop where
  placed : ∀ k node, wheel.nodes k = some node → node.level < geo.levels ∧ node.bucket < geo.size ∧
      k ∈ wheel.buckets node.level node.bucket
  known : ∀ level bucket k, k ∈ wheel.buckets level bucket →
    ∃ node, wheel.nodes k = some node ∧ node.level = level ∧ node.bucket = bucket
  nodup : ∀ level bucket, (wheel.buckets level bucket).Nodup

/-- Every timer is in the bucket of its own expiry. -/
def OnKey (geo : Geometry) (wheel : Wheel K D) : Prop :=
  ∀ k node, wheel.nodes k = some node → node.bucket = geo.bucket node.level node.expire

/-- No timer is due at the time. -/
def Ahead (clock : Int) (wheel : Wheel K D) : Prop :=
  ∀ k node, wheel.nodes k = some node → clock < node.expire

theorem empty_linked (geo : Geometry) : (empty : Wheel K D).Linked geo where
  placed := by simp [empty]
  known := by simp [empty]
  nodup := by simp [empty]

theorem empty_onKey (geo : Geometry) : (empty : Wheel K D).OnKey geo := by
  simp [OnKey, empty]

section

variable {geo : Geometry} {wheel : Wheel K D} {k : K}

theorem Linked.not_mem_of_none (hlinked : wheel.Linked geo)
    (hnone : wheel.nodes k = none) (level bucket : Nat) :
    k ∉ wheel.buckets level bucket := by
  intro hmem
  obtain ⟨node, hnode, -, -⟩ := hlinked.known level bucket k hmem
  rw [hnone] at hnode
  cases hnode

variable [DecidableEq K]

theorem Linked.attach (hlinked : wheel.Linked geo) {node : Node D}
    (hnone : wheel.nodes k = none) (hlevel : node.level < geo.levels)
    (hbucket : node.bucket < geo.size) : (wheel.attach k node).Linked geo where
  placed := by
    intro other found hfound
    rw [mem_attach]
    by_cases heq : other = k
    · rw [heq, attach_nodes_self, Option.some.injEq] at hfound
      subst hfound
      exact ⟨hlevel, hbucket, .inr ⟨⟨rfl, rfl⟩, heq⟩⟩
    · rw [attach_nodes_of_ne _ _ heq] at hfound
      obtain ⟨hl, hb, hmem⟩ := hlinked.placed other found hfound
      exact ⟨hl, hb, .inl hmem⟩
  known := by
    intro l b other hmem
    rw [mem_attach] at hmem
    rcases hmem with hmem | ⟨⟨rfl, rfl⟩, rfl⟩
    · have hne : other ≠ k := by
        intro heq
        exact hlinked.not_mem_of_none hnone l b (heq ▸ hmem)
      rw [attach_nodes_of_ne _ _ hne]
      exact hlinked.known l b other hmem
    · exact ⟨node, attach_nodes_self _ _ _, rfl, rfl⟩
  nodup := by
    intro l b
    rw [attach_buckets]
    split
    · rw [← concat_eq_append]
      exact (hlinked.nodup l b).concat (hlinked.not_mem_of_none hnone l b)
    · exact hlinked.nodup l b

/-- A linked timer is taken out of the one bucket that has it. -/
theorem Linked.mem_take (hlinked : wheel.Linked geo) {level bucket : Nat}
    (hk : k ∈ wheel.buckets level bucket) (other : K) (l b : Nat) :
    other ∈ (wheel.take level bucket k).buckets l b ↔ other ≠ k ∧ other ∈ wheel.buckets l b := by
  rw [take_buckets]
  by_cases hplace : l = level ∧ b = bucket
  · rw [if_pos hplace]
    exact (hlinked.nodup l b).mem_erase_iff
  · rw [if_neg hplace]
    constructor
    · intro hmem
      refine ⟨?_, hmem⟩
      rintro rfl
      obtain ⟨node, hnode, rfl, rfl⟩ := hlinked.known level bucket other hk
      obtain ⟨node', hnode', rfl, rfl⟩ := hlinked.known l b other hmem
      rw [hnode, Option.some.injEq] at hnode'
      subst hnode'
      exact hplace ⟨rfl, rfl⟩
    · exact And.right

theorem Linked.take (hlinked : wheel.Linked geo) {level bucket : Nat}
    (hk : k ∈ wheel.buckets level bucket) :
    (wheel.take level bucket k).Linked geo where
  placed := by
    intro other node hnode
    obtain ⟨hne, hold⟩ := take_nodes_some hnode
    obtain ⟨hl, hb, hmem⟩ := hlinked.placed other node hold
    exact ⟨hl, hb, (hlinked.mem_take hk other _ _).2 ⟨hne, hmem⟩⟩
  known := by
    intro l b other hmem
    obtain ⟨hne, hold⟩ := (hlinked.mem_take hk other l b).1 hmem
    rw [take_nodes_of_ne _ _ _ hne]
    exact hlinked.known l b other hold
  nodup := by
    intro l b
    rw [take_buckets]
    split
    · exact (hlinked.nodup l b).erase k
    · exact hlinked.nodup l b

theorem OnKey.attach (hkey : wheel.OnKey geo) {node : Node D}
    (hnode : node.bucket = geo.bucket node.level node.expire) :
    (wheel.attach k node).OnKey geo := by
  intro other found hfound
  by_cases heq : other = k
  · rw [heq, attach_nodes_self, Option.some.injEq] at hfound
    exact hfound ▸ hnode
  · rw [attach_nodes_of_ne _ _ heq] at hfound
    exact hkey other found hfound

theorem OnKey.take (hkey : wheel.OnKey geo) (level bucket : Nat) (k : K) :
    (wheel.take level bucket k).OnKey geo := by
  intro other node hnode
  exact hkey other node (take_nodes_some hnode).2

theorem Linked.insert (hlinked : wheel.Linked geo)
    (hnone : wheel.nodes k = none) (data : D) (expire placed now : Int) :
    (wheel.insert geo k data expire placed now).Linked geo :=
  hlinked.attach hnone (geo.levelFor_lt _) (geo.bucket_lt _ _)

/-- A timer placed by its own expiry is on its key. -/
theorem OnKey.insert (hkey : wheel.OnKey geo) (k : K) (data : D)
    (expire now : Int) : (wheel.insert geo k data expire expire now).OnKey geo :=
  hkey.attach rfl

end

/-! The view of a wheel as a table from keys to expiries. -/

section

variable (view : D → V) {wheel : Wheel K D}

theorem look_eq_none {k : K} : wheel.look view k = none ↔ wheel.nodes k = none := by
  simp [look]

theorem look_eq_some {k : K} {expire : Int} {seen : V} :
    wheel.look view k = some (expire, seen) ↔
      ∃ node, wheel.nodes k = some node ∧ node.expire = expire ∧ view node.data = seen := by
  simp [look]

theorem look_attach [DecidableEq K] (wheel : Wheel K D) (k other : K) (node : Node D) :
    (wheel.attach k node).look view other =
      if other = k then some (node.expire, view node.data)
      else wheel.look view other := by
  by_cases heq : other = k
  · simp [look, heq]
  · simp [look, heq, attach_nodes_of_ne]

theorem look_take [DecidableEq K] (wheel : Wheel K D) (level bucket : Nat) (k other : K) :
    (wheel.take level bucket k).look view other =
      if other = k then none else wheel.look view other := by
  by_cases heq : other = k
  · simp [look, heq]
  · simp [look, heq, take_nodes_of_ne]

end

/-- The expiries of the timers in the wheel. -/
def expirySet (wheel : Wheel K D) : Set Int :=
  { x | ∃ k node, wheel.nodes k = some node ∧ node.expire = x }

theorem mem_expirySet (view : D → V) (wheel : Wheel K D) (x : Int) :
    x ∈ wheel.expirySet ↔ ∃ k seen, wheel.look view k = some (x, seen) := by
  constructor
  · rintro ⟨k, node, hnode, rfl⟩
    exact ⟨k, view node.data, (look_eq_some view).2 ⟨node, hnode, rfl, rfl⟩⟩
  · rintro ⟨k, seen, hlook⟩
    obtain ⟨node, hnode, hx, -⟩ := (look_eq_some view).1 hlook
    exact ⟨k, node, hnode, hx⟩

theorem expirySet_eq_of_look (view : D → V) {a b : Wheel K D}
    (hlook : ∀ k, a.look view k = b.look view k) :
    a.expirySet = b.expirySet := by
  ext x
  rw [mem_expirySet view, mem_expirySet view]
  simp only [hlook]

variable {wheel : Wheel K D}

theorem mem_expiries {geo : Geometry} (hlinked : wheel.Linked geo) (x : Int) :
    x ∈ wheel.expiries geo ↔ x ∈ wheel.expirySet := by
  simp only [expiries, mem_flatMap, mem_range, mem_filterMap, Option.map_eq_some_iff]
  constructor
  · rintro ⟨level, -, bucket, -, k, -, node, hnode, hx⟩
    exact ⟨k, node, hnode, hx⟩
  · rintro ⟨k, node, hnode, hx⟩
    obtain ⟨hlevel, hbucket, hmem⟩ := hlinked.placed k node hnode
    exact ⟨node.level, hlevel, node.bucket, hbucket, k, hmem, node, hnode, hx⟩

theorem expirySet_attach [DecidableEq K] {k : K} (hnone : wheel.nodes k = none) (node : Node D) :
    (wheel.attach k node).expirySet = Insert.insert node.expire wheel.expirySet := by
  ext x
  simp only [expirySet, Set.mem_ofPred_eq, Set.mem_insert_iff]
  constructor
  · rintro ⟨other, found, hfound, rfl⟩
    by_cases heq : other = k
    · rw [heq, attach_nodes_self, Option.some.injEq] at hfound
      exact .inl (hfound ▸ rfl)
    · rw [attach_nodes_of_ne _ _ heq] at hfound
      exact .inr ⟨other, found, hfound, rfl⟩
  · rintro (rfl | ⟨other, found, hfound, rfl⟩)
    · exact ⟨k, node, attach_nodes_self _ _ _, rfl⟩
    · have hne : other ≠ k := by
        rintro rfl
        rw [hnone] at hfound
        cases hfound
      exact ⟨other, found, by rw [attach_nodes_of_ne _ _ hne, hfound], rfl⟩

theorem expirySet_insert [DecidableEq K] {geo : Geometry} {k : K}
    (hnone : wheel.nodes k = none) {data : D} {expire placed now : Int} :
    (wheel.insert geo k data expire placed now).expirySet = Insert.insert expire wheel.expirySet :=
  expirySet_attach hnone _

theorem empty_expirySet : (empty : Wheel K D).expirySet = ∅ := by
  ext x
  simp [expirySet, empty]

theorem expirySet_take_subset [DecidableEq K] (wheel : Wheel K D) (level bucket : Nat) (k : K) :
    (wheel.take level bucket k).expirySet ⊆ wheel.expirySet := by
  rintro x ⟨other, node, hnode, rfl⟩
  exact ⟨other, node, (take_nodes_some hnode).2, rfl⟩

theorem expirySet_subset_take [DecidableEq K] {k : K} {node : Node D}
    (hnode : wheel.nodes k = some node) (level bucket : Nat) :
    wheel.expirySet ⊆ Insert.insert node.expire (wheel.take level bucket k).expirySet := by
  rintro x ⟨other, found, hfound, rfl⟩
  by_cases heq : other = k
  · subst heq
    rw [hnode, Option.some.injEq] at hfound
    exact .inl (hfound ▸ rfl)
  · exact .inr ⟨other, found, by rw [take_nodes_of_ne _ _ _ heq, hfound], rfl⟩

end Wheel

/-- A cached minimum is exact: `none` stands for no element at all. -/
def Tracks : Option Int → Set Int → Prop
  | none, s => s = ∅
  | some x, s => IsLeast s x

/-- Lower a cached minimum to a new element. -/
def sooner (x : Int) : Option Int → Option Int
  | none => some x
  | some least => if x < least then some x else some least

/-- Whether an element may be the cached minimum. -/
def NotLater (x : Int) : Option Int → Prop
  | none => True
  | some least => x ≤ least

instance NotLater.decidable (x : Int) : ∀ least, Decidable (NotLater x least)
  | none => inferInstanceAs (Decidable True)
  | some least => inferInstanceAs (Decidable (x ≤ least))

namespace Tracks

variable {s : Set Int} {least : Option Int}

theorem unique {a b : Option Int} (ha : Tracks a s) (hb : Tracks b s) : a = b := by
  cases a with
  | none =>
    cases b with
    | none => rfl
    | some y =>
      have hempty : s = ∅ := ha
      have hy : y ∈ s := hb.1
      simp [hempty] at hy
  | some x =>
    cases b with
    | none =>
      have hempty : s = ∅ := hb
      have hx : x ∈ s := ha.1
      simp [hempty] at hx
    | some y => rw [IsLeast.unique ha hb]

theorem sooner (h : Tracks least s) (x : Int) : Tracks (sooner x least) (insert x s) := by
  cases least with
  | none =>
    have hempty : s = ∅ := h
    simp [sooner, Tracks, hempty]
  | some m =>
    have hinsert : IsLeast (insert x s) (min x m) := IsLeast.insert x h
    simp only [sooner]
    split
    · rwa [min_eq_left (by omega)] at hinsert
    · rwa [min_eq_right (by omega)] at hinsert

/-- Taking out an element above the minimum leaves the minimum. -/
theorem remove {rest : Set Int} {x : Int} (h : Tracks least s)
    (hlater : ¬ NotLater x least) (hsub : rest ⊆ s) (hcover : s ⊆ insert x rest) :
    Tracks least rest := by
  cases least with
  | none => exact absurd trivial hlater
  | some m =>
    have hlt : m < x := not_le.mp hlater
    refine ⟨?_, fun y hy => h.2 (hsub hy)⟩
    rcases hcover h.1 with heq | hmem
    · omega
    · exact hmem

theorem min? {xs : List Int} (hxs : ∀ x, x ∈ xs ↔ x ∈ s) : Tracks xs.min? s := by
  cases hmin : xs.min? with
  | none =>
    rw [min?_eq_none_iff] at hmin
    subst hmin
    exact Set.eq_empty_of_forall_notMem fun x hx => by simpa using (hxs x).2 hx
  | some m =>
    rw [min?_eq_some_iff] at hmin
    exact ⟨(hxs m).1 hmin.1, fun y hy => hmin.2 y ((hxs y).2 hy)⟩

/-- The minimum of a shifted set is the shifted minimum. -/
theorem shift (h : Tracks least s) (c : Int) : Tracks (least.map (c + ·)) ((c + ·) '' s) := by
  cases least with
  | none =>
    have hempty : s = ∅ := h
    simp [Tracks, hempty]
  | some m =>
    refine ⟨⟨m, h.1, rfl⟩, ?_⟩
    rintro y ⟨x, hx, rfl⟩
    have hle : m ≤ x := h.2 hx
    simpa using hle

end Tracks

theorem Wheel.earliest_tracks {geo : Geometry} {wheel : Wheel K D} (hlinked : wheel.Linked geo) :
    Tracks (wheel.earliest geo) wheel.expirySet :=
  Tracks.min? (Wheel.mem_expiries hlinked)

end HierarchicalWheel
