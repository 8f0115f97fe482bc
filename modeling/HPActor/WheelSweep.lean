/-
What a sweep of a hierarchical wheel does.  A due timer stays in its bucket until
the sweep comes by, because only timers that are not due are moved; the bucket is
in the window of whichever level the timer is on; so a sweep takes out every due
timer and no other.
-/
import HPActor.HierarchicalWheel

namespace HierarchicalWheel

open List Option Wheel

universe u v w

variable {K : Type u} {D : Type v} {V : Type w}

/-- A sweep under way: the wheel, and what was taken out of it so far. -/
structure Sweep (K : Type u) (D : Type v) where
  wheel : Wheel K D
  fired : List (K × Node D)

section

variable [DecidableEq K] (geo : Geometry) (relabel : Nat → D → D)

/-- One timer of the bucket being walked: fired if it is due, otherwise moved to
its bucket one level down, and left where it is on the finest level. -/
def visit (now : Int) (level bucket : Nat) (sweep : Sweep K D) (k : K) : Sweep K D :=
  match sweep.wheel.nodes k with
  | none => sweep
  | some node =>
    if node.expire ≤ now then
      ⟨sweep.wheel.take level bucket k, sweep.fired ++ [(k, node)]⟩
    else
      match level with
      | 0 => sweep
      | lower + 1 =>
        ⟨(sweep.wheel.take (lower + 1) bucket k).attach k
          ⟨node.expire, lower, geo.bucket lower node.expire, relabel lower node.data⟩,
          sweep.fired⟩

def sweepBucket (now : Int) (level : Nat) (sweep : Sweep K D) (bucket : Nat) : Sweep K D :=
  (sweep.wheel.buckets level bucket).foldl (visit geo relabel now level bucket) sweep

def sweepLevel (old now : Int) (sweep : Sweep K D) (level : Nat) : Sweep K D :=
  (geo.window old now level).foldl (sweepBucket geo relabel now level) sweep

/-- All levels, from the finest to the coarsest. -/
def sweep (old now : Int) (wheel : Wheel K D) : Sweep K D :=
  (List.range geo.levels).foldl (sweepLevel geo relabel old now) ⟨wheel, []⟩

end

/-- A due timer that is linked in a bucket. -/
def DueAt (now : Int) (wheel : Wheel K D) (level bucket : Nat) (k : K) : Prop :=
  k ∈ wheel.buckets level bucket ∧ ∃ node, wheel.nodes k = some node ∧ node.expire ≤ now

/-- No due timer turns up in a bucket it was not in before. -/
def Narrows (now : Int) (before after : Wheel K D) : Prop :=
  ∀ level bucket k, DueAt now after level bucket k → DueAt now before level bucket k

def Cleared (now : Int) (wheel : Wheel K D) (level bucket : Nat) : Prop :=
  ∀ k, ¬ DueAt now wheel level bucket k

theorem Narrows.refl (now : Int) (wheel : Wheel K D) : Narrows now wheel wheel :=
  fun _ _ _ hdue => hdue

theorem Narrows.trans {now : Int} {a b c : Wheel K D}
    (hab : Narrows now a b) (hbc : Narrows now b c) : Narrows now a c :=
  fun level bucket k hdue => hab level bucket k (hbc level bucket k hdue)

theorem Cleared.mono {now : Int} {before after : Wheel K D} {level bucket : Nat}
    (hclear : Cleared now before level bucket)
    (hnarrow : Narrows now before after) : Cleared now after level bucket :=
  fun k hdue => hclear k (hnarrow level bucket k hdue)

/-- What a sweep under way has done to the wheel it began with: the fired timers
were due and are gone, all others are as they were up to their place. -/
structure Swept (geo : Geometry) (view : D → V) (now : Int)
    (start : Wheel K D) (sweep : Sweep K D) : Prop where
  linked : sweep.wheel.Linked geo
  onKey : start.OnKey geo → sweep.wheel.OnKey geo
  nodup : (sweep.fired.map Prod.fst).Nodup
  due : ∀ k node, (k, node) ∈ sweep.fired →
    start.look view k = some (node.expire, view node.data) ∧ node.expire ≤ now
  gone : ∀ k node, (k, node) ∈ sweep.fired → sweep.wheel.look view k = none
  kept : ∀ k, k ∉ sweep.fired.map Prod.fst → sweep.wheel.look view k = start.look view k

/-- A fold that reaches a lasting goal for each element it passes. -/
theorem foldl_achieves {S A : Type*} {f : S → A → S} (inv : S → Prop) (rel : S → S → Prop)
    (goal : A → S → Prop) (hrefl : ∀ s, rel s s) (htrans : ∀ {a b c}, rel a b → rel b c → rel a c)
    (hlasts : ∀ {a s t}, goal a s → rel s t → goal a t)
    (hstep : ∀ s a, inv s → inv (f s a) ∧ rel s (f s a) ∧ goal a (f s a)) (items : List A) (s : S)
    (hs : inv s) :
    inv (items.foldl f s) ∧ rel s (items.foldl f s) ∧ ∀ a ∈ items, goal a (items.foldl f s) := by
  induction items generalizing s with
  | nil => exact ⟨hs, hrefl s, by simp⟩
  | cons item rest ih =>
    obtain ⟨hinv, hrel, hgoal⟩ := hstep s item hs
    obtain ⟨hinv', hrel', hgoals⟩ := ih (f s item) hinv
    refine ⟨hinv', htrans hrel hrel', ?_⟩
    intro a ha
    rcases mem_cons.mp ha with rfl | ha
    · exact hlasts hgoal hrel'
    · exact hgoals a ha

section

variable {geo : Geometry} {view : D → V} {now : Int} {start : Wheel K D} {sweep : Sweep K D}
  {relabel : Nat → D → D} {k : K} {node : Node D} {wheel : Wheel K D} {bucket level : Nat}
  {old : Int}

theorem Swept.not_fired (h : Swept geo view now start sweep)
    (hnode : sweep.wheel.nodes k = some node) :
    k ∉ sweep.fired.map Prod.fst := by
  intro hmem
  obtain ⟨⟨k', fired⟩, hfired, rfl⟩ := mem_map.mp hmem
  have hgone := h.gone k' fired hfired
  rw [look_eq_none, hnode] at hgone
  cases hgone

/-- A node that is left was there before. -/
theorem Swept.source (h : Swept geo view now start sweep)
    (hnode : sweep.wheel.nodes k = some node) :
    ∃ first, start.nodes k = some first ∧ view first.data = view node.data := by
  have hlook := (look_eq_some view).2 ⟨node, hnode, rfl, rfl⟩
  rw [h.kept k (h.not_fired hnode)] at hlook
  obtain ⟨first, hfirst, -, hview⟩ := (look_eq_some view).1 hlook
  exact ⟨first, hfirst, hview⟩

/-- A node that is not fired is left. -/
theorem Swept.left (h : Swept geo view now start sweep) (hnode : start.nodes k = some node)
    (hk : k ∉ sweep.fired.map Prod.fst) :
    ∃ rest, sweep.wheel.nodes k = some rest := by
  have hlook := (look_eq_some view).2 ⟨node, hnode, rfl, rfl⟩
  rw [← h.kept k hk] at hlook
  obtain ⟨rest, hrest, -, -⟩ := (look_eq_some view).1 hlook
  exact ⟨rest, hrest⟩

theorem Swept.begin (hlinked : wheel.Linked geo) : Swept geo view now wheel ⟨wheel, []⟩ where
  linked := hlinked
  onKey := id
  nodup := nodup_nil
  due := by simp
  gone := by simp
  kept := fun _ _ => rfl

variable [DecidableEq K]

section

variable (hview : ∀ level data, view (relabel level data) = view data)

theorem Swept.fire (h : Swept geo view now start sweep) (hk : k ∈ sweep.wheel.buckets level bucket)
    (hnode : sweep.wheel.nodes k = some node) (hdue : node.expire ≤ now) :
    Swept geo view now start ⟨sweep.wheel.take level bucket k, sweep.fired ++ [(k, node)]⟩ where
  linked := h.linked.take hk
  onKey := fun hkey => (h.onKey hkey).take level bucket k
  nodup := by
    rw [map_append, map_singleton, ← concat_eq_append]
    exact h.nodup.concat (h.not_fired hnode)
  due := by
    intro other found hfound
    rcases mem_append.mp hfound with hold | hnew
    · exact h.due other found hold
    · obtain ⟨rfl, rfl⟩ := Prod.mk.injEq .. ▸ mem_singleton.mp hnew
      rw [← h.kept other (h.not_fired hnode)]
      exact ⟨(look_eq_some view).2 ⟨found, hnode, rfl, rfl⟩, hdue⟩
  gone := by
    intro other found hfound
    rw [look_take]
    split
    · rfl
    · rename_i hne
      rcases mem_append.mp hfound with hold | hnew
      · exact h.gone other found hold
      · exact absurd (congrArg Prod.fst (mem_singleton.mp hnew)) hne
  kept := by
    intro other hother
    rw [map_append, mem_append, not_or] at hother
    have hne : other ≠ k := by simpa using hother.2
    rw [look_take, if_neg hne]
    exact h.kept other hother.1

include hview in
theorem Swept.cascade (h : Swept geo view now start sweep) {lower : Nat}
    (hk : k ∈ sweep.wheel.buckets (lower + 1) bucket) (hnode : sweep.wheel.nodes k = some node) :
    Swept geo view now start
      ⟨(sweep.wheel.take (lower + 1) bucket k).attach k
        ⟨node.expire, lower, geo.bucket lower node.expire,
          relabel lower node.data⟩, sweep.fired⟩ where
  linked := by
    apply (h.linked.take hk).attach (take_nodes_self _ _ _ _)
    · obtain ⟨found, hfound, hlevel, -⟩ := h.linked.known _ _ _ hk
      have hlt := (h.linked.placed k found hfound).1
      show lower < geo.levels
      omega
    · exact geo.bucket_lt lower node.expire
  onKey := fun hkey => ((h.onKey hkey).take _ _ _).attach rfl
  nodup := h.nodup
  due := h.due
  gone := by
    intro other found hfound
    have hne : other ≠ k := by
      rintro rfl
      exact h.not_fired hnode (mem_map.mpr ⟨_, hfound, rfl⟩)
    rw [look_attach, if_neg hne, look_take, if_neg hne]
    exact h.gone other found hfound
  kept := by
    intro other hother
    rw [look_attach, look_take]
    split
    · rename_i heq
      rw [heq, ← h.kept k (h.not_fired hnode), hview]
      exact ((look_eq_some view).2 ⟨node, hnode, rfl, rfl⟩).symm
    · exact h.kept other hother

theorem narrows_take (hlinked : sweep.wheel.Linked geo)
    (hk : k ∈ sweep.wheel.buckets level bucket) :
    Narrows now sweep.wheel (sweep.wheel.take level bucket k) := by
  rintro l b other ⟨hmem, node, hnode, hdue⟩
  obtain ⟨hne, hold⟩ := (hlinked.mem_take hk other l b).1 hmem
  rw [take_nodes_of_ne _ _ _ hne] at hnode
  exact ⟨hold, node, hnode, hdue⟩

theorem narrows_attach (k : K) (hlate : now < node.expire) :
    Narrows now wheel (wheel.attach k node) := by
  rintro l b other ⟨hmem, found, hfound, hdue⟩
  by_cases heq : other = k
  · rw [heq, Wheel.attach_nodes_self, some.injEq] at hfound
    subst hfound
    omega
  · rw [Wheel.attach_nodes_of_ne _ _ heq] at hfound
    rw [Wheel.mem_attach] at hmem
    rcases hmem with hold | ⟨-, hother⟩
    · exact ⟨hold, found, hfound, hdue⟩
    · exact absurd hother heq

/-- The visited timer is fired, or it is not due; in either case it is no longer
due anywhere, and the other timers of the bucket are still there. -/
structure Visited (geo : Geometry) (view : D → V) (now : Int)
    (start : Wheel K D) (level bucket : Nat) (k : K)
    (before after : Sweep K D) : Prop where
  swept : Swept geo view now start after
  narrows : Narrows now before.wheel after.wheel
  settled : ∀ l b, ¬ DueAt now after.wheel l b k
  others : ∀ other, other ≠ k → other ∈ before.wheel.buckets level bucket →
    other ∈ after.wheel.buckets level bucket

include hview

open Narrows

theorem visit_visited (h : Swept geo view now start sweep)
    (hk : k ∈ sweep.wheel.buckets level bucket) :
    Visited geo view now start level bucket k sweep
      (visit geo relabel now level bucket sweep k) := by
  obtain ⟨node, hnode, -, -⟩ := h.linked.known level bucket k hk
  simp only [visit, hnode]
  by_cases hdue : node.expire ≤ now
  · rw [if_pos hdue]
    refine ⟨h.fire hk hnode hdue, narrows_take h.linked hk, ?_, ?_⟩
    · rintro l b ⟨-, found, hfound, -⟩
      simp at hfound
    · intro other hne hother
      exact (h.linked.mem_take hk other level bucket).2 ⟨hne, hother⟩
  · rw [if_neg hdue]
    cases level with
    | zero =>
      refine ⟨h, refl now _, ?_, fun other _ hother => hother⟩
      rintro l b ⟨-, found, hfound, hfoundDue⟩
      rw [hnode, some.injEq] at hfound
      subst hfound
      exact hdue hfoundDue
    | succ lower =>
      refine ⟨h.cascade hview hk hnode, ?_, ?_, ?_⟩
      · exact (narrows_take h.linked hk).trans (narrows_attach k (not_le.mp hdue))
      · rintro l b ⟨-, found, hfound, hfoundDue⟩
        rw [Wheel.attach_nodes_self, some.injEq] at hfound
        subst hfound
        exact hdue hfoundDue
      · intro other hne hother
        rw [Wheel.mem_attach]
        exact .inl ((h.linked.mem_take hk other _ _).2 ⟨hne, hother⟩)

/-- The timers still to be visited are in the bucket, and no other timer of the
bucket is due. -/
theorem visits_spec (keys : List K) (hkeys : keys.Nodup) (h : Swept geo view now start sweep)
    (hin : ∀ k ∈ keys, k ∈ sweep.wheel.buckets level bucket)
    (hrest : ∀ k, DueAt now sweep.wheel level bucket k → k ∈ keys) :
    Swept geo view now start (keys.foldl (visit geo relabel now level bucket) sweep) ∧
      Narrows now sweep.wheel (keys.foldl (visit geo relabel now level bucket) sweep).wheel ∧
      Cleared now (keys.foldl (visit geo relabel now level bucket) sweep).wheel level bucket := by
  induction keys generalizing sweep with
  | nil =>
    refine ⟨h, refl now _, ?_⟩
    intro k hdue
    exact not_mem_nil (hrest k hdue)
  | cons k rest ih =>
    obtain ⟨hfresh, hnodup⟩ := nodup_cons.mp hkeys
    have hvisit := visit_visited hview h (hin k mem_cons_self)
    have hin' : ∀ other ∈ rest, other ∈
        (visit geo relabel now level bucket sweep k).wheel.buckets level
          bucket := by
      intro other hother
      apply hvisit.others other
      · rintro rfl
        exact hfresh hother
      · exact hin other (mem_cons_of_mem _ hother)
    have hrest' : ∀ other, DueAt now (visit geo relabel now level bucket sweep k).wheel level bucket
          other → other ∈ rest := by
      intro other hdue
      have hmem := hrest other (hvisit.narrows level bucket other hdue)
      rcases mem_cons.mp hmem with rfl | hmem
      · exact absurd hdue (hvisit.settled level bucket)
      · exact hmem
    obtain ⟨hswept, hnarrow, hclear⟩ := ih hnodup hvisit.swept hin' hrest'
    exact ⟨hswept, hvisit.narrows.trans hnarrow, hclear⟩

theorem sweepBucket_spec (h : Swept geo view now start sweep) (level bucket : Nat) :
    Swept geo view now start (sweepBucket geo relabel now level sweep bucket) ∧
      Narrows now sweep.wheel (sweepBucket geo relabel now level sweep bucket).wheel ∧
      Cleared now (sweepBucket geo relabel now level sweep bucket).wheel level bucket :=
  visits_spec hview _ (h.linked.nodup level bucket) h (fun _ hk => hk) (fun _ hdue => hdue.1)

theorem sweepLevel_spec (h : Swept geo view now start sweep) (old : Int) (level : Nat) :
    Swept geo view now start (sweepLevel geo relabel old now sweep level) ∧ Narrows now sweep.wheel
        (sweepLevel geo relabel old now sweep level).wheel ∧
      ∀ bucket ∈ geo.window old now level,
        Cleared now (sweepLevel geo relabel old now sweep level).wheel level bucket :=
  foldl_achieves (Swept geo view now start) (fun s t : Sweep K D => Narrows now s.wheel t.wheel)
    (fun bucket s => Cleared now s.wheel level bucket)
    (fun s => refl now s.wheel) trans Cleared.mono
    (fun _ bucket hs => sweepBucket_spec hview hs level bucket)
    (geo.window old now level) sweep h

variable (hlinked : wheel.Linked geo)

include hlinked

theorem sweep_swept (old now : Int) :
    Swept geo view now wheel (HierarchicalWheel.sweep geo relabel old now wheel) ∧
      ∀ level < geo.levels, ∀ bucket ∈ geo.window old now level,
        Cleared now (HierarchicalWheel.sweep geo relabel old now wheel).wheel level bucket := by
  obtain ⟨hswept, -, hclear⟩ := foldl_achieves (Swept geo view now wheel)
    (fun s t : Sweep K D => Narrows now s.wheel t.wheel)
    (fun level s => ∀ bucket ∈ geo.window old now level, Cleared now s.wheel level bucket)
    (fun s => refl now s.wheel) trans
    (fun hgoal hrel bucket hbucket => (hgoal bucket hbucket).mono hrel)
    (fun _ level hs => sweepLevel_spec hview hs old level)
    (List.range geo.levels) ⟨wheel, []⟩ (Swept.begin hlinked)
  exact ⟨hswept, fun level hlevel => hclear level (mem_range.mpr hlevel)⟩

variable (hkey : wheel.OnKey geo) (hahead : wheel.Ahead old)
  (hturn : geo.key 0 now < geo.key 0 old + geo.size)

include hkey hahead hturn

/-- Nothing due is left behind: a due timer would sit in a bucket of the window
of its level. -/
theorem sweep_leaves_later :
    (HierarchicalWheel.sweep geo relabel old now wheel).wheel.Ahead now := by
  obtain ⟨hswept, hclear⟩ := sweep_swept hview hlinked old now
  intro k node hnode
  by_contra hlate
  have hdue : node.expire ≤ now := not_lt.mp hlate
  obtain ⟨hlevel, -, hmem⟩ := hswept.linked.placed k node hnode
  have hstart : wheel.look view k = some (node.expire, view node.data) := by
    rw [← hswept.kept k (hswept.not_fired hnode)]
    exact (look_eq_some view).2 ⟨node, hnode, rfl, rfl⟩
  obtain ⟨first, hfirst, hexpire, -⟩ := (look_eq_some view).1 hstart
  have hold : old < node.expire := hexpire ▸ hahead k first hfirst
  have hwindow := geo.mem_window node.level hold.le hdue hturn
  rw [← hswept.onKey hkey k node hnode] at hwindow
  exact hclear node.level hlevel node.bucket hwindow k ⟨hmem, node, hnode, hdue⟩

/-- A sweep fires exactly the timers that are due. -/
theorem sweep_fired_iff (k : K) (expire : Int) (seen : V) :
    (∃ node, (k, node) ∈ (HierarchicalWheel.sweep geo relabel old now wheel).fired ∧
        node.expire = expire ∧ view node.data = seen) ↔
      wheel.look view k = some (expire, seen) ∧ expire ≤ now := by
  have hswept := (sweep_swept hview hlinked old now).1
  constructor
  · rintro ⟨node, hfired, rfl, rfl⟩
    exact hswept.due k node hfired
  · rintro ⟨hlook, hdue⟩
    have hmem : k ∈ (HierarchicalWheel.sweep geo relabel old now wheel).fired.map Prod.fst := by
      by_contra hnot
      rw [← hswept.kept k hnot] at hlook
      obtain ⟨node, hnode, rfl, -⟩ := (look_eq_some view).1 hlook
      have hlater := sweep_leaves_later hview hlinked hkey hahead hturn k node hnode
      omega
    obtain ⟨⟨k', node⟩, hfired, rfl⟩ := mem_map.mp hmem
    have hnode := (hswept.due k' node hfired).1
    rw [hlook, some.injEq, Prod.mk.injEq] at hnode
    exact ⟨node, hfired, hnode.1.symm, hnode.2.symm⟩

/-- What a sweep leaves are exactly the timers that are not due. -/
theorem sweep_look (k : K) (expire : Int) (seen : V) :
    (HierarchicalWheel.sweep geo relabel old now wheel).wheel.look view k = some (expire, seen) ↔
      wheel.look view k = some (expire, seen) ∧ now < expire := by
  have hswept := (sweep_swept hview hlinked old now).1
  constructor
  · intro hlook
    obtain ⟨node, hnode, rfl, rfl⟩ := (look_eq_some view).1 hlook
    rw [hswept.kept k (hswept.not_fired hnode)] at hlook
    exact ⟨hlook, sweep_leaves_later hview hlinked hkey hahead hturn k node hnode⟩
  · rintro ⟨hlook, hlater⟩
    rw [hswept.kept k, hlook]
    intro hmem
    obtain ⟨⟨k', node⟩, hfired, rfl⟩ := mem_map.mp hmem
    obtain ⟨hstart, hdue⟩ := hswept.due k' node hfired
    rw [hlook, some.injEq, Prod.mk.injEq] at hstart
    omega

end

end

end HierarchicalWheel
