/-
Linked lists that are extended in two moves.  A new cell first takes its place
behind the current last cell and only later has the link to it stored; between
the two moves the cell is `pending` on its predecessor.  The chain invariant
allows any number of pending cells at once.
-/
import Mathlib.Logic.Relation
import Mathlib.Data.List.Nodup

namespace PendingChain

open Function List

universe u

variable {R : Type u} {next pending : R → Option R}

/-- The link from `x` to `y` has been stored, or `y` is about to store it. -/
def Edge (next pending : R → Option R) (x y : R) : Prop :=
  (next x = some y ∧ pending y = none) ∨ (next x = none ∧ pending y = some x)

/-- The cells of `cells` follow `x` one after the other, and the last of them
has no successor. -/
def Linked (next pending : R → Option R) : R → List R → Prop
  | x, [] => next x = none
  | x, y :: rest => Edge next pending x y ∧ Linked next pending y rest

/-- The last cell of the chain that starts at `x`. -/
def lastFrom : R → List R → R
  | x, [] => x
  | _, y :: rest => lastFrom y rest

@[simp] theorem lastFrom_append_singleton (x y : R) (cells : List R) :
    lastFrom x (cells ++ [y]) = y := by
  induction cells generalizing x with
  | nil => rfl
  | cons z rest ih => exact ih z

theorem lastFrom_mem (x : R) (cells : List R) : lastFrom x cells ∈ x :: cells := by
  induction cells generalizing x with
  | nil => exact mem_cons_self
  | cons y rest ih => exact mem_cons_of_mem x (ih y)

variable {cells : List R} {x y prev : R}

theorem lastFrom_mem_of_ne_nil (hne : cells ≠ []) : lastFrom x cells ∈ cells := by
  cases cells with
  | nil => exact absurd rfl hne
  | cons y rest => exact lastFrom_mem y rest

/-- A cell that is both first and last is alone. -/
theorem eq_nil_of_lastFrom_eq (hnodup : (x :: cells).Nodup)
    (hlast : lastFrom x cells = x) : cells = [] := by
  by_contra hne
  have hmem : x ∈ cells := by
    rw [← hlast]
    exact lastFrom_mem_of_ne_nil hne
  exact (nodup_cons.mp hnodup).1 hmem

theorem Linked.congr {next' pending' : R → Option R} (hlinked : Linked next pending x cells)
    (hnext : ∀ z ∈ x :: cells, next' z = next z) (hpending : ∀ z ∈ cells, pending' z = pending z) :
    Linked next' pending' x cells := by
  induction cells generalizing x with
  | nil =>
    rw [Linked, hnext x mem_cons_self]
    exact hlinked
  | cons y rest ih =>
    obtain ⟨hedge, hrest⟩ := hlinked
    refine ⟨?_, ih hrest ?_ ?_⟩
    · rwa [Edge, hnext x mem_cons_self, hpending y mem_cons_self]
    · exact fun z hz => hnext z (mem_cons_of_mem x hz)
    · exact fun z hz => hpending z (mem_cons_of_mem y hz)

theorem Linked.drop {front rest : List R} (hlinked : Linked next pending x (front ++ rest)) :
    Linked next pending (lastFrom x front) rest := by
  induction front generalizing x with
  | nil => exact hlinked
  | cons y front ih => exact ih hlinked.2

/-- A stored link out of `x` leads to the first cell. -/
theorem Linked.next_head {z : R} {rest : List R}
    (hlinked : Linked next pending x (y :: rest)) (hnext : next x = some z) :
    z = y ∧ pending y = none := by
  rcases hlinked.1 with ⟨hstored, hpending⟩ | ⟨hstored, -⟩
  · rw [hstored] at hnext
    exact ⟨(Option.some.inj hnext).symm, hpending⟩
  · rw [hstored] at hnext
    cases hnext

/-- The first cell is pending on `x` only, and then the link is missing. -/
theorem Edge.pending_eq (hedge : Edge next pending x y)
    (hpending : pending y = some prev) : prev = x ∧ next x = none := by
  rcases hedge with ⟨-, hnone⟩ | ⟨hnext, hsome⟩
  · rw [hnone] at hpending
    cases hpending
  · rw [hsome] at hpending
    exact ⟨(Option.some.inj hpending).symm, hnext⟩

/-- A cell that is pending sits in the chain behind the cell it is pending on,
and the link out of that cell is missing. -/
theorem Linked.pending_prev (hlinked : Linked next pending x cells)
    (hmem : y ∈ cells) (hpending : pending y = some prev) :
    prev ∈ x :: cells ∧ next prev = none := by
  induction cells generalizing x with
  | nil => cases hmem
  | cons z rest ih =>
    obtain ⟨hedge, hrest⟩ := hlinked
    rcases mem_cons.mp hmem with rfl | hmem
    · obtain ⟨rfl, hnone⟩ := hedge.pending_eq hpending
      exact ⟨mem_cons_self, hnone⟩
    · obtain ⟨hprev, hnone⟩ := ih hrest hmem
      exact ⟨mem_cons_of_mem x hprev, hnone⟩

variable [DecidableEq R]

/-- A new cell takes its place behind the last one. -/
theorem Linked.extend (hlinked : Linked next pending x cells)
    (hfresh : y ∉ cells) (hnext : next y = none) :
    Linked next (update pending y (some (lastFrom x cells))) x (cells ++ [y]) := by
  induction cells generalizing x with
  | nil =>
    refine ⟨.inr ⟨hlinked, ?_⟩, hnext⟩
    simp [lastFrom]
  | cons z rest ih =>
    obtain ⟨hedge, hrest⟩ := hlinked
    refine ⟨?_, ih hrest fun hmem => hfresh (mem_cons_of_mem z hmem)⟩
    have hne : z ≠ y := ne_of_mem_of_not_mem mem_cons_self hfresh
    rwa [Edge, update_of_ne hne]

/-- A pending cell stores the link its predecessor was missing. -/
theorem Linked.publish (hlinked : Linked next pending x cells) (hnodup : (x :: cells).Nodup)
    (hmem : y ∈ cells) (hpending : pending y = some prev) :
    Linked (update next prev (some y)) (update pending y none) x cells := by
  induction cells generalizing x with
  | nil => cases hmem
  | cons z rest ih =>
    obtain ⟨hedge, hrest⟩ := hlinked
    obtain ⟨hx, hcells⟩ := nodup_cons.mp hnodup
    rcases mem_cons.mp hmem with rfl | hmem
    · obtain ⟨rfl, -⟩ := hedge.pending_eq hpending
      refine ⟨.inl ⟨by simp, by simp⟩, hrest.congr ?_ ?_⟩
      · intro w hw
        exact update_of_ne (ne_of_mem_of_not_mem hw hx) _ _
      · intro w hw
        have hy := (nodup_cons.mp hcells).1
        exact update_of_ne (ne_of_mem_of_not_mem hw hy) _ _
    · have hprev := (hrest.pending_prev hmem hpending).1
      refine ⟨?_, ih hrest hcells hmem⟩
      have hxprev : x ≠ prev := (ne_of_mem_of_not_mem hprev hx).symm
      have hzy : z ≠ y :=
        (ne_of_mem_of_not_mem hmem (nodup_cons.mp hcells).1).symm
      rwa [Edge, update_of_ne hxprev, update_of_ne hzy]

/-- The first cell is unlinked by storing its successor at `x`. -/
theorem Linked.unlink (hlinked : Linked next pending x (y :: cells))
    (hnodup : (x :: y :: cells).Nodup) (hstored : ∀ z ∈ cells.head?, next y = some z) :
    Linked (update next x (next y)) pending x cells := by
  obtain ⟨-, hrest⟩ := hlinked
  obtain ⟨hx, -⟩ := nodup_cons.mp hnodup
  cases cells with
  | nil => simpa [Linked] using hrest
  | cons z cells =>
    have hnext : next y = some z := hstored z rfl
    obtain ⟨-, hpending⟩ := hrest.next_head hnext
    refine ⟨.inl ⟨by simpa using hnext, hpending⟩, hrest.2.congr ?_ ?_⟩
    · intro w hw
      exact update_of_ne (ne_of_mem_of_not_mem (mem_cons_of_mem y hw) hx) _ _
    · exact fun w _ => rfl

/-- `y` can be reached from `x` over stored links and links about to be
stored. -/
def Reaches (next pending : R → Option R) : R → R → Prop :=
  Relation.ReflTransGen fun x y => next x = some y ∨ pending y = some x

omit [DecidableEq R] in
theorem Linked.reaches (hlinked : Linked next pending x cells)
    (hmem : y ∈ cells) : Reaches next pending x y := by
  induction cells generalizing x with
  | nil => cases hmem
  | cons z rest ih =>
    obtain ⟨hedge, hrest⟩ := hlinked
    have hstep : next x = some z ∨ pending z = some x := by
      rcases hedge with ⟨hstored, -⟩ | ⟨-, hpending⟩
      · exact .inl hstored
      · exact .inr hpending
    rcases mem_cons.mp hmem with rfl | hmem
    · exact Relation.ReflTransGen.single hstep
    · exact Relation.ReflTransGen.head hstep (ih hrest hmem)

end PendingChain
