/-
Stacks threaded through their own cells.  A cell's successor is looked up in a
map from cells to cells, with one value that stands for no cell; the map also
has entries for cells that are in no stack.
-/
import Mathlib.Data.List.Basic

namespace IntrusiveStack

open List Function

universe u

variable {R : Type u} {null : R} {next : R → R}

/-- The cells that follow from `top` are those of the list. -/
def Chain (null : R) (next : R → R) : R → List R → Prop
  | top, [] => top = null
  | top, cell :: rest =>
    top = cell ∧ cell ≠ null ∧ Chain null next (next cell) rest

namespace Chain

variable {cells : List R} {top : R}

theorem congr {next' : R → R} (hchain : Chain null next top cells)
    (hnext : ∀ cell ∈ cells, next' cell = next cell) :
    Chain null next' top cells := by
  induction cells generalizing top with
  | nil => exact hchain
  | cons cell rest ih =>
    obtain ⟨htop, hcell, hrest⟩ := hchain
    refine ⟨htop, hcell, ?_⟩
    rw [hnext cell mem_cons_self]
    exact ih hrest fun other hother =>
      hnext other (mem_cons_of_mem cell hother)

/-- A stack with a top cell is that cell on a smaller stack. -/
theorem pop (hchain : Chain null next top cells) (htop : top ≠ null) :
    ∃ rest, cells = top :: rest ∧ Chain null next (next top) rest := by
  cases cells with
  | nil => exact absurd hchain htop
  | cons cell rest =>
    obtain ⟨rfl, -, hrest⟩ := hchain
    exact ⟨rest, rfl, hrest⟩

variable [DecidableEq R]

theorem frame {other : R} (target : R) (hchain : Chain null next top cells)
    (hother : other ∉ cells) :
    Chain null (update next other target) top cells :=
  hchain.congr fun _ hcell =>
    update_of_ne (ne_of_mem_of_not_mem hcell hother) _ _

theorem push {cell : R} (hchain : Chain null next top cells)
    (hcell : cell ≠ null) (hfresh : cell ∉ cells) :
    Chain null (update next cell top) cell (cell :: cells) := by
  refine ⟨rfl, hcell, ?_⟩
  rw [update_self]
  exact hchain.frame top hfresh

end Chain

end IntrusiveStack
