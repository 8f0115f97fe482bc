/-
A pool of terminated texts.  A text is referred to by where it starts in the
pool; equal texts are stored once, and the empty text is reference 0, which no
stored text has.  References stay good while the pool grows and when cells are
put in front of it.
-/
import Mathlib.Data.List.Basic

universe u

variable {α : Type u}

/-- A text and its terminator stand at an offset. -/
def HasText (stop : α) (cells : List α) (offset : Nat) (text : List α) : Prop :=
  ∃ front back, cells = front ++ (text ++ stop :: back) ∧ front.length = offset

namespace HasText

open List

variable {stop : α} {cells text : List α} {offset : Nat}

section

variable (htext : HasText stop cells offset text)
include htext

theorem append (more : List α) : HasText stop (cells ++ more) offset text := by
  obtain ⟨front, back, rfl, hlength⟩ := htext
  refine ⟨front, back ++ more, ?_, hlength⟩
  rw [append_assoc, append_assoc, cons_append]

theorem prepend (before : List α) :
    HasText stop (before ++ cells) (before.length + offset) text := by
  obtain ⟨front, back, rfl, rfl⟩ := htext
  exact ⟨before ++ front, back, (append_assoc ..).symm, length_append⟩

theorem of_isPrefix {longer : List α} (hlonger : cells <+: longer) :
    HasText stop longer offset text := by
  obtain ⟨more, rfl⟩ := hlonger
  exact htext.append more

theorem offset_lt : offset < cells.length := by
  obtain ⟨front, back, rfl, rfl⟩ := htext
  simp only [length_append, length_cons]
  omega

end

end HasText

/-- The text at an offset, if a terminator follows. -/
def readText [DecidableEq α] (stop : α) (cells : List α) (offset : Nat) : Option (List α) :=
  if stop ∈ cells.drop offset then
    some ((cells.drop offset).takeWhile (· ≠ stop))
  else none

theorem readText_of_hasText [DecidableEq α] {stop : α} {cells text : List α} {offset : Nat}
    (htext : HasText stop cells offset text) (hstop : stop ∉ text) :
    readText stop cells offset = some text := by
  obtain ⟨front, back, rfl, rfl⟩ := htext
  have hmem : stop ∈ text ++ stop :: back := by simp
  have htake : (text ++ stop :: back).takeWhile (· ≠ stop) = text := by
    rw [List.takeWhile_append_of_pos]
    · rw [List.takeWhile_cons_of_neg (by simp), List.append_nil]
    · intro cell hcell
      exact decide_eq_true fun heq => hstop (heq ▸ hcell)
  rw [readText, List.drop_left, if_pos hmem, htake]

/-- The texts stored so far and where each one starts. -/
structure TextPool (α : Type u) (stop : α) where
  cells : List α
  index : List (List α × Nat)
  cells_pos : 0 < cells.length
  indexed : ∀ entry ∈ index, 0 < entry.2 ∧ HasText stop cells entry.2 entry.1

namespace TextPool

variable {stop : α}

/-- The reference 0 is taken by a lone terminator. -/
def empty (stop : α) : TextPool α stop where
  cells := [stop]
  index := []
  cells_pos := Nat.one_pos
  indexed := fun _ hentry => absurd hentry List.not_mem_nil

def store (pool : TextPool α stop) (text : List α) : TextPool α stop where
  cells := pool.cells ++ (text ++ [stop])
  index := (text, pool.cells.length) :: pool.index
  cells_pos := by
    rw [List.length_append]
    exact Nat.add_pos_left pool.cells_pos _
  indexed := by
    intro entry hentry
    rcases List.mem_cons.mp hentry with rfl | hold
    · exact ⟨pool.cells_pos, pool.cells, [], rfl, rfl⟩
    · obtain ⟨hpos, htext⟩ := pool.indexed entry hold
      exact ⟨hpos, htext.append _⟩

/-- The reference of a text, which is stored when it is new. -/
def intern [DecidableEq α] (pool : TextPool α stop) (text : List α) : Nat × TextPool α stop :=
  if text = [] then (0, pool)
  else
    match pool.index.find? (·.1 = text) with
    | some entry => (entry.2, pool)
    | none => (pool.cells.length, pool.store text)

/-- What a reference stands for. -/
def Refers (stop : α) (cells : List α) (ref : Nat) (text : List α) : Prop :=
  (ref = 0 ∧ text = []) ∨ (0 < ref ∧ HasText stop cells ref text)

theorem Refers.of_isPrefix {cells longer text : List α} {ref : Nat}
    (href : Refers stop cells ref text) (hlonger : cells <+: longer) :
    Refers stop longer ref text := by
  rcases href with hempty | ⟨hpos, htext⟩
  · exact .inl hempty
  · exact .inr ⟨hpos, htext.of_isPrefix hlonger⟩

variable [DecidableEq α]

/-- Interning only ever adds to the pool. -/
theorem isPrefix_intern (pool : TextPool α stop) (text : List α) :
    pool.cells <+: (pool.intern text).2.cells := by
  rw [intern]
  split
  · exact List.prefix_rfl
  · cases pool.index.find? (·.1 = text) with
    | some entry => exact List.prefix_rfl
    | none => exact List.prefix_append _ _

theorem refers_intern (pool : TextPool α stop) (text : List α) :
    Refers stop (pool.intern text).2.cells (pool.intern text).1 text := by
  by_cases hempty : text = []
  · rw [intern, if_pos hempty]
    exact .inl ⟨rfl, hempty⟩
  · rw [intern, if_neg hempty]
    cases hfind : pool.index.find? (·.1 = text) with
    | some entry =>
      have hsame : entry.1 = text := by
        simpa using List.find?_some hfind
      have hentry := pool.indexed entry (List.mem_of_find?_eq_some hfind)
      rw [hsame] at hentry
      exact .inr hentry
    | none => exact .inr ⟨pool.cells_pos, pool.cells, [], rfl, rfl⟩

end TextPool
