/-
Interleaved threads over shared data.  One thread moves at a time, so a global
step is an update of one local state.  Two rules are proved for such steps:
exclusive ownership of a key that a shared word marks as taken, and custody of
elements that travel between shared queues and the hands of the threads.
-/
import Mathlib.Algebra.BigOperators.Group.Finset.Piecewise

namespace Interleaving

open Function Finset List

universe u v w x y

variable {T : Type u} {L : Type v} {G : Type w} {K : Type x} {locals : T → L}

/-- A property of every local state survives the move of one thread when the
new local state has it and the others keep it. -/
theorem forall_update [DecidableEq T] {P Q : L → Prop} {t : T} {next : L}
    (hall : ∀ u, P (locals u)) (hnext : Q next) (hkeep : ∀ l, P l → Q l) :
    ∀ u, Q (update locals t next u) := by
  intro u
  by_cases hu : u = t
  · subst hu
    rwa [update_self]
  · rw [update_of_ne hu]
    exact hkeep _ (hall u)

theorem exists_update_self [DecidableEq T] (P : L → Prop) {t : T} {next : L}
    (hnext : P next) : ∃ u, P (update locals t next u) :=
  ⟨t, by rwa [update_self]⟩

/-- A thread with a property keeps it when another thread moves. -/
theorem exists_update [DecidableEq T] (P : L → Prop) {t : T} (next : L)
    (hsome : ∃ u, P (locals u)) :
    P (locals t) ∨ ∃ u, P (update locals t next u) := by
  obtain ⟨u, hu⟩ := hsome
  by_cases hut : u = t
  · exact .inl (hut ▸ hu)
  · exact .inr ⟨u, by rwa [update_of_ne hut]⟩

/-- What the local states add up to, before and after the move of one
thread. -/
theorem sum_update [Fintype T] [DecidableEq T] {N : Type*} [AddCommMonoid N]
    (f : L → N) (locals : T → L) (t : T) (next : L) :
    ∑ u, f (update locals t next u) + f (locals t) = ∑ u, f (locals u) + f next := by
  have hrest : ∑ u ∈ univ.erase t, f (update locals t next u) =
      ∑ u ∈ univ.erase t, f (locals u) := by
    apply sum_congr rfl
    intro u hu
    rw [update_of_ne (ne_of_mem_erase hu)]
  rw [← sum_erase_add _ _ (mem_univ t), hrest, update_self,
    add_right_comm, sum_erase_add _ _ (mem_univ t)]

variable {calls : List L}

/-- How many calls of a list are at certain places, before and after the move of
one of them. -/
theorem countP_set_add (p : L → Bool) {i : Nat} {old : L} (hold : calls[i]? = some old) (new : L) :
    (calls.set i new).countP p + (if p old then 1 else 0) =
      calls.countP p + (if p new then 1 else 0) := by
  induction calls generalizing i with
  | nil => cases hold
  | cons head rest ih =>
    cases i with
    | zero =>
      cases hold
      simp only [set_cons_zero, countP_cons]
      omega
    | succ i =>
      have hrest := ih hold
      simp only [set_cons_succ, countP_cons]
      omega

theorem countP_pos_of_getElem? {p : L → Bool} {i : Nat} {call : L}
    (hget : calls[i]? = some call) (hp : p call = true) : 0 < calls.countP p :=
  countP_pos_iff.mpr ⟨call, mem_of_getElem? hget, hp⟩

/-- A call that is not the one that moves stays where it is. -/
theorem mem_set_of_ne {i : Nat} {old call : L} (hold : calls[i]? = some old)
    (hcall : call ∈ calls) (hne : call ≠ old) (new : L) :
    call ∈ calls.set i new := by
  obtain ⟨j, hj⟩ := mem_iff_getElem?.mp hcall
  have hij : i ≠ j := by
    rintro rfl
    rw [hold] at hj
    exact hne (Option.some.inj hj).symm
  rw [mem_iff_getElem?]
  exact ⟨j, by rw [getElem?_set_ne hij, hj]⟩

section

variable (Owns : L → K → Prop) (Taken : G → K → Prop)

/-- Whoever owns a key finds it taken, and a key has one owner at most. -/
structure Exclusive (shared : G) (locals : T → L) : Prop where
  taken : ∀ t k, Owns (locals t) k → Taken shared k
  unique : ∀ t u k, Owns (locals t) k → Owns (locals u) k → t = u

variable {Owns Taken}

/-- The exclusion rule: a thread only comes to own a key that was not taken,
it owns taken keys only, and it leaves the keys of others taken. -/
theorem Exclusive.step [DecidableEq T] {shared shared' : G} {locals : T → L}
    (hexcl : Exclusive Owns Taken shared locals) (t : T) (next : L)
    (hacquire : ∀ k, Owns next k → Owns (locals t) k ∨ ¬ Taken shared k)
    (hhold : ∀ k, Owns next k → Taken shared' k)
    (hothers : ∀ k, Taken shared k → ¬ Owns (locals t) k → Taken shared' k) :
    Exclusive Owns Taken shared' (update locals t next) := by
  have hnone : ∀ u k, u ≠ t → Owns (locals u) k → ¬ Owns (locals t) k := by
    intro u k hne hu ht
    exact hne (hexcl.unique u t k hu ht)
  have hfresh : ∀ u k, u ≠ t → Owns (locals u) k → ¬ Owns next k := by
    intro u k hne hu hnext
    cases hacquire k hnext with
    | inl ht => exact hnone u k hne hu ht
    | inr hfree => exact hfree (hexcl.taken u k hu)
  constructor
  · intro u k hu
    by_cases hne : u = t
    · rw [hne, update_self] at hu
      exact hhold k hu
    · rw [update_of_ne hne] at hu
      exact hothers k (hexcl.taken u k hu) (hnone u k hne hu)
  · intro u v k hu hv
    by_cases hut : u = t
    · by_cases hvt : v = t
      · rw [hut, hvt]
      · rw [hut, update_self] at hu
        rw [update_of_ne hvt] at hv
        exact absurd hu (hfresh v k hvt hv)
    · rw [update_of_ne hut] at hu
      by_cases hvt : v = t
      · rw [hvt, update_self] at hv
        exact absurd hv (hfresh u k hut hu)
      · rw [update_of_ne hvt] at hv
        exact hexcl.unique u v k hu hv

end

section

variable {Q : Type x} {E : Type y}

/-- The element lies in one of the queues or in the hands of a thread. -/
def Somewhere (store : Q → List E) (hands : T → List E) (e : E) : Prop :=
  (∃ q, e ∈ store q) ∨ ∃ t, e ∈ hands t

variable {store : Q → List E} {hands : T → List E} {e : E}

/-- With every hand empty, what is somewhere is in a queue. -/
theorem Somewhere.queued (hsome : Somewhere store hands e)
    (hempty : ∀ t, hands t = []) : ∃ q, e ∈ store q := by
  rcases hsome with hqueued | ⟨t, ht⟩
  · exact hqueued
  · rw [hempty t] at ht
    cases ht

variable [DecidableEq T]

/-- The custody rule for a thread that edits one queue: nothing gets lost if
what the queue and the thread held is held by one of them afterwards. -/
theorem Somewhere.transfer [DecidableEq Q] {q : Q} {t : T} {queue hand : List E}
    (hsome : Somewhere store hands e) (hqueue : e ∈ store q → e ∈ queue ∨ e ∈ hand)
    (hhand : e ∈ hands t → e ∈ queue ∨ e ∈ hand) :
    Somewhere (update store q queue) (update hands t hand) e := by
  have hdone : e ∈ queue ∨ e ∈ hand → Somewhere (update store q queue) (update hands t hand) e := by
    intro hnew
    cases hnew with
    | inl h => exact .inl ⟨q, by rwa [update_self]⟩
    | inr h => exact .inr ⟨t, by rwa [update_self]⟩
  rcases hsome with ⟨p, hp⟩ | ⟨u, hu⟩
  · by_cases hpq : p = q
    · rw [hpq] at hp
      exact hdone (hqueue hp)
    · exact .inl ⟨p, by rwa [update_of_ne hpq]⟩
  · by_cases hut : u = t
    · rw [hut] at hu
      exact hdone (hhand hu)
    · exact .inr ⟨u, by rwa [update_of_ne hut]⟩

/-- The custody rule for a thread that touches no queue. -/
theorem Somewhere.keep {t : T} {hand : List E}
    (hsome : Somewhere store hands e) (hhand : e ∈ hands t → e ∈ hand) :
    Somewhere store (update hands t hand) e := by
  rcases hsome with hqueued | ⟨u, hu⟩
  · exact .inl hqueued
  · by_cases hut : u = t
    · rw [hut] at hu
      exact .inr ⟨t, by rw [update_self]; exact hhand hu⟩
    · exact .inr ⟨u, by rwa [update_of_ne hut]⟩

end

end Interleaving
