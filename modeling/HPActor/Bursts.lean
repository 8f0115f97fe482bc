/-
Bursts of events.  Events belong to keys and happen at times; a key has a burst
in a history when more than a given number of its events fall into one span of a
given length.

A policy that refuses events should refuse only keys with a burst.  Policies
that count all events of a key, without regard to time, are compared with that
requirement: they meet it exactly on the histories in which every key above the
limit in all has a burst as well.
-/
import Mathlib.Data.List.MinMax

namespace HPActor.Bursts

open List

universe u v

variable {E : Type u} {K : Type v} [DecidableEq K]
variable (key : E → K) (time : E → Int)

/-- The number of events of a key. -/
def occurrences (owner : K) (history : List E) : Nat :=
  history.countP fun event => key event = owner

/-- The number of events of a key in a span of time. -/
def within (owner : K) (since interval : Int) (history : List E) : Nat :=
  history.countP fun event => key event = owner ∧ since ≤ time event ∧ time event ≤ since + interval

def Burst (limit : Nat) (interval : Int) (owner : K) (history : List E) : Prop :=
  ∃ since : Int, limit < within key time owner since interval history

theorem occurrences_append (owner : K) (front back : List E) :
    occurrences key owner (front ++ back) =
      occurrences key owner front + occurrences key owner back :=
  countP_append

theorem occurrences_singleton (owner : K) (event : E) :
    occurrences key owner [event] = if key event = owner then 1 else 0 := by
  simp [occurrences, countP_singleton]

/-- Spans that begin with an event are enough. -/
theorem burst_iff (limit : Nat) (interval : Int) (owner : K) (history : List E) :
    Burst key time limit interval owner history ↔ ∃ event ∈ history,
        limit < within key time owner (time event) interval history := by
  constructor
  · rintro ⟨since, hmany⟩
    let inSpan : E → Bool := fun event => key event = owner ∧
      since ≤ time event ∧ time event ≤ since + interval
    have hsome : history.filter inSpan ≠ [] := by
      intro hnone
      rw [within, countP_eq_length_filter, hnone] at hmany
      simp at hmany
    -- the span may begin with its earliest event
    obtain ⟨event, hevent⟩ : ∃ event, (history.filter inSpan).argmin time = some event :=
      Option.ne_none_iff_exists'.mp (mt argmin_eq_none.mp hsome)
    have hmem := mem_of_mem_filter (argmin_mem hevent)
    have hin := of_mem_filter (argmin_mem hevent)
    simp only [inSpan, decide_eq_true_eq] at hin
    refine ⟨event, hmem, lt_of_lt_of_le hmany ?_⟩
    unfold within
    apply countP_mono_left
    intro other hother hspan
    have hfirst : time event ≤ time other :=
      le_of_mem_argmin (mem_filter.mpr ⟨hother, hspan⟩) hevent
    simp only [decide_eq_true_eq] at hspan ⊢
    exact ⟨hspan.1, hfirst, by omega⟩
  · rintro ⟨event, _, hmany⟩
    exact ⟨time event, hmany⟩

instance (limit : Nat) (interval : Int) (owner : K) (history : List E) :
    Decidable (Burst key time limit interval owner history) :=
  decidable_of_iff _ (burst_iff key time limit interval owner history).symm

variable {key time} {limit : Nat}

theorem Burst.append {interval : Int} {owner : K} {history : List E}
    (hburst : Burst key time limit interval owner history) (later : List E) :
    Burst key time limit interval owner (history ++ later) := by
  obtain ⟨since, hmany⟩ := hburst
  refine ⟨since, ?_⟩
  rw [within, countP_append]
  exact Nat.lt_add_right _ hmany

/-- Above a number, some event was the one to get there. -/
theorem exists_reaching {owner : K} (history : List E)
    (hmany : limit < occurrences key owner history) :
    ∃ front event back, history = front ++ event :: back ∧
      key event = owner ∧ occurrences key owner front = limit := by
  induction history using reverseRecOn with
  | nil => simp [occurrences] at hmany
  | append_singleton history last ih =>
    by_cases hbefore : limit < occurrences key owner history
    · obtain ⟨front, event, back, rfl, howner, hfront⟩ := ih hbefore
      exact ⟨front, event, back ++ [last], by simp, howner, hfront⟩
    · rw [occurrences_append, occurrences_singleton] at hmany
      split at hmany
      · rename_i howner
        exact ⟨history, last, [], rfl, howner, by omega⟩
      · omega

variable (key time)

/-- Only keys with a burst are refused. -/
def RefusesBursts (refuses : List E → E → Prop) (limit : Nat)
    (interval : Int) (events : List E) : Prop :=
  ∀ front event back, events = front ++ event :: back → refuses front event →
      Burst key time limit interval (key event) (front ++ [event])

/-- Keys above the limit in all are above it in one span. -/
def TotalsAreBursts (limit : Nat) (interval : Int) (events : List E) : Prop :=
  ∀ front back, events = front ++ back → ∀ owner, limit < occurrences key owner front →
      Burst key time limit interval owner front

variable {key time}

/-- Refusing by totals refuses bursts only where totals are bursts. -/
theorem refusesBursts_iff {refuses : List E → E → Prop}
    (honly : ∀ front event, refuses front event → limit ≤ occurrences key (key event) front)
    (hfull : ∀ front event, occurrences key (key event) front = limit → refuses front event)
    (interval : Int) (events : List E) :
    RefusesBursts key time refuses limit interval events ↔
      TotalsAreBursts key time limit interval events := by
  constructor
  · intro hrefuses front back hsplit owner hmany
    -- the event that reached the limit was refused, so the burst is there
    obtain ⟨before, event, after, rfl, rfl, hcount⟩ :=
      exists_reaching front hmany
    have hburst := hrefuses before event (after ++ back) (by simp [hsplit])
      (hfull before event hcount)
    simpa using hburst.append after
  · intro htotals front event back hsplit hrefused
    apply htotals (front ++ [event]) back (by simp [hsplit])
    rw [occurrences_append, occurrences_singleton, if_pos rfl]
    exact Nat.lt_succ_of_le (honly front event hrefused)

end HPActor.Bursts
