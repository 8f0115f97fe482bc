/-
What the restart counts amount to.  A time point minus the least one does not
fit into 64 bits and comes out negative, so no failure is ever found to be after
the window: the window never starts, and the counts run over the whole life of
the supervising actor.

A budget of so many restarts in an interval is kept, then, exactly on those
sequences of failures in which every child above the limit in all is also above
it within some interval.
-/
import HPActor.Bursts
import HPActor.Supervision

namespace HPActor

open Bursts RestartCounts Int64

/-- The time of a failure in nanoseconds. -/
def ChildDown.nanos (down : ChildDown) : Int := down.now.val.toInt

/-- The child failed more often than the limit in a span of the interval. -/
def FailedTooOften (limit interval : Nat) (childId : UInt64) (history : List ChildDown) : Prop :=
  Burst ChildDown.actorId ChildDown.nanos limit (RestartCounts.nanoseconds interval) childId history

instance (limit interval : Nat) (childId : UInt64) (history : List ChildDown) :
    Decidable (FailedTooOften limit interval childId history) :=
  inferInstanceAs (Decidable (Burst _ _ _ _ _ _))

/-- Children above the limit in all are above it in a span of the interval. -/
def TotalsInWindow (limit interval : Nat) (failures : List ChildDown) : Prop :=
  ∀ front back, failures = front ++ back → ∀ childId,
    limit < occurrences ChildDown.actorId childId front →
      FailedTooOften limit interval childId front

namespace RestartCounts

/-- No time comes after the window that was never started. -/
theorem elapsed_unset (now : SteadyTime) : (now.val - minValue).toInt < 0 := by
  have hnow := now.property
  have hbound := now.val.toInt_lt
  have hmin : minValue.toInt = -2 ^ 63 := by decide
  rw [toInt_sub, hmin, Int.bmod_def]
  omega

theorem refresh_unset {counts : RestartCounts} (hunset : counts.firstFailureTime = minValue)
    (interval : Nat) (childId : UInt64) (now : SteadyTime) :
    counts.refresh interval childId now = counts := by
  have helapsed := elapsed_unset now
  unfold refresh
  rw [hunset, if_neg]
  unfold nanoseconds
  omega

theorem increment_apply (counts : RestartCounts) (childId other : UInt64) :
    (counts.increment childId).restartCounts other =
      counts.restartCounts other + if childId = other then 1 else 0 := by
  unfold increment
  by_cases hchild : childId = other
  · subst hchild
    simp
  · simp [Function.update_of_ne (Ne.symm hchild), hchild]

theorem erase_apply (counts : RestartCounts) (childId other : UInt64) :
    (counts.erase childId).restartCounts other =
      if childId = other then 0 else counts.restartCounts other := by
  unfold erase
  by_cases hchild : childId = other
  · subst hchild
    simp
  · simp [Function.update_of_ne (Ne.symm hchild), hchild]

end RestartCounts

namespace SelfSupervisingActor

/-- The counts follow the failures of all times, up to the limit. -/
structure Counted (policy : SupervisionPolicy) (history : List ChildDown)
    (actor : SelfSupervisingActor) : Prop where
  policy_eq : actor.policy = policy
  unset : actor.counts.firstFailureTime = Int64.minValue
  counts_eq : ∀ childId, actor.counts.restartCounts childId =
    min policy.maxRestarts.toNat (occurrences ChildDown.actorId childId history)

/-- At the limit the counts stay; below it the child is restarted. -/
theorem decideRestart_unset {actor : SelfSupervisingActor}
    (hunset : actor.counts.firstFailureTime = minValue) (childId : UInt64) (now : SteadyTime) :
    if actor.policy.maxRestarts.toNat ≤ actor.counts.restartCounts childId then
      (actor.decideRestart childId now).1 ≠ .restart ∧ (actor.decideRestart childId now).2 = actor
    else actor.decideRestart childId now =
      (.restart, { actor with counts := actor.counts.increment childId }) := by
  unfold decideRestart
  simp only [refresh_unset hunset]
  split_ifs <;> simp

theorem handleChildDown_fst (actor : SelfSupervisingActor) (down : ChildDown) :
    (actor.handleChildDown down).1 = (actor.decideRestart down.actorId down.now).1 := by
  unfold handleChildDown
  simp only
  split_ifs <;> rfl

theorem handleChildDown_snd (actor : SelfSupervisingActor) (down : ChildDown) :
    (actor.handleChildDown down).2.policy = (actor.decideRestart down.actorId down.now).2.policy ∧
      (actor.handleChildDown down).2.counts =
        (actor.decideRestart down.actorId down.now).2.counts := by
  unfold handleChildDown
  simp only
  split_ifs <;> exact ⟨rfl, rfl⟩

namespace Counted

variable {policy : SupervisionPolicy} {history : List ChildDown}
variable {actor : SelfSupervisingActor}

theorem refuses_iff (hcounted : actor.Counted policy history) (down : ChildDown) :
    (actor.handleChildDown down).1 ≠ .restart ↔ policy.maxRestarts.toNat ≤
        occurrences ChildDown.actorId down.actorId history := by
  have hcount := hcounted.counts_eq down.actorId
  have hdecide := decideRestart_unset hcounted.unset down.actorId down.now
  rw [handleChildDown_fst]
  rw [hcounted.policy_eq] at hdecide
  split_ifs at hdecide with hfull
  · exact iff_of_true hdecide.1 (by omega)
  · exact iff_of_false (by simp [hdecide]) (by omega)

theorem step (hcounted : actor.Counted policy history) (down : ChildDown) :
    (actor.handleChildDown down).2.Counted policy (history ++ [down]) := by
  obtain ⟨hpolicy, hcounts⟩ := handleChildDown_snd actor down
  have hcount := hcounted.counts_eq down.actorId
  have hdecide := decideRestart_unset hcounted.unset down.actorId down.now
  split_ifs at hdecide with hfull
  · rw [hdecide.2] at hpolicy hcounts
    refine ⟨hpolicy.trans hcounted.policy_eq, by
      rw [hcounts, hcounted.unset], fun childId => ?_⟩
    rw [hcounted.policy_eq] at hfull
    rw [hcounts, hcounted.counts_eq, occurrences_append, occurrences_singleton]
    split_ifs with hchild
    · subst hchild
      omega
    · rfl
  · rw [hdecide] at hpolicy hcounts
    refine ⟨hpolicy.trans hcounted.policy_eq, by
      rw [hcounts]; exact hcounted.unset, fun childId => ?_⟩
    rw [hcounted.policy_eq] at hfull
    rw [hcounts, increment_apply, hcounted.counts_eq, occurrences_append, occurrences_singleton]
    split_ifs with hchild
    · subst hchild
      omega
    · rfl

theorem run (hcounted : actor.Counted policy []) (history : List ChildDown) :
    (actor.handleAll history).Counted policy history := by
  induction history using List.reverseRecOn with
  | nil => exact hcounted
  | append_singleton history down ih =>
    rw [handleAll, List.foldl_append]
    exact ih.step down

end Counted

/-- Only children that failed too often are not restarted. -/
def KeepsBudget (policy : SupervisionPolicy) (children : List UInt64)
    (failures : List ChildDown) : Prop :=
  let actor : SelfSupervisingActor := { children := children, policy := policy }
  ∀ front down back, failures = front ++ down :: back →
    ((actor.handleAll front).handleChildDown down).1 ≠ .restart →
      FailedTooOften policy.maxRestarts.toNat policy.restartInterval down.actorId (front ++ [down])

theorem counted_handleAll (policy : SupervisionPolicy) (children : List UInt64)
    (history : List ChildDown) :
    Counted policy history (handleAll { children := children, policy := policy } history) := by
  have hstart : Counted policy [] { children := children, policy := policy } :=
    ⟨rfl, rfl, fun _ => by simp [occurrences]⟩
  exact hstart.run history

theorem keepsBudget_iff_totals (policy : SupervisionPolicy)
    (children : List UInt64) (failures : List ChildDown) :
    KeepsBudget policy children failures ↔
      TotalsInWindow policy.maxRestarts.toNat policy.restartInterval failures := by
  refine refusesBursts_iff (fun front down hrefused => ?_) (fun front down hcount => ?_) _ failures
  · exact ((counted_handleAll policy children front).refuses_iff down).mp hrefused
  · exact ((counted_handleAll policy children front).refuses_iff down).mpr (le_of_eq hcount.symm)

end SelfSupervisingActor

namespace SupervisorActor

/-- A child that goes takes its count along: counts are failures of all times,
modulo the number of them that it takes to go. -/
structure Counted (history : List ChildDown) (actor : SupervisorActor) : Prop where
  unset : actor.counts.firstFailureTime = Int64.minValue
  counts_eq : ∀ childId, actor.counts.restartCounts childId =
    occurrences ChildDown.actorId childId history % (restartLimit + 1)

/-- Both strategies have the child restarted. -/
theorem handleChildDown_eq (actor : SupervisorActor) (down : ChildDown) :
    actor.handleChildDown down = actor.restartChild down.actorId down.now := by
  unfold handleChildDown
  cases actor.strategy <;> rfl

theorem restartChild_unset {actor : SupervisorActor}
    (hunset : actor.counts.firstFailureTime = minValue) (childId : UInt64) (now : SteadyTime) :
    if restartLimit ≤ actor.counts.restartCounts childId then
      (actor.restartChild childId now).1 = .stop ∧
        (actor.restartChild childId now).2.counts = actor.counts.erase childId
    else (actor.restartChild childId now).1 = .restart ∧ (actor.restartChild childId now).2.counts =
          actor.counts.increment childId := by
  unfold restartChild
  simp only [refresh_unset hunset]
  split_ifs <;> simp

namespace Counted

variable {history : List ChildDown} {actor : SupervisorActor}

theorem refuses_iff (hcounted : actor.Counted history) (down : ChildDown) :
    (actor.handleChildDown down).1 ≠ .restart ↔
      restartLimit ≤ occurrences ChildDown.actorId down.actorId history % (restartLimit + 1) := by
  have hrestart := restartChild_unset hcounted.unset down.actorId down.now
  rw [handleChildDown_eq, ← hcounted.counts_eq]
  split_ifs at hrestart with hfull
  · exact iff_of_true (by simp [hrestart.1]) hfull
  · exact iff_of_false (by simp [hrestart.1]) hfull

theorem step (hcounted : actor.Counted history) (down : ChildDown) :
    (actor.handleChildDown down).2.Counted (history ++ [down]) := by
  have hcount := hcounted.counts_eq down.actorId
  have hrestart := restartChild_unset hcounted.unset down.actorId down.now
  rw [handleChildDown_eq]
  split_ifs at hrestart with hfull
  · refine ⟨by rw [hrestart.2]; exact hcounted.unset, fun childId => ?_⟩
    rw [hrestart.2, erase_apply, occurrences_append, occurrences_singleton]
    split_ifs with hchild
    · subst hchild
      unfold restartLimit at *
      omega
    · exact hcounted.counts_eq childId
  · refine ⟨by rw [hrestart.2]; exact hcounted.unset, fun childId => ?_⟩
    rw [hrestart.2, increment_apply, occurrences_append, occurrences_singleton, hcounted.counts_eq]
    split_ifs with hchild
    · subst hchild
      unfold restartLimit at *
      omega
    · rfl

theorem run (hcounted : actor.Counted []) (history : List ChildDown) :
    (actor.handleAll history).Counted history := by
  induction history using List.reverseRecOn with
  | nil => exact hcounted
  | append_singleton history down ih =>
    rw [handleAll, List.foldl_append]
    exact ih.step down

end Counted

/-- Only children that failed too often are not restarted. -/
def KeepsBudget (strategy : Supervisor) (children : List UInt64)
    (failures : List ChildDown) : Prop :=
  let actor : SupervisorActor := { strategy := strategy, children := children }
  ∀ front down back, failures = front ++ down :: back →
    ((actor.handleAll front).handleChildDown down).1 ≠ .restart →
      FailedTooOften restartLimit restartWindow down.actorId (front ++ [down])

theorem counted_handleAll (strategy : Supervisor) (children : List UInt64)
    (history : List ChildDown) :
    Counted history (handleAll { strategy := strategy, children := children } history) := by
  have hstart : Counted [] { strategy := strategy, children := children } :=
    ⟨rfl, fun _ => by simp [occurrences]⟩
  exact hstart.run history

theorem keepsBudget_iff_totals (strategy : Supervisor)
    (children : List UInt64) (failures : List ChildDown) :
    KeepsBudget strategy children failures ↔
      TotalsInWindow restartLimit restartWindow failures := by
  refine refusesBursts_iff (fun front down hrefused => ?_) (fun front down hcount => ?_) _ failures
  · have hmod := ((counted_handleAll strategy children front).refuses_iff down).mp hrefused
    exact le_trans hmod (Nat.mod_le _ _)
  · refine ((counted_handleAll strategy children front).refuses_iff down).mpr ?_
    rw [hcount, Nat.mod_eq_of_lt (Nat.lt_succ_self _)]

end SupervisorActor

/-- The budgets are kept exactly where totals and windows agree. -/
theorem restartBudgets_kept_iff (policy : SupervisionPolicy) (strategy : Supervisor)
    (children : List UInt64) (failures : List ChildDown) :
    (SelfSupervisingActor.KeepsBudget policy children failures ↔
      TotalsInWindow policy.maxRestarts.toNat policy.restartInterval failures) ∧
    (SupervisorActor.KeepsBudget strategy children failures ↔
      TotalsInWindow SupervisorActor.restartLimit SupervisorActor.restartWindow failures) :=
  ⟨SelfSupervisingActor.keepsBudget_iff_totals policy children failures,
    SupervisorActor.keepsBudget_iff_totals strategy children failures⟩

namespace RestartBudgetWitness

def atSeconds (actorId : UInt64) (seconds : Int64)
    (hseconds : 0 ≤ (seconds * 1000000000).toInt) : ChildDown :=
  { actorId := actorId, now := ⟨seconds * 1000000000, hseconds⟩ }

/-- One restart in five seconds. -/
def once : SupervisionPolicy := { maxRestarts := 1 }

/-- A child fails, after six seconds another does, and soon the first again. -/
def apart : List ChildDown :=
  [atSeconds 1 1 (by decide), atSeconds 2 7 (by decide), atSeconds 1 8 (by decide)]

/-- Ten failures of one child, one of another, and the eleventh of the first. -/
def tenApart : List ChildDown :=
  List.replicate 10 (atSeconds 1 1 (by decide)) ++
    [atSeconds 2 7 (by decide), atSeconds 1 8 (by decide)]

theorem stopped_within_budget :
    apart.Pairwise (fun one two => one.nanos ≤ two.nanos) ∧
    ¬ SelfSupervisingActor.KeepsBudget once [1, 2] apart ∧
    tenApart.Pairwise (fun one two => one.nanos ≤ two.nanos) ∧
    ¬ SupervisorActor.KeepsBudget .oneForOne [1, 2] tenApart := by
  refine ⟨by decide, fun hkeeps => ?_, by decide, fun hkeeps => ?_⟩
  · have hburst := hkeeps (apart.take 2) (atSeconds 1 8 (by decide)) [] rfl (by decide)
    exact absurd hburst (by decide)
  · have hburst := hkeeps (tenApart.take 11) (atSeconds 1 8 (by decide)) [] rfl (by decide)
    exact absurd hburst (by decide)

end RestartBudgetWitness

end HPActor
