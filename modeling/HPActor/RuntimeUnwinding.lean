/-
How often the rollback of a stage runs.  While a coordinator is built or failed,
the starts and rollbacks of every stage are even; while it is running, each
stage is one start ahead.  `stop` and `shutdown` pay that start back, but they
also run the rollbacks of a coordinator that is even already, and the destructor
runs them once more whatever happened before.  So the books balance in the end
exactly if the coordinator is destroyed while it is running.
-/
import HPActor.RuntimeCoordinator

namespace HPActor.RuntimeCoordinator

open List

open Machines

variable {stages : List RuntimeLifecycleStage} {j : Nat}

def startsOf (j : Nat) (events : List StageEvent) : Nat :=
  events.count (.started j)

def rollbacksOf (j : Nat) (events : List StageEvent) : Nat :=
  events.count (.rolledBack j)

/-- No rollback without a start of the stage that is not yet rolled back. -/
def NeverAhead (j : Nat) (events : List StageEvent) : Prop :=
  ∀ front, front <+: events → rollbacksOf j front ≤ startsOf j front

/-- The stages rolled back in an episode. -/
def unwound (episode : List StageEvent) : List Nat :=
  episode.filterMap fun
    | .rolledBack i => some i
    | _ => none

/-- Every rollback action runs exactly once for each start of its stage, after
that start, and within an episode later stages are rolled back first. -/
structure UnwoundOnce (c : RuntimeCoordinator) : Prop where
  never_ahead : ∀ j, hasRollback c.stages j = true → NeverAhead j c.log
  even : ∀ j, hasRollback c.stages j = true → rollbacksOf j c.log = startsOf j c.log
  reverse_order : ∀ episode ∈ c.episodes, (unwound episode).Pairwise (· > ·)

@[simp] theorem startsOf_append (j : Nat) (first rest : List StageEvent) :
    startsOf j (first ++ rest) = startsOf j first + startsOf j rest :=
  count_append

@[simp] theorem rollbacksOf_append (j : Nat) (first rest : List StageEvent) :
    rollbacksOf j (first ++ rest) = rollbacksOf j first + rollbacksOf j rest :=
  count_append

@[simp] theorem startsOf_rollback (stages : List RuntimeLifecycleStage)
    (j n : Nat) : startsOf j (rollback stages n) = 0 := by
  induction n with
  | zero => rfl
  | succ n ih =>
    rw [rollback, startsOf_append, ih]
    split <;> simp [startsOf]

/-- A pass over the first `n` stages rolls each of them back once. -/
theorem rollbacksOf_rollback (hrollback : hasRollback stages j = true) (n : Nat) :
    rollbacksOf j (rollback stages n) = if j < n then 1 else 0 := by
  induction n with
  | zero => rfl
  | succ n ih =>
    rw [rollback, rollbacksOf_append, ih]
    by_cases heq : j = n
    · subst heq
      simp [hrollback, rollbacksOf]
    · have hother : rollbacksOf j
          (if hasRollback stages n then [StageEvent.rolledBack n] else []) = 0 := by
        split
        · simp [rollbacksOf, Ne.symm heq]
        · rfl
      rw [hother, Nat.zero_add]
      simp only [Nat.lt_succ_iff_lt_or_eq, heq, or_false]

theorem hasRollback_iff : hasRollback stages j = true ↔
    ∃ stage, stages[j]? = some stage ∧ stage.rollback = true := by
  simp [hasRollback, Option.any_eq_true]

theorem lt_length_of_hasRollback (hrollback : hasRollback stages j = true) : j < stages.length := by
  obtain ⟨stage, hstage, -⟩ := hasRollback_iff.mp hrollback
  exact (List.getElem?_eq_some_iff.mp hstage).1

theorem rollbacksOf_rollback_all (hrollback : hasRollback stages j = true) :
    rollbacksOf j (rollback stages stages.length) = 1 := by
  rw [rollbacksOf_rollback hrollback, if_pos (lt_length_of_hasRollback hrollback)]

theorem mem_freeContexts {event : StageEvent}
    (hmem : event ∈ freeContexts stages) : ∃ i, event = .contextFreed i := by
  obtain ⟨i, -, hi⟩ := mem_filterMap.mp hmem
  split at hi
  · exact ⟨i, (Option.some.inj hi).symm⟩
  · cases hi

@[simp] theorem startsOf_freeContexts (stages : List RuntimeLifecycleStage)
    (j : Nat) : startsOf j (freeContexts stages) = 0 := by
  refine count_eq_zero.mpr fun hmem => ?_
  obtain ⟨i, hi⟩ := mem_freeContexts hmem
  cases hi

@[simp] theorem rollbacksOf_freeContexts (stages : List RuntimeLifecycleStage)
    (j : Nat) : rollbacksOf j (freeContexts stages) = 0 := by
  refine count_eq_zero.mpr fun hmem => ?_
  obtain ⟨i, hi⟩ := mem_freeContexts hmem
  cases hi

/-- What the loop did, when it began at stage `i` with `rest` to go: the stages
up to the failed one, or all of them, are started once each. -/
structure StartRun.Spec (i n : Nat) (r : StartRun) : Prop where
  no_rollback : ∀ j, rollbacksOf j r.events = 0
  starts_all : r.failedAt = none → ∀ j, i ≤ j → j < i + n → startsOf j r.events = 1
  starts_some : ∀ k, r.failedAt = some k → i ≤ k ∧
    ∀ j, i ≤ j → startsOf j r.events = if j < k then 1 else 0
  starts_below : ∀ j, j < i → startsOf j r.events = 0

theorem startStages_spec (outcome : Nat → Bool) (i : Nat)
    (lastStage : Option String) (rest : List RuntimeLifecycleStage) :
    StartRun.Spec i rest.length (startStages outcome i lastStage rest) := by
  induction rest generalizing i lastStage with
  | nil =>
    refine ⟨fun _ => rfl, fun _ j hle hlt => ?_, fun _ hk => (nomatch hk), fun _ _ => rfl⟩
    simp only [length_nil] at hlt
    omega
  | cons stage rest ih =>
    rw [startStages]
    by_cases hfail : stage.start = true ∧ outcome i = false
    · rw [if_pos hfail]
      refine ⟨fun _ => rfl, fun hnone => (nomatch hnone), ?_, fun _ _ => rfl⟩
      intro k hk
      cases hk
      refine ⟨Nat.le_refl i, fun j hle => ?_⟩
      rw [if_neg (Nat.not_lt.mpr hle)]
      rfl
    · rw [if_neg hfail]
      have hrest := ih (i + 1) (some stage.name)
      have hcons : ∀ (j : Nat) (events : List StageEvent), startsOf j (.started i :: events) =
            startsOf j events + if j = i then 1 else 0 := by
        intro j events
        simp [startsOf, count_cons, Eq.comm (a := i)]
      refine ⟨fun j => ?_, fun hnone j hle hlt => ?_, fun k hk => ?_, fun j hlt => ?_⟩
      · have hnever := hrest.no_rollback j
        simpa [rollbacksOf, count_cons] using hnever
      · rw [hcons]
        simp only [length_cons] at hlt
        by_cases heq : j = i
        · rw [hrest.starts_below j (by omega), if_pos heq]
        · rw [hrest.starts_all hnone j (by omega) (by omega), if_neg heq]
      · obtain ⟨hle, hstarts⟩ := hrest.starts_some k hk
        refine ⟨by omega, fun j hj => ?_⟩
        rw [hcons]
        by_cases heq : j = i
        · rw [hrest.starts_below j (by omega), if_pos heq, if_pos (by omega)]
        · rw [hstarts j (by omega), if_neg heq, Nat.add_zero]
      · rw [hcons, hrest.starts_below j (by omega), if_neg (by omega)]

variable {events : List StageEvent} {c next : RuntimeCoordinator}

/-- More events keep it if the rollbacks among them are covered before. -/
theorem NeverAhead.append {more : List StageEvent} (h : NeverAhead j events)
    (hcovered : rollbacksOf j events + rollbacksOf j more ≤ startsOf j events) :
    NeverAhead j (events ++ more) := by
  intro front hfront
  rcases prefix_or_prefix_of_prefix hfront (prefix_append events more) with hearly | ⟨late, rfl⟩
  · exact h front hearly
  · have hlate := (prefix_append_right_inj events).mp hfront
    have hle : rollbacksOf j _ ≤ rollbacksOf j _ := hlate.sublist.count_le _
    rw [rollbacksOf_append, startsOf_append]
    omega

theorem log_concat {episode : List StageEvent}
    (hepisodes : next.episodes = c.episodes ++ [episode]) :
    next.log = c.log ++ episode := by
  simp [log, hepisodes]

/-- What one call can do: nothing, a start that goes through, a start that
fails and takes back what it had started, or an unwinding of all stages. -/
inductive Effect (c next : RuntimeCoordinator) : Prop where
  | refused (hsame : next = c)
  | started (r : StartRun) (hfrom : c.state = .built ∨ c.state = .failed)
      (hrun : StartRun.Spec 0 c.stages.length r) (hall : r.failedAt = none)
      (hstate : next.state = .running) (hstages : next.stages = c.stages)
      (hepisodes : next.episodes = c.episodes ++ [r.events])
  | failed (r : StartRun) (k : Nat) (hfrom : c.state = .built ∨ c.state = .failed)
      (hrun : StartRun.Spec 0 c.stages.length r) (hat : r.failedAt = some k)
      (hstate : next.state = .failed) (hstages : next.stages = c.stages)
      (hepisodes : next.episodes = c.episodes ++ [r.events ++ rollback c.stages k])
  | unwound (hfrom : c.state ≠ .stopped) (hstate : next.state = .stopped)
      (hstages : next.stages = c.stages)
      (hepisodes : next.episodes = c.episodes ++ [rollback c.stages c.stages.length])

theorem start_effect (c : RuntimeCoordinator) (outcome : Nat → Bool) :
    Effect c (c.start outcome).2 := by
  unfold start
  by_cases hrefused : c.state ≠ .built ∧ c.state ≠ .failed
  · rw [if_pos hrefused]
    exact .refused rfl
  · rw [if_neg hrefused]
    have hfrom : c.state = .built ∨ c.state = .failed := by
      by_contra hneither
      exact hrefused (not_or.mp hneither)
    have hspec := startStages_spec outcome 0 c.lastStage c.stages
    dsimp only
    cases hfailed : (startStages outcome 0 c.lastStage c.stages).failedAt with
    | none => exact .started _ hfrom hspec hfailed rfl rfl rfl
    | some k => exact .failed _ k hfrom hspec hfailed rfl rfl rfl

theorem unwindAll_effect (hfrom : c.state ≠ .stopped)
    (hstages : next.stages = c.stages) (hepisodes : next.episodes = c.episodes) :
    Effect c next.unwindAll := by
  refine .unwound hfrom rfl hstages ?_
  rw [← hepisodes, ← hstages]
  rfl

section

variable (c : RuntimeCoordinator)

theorem stop_effect : Effect c c.stop := by
  unfold stop
  by_cases hstopped : c.state = .stopped
  · rw [if_pos hstopped]
    exact .refused rfl
  · rw [if_neg hstopped]
    split
    · exact unwindAll_effect hstopped rfl rfl
    · exact unwindAll_effect hstopped rfl rfl

theorem shutdown_effect : Effect c c.shutdown := by
  unfold shutdown
  by_cases hstopped : c.state = .stopped
  · rw [if_pos hstopped]
    exact .refused rfl
  · rw [if_neg hstopped]
    split
    · exact stop_effect c
    · split
      · exact unwindAll_effect hstopped rfl rfl
      · exact unwindAll_effect hstopped rfl rfl

theorem apply_effect (call : Call) : Effect c (c.apply call) := by
  cases call with
  | start outcome => exact start_effect c outcome
  | stop => exact stop_effect c
  | shutdown => exact shutdown_effect c

end

theorem Effect.stages_eq (h : Effect c next) : next.stages = c.stages := by
  cases h with
  | refused hsame => rw [hsame]
  | started _ _ _ _ _ hstages _ | failed _ _ _ _ _ _ hstages _
  | unwound _ _ hstages _ => exact hstages

/-- What the state of the coordinator says about a stage with a rollback
action. -/
def Books (j : Nat) (c : RuntimeCoordinator) : Prop :=
  match c.state with
  | .built | .failed =>
    NeverAhead j c.log ∧ rollbacksOf j c.log = startsOf j c.log
  | .running =>
    NeverAhead j c.log ∧ rollbacksOf j c.log + 1 = startsOf j c.log
  | .stopped => startsOf j c.log ≤ rollbacksOf j c.log
  | _ => False

namespace Books

variable {c next : RuntimeCoordinator}

theorem of_idle (h : Books j c) (hidle : c.state = .built ∨ c.state = .failed) :
    NeverAhead j c.log ∧ rollbacksOf j c.log = startsOf j c.log := by
  rcases hidle with hstate | hstate
  · simpa only [Books, hstate] using h
  · simpa only [Books, hstate] using h

theorem of_running (h : Books j c) (hstate : c.state = .running) :
    NeverAhead j c.log ∧ rollbacksOf j c.log + 1 = startsOf j c.log := by
  simpa only [Books, hstate] using h

/-- Unless it is running, no stage is ahead with its starts. -/
theorem starts_le (h : Books j c) (hstate : c.state ≠ .running) :
    startsOf j c.log ≤ rollbacksOf j c.log := by
  unfold Books at h
  split at h
  · exact Nat.le_of_eq h.2.symm
  · exact Nat.le_of_eq h.2.symm
  · next hrunning => exact absurd hrunning hstate
  · exact h
  · exact h.elim

/-- In any state it is ahead by one start at most. -/
theorem starts_le_succ (h : Books j c) : startsOf j c.log ≤ rollbacksOf j c.log + 1 := by
  by_cases hstate : c.state = .running
  · exact Nat.le_of_eq (h.of_running hstate).2.symm
  · exact Nat.le_succ_of_le (h.starts_le hstate)

theorem step (hrollback : hasRollback c.stages j = true) (h : Books j c)
    (heffect : Effect c next) : Books j next := by
  have hlt := lt_length_of_hasRollback hrollback
  cases heffect with
  | refused hsame => rwa [hsame]
  | started r hfrom hrun hall hstate _ hepisodes =>
    obtain ⟨hnever, heven⟩ := h.of_idle hfrom
    have hnone := hrun.no_rollback j
    have hone := hrun.starts_all hall j (Nat.zero_le j) (by omega)
    simp only [Books, hstate, log_concat hepisodes, rollbacksOf_append, startsOf_append]
    exact ⟨hnever.append (by omega), by omega⟩
  | failed r k hfrom hrun hat hstate _ hepisodes =>
    obtain ⟨hnever, heven⟩ := h.of_idle hfrom
    have hnone := hrun.no_rollback j
    have hstarts := (hrun.starts_some k hat).2 j (Nat.zero_le j)
    have hback := rollbacksOf_rollback hrollback k
    simp only [Books, hstate, log_concat hepisodes, rollbacksOf_append,
      startsOf_append, startsOf_rollback]
    refine ⟨?_, by omega⟩
    rw [← append_assoc]
    refine (hnever.append (by omega)).append ?_
    simp only [rollbacksOf_append, startsOf_append]
    omega
  | unwound _ hstate _ hepisodes =>
    have hle := h.starts_le_succ
    have hone := rollbacksOf_rollback_all hrollback
    simp only [Books, hstate, log_concat hepisodes, rollbacksOf_append,
      startsOf_append, startsOf_rollback]
    omega

end Books

theorem unwound_append (first rest : List StageEvent) :
    unwound (first ++ rest) = unwound first ++ unwound rest :=
  filterMap_append

theorem unwound_eq_nil (hnone : ∀ j, rollbacksOf j events = 0) : unwound events = [] := by
  refine filterMap_eq_nil_iff.mpr fun event hmem => ?_
  cases event with
  | rolledBack i => exact absurd hmem (count_eq_zero.mp (hnone i))
  | started i | startFailed i | contextFreed i => rfl

theorem unwound_rollback (stages : List RuntimeLifecycleStage) (n : Nat) :
    (∀ i ∈ unwound (rollback stages n), i < n) ∧
      (unwound (rollback stages n)).Pairwise (· > ·) := by
  induction n with
  | zero => exact ⟨fun i hi => (nomatch hi), List.Pairwise.nil⟩
  | succ n ih =>
    obtain ⟨hbelow, hsorted⟩ := ih
    rw [rollback, unwound_append]
    split
    · refine ⟨fun i hi => ?_, pairwise_cons.mpr ⟨hbelow, hsorted⟩⟩
      rcases mem_cons.mp hi with rfl | hi
      · exact Nat.lt_succ_self i
      · exact Nat.lt_succ_of_lt (hbelow i hi)
    · exact ⟨fun i hi => Nat.lt_succ_of_lt (hbelow i hi), hsorted⟩

def Ordered (c : RuntimeCoordinator) : Prop :=
  ∀ episode ∈ c.episodes, (unwound episode).Pairwise (· > ·)

theorem Ordered.concat (h : c.Ordered) (n : Nat) {quiet quiet' : List StageEvent}
    (hquiet : ∀ j, rollbacksOf j quiet = 0) (hquiet' : ∀ j, rollbacksOf j quiet' = 0)
    (hepisodes : next.episodes = c.episodes ++ [quiet ++ rollback c.stages n ++ quiet']) :
    next.Ordered := by
  intro episode hmem
  rw [hepisodes, mem_append, mem_singleton] at hmem
  rcases hmem with hmem | rfl
  · exact h episode hmem
  · rw [unwound_append, unwound_append, unwound_eq_nil hquiet,
      unwound_eq_nil hquiet', nil_append, append_nil]
    exact (unwound_rollback c.stages n).2

theorem Ordered.step (h : c.Ordered) (heffect : Effect c next) :
    next.Ordered := by
  have hnil : ∀ j, rollbacksOf j [] = 0 := fun _ => rfl
  cases heffect with
  | refused hsame => rwa [hsame]
  | started r _ hrun _ _ _ hepisodes =>
    refine h.concat 0 hrun.no_rollback hnil ?_
    rw [hepisodes, rollback, append_nil, append_nil]
  | failed r k _ hrun _ _ _ hepisodes =>
    refine h.concat k hrun.no_rollback hnil ?_
    rw [hepisodes, append_nil]
  | unwound _ _ _ hepisodes =>
    refine h.concat c.stages.length hnil hnil ?_
    rw [hepisodes, nil_append, append_nil]

/-- The coordinator before its destruction. -/
def afterCalls (stages : List RuntimeLifecycleStage) (calls : List Call) : RuntimeCoordinator :=
  final apply { stages } calls

theorem afterCalls_stages (stages : List RuntimeLifecycleStage)
    (calls : List Call) : (afterCalls stages calls).stages = stages :=
  Runs.foldl_keeps RuntimeCoordinator.stages apply
    (fun c call => (apply_effect c call).stages_eq) calls { stages }

theorem afterCalls_books (calls : List Call) (hrollback : hasRollback stages j = true) :
    Books j (afterCalls stages calls) := by
  have hinit : Books j { stages } :=
    ⟨fun front hfront => by rw [prefix_nil.mp hfront]; rfl, rfl⟩
  have hboth := final_invariant' (fun c => hasRollback c.stages j = true ∧ Books j c)
    (fun c call hinv => by
      have heffect := apply_effect c call
      exact ⟨heffect.stages_eq ▸ hinv.1, hinv.2.step hinv.1 heffect⟩)
    ⟨hrollback, hinit⟩ calls
  exact hboth.2

theorem afterCalls_ordered (stages : List RuntimeLifecycleStage)
    (calls : List Call) : (afterCalls stages calls).Ordered :=
  final_invariant' Ordered (fun c call hinv => hinv.step (apply_effect c call))
    (fun _ hmem => absurd hmem not_mem_nil) calls

theorem destroy_ordered (h : c.Ordered) : c.destroy.Ordered := by
  have hnil : ∀ j, rollbacksOf j [] = 0 := fun _ => rfl
  exact h.concat c.stages.length hnil (fun j => rollbacksOf_freeContexts c.stages j) rfl

/-- The books balance over the whole life of a coordinator exactly if none of
its stages has a rollback action, or the destructor finds it running. -/
theorem unwoundOnce_iff (stages : List RuntimeLifecycleStage) (calls : List Call) :
    UnwoundOnce (afterCalls stages calls).destroy ↔ (∀ stage ∈ stages, stage.rollback = false) ∨
        (afterCalls stages calls).state = .running := by
  have hsame : (afterCalls stages calls).destroy.stages = stages :=
    afterCalls_stages stages calls
  have hlog : (afterCalls stages calls).destroy.log = _ := log_concat rfl
  rw [afterCalls_stages] at hlog
  constructor
  · intro hbalanced
    by_contra hneither
    obtain ⟨hsome, hstate⟩ := not_or.mp hneither
    push Not at hsome
    obtain ⟨stage, hmem, hback⟩ := hsome
    obtain ⟨j, hj⟩ := mem_iff_getElem?.mp hmem
    have hrollback : hasRollback stages j = true :=
      hasRollback_iff.mpr ⟨stage, hj, by simpa using hback⟩
    have hle := (afterCalls_books calls hrollback).starts_le hstate
    have heven := hbalanced.even j (by rwa [hsame])
    have hone := rollbacksOf_rollback_all hrollback
    rw [hlog] at heven
    simp only [rollbacksOf_append, startsOf_append, startsOf_rollback,
      rollbacksOf_freeContexts, startsOf_freeContexts] at heven
    omega
  · intro hcond
    have hbooks : ∀ j, hasRollback stages j = true → NeverAhead j (afterCalls stages calls).log ∧
          rollbacksOf j (afterCalls stages calls).log + 1 =
            startsOf j (afterCalls stages calls).log := by
      intro j hrollback
      rcases hcond with hnone | hstate
      · obtain ⟨stage, hstage, hback⟩ := hasRollback_iff.mp hrollback
        rw [hnone stage (mem_of_getElem? hstage)] at hback
        cases hback
      · exact (afterCalls_books calls hrollback).of_running hstate
    refine ⟨fun j hj => ?_, fun j hj => ?_, destroy_ordered (afterCalls_ordered stages calls)⟩
    · rw [hsame] at hj
      obtain ⟨hnever, hahead⟩ := hbooks j hj
      have hone := rollbacksOf_rollback_all hj
      rw [hlog]
      refine hnever.append ?_
      rw [rollbacksOf_append, rollbacksOf_freeContexts]
      omega
    · rw [hsame] at hj
      obtain ⟨-, hahead⟩ := hbooks j hj
      have hone := rollbacksOf_rollback_all hj
      rw [hlog]
      simp only [rollbacksOf_append, startsOf_append, startsOf_rollback,
        rollbacksOf_freeContexts, startsOf_freeContexts]
      omega

namespace UnwindingWitness

/-- One stage whose start succeeds, stopped before it is destroyed: its rollback
runs twice. -/
theorem stopped_unwound_twice :
    (afterCalls [{ name := "network" }] [.start fun _ => true, .stop]).destroy.log =
      [.started 0, .rolledBack 0, .rolledBack 0] ∧
    ¬ UnwoundOnce (afterCalls [{ name := "network" }] [.start fun _ => true, .stop]).destroy := by
  refine ⟨rfl, fun hbalanced => ?_⟩
  have heven := hbalanced.even 0 rfl
  exact absurd heven (by decide)

end UnwindingWitness

end HPActor.RuntimeCoordinator
