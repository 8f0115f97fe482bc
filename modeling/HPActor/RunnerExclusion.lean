/-
One worker per actor.  The state word alone excludes a second activation: a
worker comes to hold the word by a swap from ready, and nobody but the holder
writes a running word.
-/
import HPActor.Interleaving
import HPActor.Scheduler

namespace HPActor

open Runs Interleaving Function

universe u v

variable {T : Type u} {K : Type v}

/-- The thread stands between its successful swap from ready to running and
its own next store to the state word of the actor. -/
def ThreadPc.Holds : ThreadPc K → K → Prop
  | .executing item _ _ pc, actor => item.actor = actor ∧ pc.holds = true
  | _, _ => False

/-- The thread is inside the actor's handler. -/
def ThreadPc.InHandler : ThreadPc K → K → Prop
  | .executing item _ _ .handle, actor => item.actor = actor
  | _, _ => False

theorem ThreadPc.InHandler.holds {pc : ThreadPc K} {actor : K}
    (hin : pc.InHandler actor) : pc.Holds actor := by
  unfold InHandler at hin
  split at hin
  · exact ⟨hin, rfl⟩
  · cases hin

def Running (words : K → ActorState) (actor : K) : Prop :=
  words actor = .running

variable [DecidableEq K]

/-- What the exclusion rule asks of the step of a thread. -/
structure Effect.Respects (words : K → ActorState) (pc : ThreadPc K)
    (effect : Effect K) : Prop where
  acquire : ∀ actor, effect.pc.Holds actor → pc.Holds actor ∨ ¬ Running words actor
  hold : ∀ actor, effect.pc.Holds actor → Running (writeWord words effect.word) actor
  others : ∀ actor, Running words actor → ¬ pc.Holds actor →
    Running (writeWord words effect.word) actor

variable {words : K → ActorState} {pc : ThreadPc K} {effect : Effect K}

/-- A step that writes no word and leads out of every activation. -/
theorem Effect.Respects.of_quiet (hword : effect.word = none)
    (hpc : ∀ actor, ¬ effect.pc.Holds actor) :
    effect.Respects words pc := by
  constructor
  · intro actor hholds
    exact absurd hholds (hpc actor)
  · intro actor hholds
    exact absurd hholds (hpc actor)
  · intro actor hrunning _
    rw [hword]
    exact hrunning

/-- A word written for one actor that was not running, or stays so, leaves
every running actor running. -/
theorem running_writeWord {actor other : K} {word : ActorState} (hrunning : Running words other)
    (hsame : actor = other → word = .running) :
    Running (writeWord words (some (actor, word))) other := by
  by_cases heq : other = actor
  · subst heq
    simp only [Running, writeWord, update_self]
    exact hsame rfl
  · simp only [Running, writeWord, update_of_ne heq]
    exact hrunning

section

variable {s : SchedulerState T K} {setup : SchedulerSetup K}

theorem afterNotify_respects (entry : Entry K) {word : Option (K × ActorState)}
    (outcome : GateOutcome .tryMarkReady)
    (hword : ∀ actor, Running words actor → Running (writeWord words word) actor) :
    (afterNotify s entry word outcome).Respects words pc := by
  have hpc : ∀ actor, ¬ (afterNotify s entry word outcome).pc.Holds actor := by
    intro actor
    unfold afterNotify
    split <;> exact id
  have hsame : (afterNotify s entry word outcome).word = word := by
    unfold afterNotify
    split <;> rfl
  constructor
  · intro actor hholds
    exact absurd hholds (hpc actor)
  · intro actor hholds
    exact absurd hholds (hpc actor)
  · intro actor hrunning _
    rw [hsame]
    exact hword actor hrunning

variable (store : QueueId → List (Entry K)) (queue : QueueId) {otherwise : ThreadPc K}

theorem takeFront_respects (hpc : ∀ actor, ¬ otherwise.Holds actor) :
    (takeFront store queue otherwise).Respects words pc := by
  unfold takeFront
  split
  · exact .of_quiet rfl hpc
  · exact .of_quiet rfl fun _ => id

theorem popBottom_respects (hpc : ∀ actor, ¬ otherwise.Holds actor) :
    (popBottom store queue otherwise).Respects words pc := by
  unfold popBottom
  split
  · exact .of_quiet rfl hpc
  · exact .of_quiet rfl fun _ => id

variable (setup : PlacementSetup K) (store : QueueId → List (Entry K))

theorem pushBottom_respects (worker : Nat) (entry : Entry K) {next : ThreadPc K}
    (hpc : ∀ actor, ¬ next.Holds actor) :
    (pushBottom setup store worker entry next).Respects words pc := by
  unfold pushBottom
  split
  · exact .of_quiet rfl hpc
  · exact .of_quiet rfl hpc

theorem enqueueAdmitted_respects (counters : Counters) (paused : Bool)
    (entry : Entry K) (place : PlacePc) :
    (enqueueAdmitted setup store counters paused entry place).Respects words pc := by
  unfold enqueueAdmitted chooseWorker Effect.finish
  repeat' split
  all_goals exact .of_quiet rfl fun _ => id

theorem afterRun_respects (item : WorkItem K) (round : Nat) (paused : Bool)
    (disposition : ActorRunDisposition) :
    (afterRun s item round paused disposition).Respects words pc := by
  unfold afterRun
  split
  · split
    · refine .of_quiet rfl ?_
      rintro actor ⟨-, hholds⟩
      cases hholds
    · split <;> exact .of_quiet rfl fun _ => id
  · exact .of_quiet rfl fun _ => id

end

section

variable {s : SchedulerState T K} (setup : SchedulerSetup K) (answer : Answer)

theorem executeStep_respects {item : WorkItem K} {round : Nat} {paused : Bool} {pc : RunnerPc}
    (hcur : pc.holds = true → Running s.words item.actor) :
    (executeStep setup s answer item round paused pc).Respects s.words
      (.executing item round paused pc) := by
  by_cases hdone : ∃ disposition, pc = .done disposition
  · obtain ⟨disposition, rfl⟩ := hdone
    exact afterRun_respects item round paused disposition
  rw [executeStep_of_ne_done setup s answer item round paused
    (fun disposition heq => hdone ⟨disposition, heq⟩)]
  constructor
  · rintro actor ⟨rfl, hnext⟩
    rcases runnerStep_acquire _ _ hnext with hpc | ⟨hready, -⟩
    · exact .inl ⟨rfl, hpc⟩
    · right
      simp [Running, hready]
  · rintro actor ⟨rfl, hnext⟩
    simp only [Running, writeWord, update_self]
    rcases runnerStep_acquire _ _ hnext with hpc | ⟨-, hrunning⟩
    · rw [hcur hpc] at hnext ⊢
      rcases runnerStep_holding _ _ hpc with ⟨-, hkept⟩ | ⟨hnone, -⟩
      · exact hkept
      · rw [hnone] at hnext
        cases hnext
    · exact hrunning
  · intro actor hrunning hnot
    apply running_writeWord hrunning
    rintro rfl
    have hpc : pc.holds = false := by
      by_contra hholds
      exact hnot ⟨rfl, by simpa using hholds⟩
    rw [hrunning]
    exact runnerStep_running _ _ hpc

theorem beginCall_respects (call : Call K) : (beginCall setup s call).Respects s.words pc := by
  cases call with
  | notify kind actor priority deadlineNs =>
    simp only [beginCall]
    split
    · exact afterNotify_respects _ _ fun _ hrunning => hrunning
    · exact .of_quiet rfl fun _ => id
  | takePool pool thread => exact takeFront_respects _ _ fun _ => id
  | _ => exact .of_quiet rfl fun _ => id

theorem threadStep_respects (hcur : ∀ actor, pc.Holds actor → Running s.words actor) :
    (threadStep setup s answer pc).Respects s.words pc := by
  cases pc with
  | idle | takeStack worker => exact .of_quiet rfl fun _ => id
  | notifying entry gate =>
    apply afterNotify_respects
    intro actor hrunning
    apply running_writeWord hrunning
    rintro rfl
    rw [hrunning]
    exact gateStep_running gate
  | placing entry place => exact enqueueAdmitted_respects _ _ _ _ _ _
  | drainRing worker =>
    simp only [threadStep, drainRing]
    split <;> exact .of_quiet rfl fun _ => id
  | moveRing worker entry => exact pushBottom_respects _ _ _ _ fun _ => id
  | drainStack worker entries =>
    cases entries with
    | nil => exact .of_quiet rfl fun _ => id
    | cons entry rest => exact pushBottom_respects _ _ _ _ fun _ => id
  | popEdf worker => exact takeFront_respects _ _ fun _ => id
  | popDeque worker priority =>
    simp only [threadStep]
    split
    · exact popBottom_respects _ _ fun _ => id
    · exact .of_quiet rfl fun _ => id
  | stealEdf attempt | stealDeque attempt victim priority =>
    simp only [threadStep]
    split
    · exact takeFront_respects _ _ fun _ => id
    · exact .of_quiet rfl fun _ => id
  | dispatch entry =>
    refine .of_quiet rfl ?_
    intro actor
    simp only [threadStep, startExecute]
    split
    · rintro ⟨-, hholds⟩
      cases hholds
    · exact id
  | executing item round paused runner =>
    apply executeStep_respects
    intro hholds
    exact hcur item.actor ⟨rfl, hholds⟩

end

/-- The words and the positions of the threads exclude a second holder. -/
def SchedulerState.Excluded (s : SchedulerState T K) : Prop :=
  Exclusive ThreadPc.Holds Running s.words s.threads

omit [DecidableEq K] in
theorem excluded_of_idle {s : SchedulerState T K}
    (hidle : ∀ t, s.threads t = .idle) : s.Excluded := by
  constructor
  · intro t actor hholds
    rw [hidle t] at hholds
    cases hholds
  · intro t u actor hholds
    rw [hidle t] at hholds
    cases hholds

variable [DecidableEq T]

theorem Effect.Respects.excluded {s : SchedulerState T K} {t : T}
    (hexcl : s.Excluded) (heffect : effect.Respects s.words (s.threads t)) :
    (s.apply t effect).Excluded :=
  hexcl.step t effect.pc heffect.acquire heffect.hold heffect.others

theorem schedulerStep_excluded (setup : SchedulerSetup K)
    (s : SchedulerState T K) (action : SchedulerAct T K)
    (next : SchedulerState T K) (hexcl : s.Excluded)
    (hstep : schedulerStep setup s action = some next) : next.Excluded := by
  cases action with
  | begin t call =>
    simp only [schedulerStep] at hstep
    split at hstep
    · cases hstep
      exact (beginCall_respects setup call).excluded hexcl
    · cases hstep
  | advance t answer =>
    cases hstep
    exact (threadStep_respects setup answer (hexcl.taken t)).excluded hexcl
  | control running paused =>
    cases hstep
    exact ⟨hexcl.taken, hexcl.unique⟩

/-- From any words and any queued items, in every interleaving of workers,
pool threads and notifications, no two threads hold one actor's state word at
once and its handler is entered by one thread at most. -/
theorem one_worker_per_actor (setup : SchedulerSetup K) (init : SchedulerState T K)
    (hidle : ∀ t, init.threads t = .idle) (actions : List (SchedulerAct T K))
    (s : SchedulerState T K) (hrun : run (schedulerStep setup) init actions = some s) (t u : T)
    (actor : K) :
    ((s.threads t).Holds actor → (s.threads u).Holds actor → t = u) ∧
      ((s.threads t).InHandler actor → (s.threads u).InHandler actor → t = u) := by
  have hexcl : s.Excluded :=
    run_invariant' (schedulerStep_excluded setup) (excluded_of_idle hidle) hrun
  constructor
  · exact hexcl.unique t u actor
  · intro ht hu
    exact hexcl.unique t u actor ht.holds hu.holds

namespace RunnerExclusionWitness

def setup : SchedulerSetup Nat where
  numWorkers := 2
  numPriorities := 1
  registered := fun _ => some .eventBased

def init : SchedulerState Bool Nat := {}

def yes : Answer := { flag := true }

def no : Answer := {}

/-- Thread `false` is notified of actor 7, pops its item and enters the
handler; thread `true` then executes a second item of the same actor. -/
def twoItems : List (SchedulerAct Bool Nat) :=
  [.begin false (.notify .notifyReady 7 0 0),
    .advance false no, .advance false no, .advance false no, .advance false no,
    .begin false (.popLocal 0),
    .advance false no, .advance false no, .advance false no, .advance false no,
    .advance false no, .advance false no, .advance false no,
    .advance false no, .advance false no, .advance false yes,
    .advance false yes, .advance false no,
    .begin true (.execute ⟨7, 0, 0, false, true, none⟩),
    .advance true no, .advance true no]

theorem second_item_stays_out :
    ∃ s, run (schedulerStep setup) init twoItems = some s ∧
      (s.threads false).InHandler 7 ∧ ¬ (s.threads true).Holds 7 := by
  obtain ⟨s, hrun, hin⟩ : ∃ s, run (schedulerStep setup) init twoItems = some s ∧
        (s.threads false).InHandler 7 := ⟨_, rfl, (rfl : (7 : Nat) = 7)⟩
  refine ⟨s, hrun, hin, ?_⟩
  intro hholds
  have hsame := (one_worker_per_actor setup init (fun _ => rfl) twoItems s hrun
    false true 7).1 hin.holds hholds
  cases hsame

end RunnerExclusionWitness

end HPActor
