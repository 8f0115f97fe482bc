/-
A ready actor has a work item.  Admission makes the word ready first and the
item then travels through the queues, so the statement is one of custody: a
ready word is backed by an entry in a queue or in the hands of a thread, or by
an activation that is about to claim the word.
-/
import HPActor.Interleaving
import HPActor.Scheduler

namespace HPActor

open Runs Interleaving Function List SchedulerState ThreadPc Option

universe u v

variable {T : Type u} {K : Type v}

/-- The entries a thread has in its hands, before their execution. -/
def ThreadPc.carries : ThreadPc K → List (Entry K)
  | .placing entry _ => [entry]
  | .moveRing _ entry => [entry]
  | .drainStack _ entries => entries
  | .dispatch entry => [entry]
  | _ => []

/-- The entry whose execution the thread is about to start. -/
def ThreadPc.taken : ThreadPc K → Option (Entry K)
  | .dispatch entry => some entry
  | _ => none

theorem ThreadPc.taken_eq_none {pc : ThreadPc K} (hcarries : pc.carries = []) :
    pc.taken = none := by
  cases pc <;> first | rfl | cases hcarries

/-- The thread is about to claim the word, or to decide about the requeue of
an activation that left the word ready. -/
def ThreadPc.Promises : ThreadPc K → K → Prop
  | .executing item _ _ .claim, actor => item.actor = actor
  | .executing item _ _ (.done .requeueReady), actor => item.actor = actor
  | _, _ => False

theorem ThreadPc.Promises.actor_eq {item : WorkItem K} {round : Nat}
    {paused : Bool} {runner : RunnerPc} {actor : K}
    (hpromise : (executing item round paused runner).Promises actor) :
    item.actor = actor := by
  cases runner with
  | claim => exact hpromise
  | done disposition =>
    cases disposition with
    | requeueReady => exact hpromise
    | _ => cases hpromise
  | _ => cases hpromise

def SchedulerState.Carried (s : SchedulerState T K) (entry : Entry K) : Prop :=
  Somewhere s.store (fun t => (s.threads t).carries) entry

section

variable (setup : PlacementSetup K)

/-- The entry's priority is one of the scheduler's deques. -/
def HasDeque (entry : Entry K) : Prop :=
  entry.priority.toNat < setup.numPriorities

/-- The entry goes to a heap, to a pool, or to a deque that exists. -/
def Routed (entry : Entry K) : Prop :=
  entry.item.edfScheduled = true ∨
    (setup.actorPool entry.item.actor).isSome = true ∨ HasDeque setup entry

def PlacedWell (entry : Entry K) : PlacePc → Prop
  | .choose => Routed setup entry
  | .shared _ => entry.item.edfScheduled = true ∨ HasDeque setup entry
  | .stack _ => HasDeque setup entry

/-- No entry of the actor is on a way that ends where it is dropped. -/
def PcWell (actor : K) : ThreadPc K → Prop
  | .notifying entry _ => entry.item.actor = actor → Routed setup entry
  | .placing entry pc => entry.item.actor = actor → PlacedWell setup entry pc
  | .moveRing _ entry => entry.item.actor = actor → HasDeque setup entry
  | .drainStack _ entries =>
    ∀ entry ∈ entries, entry.item.actor = actor → HasDeque setup entry
  | _ => True

def QueueWell (actor : K) (entries : List (Entry K)) : QueueId → Prop
  | .injectRing _ | .sharedInput _ =>
    ∀ entry ∈ entries, entry.item.actor = actor → HasDeque setup entry
  | .pinnedReady _ => ∀ entry ∈ entries, entry.item.actor ≠ actor
  | _ => True

/-- The queue the step edits stays well. -/
def Effect.StoresWell (actor : K) (effect : Effect K) : Prop :=
  match effect.queue with
  | none => True
  | some (queue, entries) => QueueWell setup actor entries queue

end

variable [DecidableEq K]

/-- The step keeps an entry that the thread or the queue it edits had. -/
def Effect.KeepsEntry (store : QueueId → List (Entry K)) (pc : ThreadPc K)
    (effect : Effect K) (entry : Entry K) : Prop :=
  match effect.queue with
  | none => entry ∈ pc.carries → entry ∈ effect.pc.carries
  | some (queue, entries) =>
    entry ∈ pc.carries ∨ entry ∈ store queue → entry ∈ entries ∨ entry ∈ effect.pc.carries

theorem Effect.KeepsEntry.carried [DecidableEq T] {s : SchedulerState T K} {t : T}
    {effect : Effect K} {entry : Entry K} (hcarried : s.Carried entry)
    (hkeeps : effect.KeepsEntry s.store (s.threads t) entry) :
    (s.apply t effect).Carried entry := by
  have hhands : (fun u => ((s.apply t effect).threads u).carries) =
      update (fun u => (s.threads u).carries) t effect.pc.carries := by
    funext u
    by_cases hu : u = t
    · subst hu
      simp [apply]
    · simp [apply, update_of_ne hu]
  unfold SchedulerState.Carried
  rw [hhands]
  unfold KeepsEntry at hkeeps
  simp only [apply]
  split at hkeeps
  · rename_i hqueue
    rw [hqueue]
    exact Somewhere.keep hcarried hkeeps
  · rename_i queue entries hqueue
    rw [hqueue]
    exact Somewhere.transfer hcarried
      (fun hmem => hkeeps (.inr hmem)) (fun hmem => hkeeps (.inl hmem))

/-- The thread itself stands for the readiness of the actor. -/
def ThreadPc.Backs (pc : ThreadPc K) (actor : K) : Prop :=
  pc.Promises actor ∨ ∃ entry ∈ pc.carries, entry.item.actor = actor

/-- What the step of a thread owes to the work of one actor. -/
structure Effect.Accounts (setup : PlacementSetup K) (actor : K)
    (s : SchedulerState T K) (pc : ThreadPc K) (effect : Effect K) :
    Prop where
  routed : PcWell setup actor effect.pc
  stored : effect.StoresWell setup actor
  custody : ∀ entry, entry.item.actor = actor → pc.taken ≠ some entry →
    effect.KeepsEntry s.store pc entry
  readies : writeWord s.words effect.word actor = .ready →
    s.words actor = .ready ∧ ¬ pc.Promises actor ∨ effect.pc.Backs actor
  admits : effect.admits = some actor → ∃ entry ∈ effect.pc.carries, entry.item.actor = actor ∧
      entry.item.ticket = some s.admitted.length
  executes : ∀ entry, entry.item.actor = actor → pc.taken = some entry →
    effect.executes = entry.item.ticket ∧ effect.pc.Promises actor

/-- The invariant for one actor: its readiness is backed, and each admission
logged for it was executed or is still on its way. -/
structure Covered (setup : PlacementSetup K) (actor : K) (s : SchedulerState T K) : Prop where
  unpaused : s.paused = false
  routed : ∀ t, PcWell setup actor (s.threads t)
  stored : ∀ queue, QueueWell setup actor (s.store queue) queue
  backed : s.words actor = .ready → (∃ entry, entry.item.actor = actor ∧ s.Carried entry) ∨
      ∃ t, (s.threads t).Promises actor
  ticketed : ∀ ticket, (actor, ticket) ∈ s.admitted → ticket ∈ s.executed ∨
      ∃ entry, entry.item.actor = actor ∧ entry.item.ticket = some ticket ∧ s.Carried entry

section

variable [DecidableEq T] {setup : PlacementSetup K} {actor : K}
  {s : SchedulerState T K} {t : T} {effect : Effect K}

theorem apply_thread_self : (s.apply t effect).threads t = effect.pc := by
  simp [apply]

theorem carried_of_hand {entry : Entry K} (hmem : entry ∈ effect.pc.carries) :
    (s.apply t effect).Carried entry := by
  right
  refine ⟨t, ?_⟩
  show entry ∈ ((s.apply t effect).threads t).carries
  rw [apply_thread_self]
  exact hmem

omit [DecidableEq K] [DecidableEq T] in
theorem writeQueue_well (hstored : ∀ queue, QueueWell setup actor (s.store queue) queue)
    (hnew : effect.StoresWell setup actor) (queue : QueueId) :
    QueueWell setup actor (writeQueue s.store effect.queue queue) queue := by
  unfold Effect.StoresWell at hnew
  split at hnew
  · next hqueue =>
    rw [hqueue]
    exact hstored queue
  · next target entries hqueue =>
    simp only [hqueue, writeQueue]
    by_cases heq : queue = target
    · subst heq
      rw [update_self]
      exact hnew
    · rw [update_of_ne heq]
      exact hstored queue

section

variable (hcovered : Covered setup actor s) (heffect : effect.Accounts setup actor s (s.threads t))
include hcovered heffect

theorem Covered.backed_apply (hready : (s.apply t effect).words actor = .ready) :
        (∃ entry, entry.item.actor = actor ∧ (s.apply t effect).Carried entry) ∨
      ∃ u, ((s.apply t effect).threads u).Promises actor := by
  have hself : effect.pc.Promises actor → ∃ u, ((s.apply t effect).threads u).Promises actor := by
    intro hpromise
    refine ⟨t, ?_⟩
    rw [apply_thread_self]
    exact hpromise
  rcases heffect.readies hready with ⟨hword, hnot⟩ | hpromise | hhand
  · rcases hcovered.backed hword with ⟨entry, hactor, hcarried⟩ | ⟨u, hu⟩
    · by_cases hdispatch : (s.threads t).taken = some entry
      · exact .inr (hself (heffect.executes entry hactor hdispatch).2)
      · exact .inl ⟨entry, hactor, (heffect.custody entry hactor hdispatch).carried hcarried⟩
    · have hne : u ≠ t := by
        rintro rfl
        exact hnot hu
      refine .inr ⟨u, ?_⟩
      simpa [apply, update_of_ne hne] using hu
  · exact .inr (hself hpromise)
  · obtain ⟨entry, hmem, hactor⟩ := hhand
    exact .inl ⟨entry, hactor, carried_of_hand hmem⟩

theorem Covered.ticketed_apply {ticket : Nat}
    (hmem : (actor, ticket) ∈ (s.apply t effect).admitted) :
    ticket ∈ (s.apply t effect).executed ∨
      ∃ entry, entry.item.actor = actor ∧ entry.item.ticket = some ticket ∧
        (s.apply t effect).Carried entry := by
  simp only [apply, mem_append] at hmem
  rcases hmem with hold | hnew
  · rcases hcovered.ticketed ticket hold with hdone | ⟨entry, hactor, hticket, hcarried⟩
    · left
      simp [apply, hdone]
    · by_cases hdispatch : (s.threads t).taken = some entry
      · left
        have hexec := (heffect.executes entry hactor hdispatch).1
        simp [apply, hexec, hticket]
      · exact .inr ⟨entry, hactor, hticket,
          (heffect.custody entry hactor hdispatch).carried hcarried⟩
  · cases hadmits : effect.admits with
    | none => simp [hadmits] at hnew
    | some admitted =>
      simp only [hadmits, map_some, toList_some, mem_singleton, Prod.mk.injEq] at hnew
      obtain ⟨rfl, rfl⟩ := hnew
      obtain ⟨entry, hentry, hactor, hticket⟩ := heffect.admits hadmits
      exact .inr ⟨entry, hactor, hticket, carried_of_hand hentry⟩

theorem Covered.apply : Covered setup actor (s.apply t effect) where
  unpaused := hcovered.unpaused
  routed := forall_update hcovered.routed heffect.routed fun _ => id
  stored := writeQueue_well hcovered.stored heffect.stored
  backed := hcovered.backed_apply heffect
  ticketed := fun _ => hcovered.ticketed_apply heffect

end

end

section

variable {setup : PlacementSetup K} {actor : K} {s : SchedulerState T K}
  {pc : ThreadPc K} {effect : Effect K}

/-- A step between the queues: no word is written, nothing is admitted and
nothing is executed. -/
theorem Effect.Accounts.of_move (hword : effect.word = none)
    (hadmits : effect.admits = none) (hpromise : ¬ pc.Promises actor)
    (htaken : pc.taken = none) (hrouted : PcWell setup actor effect.pc)
    (hstored : effect.StoresWell setup actor)
    (hcustody : ∀ entry, entry.item.actor = actor → effect.KeepsEntry s.store pc entry) :
    effect.Accounts setup actor s pc where
  routed := hrouted
  stored := hstored
  custody := fun entry hactor _ => hcustody entry hactor
  readies := by
    intro hready
    rw [hword] at hready
    exact .inl ⟨hready, hpromise⟩
  admits := by simp [hadmits]
  executes := by simp [htaken]

/-- A step of a thread with empty hands, not at the queues. -/
theorem Effect.Accounts.of_empty (hcarries : pc.carries = []) (hqueue : effect.queue = none)
    (hrouted : PcWell setup actor effect.pc)
    (hreadies : writeWord s.words effect.word actor = .ready →
      s.words actor = .ready ∧ ¬ pc.Promises actor ∨ effect.pc.Backs actor)
    (hadmits : effect.admits = some actor → ∃ entry ∈ effect.pc.carries,
      entry.item.actor = actor ∧ entry.item.ticket = some s.admitted.length) :
    effect.Accounts setup actor s pc where
  routed := hrouted
  stored := by simp [StoresWell, hqueue]
  custody := by simp [KeepsEntry, hqueue, hcarries]
  readies := hreadies
  admits := hadmits
  executes := by simp [taken_eq_none hcarries]

/-- A thread with empty hands that only changes its position. -/
theorem Effect.Accounts.of_goto {next : ThreadPc K} (hcarries : pc.carries = [])
    (hpromise : ¬ pc.Promises actor) (hrouted : PcWell setup actor next) :
    ({ pc := next } : Effect K).Accounts setup actor s pc :=
  .of_empty hcarries rfl hrouted (fun hready => .inl ⟨hready, hpromise⟩)
    fun hadmits => by cases hadmits

theorem takeFront_accounts (queue : QueueId) {otherwise : ThreadPc K} (hcarries : pc.carries = [])
    (hpromise : ¬ pc.Promises actor) (hrouted : PcWell setup actor otherwise)
    (hstored : QueueWell setup actor (s.store queue) queue) :
    (takeFront s.store queue otherwise).Accounts setup actor s pc := by
  unfold takeFront
  split
  · exact .of_goto hcarries hpromise hrouted
  · rename_i entry rest hqueue
    refine .of_move rfl rfl hpromise (taken_eq_none hcarries) trivial ?_ ?_
    · rw [hqueue] at hstored
      cases queue with
      | injectRing worker | sharedInput worker | pinnedReady worker =>
        exact fun other hmem => hstored other (mem_cons_of_mem _ hmem)
      | _ => trivial
    · intro other _ hmem
      simp only [hcarries, hqueue, not_mem_nil, false_or, mem_cons] at hmem
      rcases hmem with rfl | hrest
      · exact .inr (mem_singleton_self _)
      · exact .inl hrest

variable (worker : Nat)

theorem popBottom_accounts (priority : Nat) {otherwise : ThreadPc K} (hcarries : pc.carries = [])
    (hpromise : ¬ pc.Promises actor) (hrouted : PcWell setup actor otherwise) :
    (popBottom s.store (.deque worker priority) otherwise).Accounts setup actor s pc := by
  unfold popBottom
  split
  · exact .of_goto hcarries hpromise hrouted
  · rename_i entry hlast
    refine .of_move rfl rfl hpromise (taken_eq_none hcarries) trivial trivial ?_
    intro other _ hmem
    simp only [hcarries, not_mem_nil, false_or] at hmem
    have hsplit := dropLast_append_getLast? entry hlast
    rw [← hsplit, mem_append] at hmem
    exact hmem

/-- An entry that has a deque is moved into it. -/
theorem pushBottom_accounts (entry : Entry K) {next : ThreadPc K}
    (hcarries : pc.carries = entry :: next.carries) (hpromise : ¬ pc.Promises actor)
    (htaken : pc.taken = none) (hrouted : PcWell setup actor next)
    (hdeque : entry.item.actor = actor → HasDeque setup entry) :
    (pushBottom setup s.store worker entry next).Accounts setup actor s pc := by
  unfold pushBottom
  split
  · refine .of_move rfl rfl hpromise htaken hrouted trivial ?_
    intro other _ hmem
    simp only [hcarries, mem_cons] at hmem
    simp only [mem_append, mem_singleton]
    tauto
  · rename_i hnone
    refine .of_move rfl rfl hpromise htaken hrouted trivial ?_
    intro other hactor hmem
    rw [hcarries, mem_cons] at hmem
    rcases hmem with rfl | hrest
    · exact absurd (hdeque hactor) hnone
    · exact hrest

theorem drainRing_accounts
    (hstored : QueueWell setup actor (s.store (.injectRing worker)) (.injectRing worker)) :
    (drainRing s.store worker).Accounts setup actor s (.drainRing worker) := by
  unfold drainRing
  split
  · exact .of_goto rfl id trivial
  · rename_i entry rest hqueue
    rw [hqueue] at hstored
    refine .of_move rfl rfl id rfl (hstored entry mem_cons_self)
      (fun other hmem => hstored other (mem_cons_of_mem _ hmem)) ?_
    intro other _ hmem
    simp only [carries, hqueue, not_mem_nil, false_or, mem_cons] at hmem
    rcases hmem with rfl | hrest
    · exact .inr (mem_singleton_self _)
    · exact .inl hrest

theorem takeStack_accounts
    (hstored : QueueWell setup actor (s.store (.sharedInput worker)) (.sharedInput worker)) :
    ({ pc := .drainStack worker (s.store (.sharedInput worker)).reverse
       queue := some (.sharedInput worker, []) } : Effect K).Accounts setup
      actor s (.takeStack worker) := by
  refine .of_move rfl rfl id rfl (fun entry hmem => hstored entry (mem_reverse.mp hmem))
    (fun entry hmem => by cases hmem) ?_
  intro entry _ hmem
  simp only [carries, not_mem_nil, false_or] at hmem
  exact .inr (mem_reverse.mpr hmem)

theorem drainStack_accounts (entries : List (Entry K))
    (hwell : PcWell setup actor (.drainStack worker entries)) :
    (drainStack setup s.store worker entries).Accounts setup actor s
      (.drainStack worker entries) := by
  cases entries with
  | nil => exact .of_goto rfl id trivial
  | cons entry rest =>
    exact pushBottom_accounts worker entry rfl id rfl
      (fun other hmem => hwell other (mem_cons_of_mem _ hmem)) (hwell entry mem_cons_self)

variable {entry : Entry K} {place : PlacePc}

/-- The last step of a placement: the entry joins a queue. -/
theorem placed_accounts {queue : QueueId} {entries : List (Entry K)} (hpc : effect.pc = .idle)
    (hword : effect.word = none) (hadmits : effect.admits = none)
    (hqueue : effect.queue = some (queue, entries))
    (hjoin : ∀ other, other ∈ entries ↔ other = entry ∨ other ∈ s.store queue)
    (hwell : QueueWell setup actor entries queue) :
    effect.Accounts setup actor s (.placing entry place) := by
  refine .of_move hword hadmits id rfl ?_ ?_ ?_
  · rw [hpc]
    trivial
  · rwa [Effect.StoresWell, hqueue]
  · intro other _
    unfold Effect.KeepsEntry
    rw [hqueue]
    intro hmem
    rw [carries, mem_singleton] at hmem
    exact .inl ((hjoin other).mpr hmem)

/-- A placement goes on with its entry in hand. -/
theorem placing_goto_accounts {next : PlacePc} {counters : Option Counters}
    (hwell : entry.item.actor = actor → PlacedWell setup entry next) :
    ({ pc := .placing entry next, counters } : Effect K).Accounts setup actor s
      (.placing entry place) :=
  .of_move rfl rfl id rfl hwell trivial fun _ _ hmem => hmem

theorem chooseWorker_accounts (counters : Counters)
    (hpool : setup.actorPool entry.item.actor = none)
    (hwell : entry.item.actor = actor → Routed setup entry) :
    (chooseWorker setup s.store counters false entry).Accounts setup actor s
      (.placing entry .choose) := by
  have hnext : entry.item.actor = actor →
      entry.item.edfScheduled = true ∨ HasDeque setup entry := by
    intro hactor
    rcases hwell hactor with hedf | hsome | hdeque
    · exact .inl hedf
    · rw [hpool] at hsome
      cases hsome
    · exact .inr hdeque
  unfold chooseWorker
  split
  · exact placing_goto_accounts hnext
  · exact placing_goto_accounts hnext

theorem enqueueAdmitted_accounts (counters : Counters) (hworkers : 0 < setup.numWorkers)
    (hdedicated : setup.dedicatedThread actor = false)
    (hstored : ∀ queue, QueueWell setup actor (s.store queue) queue)
    (hwell : entry.item.actor = actor → PlacedWell setup entry place) :
    (enqueueAdmitted setup s.store counters false entry place).Accounts setup
      actor s (.placing entry place) := by
  cases place with
  | choose =>
    simp only [enqueueAdmitted]
    split
    · rename_i hthread
      refine .of_move rfl rfl id rfl trivial trivial ?_
      intro other hactor hmem
      rw [carries, mem_singleton] at hmem
      rw [← hmem, hactor, hdedicated] at hthread
      cases hthread
    · split
      · exact placed_accounts rfl rfl rfl rfl (fun other => by simp [or_comm]) trivial
      · rename_i hpool
        rw [if_neg (Nat.pos_iff_ne_zero.mp hworkers)]
        exact chooseWorker_accounts counters hpool hwell
  | shared worker =>
    simp only [enqueueAdmitted]
    split
    · exact placed_accounts rfl rfl rfl rfl (fun other => mem_edfPush) trivial
    · rename_i hedf
      have hdeque : entry.item.actor = actor → HasDeque setup entry :=
        fun hactor => (hwell hactor).resolve_left hedf
      split
      · refine placed_accounts rfl rfl rfl rfl (fun other => by simp [or_comm]) ?_
        intro other hmem
        rw [mem_append, mem_singleton] at hmem
        rcases hmem with hold | rfl
        · exact hstored (.injectRing worker) other hold
        · exact hdeque
      · exact placing_goto_accounts hdeque
  | stack worker =>
    refine placed_accounts rfl rfl rfl rfl (fun other => mem_cons) ?_
    intro other hmem
    rw [mem_cons] at hmem
    rcases hmem with rfl | hold
    · exact hwell
    · exact hstored (.sharedInput worker) other hold

end

section

variable {setup : SchedulerSetup K} {actor : K} {s : SchedulerState T K} {pc : ThreadPc K}

theorem writeWord_ready_of_ne {words : K → ActorState} {other : K}
    {word : ActorState} (hne : other ≠ actor) :
    writeWord words (some (other, word)) actor = words actor := by
  simp only [writeWord, update_of_ne (Ne.symm hne)]

/-- A notification after its gate: it goes round, it carries an admitted entry
from now on, or it ends. -/
theorem afterNotify_accounts {entry : Entry K}
    {word : Option (K × ActorState)} {outcome : GateOutcome .tryMarkReady}
    (hcarries : pc.carries = []) (hpromise : ¬ pc.Promises actor)
    (hrouted : entry.item.actor = actor → Routed setup.toPlacementSetup entry)
    (hword : writeWord s.words word actor = .ready → s.words actor = .ready ∨
        outcome = .answer .accepted ∧ entry.item.actor = actor) :
    (afterNotify s entry word outcome).Accounts setup.toPlacementSetup actor s pc := by
  have hquiet : outcome ≠ .answer .accepted → writeWord s.words word actor = .ready →
      s.words actor = .ready ∧ ¬ pc.Promises actor := by
    intro hne hready
    rcases hword hready with hold | ⟨haccepted, -⟩
    · exact ⟨hold, hpromise⟩
    · exact absurd haccepted hne
  unfold afterNotify
  split
  · exact .of_empty hcarries rfl hrouted (fun hready => .inl (hquiet (by simp) hready))
      fun hadmits => by cases hadmits
  · refine .of_empty hcarries rfl hrouted ?_ ?_
    · intro hready
      rcases hword hready with hold | ⟨-, hactor⟩
      · exact .inl ⟨hold, hpromise⟩
      · exact .inr (.inr ⟨_, mem_singleton_self _, hactor⟩)
    · intro hadmits
      exact ⟨_, mem_singleton_self _, some.inj hadmits, rfl⟩
  · rename_i code hcode
    exact .of_empty hcarries rfl trivial
      (fun hready => .inl (hquiet (by simpa using hcode) hready)) fun hadmits => by cases hadmits

variable {paused : Bool} {round : Nat} {item : WorkItem K} {disposition : ActorRunDisposition}

/-- A requeue: the activation hands its promise over to a new entry. -/
theorem admit_accounts {next : WorkItem K}
    (hpriorities : 0 < setup.numPriorities) (hactor : next.actor = item.actor) :
    (enqueueItem s ⟨next, 0⟩).Accounts setup.toPlacementSetup actor s
      (.executing item round paused (.done disposition)) := by
  refine .of_empty rfl rfl (fun _ => .inr (.inr hpriorities)) ?_ ?_
  · intro hready
    by_cases hsame : item.actor = actor
    · exact .inr (.inr ⟨_, mem_singleton_self _, hactor.trans hsame⟩)
    · exact .inl ⟨hready, fun hpromise => hsame hpromise.actor_eq⟩
  · intro hadmits
    exact ⟨_, mem_singleton_self _, some.inj hadmits, rfl⟩

theorem afterRun_accounts (hpriorities : 0 < setup.numPriorities) :
    (afterRun s item round paused disposition).Accounts setup.toPlacementSetup
      actor s (.executing item round paused (.done disposition)) := by
  cases disposition with
  | requeueReady =>
    simp only [afterRun]
    split
    · refine .of_empty rfl rfl trivial ?_ fun hadmits => by cases hadmits
      intro hready
      by_cases hsame : item.actor = actor
      · exact .inr (.inl hsame)
      · exact .inl ⟨hready, hsame⟩
    · split
      · exact admit_accounts hpriorities rfl
      · exact admit_accounts hpriorities rfl
  | _ => exact .of_goto rfl id trivial

theorem executeStep_accounts (answer : Answer) {runner : RunnerPc}
    (hpriorities : 0 < setup.numPriorities) :
    (executeStep setup s answer item round paused runner).Accounts
      setup.toPlacementSetup actor s (.executing item round paused runner) := by
  by_cases hdone : ∃ disposition, runner = .done disposition
  · obtain ⟨disposition, rfl⟩ := hdone
    exact afterRun_accounts hpriorities
  have hnotDone : ∀ disposition, runner ≠ .done disposition :=
    fun disposition heq => hdone ⟨disposition, heq⟩
  rw [executeStep_of_ne_done setup s answer item round paused hnotDone]
  refine .of_empty rfl rfl trivial ?_ fun hadmits => by cases hadmits
  intro hready
  by_cases hsame : item.actor = actor
  · subst hsame
    simp only [writeWord, update_self] at hready
    rcases runnerStep_ready _ _ hready with ⟨hword, hclaim⟩ | hrequeue
    · left
      refine ⟨hword, ?_⟩
      cases runner with
      | claim => exact absurd rfl hclaim
      | done disposition => exact absurd rfl (hnotDone disposition)
      | _ => exact id
    · right
      left
      simp only [hrequeue]
      rfl
  · rw [writeWord_ready_of_ne hsame] at hready
    exact .inl ⟨hready, fun hpromise => hsame hpromise.actor_eq⟩

theorem startExecute_accounts {entry : Entry K}
    (hregistered : setup.registered actor = some .eventBased) :
    (startExecute setup s entry).Accounts setup.toPlacementSetup actor s (.dispatch entry) := by
  refine
    { routed := ?_
      stored := trivial
      custody := ?_
      readies := fun hready => .inl ⟨hready, id⟩
      admits := fun hadmits => by cases hadmits
      executes := ?_ }
  · simp only [startExecute]
    split <;> trivial
  · intro other _ hne hmem
    rw [carries, mem_singleton] at hmem
    exact absurd (congrArg some hmem.symm) hne
  · intro other hactor heq
    cases heq
    refine ⟨rfl, ?_⟩
    have hclass : executeClass setup entry.item = some .eventBased := by
      unfold executeClass
      split
      · rfl
      · rw [hactor, hregistered]
    simp only [startExecute, hclass]
    exact hactor

end

section

variable {setup : SchedulerSetup K} {actor : K} {s : SchedulerState T K}

theorem beginCall_accounts {call : Call K}
    (hstored : ∀ queue, QueueWell setup.toPlacementSetup actor (s.store queue) queue)
    (hcall : ∀ kind priority deadlineNs, call = .notify kind actor priority deadlineNs →
      Routed setup.toPlacementSetup ⟨notifyItem kind actor deadlineNs, priority⟩) :
    (beginCall setup s call).Accounts setup.toPlacementSetup actor s .idle := by
  cases call with
  | notify kind target priority deadlineNs =>
    simp only [beginCall]
    split
    · apply afterNotify_accounts rfl id
      · rintro rfl
        exact hcall kind priority deadlineNs rfl
      · exact fun hready => .inl hready
    · exact .of_goto rfl id trivial
  | takePool pool thread =>
    exact takeFront_accounts _ rfl id trivial (hstored _)
  | _ => exact .of_goto rfl id trivial

theorem threadStep_accounts (answer : Answer) {pc : ThreadPc K} (hworkers : 0 < setup.numWorkers)
    (hpriorities : 0 < setup.numPriorities) (hdedicated : setup.dedicatedThread actor = false)
    (hregistered : setup.registered actor = some .eventBased) (hpaused : s.paused = false)
    (hstored : ∀ queue, QueueWell setup.toPlacementSetup actor (s.store queue) queue)
    (hwell : PcWell setup.toPlacementSetup actor pc) :
    (threadStep setup s answer pc).Accounts setup.toPlacementSetup actor s pc := by
  cases pc with
  | idle => exact .of_goto rfl id trivial
  | notifying entry gate =>
    apply afterNotify_accounts rfl id hwell
    intro hready
    by_cases hsame : entry.item.actor = actor
    · rcases gateStep_word (s.words entry.item.actor) gate with hkept | haccept
      · left
        rw [hkept, hsame] at hready
        simpa [writeWord] using hready
      · exact .inr ⟨by rw [haccept], hsame⟩
    · rw [writeWord_ready_of_ne hsame] at hready
      exact .inl hready
  | placing entry place =>
    simp only [threadStep, hpaused]
    exact enqueueAdmitted_accounts s.counters hworkers hdedicated hstored hwell
  | drainRing worker => exact drainRing_accounts worker (hstored _)
  | moveRing worker entry =>
    exact pushBottom_accounts worker entry rfl id rfl trivial hwell
  | takeStack worker => exact takeStack_accounts worker (hstored _)
  | drainStack worker entries => exact drainStack_accounts worker entries hwell
  | popEdf worker => exact takeFront_accounts _ rfl id trivial trivial
  | popDeque worker priority =>
    simp only [threadStep]
    split
    · exact popBottom_accounts worker priority rfl id trivial
    · exact .of_goto rfl id trivial
  | stealEdf attempt | stealDeque attempt victim priority =>
    simp only [threadStep]
    split
    · exact takeFront_accounts _ rfl id trivial trivial
    · exact .of_goto rfl id trivial
  | dispatch entry => exact startExecute_accounts hregistered
  | executing item round paused runner =>
    exact executeStep_accounts answer hpriorities

/-- The condition on a step, for one actor: a notification of it that is
neither for the heap nor for a pool names a priority the scheduler has a deque
for, and the workers are not paused. -/
def Placeable (setup : SchedulerSetup K) (actor : K) : SchedulerState T K → SchedulerAct T K → Prop
  | _, .begin _ (.notify kind target priority _) =>
    target = actor → kind = .notifyReadyEdf ∨ (setup.actorPool actor).isSome = true ∨
        priority.toNat < setup.numPriorities
  | _, .control _ paused => paused = false
  | _, _ => True

instance Placeable.decidable (setup : SchedulerSetup K) (actor : K) (s : SchedulerState T K) :
    ∀ action, Decidable (Placeable setup actor s action) := by
  intro action
  unfold Placeable
  split <;> infer_instance

omit [DecidableEq K] in
theorem Placeable.routed {t : T} {kind : NotifyKind} {priority : UInt8} {deadlineNs : Int}
    (hplace : Placeable setup actor s (.begin t (.notify kind actor priority deadlineNs))) :
    Routed setup.toPlacementSetup ⟨notifyItem kind actor deadlineNs, priority⟩ := by
  rcases hplace rfl with hedf | hpool | hdeque
  · exact .inl (by simp [notifyItem, hedf])
  · exact .inr (.inl hpool)
  · exact .inr (.inr hdeque)

variable [DecidableEq T]

theorem schedulerStep_covered (hworkers : 0 < setup.numWorkers)
    (hpriorities : 0 < setup.numPriorities) (hdedicated : setup.dedicatedThread actor = false)
    (hregistered : setup.registered actor = some .eventBased) (s : SchedulerState T K)
    (action : SchedulerAct T K) (next : SchedulerState T K)
    (hcovered : Covered setup.toPlacementSetup actor s) (hplace : Placeable setup actor s action)
    (hstep : schedulerStep setup s action = some next) :
    Covered setup.toPlacementSetup actor next := by
  cases action with
  | begin t call =>
    simp only [schedulerStep] at hstep
    obtain ⟨hidle, ⟨⟩⟩ := ite_none_right_eq_some.mp hstep
    apply hcovered.apply
    rw [hidle]
    apply beginCall_accounts hcovered.stored
    rintro kind priority deadlineNs rfl
    exact hplace.routed
  | advance t answer =>
    cases hstep
    exact hcovered.apply (threadStep_accounts answer hworkers hpriorities
      hdedicated hregistered hcovered.unpaused hcovered.stored
      (hcovered.routed t))
  | control running paused =>
    cases hstep
    exact { hcovered with unpaused := hplace }

/-- The queues of running workers and of pools; the side deque is one of
paused workers. -/
def QueueId.listed : QueueId → Bool
  | .pinnedReady _ => false
  | _ => true

omit [DecidableEq K] [DecidableEq T] in
theorem covered_fresh {words : K → ActorState} (hword : words actor ≠ .ready) :
    Covered setup.toPlacementSetup actor ({ words } : SchedulerState T K) where
  unpaused := rfl
  routed := fun _ => trivial
  stored := by
    intro queue
    cases queue with
    | injectRing worker | sharedInput worker | pinnedReady worker =>
      exact fun _ hmem => by cases hmem
    | _ => trivial
  backed := fun hready => absurd hready hword
  ticketed := fun _ hmem => by cases hmem

omit [DecidableEq K] [DecidableEq T] in
/-- An entry of the actor that is queued is in a queue of a running worker or
of a pool. -/
theorem Covered.listed {queue : QueueId} {entry : Entry K}
    (hcovered : Covered setup.toPlacementSetup actor s)
    (hmem : entry ∈ s.store queue) (hactor : entry.item.actor = actor) :
    queue.listed = true := by
  cases queue with
  | pinnedReady worker =>
    exact absurd hactor (hcovered.stored (.pinnedReady worker) entry hmem)
  | _ => rfl

/-- In every run whose notifications of the actor name existing deques: when
no call is in progress and the actor is ready, an item of it is queued; and
each item admitted for it was executed or is queued or in the hands of a
thread. -/
theorem ready_actor_has_work (setup : SchedulerSetup K) (actor : K)
    (hworkers : 0 < setup.numWorkers) (hpriorities : 0 < setup.numPriorities)
    (hdedicated : setup.dedicatedThread actor = false)
    (hregistered : setup.registered actor = some .eventBased) (words : K → ActorState)
    (hword : words actor ≠ .ready) (actions : List (SchedulerAct T K)) (s : SchedulerState T K)
    (hcond : EachStep (schedulerStep setup) (Placeable setup actor) { words } actions)
    (hrun : run (schedulerStep setup) { words } actions = some s) :
    ((∀ t, s.threads t = .idle) → s.words actor = .ready →
        ∃ queue entry, queue.listed = true ∧ entry ∈ s.store queue ∧ entry.item.actor = actor) ∧
      ∀ ticket, (actor, ticket) ∈ s.admitted → ticket ∈ s.executed ∨
          ∃ entry, entry.item.actor = actor ∧
            entry.item.ticket = some ticket ∧ s.Carried entry := by
  have hcovered : Covered setup.toPlacementSetup actor s :=
    run_invariant (schedulerStep_covered hworkers hpriorities hdedicated hregistered)
      (covered_fresh hword) hcond hrun
  refine ⟨?_, hcovered.ticketed⟩
  intro hidle hready
  rcases hcovered.backed hready with ⟨entry, hactor, hcarried⟩ | ⟨t, hpromise⟩
  · obtain ⟨queue, hmem⟩ := hcarried.queued fun t => by rw [hidle t]; rfl
    exact ⟨queue, entry, hcovered.listed hmem hactor, hmem, hactor⟩
  · rw [hidle t] at hpromise
    cases hpromise

end

namespace ReadyHasWorkWitness

def setup : SchedulerSetup Nat where
  numWorkers := 1
  numPriorities := 2
  registered := fun _ => some .eventBased

def notifyWith (priority : UInt8) : List (SchedulerAct Unit Nat) :=
  .begin () (.notify .notifyReady 7 priority 0) :: List.replicate 4 (.advance () {})

/-- `pop_local` on empty deques: the ring, the stack, the heap, two deques. -/
def popLocal : List (SchedulerAct Unit Nat) :=
  .begin () (.popLocal 0) :: List.replicate 9 (.advance () {})

/-- A notification with priority 2 of a scheduler with two priority levels,
then one `pop_local`: the item is gone and the actor stays ready. -/
theorem priority_without_deque_discards :
    ∃ s, run (schedulerStep setup) {} (notifyWith 2 ++ popLocal) = some s ∧
      (∀ t, s.threads t = .idle) ∧ s.words 7 = .ready ∧
      (∀ queue, s.store queue = []) ∧ s.admitted = [(7, 0)] ∧
      s.executed = [] := by
  refine ⟨_, rfl, fun _ => rfl, rfl, ?_, rfl, rfl⟩
  intro queue
  cases queue with
  | injectRing worker | sharedInput worker => cases worker <;> rfl
  | _ => rfl

theorem lowest_deque_is_kept :
    ∃ s : SchedulerState Unit Nat, run (schedulerStep setup) {} (notifyWith 1) = some s ∧
        ∃ queue entry, queue.listed = true ∧ entry ∈ s.store queue ∧ entry.item.actor = 7 := by
  obtain ⟨s, hrun, hidle, hready⟩ : ∃ s : SchedulerState Unit Nat,
        run (schedulerStep setup) {} (notifyWith 1) = some s ∧
          (∀ t, s.threads t = .idle) ∧ s.words 7 = .ready :=
    ⟨_, rfl, fun _ => rfl, rfl⟩
  have hwork := ready_actor_has_work setup 7 (by decide) (by decide) rfl rfl
    (fun _ => .idle) (by decide) (notifyWith 1) s (by decide) hrun
  exact ⟨s, hrun, hwork.1 hidle hready⟩

end ReadyHasWorkWitness

end HPActor
