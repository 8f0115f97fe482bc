/-
Work items and the queues that carry them between `enqueue_admitted` and a
worker: inject ring, shared-input stack, earliest-deadline heap, priority
deques, the side deque of pinned actors and the dedicated pools.  Every queue
operation is one step.
-/
import HPActor.ActorRunner
import HPActor.Machines
import Mathlib.Data.Finset.Card

namespace HPActor

universe u

variable {K : Type u}

/-- A work item.  `actorPtr` says whether the item carries a direct pointer;
`ticket` is a ghost that numbers the admissions. -/
structure WorkItem (K : Type u) where
  actor : K
  deadlineNs : Int
  sequence : Nat := 0
  edfScheduled : Bool := false
  actorPtr : Bool := false
  ticket : Option Nat := none
deriving Repr, DecidableEq

/-- An item with its priority, as ring slots and stack nodes hold them.  The
heap, the deques and the pools hold the item alone; the priority kept beside
it there is not read again. -/
structure Entry (K : Type u) where
  item : WorkItem K
  priority : UInt8
deriving Repr, DecidableEq

inductive QueueId where
  | injectRing (worker : Nat)
  | sharedInput (worker : Nat)
  | edfQueue (worker : Nat)
  | deque (worker priority : Nat)
  | pinnedReady (worker : Nat)
  | dedicatedPool (pool thread : Nat)
deriving Repr, DecidableEq

def kRingCapacity : Nat := 256

/-- What the placement layer is configured with.  `actorPool` answers only for
an actor whose pool exists. -/
structure PlacementSetup (K : Type u) where
  numWorkers : Nat
  numPriorities : Nat
  pinnedActors : K → Option Nat := fun _ => none
  dedicatedThread : K → Bool := fun _ => false
  actorPool : K → Option Nat := fun _ => none
  poolThreads : Nat → Nat := fun _ => 1

structure Counters where
  rrCounter : Nat := 0
  nextWorker : Nat → Nat := fun _ => 0

/-- The heap in the order it is popped: the earliest deadline first, and of
equal deadlines the one pushed last. -/
def edfPush (entry : Entry K) : List (Entry K) → List (Entry K)
  | [] => [entry]
  | head :: rest =>
    if entry.item.deadlineNs ≤ head.item.deadlineNs then
      entry :: head :: rest
    else head :: edfPush entry rest

@[simp] theorem mem_edfPush {entry other : Entry K} {heap : List (Entry K)} :
    other ∈ edfPush entry heap ↔ other = entry ∨ other ∈ heap := by
  induction heap with
  | nil => simp [edfPush]
  | cons head rest ih =>
    by_cases hle : entry.item.deadlineNs ≤ head.item.deadlineNs
    · simp [edfPush, hle]
    · simp only [edfPush, if_neg hle, List.mem_cons, ih]
      exact or_left_comm

/-- Where a thread is in `enqueue_admitted`: before the choice of a worker,
before the heap or ring push, before the push on the stack. -/
inductive PlacePc where
  | choose
  | shared (worker : Nat)
  | stack (worker : Nat)
deriving Repr, DecidableEq

/-- Where a thread of the scheduler is.  A thread that is not `idle` is inside
a notification, inside `pop_local` or `try_steal`, or has an item in hand that
it is about to execute or is executing; `round` counts the batch loop of
`execute_actor` and `paused` is the flag its context was built with. -/
inductive ThreadPc (K : Type u) where
  | idle
  | notifying (entry : Entry K) (gate : GatePc .tryMarkReady)
  | placing (entry : Entry K) (pc : PlacePc)
  | drainRing (worker : Nat)
  | moveRing (worker : Nat) (entry : Entry K)
  | takeStack (worker : Nat)
  | drainStack (worker : Nat) (entries : List (Entry K))
  | popEdf (worker : Nat)
  | popDeque (worker priority : Nat)
  | stealEdf (attempt : Nat)
  | stealDeque (attempt victim priority : Nat)
  | dispatch (entry : Entry K)
  | executing (item : WorkItem K) (round : Nat) (paused : Bool) (pc : RunnerPc)
deriving DecidableEq

/-- What one step of a thread does: its next position, the state word and the
queue it writes, and the ghosts: the actor an admission is logged for and the
ticket whose item is executed from here on. -/
structure Effect (K : Type u) where
  pc : ThreadPc K
  word : Option (K × ActorState) := none
  queue : Option (QueueId × List (Entry K)) := none
  counters : Option Counters := none
  admits : Option K := none
  executes : Option Nat := none

section

variable (setup : PlacementSetup K) (store : QueueId → List (Entry K))

/-- Put an entry into a queue and leave `enqueue_admitted`. -/
def Effect.finish (queue : QueueId) (entries : List (Entry K)) : Effect K :=
  { pc := .idle, queue := some (queue, entries) }

variable (counters : Counters)

def PlacementSetup.poolThread (pool : Nat) : Nat :=
  counters.nextWorker pool % setup.poolThreads pool

def Counters.bumpPool (pool : Nat) : Counters :=
  { counters with
    nextWorker := fun other =>
      if other = pool then counters.nextWorker pool + 1
      else counters.nextWorker other }

def Counters.bumpRr : Counters :=
  { counters with rrCounter := counters.rrCounter + 1 }

/-- The choice of a worker for an actor without dedicated threads. -/
def chooseWorker (paused : Bool) (entry : Entry K) : Effect K :=
  match setup.pinnedActors entry.item.actor with
  | some worker =>
    if paused then
      Effect.finish (.pinnedReady (worker % setup.numWorkers))
        (store (.pinnedReady (worker % setup.numWorkers)) ++ [entry])
    else { pc := .placing entry (.shared (worker % setup.numWorkers)) }
  | none =>
    { pc := .placing entry (.shared (counters.rrCounter % setup.numWorkers))
      counters := some counters.bumpRr }

def enqueueAdmitted (paused : Bool) (entry : Entry K) : PlacePc → Effect K
  | .choose =>
    if setup.dedicatedThread entry.item.actor then { pc := .idle }
    else
      match setup.actorPool entry.item.actor with
      | some pool =>
        { pc := .idle
          queue := some
            (.dedicatedPool pool (setup.poolThread counters pool),
              store (.dedicatedPool pool (setup.poolThread counters pool)) ++ [entry])
          counters := some (counters.bumpPool pool) }
      | none =>
        if setup.numWorkers = 0 then { pc := .idle }
        else chooseWorker setup store counters paused entry
  | .shared worker =>
    if entry.item.edfScheduled then
      Effect.finish (.edfQueue worker) (edfPush entry (store (.edfQueue worker)))
    else if (store (.injectRing worker)).length < kRingCapacity then
      Effect.finish (.injectRing worker) (store (.injectRing worker) ++ [entry])
    else { pc := .placing entry (.stack worker) }
  | .stack worker =>
    Effect.finish (.sharedInput worker) (entry :: store (.sharedInput worker))

/-- `push_bottom` on the deque of the entry's priority; an entry whose
priority has no deque is dropped. -/
def pushBottom (worker : Nat) (entry : Entry K) (next : ThreadPc K) : Effect K :=
  if entry.priority.toNat < setup.numPriorities then
    { pc := next
      queue := some (.deque worker entry.priority.toNat,
        store (.deque worker entry.priority.toNat) ++ [entry]) }
  else { pc := next }

/-- Take the head of a queue for execution, or go on. -/
def takeFront (queue : QueueId) (otherwise : ThreadPc K) : Effect K :=
  match store queue with
  | [] => { pc := otherwise }
  | entry :: rest => { pc := .dispatch entry, queue := some (queue, rest) }

def popBottom (queue : QueueId) (otherwise : ThreadPc K) : Effect K :=
  match (store queue).getLast? with
  | none => { pc := otherwise }
  | some entry =>
    { pc := .dispatch entry, queue := some (queue, (store queue).dropLast) }

def drainRing (worker : Nat) : Effect K :=
  match store (.injectRing worker) with
  | [] => { pc := .takeStack worker }
  | entry :: rest =>
    { pc := .moveRing worker entry
      queue := some (.injectRing worker, rest) }

def drainStack (worker : Nat) : List (Entry K) → Effect K
  | [] => { pc := .popEdf worker }
  | entry :: rest =>
    pushBottom setup store worker entry (.drainStack worker rest)

end

namespace PlacementSetup

variable (setup : PlacementSetup K)

/-- The queues of a victim in the order in which they are tried. -/
def stealQueues (victim : Nat) : List QueueId :=
  .edfQueue victim :: (List.range setup.numPriorities).map (.deque victim)

/-- The first item a thief finds at a victim. -/
def stealFrom (store : QueueId → List (Entry K)) (victim : Nat) : Option (Entry K) :=
  (setup.stealQueues victim).findSome? fun queue => (store queue).head?

/-- The hints of `A2WS` at the start. -/
def victimHints (index : Nat) : Nat :=
  (index + 1) % setup.numWorkers

/-- A hint is read and advanced under the number of the attempt, whoever the
thief is. -/
def tryStealLoop (setup : PlacementSetup K) (store : QueueId → List (Entry K)) :
    List Nat → (Nat → Nat) → Option (Entry K) × (Nat → Nat)
  | [], hints => (none, hints)
  | attempt :: rest, hints =>
    match setup.stealFrom store (hints attempt) with
    | some entry => (some entry, hints)
    | none =>
      setup.tryStealLoop store rest
        (Function.update hints attempt ((hints attempt + 1) % setup.numWorkers))

def trySteal (store : QueueId → List (Entry K)) (hints : Nat → Nat) :
    Option (Entry K) × (Nat → Nat) :=
  setup.tryStealLoop store (List.range setup.numWorkers) hints

/-- The attempts of one call name every worker. -/
def Covers (hints : Nat → Nat) : Prop :=
  ∀ victim < setup.numWorkers, ∃ attempt < setup.numWorkers, hints attempt = victim

variable {setup} {hints : Nat → Nat} {store : QueueId → List (Entry K)}

theorem tryStealLoop_eq_none_iff {attempts : List Nat}
    (hnodup : attempts.Nodup) : (setup.tryStealLoop store attempts hints).1 = none ↔
      ∀ attempt ∈ attempts, setup.stealFrom store (hints attempt) = none := by
  induction attempts generalizing hints with
  | nil => exact iff_of_true rfl (List.forall_mem_nil _)
  | cons attempt rest ih =>
    obtain ⟨hnew, hrest⟩ := List.nodup_cons.mp hnodup
    rw [tryStealLoop, List.forall_mem_cons]
    split
    · next entry hentry => simp [hentry]
    · next hnone =>
        rw [ih hrest, and_iff_right hnone]
        refine forall₂_congr fun other hother => ?_
        rw [Function.update_of_ne (ne_of_mem_of_not_mem hother hnew)]

/-- One item, in the heap of one worker. -/
def loneItem (entry : Entry K) (worker : Nat) (queue : QueueId) : List (Entry K) :=
  if queue = .edfQueue worker then [entry] else []

/-- A call that finds nothing has looked at every worker exactly if the hints
name every worker. -/
theorem trySteal_complete_iff [Inhabited K] :
    (∀ store, (setup.trySteal store hints).1 = none →
      ∀ victim < setup.numWorkers, ∀ queue ∈ setup.stealQueues victim, store queue = []) ↔
      setup.Covers hints := by
  simp only [trySteal, tryStealLoop_eq_none_iff List.nodup_range, List.mem_range]
  constructor
  · intro hcomplete victim hvictim
    by_contra hmissed
    let entry : Entry K := ⟨{ actor := default, deadlineNs := 0 }, 0⟩
    have hnone : ∀ attempt < setup.numWorkers,
        setup.stealFrom (loneItem entry victim) (hints attempt) = none := by
      intro attempt hattempt
      have hother : hints attempt ≠ victim := fun heq => hmissed ⟨attempt, hattempt, heq⟩
      simp [stealFrom, stealQueues, loneItem, hother]
    have hempty := hcomplete _ hnone victim hvictim _ List.mem_cons_self
    simp [loneItem] at hempty
  · intro hcover store hnone victim hvictim
    obtain ⟨attempt, hattempt, rfl⟩ := hcover victim hvictim
    simpa [stealFrom] using hnone attempt hattempt

/-- Two workers.  A failed attempt and a successful one leave both hints at the
first, and an item of the second is not found. -/
theorem hints_meet :
    let setup : PlacementSetup Unit := { numWorkers := 2, numPriorities := 1 }
    let entry : Entry Unit := ⟨{ actor := (), deadlineNs := 0 }, 0⟩
    let hints := (setup.trySteal (loneItem entry 0) setup.victimHints).2
    (setup.trySteal (loneItem entry 1) hints).1 = none := by
  decide

theorem victimHints_covers : setup.Covers setup.victimHints := by
  rintro (_ | victim) hvictim
  · refine ⟨setup.numWorkers - 1, Nat.sub_one_lt_of_lt hvictim, ?_⟩
    rw [victimHints, Nat.sub_add_cancel hvictim, Nat.mod_self]
  · exact ⟨victim, Nat.lt_of_succ_lt hvictim, Nat.mod_eq_of_lt hvictim⟩

/-- The attempts that find nothing, which come first, move their hints on. -/
theorem tryStealLoop_moves {attempts : List Nat} (hnodup : attempts.Nodup) :
    ∃ front back, attempts = front ++ back ∧
      (∀ i, (setup.tryStealLoop store attempts hints).2 i =
        if i ∈ front then setup.victimHints (hints i) else hints i) ∧
      ((setup.tryStealLoop store attempts hints).1 = none ↔ back = []) ∧
      ∀ attempt ∈ back.head?, setup.stealFrom store (hints attempt) ≠ none := by
  induction attempts generalizing hints with
  | nil => exact ⟨[], [], rfl, fun _ => rfl, by simp [tryStealLoop], by simp⟩
  | cons attempt rest ih =>
    obtain ⟨hnew, hrest⟩ := List.nodup_cons.mp hnodup
    cases hfound : setup.stealFrom store (hints attempt) with
    | some entry => exact ⟨[], attempt :: rest, by simp [tryStealLoop, hfound]⟩
    | none =>
      obtain ⟨front, back, rfl, hmoves, hnone, hhead⟩ :=
        @ih (Function.update hints attempt (setup.victimHints (hints attempt))) hrest
      have hloop : setup.tryStealLoop store (attempt :: (front ++ back)) hints =
          setup.tryStealLoop store (front ++ back)
            (Function.update hints attempt (setup.victimHints (hints attempt))) := by
        simp only [tryStealLoop, hfound, victimHints]
      rw [hloop]
      refine ⟨attempt :: front, back, rfl, fun i => ?_, hnone, fun later hlater => ?_⟩
      · rw [hmoves]
        grind
      · have hne : later ≠ attempt := by grind
        rw [← Function.update_of_ne hne (setup.victimHints (hints attempt)) hints]
        exact hhead later hlater

section

variable (hcover : setup.Covers hints)
include hcover

theorem Covers.image_eq :
    (Finset.range setup.numWorkers).image hints = Finset.range setup.numWorkers := by
  refine (Finset.eq_of_subset_of_card_le (fun victim hvictim => ?_) Finset.card_image_le).symm
  obtain ⟨attempt, hattempt, rfl⟩ := hcover victim (Finset.mem_range.mp hvictim)
  exact Finset.mem_image_of_mem hints (Finset.mem_range.mpr hattempt)

theorem Covers.inj {i j : Nat} (hi : i < setup.numWorkers) (hj : j < setup.numWorkers)
    (heq : hints i = hints j) : i = j :=
  Finset.card_image_iff.mp (by rw [hcover.image_eq]) (Finset.mem_range.mpr hi)
    (Finset.mem_range.mpr hj) heq

/-- If some attempts move on and the hints cover the workers again, all of them
have moved on: the workers they name are closed under moving on. -/
theorem Covers.all_move {next : Nat → Nat} {front : List Nat} (hnext : setup.Covers next)
    (hmoves : ∀ i, next i = if i ∈ front then setup.victimHints (hints i) else hints i)
    (hfront : ∀ i ∈ front, i < setup.numWorkers) {first i : Nat} (hfirst : first ∈ front)
    (hi : i < setup.numWorkers) : i ∈ front := by
  have hlt : ∀ i < setup.numWorkers, hints i < setup.numWorkers := fun i hi =>
    Finset.mem_range.mp (hcover.image_eq ▸ Finset.mem_image_of_mem hints (Finset.mem_range.mpr hi))
  have hpos : 0 < setup.numWorkers := Nat.zero_lt_of_lt hi
  have hall : ∀ m, ∃ j ∈ front, hints j = (hints first + m) % setup.numWorkers := by
    intro m
    induction m with
    | zero => exact ⟨first, hfirst, (Nat.mod_eq_of_lt (hlt first (hfront first hfirst))).symm⟩
    | succ m ih =>
      obtain ⟨j, hj, hval⟩ := ih
      obtain ⟨k, hk, hnamed⟩ := hcover _ (Nat.mod_lt (hints first + (m + 1)) hpos)
      refine ⟨k, ?_, hnamed⟩
      by_contra hstays
      have hsame : next j = next k := by
        rw [hmoves, hmoves, if_pos hj, if_neg hstays, hnamed, victimHints, hval, Nat.mod_add_mod,
          Nat.add_assoc]
      exact hstays (hnext.inj (hfront j hj) hk hsame ▸ hj)
  obtain ⟨j, hj, hval⟩ := hall (setup.numWorkers - hints first + hints i)
  have hle := hlt first (hfront first hfirst)
  rw [← Nat.add_assoc, Nat.add_sub_cancel' hle.le, Nat.add_mod_left, Nat.mod_eq_of_lt (hlt i hi)]
    at hval
  exact hcover.inj (hfront j hj) hi hval ▸ hj

/-- A call keeps the cover exactly if it finds its item where it looks first, or
none. -/
theorem Covers.trySteal_iff (store : QueueId → List (Entry K)) :
    setup.Covers (setup.trySteal store hints).2 ↔
      (setup.stealFrom store (hints 0) = none → (setup.trySteal store hints).1 = none) := by
  cases hfirst : setup.stealFrom store (hints 0) with
  | some entry =>
    have hstays : (setup.trySteal store hints).2 = hints := by
      rw [trySteal]
      cases setup.numWorkers with
      | zero => rfl
      | succ n => simp only [List.range_succ_eq_map, tryStealLoop, hfirst]
    rw [hstays]
    exact iff_of_true hcover nofun
  | none =>
    obtain ⟨front, back, hrange, hmoves, hnone, hhead⟩ :=
      @tryStealLoop_moves _ setup hints store _ (List.nodup_range (n := setup.numWorkers))
    have hfront : ∀ i ∈ front, i < setup.numWorkers := by
      intro i hi
      rw [← List.mem_range, hrange]
      exact List.mem_append_left back hi
    rw [trySteal, hnone, imp_iff_right rfl]
    constructor
    · intro hnext
      cases back with
      | nil => rfl
      | cons last back =>
        have hlast : last < setup.numWorkers := by
          rw [← List.mem_range, hrange]
          simp
        have hzero : (front ++ last :: back).head? = some 0 := by
          rw [← hrange, List.head?_range, if_neg (Nat.ne_zero_of_lt hlast)]
        have hnodup := hrange ▸ List.nodup_range (n := setup.numWorkers)
        cases front with
        | nil => exact absurd hfirst (hhead 0 hzero)
        | cons first front =>
          have hmem := hcover.all_move hnext hmoves hfront List.mem_cons_self hlast
          grind
    · rintro rfl victim hvictim
      obtain ⟨worker, hworker, rfl⟩ := victimHints_covers victim hvictim
      obtain ⟨attempt, hattempt, rfl⟩ := hcover worker hworker
      refine ⟨attempt, hattempt, ?_⟩
      rw [hmoves, if_pos]
      simpa [hrange] using List.mem_range.mpr hattempt

end

/-- The hints go on naming every worker exactly as long as every call finds its
item where it looks first, or none. -/
theorem hints_cover_throughout_iff (stores : List (QueueId → List (Entry K))) :
    let call := fun hints store => (setup.trySteal store hints).2
    (∀ front, front <+: stores → setup.Covers (Machines.final call setup.victimHints front)) ↔
      Machines.Along call (fun hints store => setup.stealFrom store (hints 0) = none →
        (setup.trySteal store hints).1 = none) setup.victimHints stores :=
  Machines.throughout_iff (fun _ store hcover => hcover.trySteal_iff store) victimHints_covers
end PlacementSetup

end HPActor
