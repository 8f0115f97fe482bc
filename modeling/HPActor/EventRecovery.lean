/-
Recovery of an event-sourced behavior.  The store's number runs ahead of the
behavior's by one for each snapshot; the first snapshot brings the two into
step, and each later one makes the store drop one event.  So a new behavior
recovers the state if the calls begin with a snapshot and the events after the
last snapshot are not dropped.
-/
import HPActor.EventSourcing

namespace HPActor

open List

inductive DurableCall (Event : Type) where
  | persistEvent (now : Nat) (event : Event)
  | snapshot (now : Nat)

def DurableCall.isSnapshot {Event : Type} : DurableCall Event → Bool
  | .persistEvent .. => false
  | .snapshot _ => true

/-- A behavior, its store, and what its calls have answered. -/
structure DurableSession (State : Type) where
  behavior : EventSourcedBehavior State
  store : InMemoryStateStore
  answers : List (Except UInt32 Unit) := []

namespace DurableSession

open EventSourcedBehavior InMemoryStateStore

variable {State Event : Type} {domain : EventDomain State Event}

def start (persistenceId : String) (initial : State) : DurableSession State :=
  { behavior := create persistenceId initial, store := .empty }

def record (s : DurableSession State)
    (answer : EventSourcedBehavior State × InMemoryStateStore ×
      Except UInt32 Unit) : DurableSession State :=
  { behavior := answer.1, store := answer.2.1,
    answers := s.answers ++ [answer.2.2] }

def call (domain : EventDomain State Event) (s : DurableSession State) :
    DurableCall Event → DurableSession State
  | .persistEvent now event =>
    s.record (persistEvent domain s.behavior s.store now event)
  | .snapshot now => s.record (snapshot domain s.behavior s.store now)

def after (domain : EventDomain State Event) (s : DurableSession State)
    (calls : List (DurableCall Event)) : DurableSession State :=
  calls.foldl (call domain) s

def stored (s : DurableSession State) : ActorState :=
  s.store.stateAt s.behavior.persistenceId

/-- The store's number is past every event, and not behind the behavior. -/
structure Ordered (s : DurableSession State) : Prop where
  below : ∀ record ∈ s.stored.events, record.sequence < s.stored.nextSequence
  reached : s.behavior.lastEventSequence ≤ s.stored.nextSequence
  answered : ∀ answer ∈ s.answers, answer = .ok ()

/-- From the first snapshot on the store is ahead of the behavior. -/
structure Snapped (s : DurableSession State) : Prop extends Ordered s where
  ahead : s.behavior.lastEventSequence < s.stored.nextSequence
  named : s.stored.latestSnapshot.persistenceId = s.behavior.persistenceId
  covers : s.stored.latestSnapshot.sequence < s.stored.nextSequence

/-- The latest snapshot and the events after it give the present state. -/
def Restores (domain : EventDomain State Event) (s : DurableSession State) : Prop :=
  ∃ base, domain.deserializeState s.stored.latestSnapshot.data = .ok base ∧
    ∀ b : EventSourcedBehavior State, b.state = base → ∃ last, last.state = s.behavior.state ∧
        replay domain b (s.stored.events.filter fun record =>
          decide (s.stored.latestSnapshot.sequence < record.sequence)) = (last, .ok ())

theorem replay_append {b mid : EventSourcedBehavior State} {front : List EventRecord}
    (back : List EventRecord) (hfront : replay domain b front = (mid, .ok ())) :
    replay domain b (front ++ back) = replay domain mid back := by
  induction front generalizing b with
  | nil =>
    cases hfront
    rfl
  | cons record rest ih =>
    rw [cons_append, replay]
    rw [replay] at hfront
    cases hevent : domain.deserializeEvent record.eventData with
    | error code =>
      rw [hevent] at hfront
      exact ih hfront
    | ok event =>
      rw [hevent] at hfront
      simp only at hfront ⊢
      rcases happly : domain.applyEventToState b.state event with
        ⟨s, applied⟩
      rw [happly] at hfront
      cases applied with
      | error code => cases hfront
      | ok done => exact ih hfront

/-- An event of the behavior replays as it was applied. -/
theorem replay_event (hlawful : domain.Lawful) (b : EventSourcedBehavior State)
    (record : EventRecord) (event : Event)
    (hdata : record.eventData = domain.serializeEvent event) :
    ∃ last, last.state = (domain.applyEventToState b.state event).1 ∧
      replay domain b [record] = (last, .ok ()) := by
  have htotal := hlawful.apply_total b.state event
  rcases happly : domain.applyEventToState b.state event with ⟨s, applied⟩
  rw [happly] at htotal
  simp only at htotal
  subst htotal
  refine ⟨{ b with state := s, lastEventSequence := record.sequence }, rfl, ?_⟩
  simp only [replay, hdata, hlawful.event_back, happly]

/-- What a snapshot leaves in the store. -/
theorem call_snapshot_stored (domain : EventDomain State Event)
    (s : DurableSession State) (now : Nat) :
    (s.call domain (.snapshot now)).stored =
      { s.stored with
        nextSequence := s.stored.nextSequence + 1
        latestSnapshot :=
          { persistenceId := s.behavior.persistenceId
            sequence := s.stored.nextSequence, timestampMs := now
            data := domain.serializeState s.behavior.state } } := by
  simp only [call, record, snapshot, writeSnapshot, stored, setState_stateAt]

theorem ordered_start (persistenceId : String) (initial : State) :
    Ordered (start persistenceId initial) where
  below := by simp [start, stored, stateAt, InMemoryStateStore.empty]
  reached := Nat.zero_le _
  answered := by simp [start]

variable {s : DurableSession State}

/-- Snapshots always succeed, and restore the state they are taken of. -/
theorem snapshot_snaps (hlawful : domain.Lawful) (hs : Ordered s) (now : Nat) :
    Snapped (s.call domain (.snapshot now)) ∧ Restores domain (s.call domain (.snapshot now)) := by
  have hstored := call_snapshot_stored domain s now
  constructor
  · refine { below := ?_, reached := ?_, answered := ?_, ahead := ?_,
             named := ?_, covers := ?_ }
    · rw [hstored]
      intro record hrecord
      exact Nat.lt_succ_of_lt (hs.below record hrecord)
    · rw [hstored]
      exact Nat.le_succ_of_le hs.reached
    · exact forall_mem_append.mpr ⟨hs.answered, forall_mem_singleton.mpr rfl⟩
    · rw [hstored]
      exact Nat.lt_succ_of_le hs.reached
    · rw [hstored]
      rfl
    · rw [hstored]
      exact Nat.lt_succ_self _
  · refine ⟨s.behavior.state, ?_, ?_⟩
    · rw [hstored]
      exact hlawful.state_back _
    · intro b hb
      refine ⟨b, hb, ?_⟩
      -- every stored event is older than the snapshot
      have hnone : (s.stored.events.filter fun record =>
          decide (s.stored.nextSequence < record.sequence)) = [] := by
        rw [filter_eq_nil_iff]
        intro record hrecord
        have hbelow := hs.below record hrecord
        simp only [decide_eq_true_eq]
        omega
      rw [hstored]
      simp only [hnone, replay]

/-- What a persisted event does to the store and to the behavior, once the store
is ahead. -/
theorem call_persist (hlawful : domain.Lawful)
    (hahead : s.behavior.lastEventSequence < s.stored.nextSequence) (now : Nat) (event : Event) :
    (s.call domain (.persistEvent now event)).stored =
      (if s.behavior.lastEventSequence + 1 < s.stored.nextSequence then s.stored
      else
        { s.stored with
          nextSequence := s.stored.nextSequence + 1
          events := s.stored.events ++
            [{ persistenceId := s.behavior.persistenceId
               sequence := s.stored.nextSequence, timestampMs := now
               eventData := domain.serializeEvent event }] }) ∧
    (s.call domain (.persistEvent now event)).behavior =
      { s.behavior with
        state := (domain.applyEventToState s.behavior.state event).1
        lastEventSequence := s.behavior.lastEventSequence + 1 } ∧
    (s.call domain (.persistEvent now event)).answers = s.answers ++ [.ok ()] := by
  simp only [stored] at hahead ⊢
  by_cases hdrop : s.behavior.lastEventSequence + 1 <
      (s.store.stateAt s.behavior.persistenceId).nextSequence
  · simp only [call, record, persistEvent, appendEvent, hdrop, ↓reduceIte,
      setState_stateAt, hlawful.apply_total, and_self]
  · have hsame : (s.store.stateAt s.behavior.persistenceId).nextSequence =
        s.behavior.lastEventSequence + 1 := by omega
    simp only [call, record, persistEvent, appendEvent, hsame, ne_eq, not_true_eq_false,
      lt_self_iff_false, ↓reduceIte, setState_stateAt, hlawful.apply_total, and_self]

/-- A persisted event succeeds, whether the store keeps it or drops it. -/
theorem persist_snapped (hlawful : domain.Lawful) (hs : Snapped s) (now : Nat)
    (event : Event) : Snapped (s.call domain (.persistEvent now event)) := by
  obtain ⟨hstored, hbehavior, hanswers⟩ :=
    call_persist hlawful hs.ahead now event
  have hanswered :
      ∀ answer ∈ (s.call domain (.persistEvent now event)).answers, answer = .ok () := by
    rw [hanswers]
    exact forall_mem_append.mpr ⟨hs.answered, forall_mem_singleton.mpr rfl⟩
  split_ifs at hstored with hdrop
  · refine { below := ?_, reached := ?_, answered := hanswered, ahead := ?_,
             named := ?_, covers := ?_ }
    · rw [hstored]
      exact hs.below
    · rw [hstored, hbehavior]
      exact Nat.le_of_lt hdrop
    · rw [hstored, hbehavior]
      exact hdrop
    · rw [hstored, hbehavior]
      exact hs.named
    · rw [hstored]
      exact hs.covers
  · have hahead := hs.ahead
    refine { below := ?_, reached := ?_, answered := hanswered, ahead := ?_,
             named := ?_, covers := ?_ }
    · rw [hstored]
      refine forall_mem_append.mpr ⟨fun record hrecord => ?_,
        forall_mem_singleton.mpr (Nat.lt_succ_self _)⟩
      exact Nat.lt_succ_of_lt (hs.below record hrecord)
    · rw [hstored, hbehavior]
      exact Nat.succ_le_succ hahead.le
    · rw [hstored, hbehavior]
      exact Nat.succ_lt_succ hahead
    · rw [hstored, hbehavior]
      exact hs.named
    · rw [hstored]
      exact Nat.lt_succ_of_lt hs.covers

/-- In step: the behavior's next event has the store's number. -/
def InStep (s : DurableSession State) : Prop :=
  s.stored.nextSequence = s.behavior.lastEventSequence + 1

/-- An event persisted in step is stored, and replays. -/
theorem persist_restores (hlawful : domain.Lawful) (hs : Snapped s) (hstep : InStep s)
    (hrestores : Restores domain s) (now : Nat) (event : Event) :
    InStep (s.call domain (.persistEvent now event)) ∧
      Restores domain (s.call domain (.persistEvent now event)) := by
  obtain ⟨hstored, hbehavior, -⟩ := call_persist hlawful hs.ahead now event
  rw [if_neg (by rw [hstep]; exact lt_irrefl _)] at hstored
  constructor
  · rw [InStep, hstored, hbehavior]
    exact congrArg (· + 1) hstep
  · obtain ⟨base, hbase, hreplay⟩ := hrestores
    refine ⟨base, by rw [hstored]; exact hbase, ?_⟩
    intro b hb
    obtain ⟨mid, hmid, hfront⟩ := hreplay b hb
    obtain ⟨last, hlast, hback⟩ := replay_event hlawful mid
      { persistenceId := s.behavior.persistenceId
        sequence := s.stored.nextSequence, timestampMs := now
        eventData := domain.serializeEvent event } event rfl
    refine ⟨last, ?_, ?_⟩
    · rw [hlast, hmid, hbehavior]
    · rw [hstored]
      simp only [filter_append, filter_cons, hs.covers, decide_true, ↓reduceIte, filter_nil]
      rw [replay_append _ hfront, hback]

theorem call_persistenceId (domain : EventDomain State Event)
    (s : DurableSession State) (c : DurableCall Event) :
    (s.call domain c).behavior.persistenceId = s.behavior.persistenceId := by
  cases c with
  | persistEvent now event =>
    simp only [call, record, persistEvent]
    split <;> rfl
  | snapshot now => rfl

theorem after_persistenceId (domain : EventDomain State Event)
    (s : DurableSession State) (calls : List (DurableCall Event)) :
    (s.after domain calls).behavior.persistenceId = s.behavior.persistenceId := by
  induction calls generalizing s with
  | nil => rfl
  | cons c rest ih => exact (ih _).trans (call_persistenceId domain s c)

section

variable (hlawful : domain.Lawful) (hs : Snapped s)
include hlawful hs

theorem after_snapped (calls : List (DurableCall Event)) : Snapped (s.after domain calls) := by
  induction calls generalizing s with
  | nil => exact hs
  | cons c rest ih =>
    cases c with
    | persistEvent now event => exact ih (persist_snapped hlawful hs now event)
    | snapshot now => exact ih (snapshot_snaps hlawful hs.toOrdered now).1

/-- Without a further snapshot every event is stored. -/
theorem after_restores_of_events (hstep : InStep s) (hrestores : Restores domain s)
    {calls : List (DurableCall Event)} (hevents : ∀ c ∈ calls, c.isSnapshot = false) :
    Restores domain (s.after domain calls) := by
  induction calls generalizing s with
  | nil => exact hrestores
  | cons c rest ih =>
    cases c with
    | persistEvent now event =>
      obtain ⟨hstep', hrestores'⟩ :=
        persist_restores hlawful hs hstep hrestores now event
      exact ih (persist_snapped hlawful hs now event) hstep' hrestores'
        fun c hc => hevents c (mem_cons_of_mem _ hc)
    | snapshot now => cases hevents _ mem_cons_self

/-- A snapshot at the end restores, whatever was dropped before it. -/
theorem after_restores_of_last (front : List (DurableCall Event)) (now : Nat) :
    Restores domain (s.after domain (front ++ [.snapshot now])) := by
  rw [after, foldl_append]
  exact (snapshot_snaps hlawful (after_snapped hlawful hs front).toOrdered now).2

end

/-- What a new behavior gets from a store that restores. -/
theorem recover_of_restores (hid : s.behavior.persistenceId ≠ "")
    (hs : Snapped s) (hrestores : Restores domain s) (initial : State) :
    ∃ b, recover domain (create s.behavior.persistenceId initial) s.store =
      (b, .ok ()) ∧ b.state = s.behavior.state := by
  obtain ⟨base, hbase, hreplay⟩ := hrestores
  obtain ⟨last, hlast, hrun⟩ := hreplay
    { create s.behavior.persistenceId initial with
      state := base
      lastSnapshotSequence := s.stored.latestSnapshot.sequence } rfl
  have hload : s.store.loadLatestSnapshot s.behavior.persistenceId =
      .ok s.stored.latestSnapshot := by
    rw [loadLatestSnapshot_eq, if_neg]
    · rfl
    · intro hempty
      exact hid (hs.named.symm.trans hempty)
  refine ⟨{ last with recovered := true }, ?_, hlast⟩
  rw [recover]
  simp only [create, durable] at hrun ⊢
  rw [hload]
  simp only [hbase, loadEventsAfter_eq]
  simp only [stored] at hrun ⊢
  rw [hrun]

/-- The calls begin with a snapshot, and either no other snapshot follows or
the last call is one. -/
def Covered : List (DurableCall Event) → Prop
  | [] => True
  | first :: rest =>
    first.isSnapshot = true ∧
      ((∀ c ∈ rest, c.isSnapshot = false) ∨ ∀ c ∈ rest.getLast?, c.isSnapshot = true)

/-- The first snapshot brings the two numbers into step. -/
theorem first_snapshot_inStep (domain : EventDomain State Event)
    (persistenceId : String) (initial : State) (now : Nat) :
    InStep ((start persistenceId initial).call domain (.snapshot now)) := by
  rw [InStep, call_snapshot_stored]
  rfl

theorem after_covered (hlawful : domain.Lawful) (persistenceId : String)
    (initial : State) {first : DurableCall Event}
    {rest : List (DurableCall Event)} (hcovered : Covered (first :: rest)) :
    Snapped ((start persistenceId initial).after domain (first :: rest)) ∧ Restores domain
        ((start persistenceId initial).after domain (first :: rest)) := by
  obtain ⟨hfirst, hrest⟩ := hcovered
  cases first with
  | persistEvent now event => cases hfirst
  | snapshot now =>
    obtain ⟨hsnapped, hrestores⟩ := snapshot_snaps hlawful (ordered_start persistenceId initial) now
    refine ⟨after_snapped hlawful hsnapped rest, ?_⟩
    rcases hrest with hevents | hlast
    · exact after_restores_of_events hlawful hsnapped
        (first_snapshot_inStep domain persistenceId initial now) hrestores
        hevents
    · rcases rest.eq_nil_or_concat with rfl | ⟨front, c, rfl⟩
      · exact hrestores
      · rw [concat_eq_append] at hlast ⊢
        rw [getLast?_concat] at hlast
        cases c with
        | persistEvent now event => cases hlast _ rfl
        | snapshot now =>
          exact after_restores_of_last hlawful hsnapped front now

/-- Every call succeeds and a new behavior recovers the state, if the calls
begin with a snapshot, no event follows the last of several snapshots, and the
id is not empty. -/
theorem recover_reproduces_state (hlawful : domain.Lawful)
    (persistenceId : String) (initial : State)
    (calls : List (DurableCall Event))
    (hid : persistenceId ≠ "" ∨ calls = []) (hcovered : Covered calls) :
    (∀ answer ∈ ((start persistenceId initial).after domain calls).answers, answer = .ok ()) ∧
      ∃ b, recover domain (create persistenceId initial)
          ((start persistenceId initial).after domain calls).store = (b, .ok ()) ∧
        b.state = ((start persistenceId initial).after domain calls).behavior.state := by
  cases calls with
  | nil => exact ⟨(ordered_start persistenceId initial).answered, _, rfl, rfl⟩
  | cons first rest =>
    obtain ⟨hsnapped, hrestores⟩ :=
      after_covered hlawful persistenceId initial hcovered
    have hname : ((start persistenceId initial).after domain
        (first :: rest)).behavior.persistenceId = persistenceId :=
      after_persistenceId domain _ _
    have hnonempty := hid.resolve_right (cons_ne_nil _ _)
    rw [← hname] at hnonempty
    have hrecover := recover_of_restores hnonempty hsnapped hrestores initial
    rw [hname] at hrecover
    exact ⟨hsnapped.answered, hrecover⟩

namespace RecoveryWitness

/-- Sums of bytes, each written as itself. -/
def sums : EventDomain UInt8 UInt8 where
  serializeState s := [s]
  deserializeState
    | [s] => .ok s
    | _ => .error 1
  serializeEvent e := [e]
  deserializeEvent
    | [e] => .ok e
    | _ => .error 1
  applyEventToState s e := (s + e, .ok ())

theorem sums_lawful : sums.Lawful :=
  ⟨fun _ => rfl, fun _ => rfl, fun _ _ => rfl⟩

/-- One snapshot and two events. -/
def calls : List (DurableCall UInt8) :=
  [.snapshot 0, .persistEvent 1 2, .persistEvent 2 3]

theorem calls_recovered :
    ((start "order" (0 : UInt8)).after sums calls).behavior.state = 5 ∧
      (∀ answer ∈ ((start "order" 0).after sums calls).answers, answer = .ok ()) ∧
      ∃ b, recover sums (create "order" 0)
          ((start "order" 0).after sums calls).store = (b, .ok ()) ∧
        b.state = ((start "order" 0).after sums calls).behavior.state :=
  ⟨rfl, recover_reproduces_state sums_lawful "order" 0 calls
    (.inl (by decide)) ⟨rfl, .inl (by decide)⟩⟩

/-- The first event of a fresh store is refused, and an event after a second
snapshot is lost. -/
theorem events_lost :
    ((start "order" (0 : UInt8)).after sums [.persistEvent 0 2]).answers =
        [.error FailureReason.unknown.code] ∧
      ((start "order" (0 : UInt8)).after sums
          [.snapshot 0, .snapshot 1, .persistEvent 2 3]).answers =
        [.ok (), .ok (), .ok ()] ∧
      ((start "order" (0 : UInt8)).after sums
          [.snapshot 0, .snapshot 1, .persistEvent 2 3]).behavior.state = 3 ∧
      (recover sums (create "order" 0)
        ((start "order" (0 : UInt8)).after sums
          [.snapshot 0, .snapshot 1, .persistEvent 2 3]).store).1.state = 0 :=
  ⟨rfl, rfl, rfl, rfl⟩

end RecoveryWitness

end DurableSession

end HPActor
