/-
Event-sourced behaviors over a state store.  A behavior recovers from any store,
whose loads may fail.  It numbers its events itself, from 1; the store in memory
numbers events and snapshots together, from 0, refuses an event that is ahead
of its own number and answers success, without storing it, for one that is
behind.
-/
import HPActor.Message

namespace HPActor

structure SnapshotRecord where
  persistenceId : String := ""
  sequence : Nat := 0
  schemaVersion : Nat := 1
  serializerId : Nat := 0
  timestampMs : Nat := 0
  data : List UInt8 := []
  checksum : Nat := 0

structure EventRecord where
  persistenceId : String := ""
  sequence : Nat := 0
  schemaVersion : Nat := 1
  serializerId : Nat := 0
  timestampMs : Nat := 0
  eventData : List UInt8 := []

/-- A store as `recover` reads it: the events that are kept under an id, and the
two loads.  Events that are loaded are those after the given number. -/
structure DurableStateStore where
  events : String → List EventRecord
  loadLatestSnapshot : String → Except UInt32 SnapshotRecord
  loadEventsAfter : String → Nat → Except UInt32 (List EventRecord)
  loaded : ∀ persistenceId afterSequence found,
    loadEventsAfter persistenceId afterSequence = .ok found →
      found = (events persistenceId).filter fun record => decide (afterSequence < record.sequence)

structure InMemoryStateStore.ActorState where
  nextSequence : Nat := 0
  latestSnapshot : SnapshotRecord := {}
  events : List EventRecord := []

structure InMemoryStateStore where
  states : String → Option InMemoryStateStore.ActorState

namespace InMemoryStateStore

def empty : InMemoryStateStore := ⟨fun _ => none⟩

variable (store : InMemoryStateStore) (persistenceId : String)

/-- The record that indexing the table finds, or puts there. -/
def stateAt : ActorState :=
  (store.states persistenceId).getD {}

def setState (state : ActorState) : InMemoryStateStore :=
  ⟨fun key =>
    if key = persistenceId then some state else store.states key⟩

def writeSnapshot (now : Nat) (persistenceId : String) (schemaVersion : Nat) (data : List UInt8) :
    InMemoryStateStore × Except UInt32 SnapshotRecord :=
  let state := store.stateAt persistenceId
  let record : SnapshotRecord :=
    { persistenceId := persistenceId, sequence := state.nextSequence,
      schemaVersion := schemaVersion, serializerId := 0,
      timestampMs := now, data := data, checksum := 0 }
  (store.setState persistenceId
      { state with nextSequence := state.nextSequence + 1,
                   latestSnapshot := record },
    .ok record)

/-- A snapshot with an empty id counts as none. -/
def loadLatestSnapshot : Except UInt32 SnapshotRecord :=
  match store.states persistenceId with
  | none => .error FailureReason.unknown.code
  | some state =>
    if state.latestSnapshot.persistenceId = "" then
      .error FailureReason.unknown.code
    else .ok state.latestSnapshot

def appendEvent (now : Nat) (persistenceId : String) (sequence : Nat) (event : List UInt8) :
    InMemoryStateStore × Except UInt32 Unit :=
  let state := store.stateAt persistenceId
  if sequence < state.nextSequence then
    -- taken for a repetition: success, and nothing is stored
    (store.setState persistenceId state, .ok ())
  else if state.nextSequence ≠ sequence then
    (store.setState persistenceId state, .error FailureReason.unknown.code)
  else
    let record : EventRecord :=
      { persistenceId := persistenceId, sequence := state.nextSequence,
        schemaVersion := 1, serializerId := 0, timestampMs := now,
        eventData := event }
    (store.setState persistenceId
        { state with nextSequence := state.nextSequence + 1,
                     events := state.events ++ [record] },
      .ok ())

def loadEventsAfter (afterSequence : Nat) : Except UInt32 (List EventRecord) :=
  match store.states persistenceId with
  | none => .ok []
  | some state =>
    .ok (state.events.filter fun record =>
      decide (afterSequence < record.sequence))

@[simp] theorem setState_stateAt (state : ActorState) :
    (store.setState persistenceId state).stateAt persistenceId = state := by
  simp [stateAt, setState]

theorem loadLatestSnapshot_eq :
    store.loadLatestSnapshot persistenceId =
      if (store.stateAt persistenceId).latestSnapshot.persistenceId = "" then
        .error FailureReason.unknown.code
      else .ok (store.stateAt persistenceId).latestSnapshot := by
  cases hstate : store.states persistenceId <;>
    simp [loadLatestSnapshot, stateAt, hstate]

theorem loadEventsAfter_eq (afterSequence : Nat) :
    store.loadEventsAfter persistenceId afterSequence =
      .ok ((store.stateAt persistenceId).events.filter fun record =>
        decide (afterSequence < record.sequence)) := by
  cases hstate : store.states persistenceId <;>
    simp [loadEventsAfter, stateAt, hstate]

def durable (store : InMemoryStateStore) : DurableStateStore where
  events persistenceId := (store.stateAt persistenceId).events
  loadLatestSnapshot := store.loadLatestSnapshot
  loadEventsAfter := store.loadEventsAfter
  loaded persistenceId afterSequence found hfound := by
    rw [loadEventsAfter_eq] at hfound
    exact (Except.ok.inj hfound).symm

instance : Coe InMemoryStateStore DurableStateStore := ⟨durable⟩

end InMemoryStateStore

/-- What the user of an event-sourced behavior provides. -/
structure EventDomain (State Event : Type) where
  serializeState : State → List UInt8
  deserializeState : List UInt8 → Except UInt32 State
  serializeEvent : Event → List UInt8
  deserializeEvent : List UInt8 → Except UInt32 Event
  applyEventToState : State → Event → State × Except UInt32 Unit

/-- Reading undoes writing, and applying an event never fails. -/
structure EventDomain.Lawful {State Event : Type} (domain : EventDomain State Event) : Prop where
  state_back : ∀ s, domain.deserializeState (domain.serializeState s) = .ok s
  event_back : ∀ e, domain.deserializeEvent (domain.serializeEvent e) = .ok e
  apply_total : ∀ s e, (domain.applyEventToState s e).2 = .ok ()

structure EventSourcedBehavior (State : Type) where
  persistenceId : String
  state : State
  lastSnapshotSequence : Nat := 0
  lastEventSequence : Nat := 0
  recovered : Bool := false

namespace EventSourcedBehavior

variable {State Event : Type}

def create (persistenceId : String) (initial : State) : EventSourcedBehavior State :=
  { persistenceId := persistenceId, state := initial }

/-- The loop of `recover`: an event that cannot be read is skipped, one that
cannot be applied ends the recovery. -/
def replay (domain : EventDomain State Event) : EventSourcedBehavior State → List EventRecord →
      EventSourcedBehavior State × Except UInt32 Unit
  | b, [] => (b, .ok ())
  | b, record :: rest =>
    match domain.deserializeEvent record.eventData with
    | .error _ => replay domain b rest
    | .ok event =>
      match domain.applyEventToState b.state event with
      | (s, .error code) => ({ b with state := s }, .error code)
      | (s, .ok ()) =>
        replay domain
          { b with state := s, lastEventSequence := record.sequence }
          rest

/-- Events are replayed only over a snapshot, and none if they cannot be loaded. -/
def recover (domain : EventDomain State Event)
    (b : EventSourcedBehavior State) (store : DurableStateStore) :
    EventSourcedBehavior State × Except UInt32 Unit :=
  match store.loadLatestSnapshot b.persistenceId with
  | .error _ => ({ b with recovered := true }, .ok ())
  | .ok snap =>
    match domain.deserializeState snap.data with
    | .error _ => (b, .error FailureReason.reactivationFailed.code)
    | .ok base =>
      let restored :=
        { b with state := base, lastSnapshotSequence := snap.sequence }
      match store.loadEventsAfter b.persistenceId snap.sequence with
      | .error _ => ({ restored with recovered := true }, .ok ())
      | .ok events =>
        match replay domain restored events with
        | (last, .error code) => (last, .error code)
        | (last, .ok ()) => ({ last with recovered := true }, .ok ())

def persistEvent (domain : EventDomain State Event) (b : EventSourcedBehavior State)
    (store : InMemoryStateStore) (now : Nat) (event : Event) :
    EventSourcedBehavior State × InMemoryStateStore × Except UInt32 Unit :=
  let nextSeq := b.lastEventSequence + 1
  match store.appendEvent now b.persistenceId nextSeq (domain.serializeEvent event) with
  | (store', .error code) => (b, store', .error code)
  | (store', .ok ()) =>
    let applied := domain.applyEventToState b.state event
    ({ b with state := applied.1, lastEventSequence := nextSeq }, store', applied.2)

def snapshot (domain : EventDomain State Event)
    (b : EventSourcedBehavior State) (store : InMemoryStateStore) (now : Nat) :
    EventSourcedBehavior State × InMemoryStateStore × Except UInt32 Unit :=
  match store.writeSnapshot now b.persistenceId 1 (domain.serializeState b.state) with
  | (store', .ok record) =>
    ({ b with lastSnapshotSequence := record.sequence }, store', .ok ())
  | (store', .error _) =>
    (b, store', .error FailureReason.passivationSnapshotFailed.code)

end EventSourcedBehavior

end HPActor
