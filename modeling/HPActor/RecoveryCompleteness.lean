/-
What a successful recovery has applied.  `recover` goes on past an event that it cannot read, does
not look at the events when no snapshot loads, takes events that cannot be loaded for none, and does
not compare the numbers.
-/
import HPActor.EventRecovery

namespace HPActor.EventSourcedBehavior

open List

variable {State Event : Type} (domain : EventDomain State Event) (b : EventSourcedBehavior State)
  (store : DurableStateStore)

/-- The same domain, with the events that were applied kept beside the state. -/
def logged : EventDomain (State × List Event) Event where
  serializeState s := domain.serializeState s.1
  deserializeState data := (domain.deserializeState data).map (·, [])
  serializeEvent := domain.serializeEvent
  deserializeEvent := domain.deserializeEvent
  applyEventToState s event :=
    let applied := domain.applyEventToState s.1 event
    ((applied.1, s.2 ++ [event]), applied.2)

def withLog (log : List Event) : EventSourcedBehavior (State × List Event) :=
  ⟨b.persistenceId, (b.state, log), b.lastSnapshotSequence, b.lastEventSequence, b.recovered⟩

/-- The events that recovery applies. -/
def appliedEvents : List Event := ((b.withLog []).recover (logged domain) store).1.state.2

/-- The number that recovery goes on from, and the events stored after the snapshot it uses, or all
of them if it finds none. -/
def storedEvents : Nat × List EventRecord :=
  let events := store.events b.persistenceId
  match store.loadLatestSnapshot b.persistenceId with
  | .error _ => (b.lastEventSequence, events)
  | .ok snap => (snap.sequence, events.filter (snap.sequence < ·.sequence))

/-- The numbers of the stored events leave no gap. -/
def Unbroken : Prop :=
  let stored := b.storedEvents store
  stored.2.map EventRecord.sequence = range' (stored.1 + 1) stored.2.length

/-- Every stored event was applied, in the order of the numbers and without a gap. -/
def RecoversAll : Prop :=
  (b.storedEvents store).2.map (fun record => domain.deserializeEvent record.eventData) =
    (b.appliedEvents domain store).map .ok ∧ b.Unbroken store

/-- The events that can be read. -/
def readable (records : List EventRecord) : List Event :=
  records.filterMap fun record => (domain.deserializeEvent record.eventData).toOption

/-- The events can be applied one after the other. -/
def Applies : State → List Event → Prop
  | _, [] => True
  | s, event :: rest =>
    (domain.applyEventToState s event).2 = .ok () ∧
      Applies (domain.applyEventToState s event).1 rest

/-- What the store and the domain have to be like for a success to be a complete recovery. -/
def Complete : Prop :=
  match store.loadLatestSnapshot b.persistenceId with
  | .error _ => store.events b.persistenceId = []
  | .ok snap =>
    match domain.deserializeState snap.data with
    -- recovery fails
    | .error _ => True
    | .ok base =>
      match store.loadEventsAfter b.persistenceId snap.sequence with
      | .error _ => (b.storedEvents store).2 = []
      | .ok records =>
        -- recovery fails at an event that cannot be applied
        Applies domain base (readable domain records) →
          (∀ record ∈ records, ∃ event, domain.deserializeEvent record.eventData = .ok event) ∧
            b.Unbroken store

theorem replay_ok_iff (records : List EventRecord) :
    (replay domain b records).2 = .ok () ↔ Applies domain b.state (readable domain records) := by
  induction records generalizing b with
  | nil => exact iff_of_true rfl trivial
  | cons record rest ih =>
    cases hread : domain.deserializeEvent record.eventData with
    | error code => simpa [replay, readable, hread, Except.toOption] using ih b
    | ok event =>
      rcases happly : domain.applyEventToState b.state event with ⟨s, code | _⟩
      · simp [replay, readable, hread, Except.toOption, Applies, happly]
      · simpa [replay, readable, hread, Except.toOption, Applies, happly] using
          ih { b with state := s, lastEventSequence := record.sequence }

/-- Keeping a log does not change a replay, and one that succeeds applies what can be read. -/
theorem replay_logged (records : List EventRecord) (log : List Event) :
    ∃ events, replay (logged domain) (b.withLog log) records =
        ((replay domain b records).1.withLog (log ++ events), (replay domain b records).2) ∧
      ((replay domain b records).2 = .ok () → events = readable domain records) := by
  induction records generalizing b log with
  | nil => exact ⟨[], by rw [append_nil]; rfl, fun _ => rfl⟩
  | cons record rest ih =>
    cases hread : domain.deserializeEvent record.eventData with
    | error code =>
      obtain ⟨events, hevents, hall⟩ := ih b log
      refine ⟨events, ?_, ?_⟩
      · simpa only [replay, logged, hread] using hevents
      · simpa [replay, readable, hread, Except.toOption] using hall
    | ok event =>
      rcases happly : domain.applyEventToState b.state event with ⟨s, code | _⟩
      · exact ⟨[event], by simp [replay, logged, hread, withLog, happly],
          by simp [replay, hread, happly]⟩
      · obtain ⟨events, hevents, hall⟩ :=
          ih { b with state := s, lastEventSequence := record.sequence } (log ++ [event])
        refine ⟨event :: events, ?_, ?_⟩
        · simpa [replay, logged, hread, withLog, happly] using hevents
        · simpa [replay, readable, hread, happly, Except.toOption] using hall

theorem map_eq_map_ok_iff {α ε β : Type} (read : α → Except ε β) (items : List α) :
    items.map read = (items.filterMap fun item => (read item).toOption).map .ok ↔
      ∀ item ∈ items, ∃ value, read item = .ok value := by
  constructor
  · intro heq item hitem
    have hmem : read item ∈ items.map read := mem_map_of_mem hitem
    rw [heq] at hmem
    obtain ⟨value, -, hvalue⟩ := mem_map.mp hmem
    exact ⟨value, hvalue.symm⟩
  · intro hall
    induction items with
    | nil => rfl
    | cons item rest ih =>
      obtain ⟨value, hvalue⟩ := hall item mem_cons_self
      rw [map_cons, filterMap_cons_some (by rw [hvalue]; rfl), map_cons, hvalue,
        ih fun other hother => hall other (mem_cons_of_mem item hother)]

/-- Nothing is left out if there is nothing. -/
theorem recoversAll_of_none (hnone : b.appliedEvents domain store = []) :
    b.RecoversAll domain store ↔ (b.storedEvents store).2 = [] := by
  rw [RecoversAll, hnone, map_nil, map_eq_nil_iff]
  refine and_iff_left_of_imp fun hempty => ?_
  simp [Unbroken, hempty]

/-- Success means a complete recovery exactly if there is no event that no snapshot or a failing
load leaves out, and the events that are replayed can all be read and have no gap. -/
theorem recover_complete_iff :
    ((b.recover domain store).2 = .ok () → b.RecoversAll domain store) ↔
      b.Complete domain store := by
  have hid : (b.withLog ([] : List Event)).persistenceId = b.persistenceId := rfl
  rw [Complete]
  cases hload : store.loadLatestSnapshot b.persistenceId with
  | error code =>
    have hnone : b.appliedEvents domain store = [] := by
      rw [appliedEvents, recover, hid, hload]
      rfl
    have hall : (b.storedEvents store).2 = store.events b.persistenceId := by
      rw [storedEvents, hload]
    rw [recover, hload, recoversAll_of_none domain b store hnone, hall]
    exact forall_prop_of_true rfl
  | ok snap =>
    cases hbase : domain.deserializeState snap.data with
    | error code =>
      rw [recover, hload]
      simp only [hbase]
      refine iff_of_true (fun hok => ?_) trivial
      cases hok
    | ok base =>
      have hlogged : (logged domain).deserializeState snap.data = .ok (base, []) :=
        congrArg (Except.map (·, [])) hbase
      cases hevents : store.loadEventsAfter b.persistenceId snap.sequence with
      | error code =>
        have hnone : b.appliedEvents domain store = [] := by
          simp only [appliedEvents, recover, hid, hload, hlogged, hevents]
        rw [recoversAll_of_none domain b store hnone, recover]
        simp only [hload, hbase, hevents, forall_const]
      | ok records =>
        have hstored : (b.storedEvents store).2 = records := by
          rw [storedEvents, hload, store.loaded _ _ _ hevents]
        let restored : EventSourcedBehavior State :=
          { b with state := base, lastSnapshotSequence := snap.sequence }
        have hok : (b.recover domain store).2 = .ok () ↔
            Applies domain base (readable domain records) := by
          rw [← replay_ok_iff domain restored records]
          simp only [recover, hload, hbase, hevents]
          rcases replay domain restored records with ⟨last, code | _⟩
          · exact Iff.rfl
          · exact Iff.rfl
        rw [hok]
        simp only [hbase, hevents]
        refine imp_congr_right fun happlies => ?_
        obtain ⟨events, hreplay, hread⟩ := replay_logged domain restored records []
        have hreplayed := (replay_ok_iff domain restored records).mpr happlies
        have happlied : b.appliedEvents domain store = readable domain records := by
          rw [← hread hreplayed]
          simp only [restored, withLog, nil_append] at hreplay
          simp only [appliedEvents, recover, hload, hlogged, hevents, withLog, hreplay]
          rcases replay domain restored records with ⟨last, code | _⟩
          · rfl
          · rfl
        rw [RecoversAll, happlied, hstored, readable, map_eq_map_ok_iff]

namespace RecoveryWitness

/-- Numbers, written as one byte; a byte from 128 on is not read. -/
def bytes : EventDomain Nat Nat where
  serializeState n := [UInt8.ofNat n]
  deserializeState data := .ok (data.headD 0).toNat
  serializeEvent n := [UInt8.ofNat n]
  deserializeEvent data := if data.headD 0 < 128 then .ok (data.headD 0).toNat else .error 1
  applyEventToState s n := (s + n, .ok ())

/-- A store with a snapshot of the given name and events with the given numbers and bytes. -/
def storeOf (snapshot : String) (events : List (Nat × UInt8)) : InMemoryStateStore :=
  InMemoryStateStore.empty.setState "a"
    { latestSnapshot := { persistenceId := snapshot }
      events := events.map fun event => { sequence := event.1, eventData := [event.2] } }

/-- A store with a snapshot and an event, which cannot be loaded. -/
def unreachable : DurableStateStore where
  events _ := [{ sequence := 1, eventData := [5] }]
  loadLatestSnapshot _ := .ok { persistenceId := "a" }
  loadEventsAfter _ _ := .error 1
  loaded _ _ _ := nofun

/-- An event without a snapshot, one that cannot be read, one that cannot be loaded and one after
a gap: recovery succeeds each time, and the first three are not applied. -/
theorem recover_skips :
    let b : EventSourcedBehavior Nat := .create "a" 0
    let outcome store := ((b.recover bytes store).2, b.appliedEvents bytes store)
    outcome (storeOf "" [(1, 5)]) = (.ok (), []) ∧
      outcome (storeOf "a" [(1, 200), (2, 6)]) = (.ok (), [6]) ∧
      outcome unreachable = (.ok (), []) ∧
      outcome (storeOf "a" [(3, 7)]) = (.ok (), [7]) := by
  decide +kernel

end RecoveryWitness

end HPActor.EventSourcedBehavior
