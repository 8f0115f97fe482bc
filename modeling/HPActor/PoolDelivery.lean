/-
What becomes of the messages a connection pool has accepted.  The books of the
pool are the accepted data, the data handed to connections, the queue and what
the flushes have in hand; every step makes one of six entries in them.
-/
import HPActor.ConnectionPool
import Mathlib.Algebra.BigOperators.Fin

namespace HPActor.ConnectionPool

open Function List

variable {n : Nat} {s s' : ConnectionPool n} {t : Fin n}

/-- What each thread has in hand. -/
def hands (s : ConnectionPool n) (u : Fin n) : List (List UInt8) :=
  (s.threads u).held

/-- The entry that a step makes in the books, and what is known when it is made
under the conditions of the run. -/
inductive Entry (s : ConnectionPool n) (action : Action n) (s' : ConnectionPool n) : Prop where
  | none (haccepted : s'.accepted = s.accepted)
      (hhanded : s'.handedData = s.handedData) (hqueued : s'.queued = s.queued)
      (hhands : s'.hands = s.hands)
  | direct (data : List UInt8) (hcond : s.Orderly action → s.queued = [] ∧ ∀ u, s.hands u = [])
      (haccepted : s'.accepted = s.accepted ++ [data])
      (hhanded : s'.handedData = s.handedData ++ [data])
      (hqueued : s'.queued = s.queued) (hhands : s'.hands = s.hands)
  | enqueue (data : List UInt8) (haccepted : s'.accepted = s.accepted ++ [data])
      (hhanded : s'.handedData = s.handedData)
      (hqueued : s'.queued = s.queued ++ [data]) (hhands : s'.hands = s.hands)
  | take (t : Fin n) (data : List UInt8) (hcond : s.Orderly action → ∀ u, s.hands u = [])
      (hempty : s.hands t = [])
      (haccepted : s'.accepted = s.accepted)
      (hhanded : s'.handedData = s.handedData)
      (hqueued : s.queued = data :: s'.queued)
      (hhands : s'.hands = update s.hands t [data])
  | drop (hcond : ¬ s.Finds action) (hcond' : ¬ s.Orderly action)
  | give (t : Fin n) (data : List UInt8) (hheld : s.hands t = [data])
      (haccepted : s'.accepted = s.accepted)
      (hhanded : s'.handedData = s.handedData ++ [data])
      (hqueued : s'.queued = s.queued)
      (hhands : s'.hands = update s.hands t [])

variable {phase : PoolPhase} {action : Action n} {now : Nat}

/-- A step of one thread changes the hands of that thread only. -/
theorem hands_update {held : List (List UInt8)} (hthreads : s'.threads = update s.threads t phase)
    (hheld : phase.held = held) :
    s'.hands = update s.hands t held := by
  funext u
  rw [hands, hthreads, ← hheld]
  by_cases hu : u = t
  · subst hu
    simp only [update_self]
  · simp only [update_of_ne hu]
    rfl

/-- A thread whose hands stay as they are. -/
theorem hands_same (hthreads : s'.threads = update s.threads t phase)
    (hheld : phase.held = (s.threads t).held) : s'.hands = s.hands := by
  rw [hands_update hthreads hheld]
  exact update_eq_self t s.hands

theorem handedData_hand (s : ConnectionPool n) (conn : Nat) (data : List UInt8) :
    (s.hand conn data).handedData = s.handedData ++ [data] := by
  rw [handedData, hand]
  exact map_append

section

variable (hcontrol : s.outboundQueue.controlLane = [])
include hcontrol

/-- A step of a thread that leaves the books as they are. -/
theorem silent_entry (haccepted : s'.accepted = s.accepted) (hhanded : s'.handed = s.handed)
    (hqueue : s'.outboundQueue = s.outboundQueue) (hthreads : s'.threads = update s.threads t phase)
    (hheld : phase.held = (s.threads t).held) :
    Entry s action s' ∧ s'.outboundQueue.controlLane = [] := by
  refine ⟨.none haccepted ?_ ?_ (hands_same hthreads hheld), ?_⟩
  · rw [handedData, hhanded]
    rfl
  · rw [queued, hqueue]
    rfl
  · rw [hqueue]
    exact hcontrol

/-- A sender puts its message into the queue, or finds it full. -/
theorem enqueue_entry {msg : PendingMessage} {isProbe : Bool}
    (hphase : s.threads t = .unfound msg isProbe) (hmove : s.move t now = some s') :
    Entry s (.move t now) s' ∧ s'.outboundQueue.controlLane = [] := by
  simp only [move, hphase] at hmove
  cases hmove
  have hheld : [] = (s.threads t).held := by
    rw [hphase]
    rfl
  rcases s.outboundQueue.tryEnqueue_user msg .bestEffort with
    ⟨hsent, hdata, hlane⟩ | ⟨hfull, hsame⟩
  · refine ⟨.enqueue msg.data (if_pos hsent) rfl ?_ (hands_same rfl hheld), hlane.trans hcontrol⟩
    change (s.enqueue msg).1.dataLane.map PendingMessage.data = _
    rw [enqueue, hdata, map_append]
    rfl
  · have hfull' : (s.enqueue msg).2 ≠ .sent := by
      rw [enqueue, hfull]
      decide
    exact silent_entry hcontrol (if_neg hfull') rfl hsame rfl hheld

/-- A flush takes the next message out of the queue, or finds none. -/
theorem dequeue_entry (hphase : s.threads t = .flushing) (hmove : s.move t now = some s') :
    Entry s (.move t now) s' ∧ s'.outboundQueue.controlLane = [] := by
  simp only [move, hphase] at hmove
  have hheld : [] = (s.threads t).held := by
    rw [hphase]
    rfl
  rcases s.outboundQueue.tryDequeue_data hcontrol with
    ⟨-, hnone⟩ | ⟨msg, rest, q, hdata, hsome, hrest, hlane⟩
  · rw [hnone] at hmove
    cases hmove
    exact silent_entry hcontrol rfl rfl rfl rfl hheld
  · rw [hsome] at hmove
    cases hmove
    refine ⟨.take t msg.data ?_ hheld.symm rfl rfl ?_ (hands_update rfl rfl), hlane⟩
    · intro horderly
      simp only [Orderly, OrderlyIn, hphase] at horderly
      exact horderly
    · change s.outboundQueue.dataLane.map _ = _ :: q.dataLane.map _
      rw [hdata, hrest]
      rfl

/-- A flush looks for a connection; the message in its hands is dropped if
there is none. -/
theorem lookup_entry {msg : PendingMessage}
    (hphase : s.threads t = .dequeued msg) (hmove : s.move t now = some s') :
    Entry s (.move t now) s' ∧ s'.outboundQueue.controlLane = [] := by
  simp only [move, hphase] at hmove
  rcases s.getConnection_cases with ⟨hactive, hnone⟩ | ⟨-, conn, hsome⟩
  · rw [hnone] at hmove
    cases hmove
    refine ⟨.drop ?_ ?_, hcontrol⟩
    · simp only [Finds, FindsIn, hphase]
      exact not_not.mpr hactive
    · simp only [Orderly, OrderlyIn, hphase]
      exact not_not.mpr hactive
  · rw [hsome] at hmove
    cases hmove
    exact silent_entry hcontrol rfl rfl rfl rfl (by rw [hphase]; rfl)

/-- The steps of a thread, one entry each. -/
theorem move_entry (hmove : s.move t now = some s') :
    Entry s (.move t now) s' ∧ s'.outboundQueue.controlLane = [] := by
  cases hphase : s.threads t with
  | unfound msg isProbe => exact enqueue_entry hcontrol hphase hmove
  | flushing => exact dequeue_entry hcontrol hphase hmove
  | dequeued msg => exact lookup_entry hcontrol hphase hmove
  | idle | returned =>
    simp only [move, hphase] at hmove
    cases hmove
  | entered msg =>
    simp only [move, hphase] at hmove
    cases hmove
    refine silent_entry hcontrol rfl rfl rfl rfl ?_
    rw [hphase]
    split <;> rfl
  | checked msg =>
    simp only [move, hphase] at hmove
    split at hmove
    all_goals
      cases hmove
      exact silent_entry hcontrol rfl rfl rfl rfl (by rw [hphase]; rfl)
  | admitted msg isProbe =>
    simp only [move, hphase] at hmove
    rcases s.getConnection_cases with ⟨-, hfound⟩ | ⟨-, conn, hfound⟩
    all_goals
      rw [hfound] at hmove
      cases hmove
      exact silent_entry hcontrol rfl rfl rfl rfl (by rw [hphase]; rfl)
  | found msg conn =>
    simp only [move, hphase] at hmove
    cases hmove
    refine ⟨.direct msg.data ?_ rfl (handedData_hand s conn msg.data) rfl
      (hands_same rfl (by rw [hphase]; rfl)), hcontrol⟩
    intro horderly
    simp only [Orderly, OrderlyIn, hphase] at horderly
    exact horderly
  | handing msg conn =>
    simp only [move, hphase] at hmove
    cases hmove
    refine ⟨.give t msg.data ?_ rfl (handedData_hand s conn msg.data) rfl
      (hands_update rfl rfl), hcontrol⟩
    rw [hands, hphase]
    rfl
  | readied | erased =>
    simp only [move, hphase] at hmove
    cases hmove
    exact silent_entry hcontrol rfl rfl rfl rfl (by rw [hphase]; rfl)
  | failed =>
    simp only [move, hphase, scheduleReconnect] at hmove
    split at hmove
    all_goals
      cases hmove
      exact silent_entry hcontrol rfl rfl rfl rfl (by rw [hphase]; rfl)

end

theorem isFree_held (hfree : phase.isFree = true) : phase.held = [] := by
  cases phase <;> first | rfl | cases hfree

theorem step_entry (hcontrol : s.outboundQueue.controlLane = []) (hstep : s.step action = some s') :
    Entry s action s' ∧ s'.outboundQueue.controlLane = [] := by
  cases action with
  | trySend t msg | onConnectionReady t conn | onConnectionError t conn =>
    rw [step] at hstep
    obtain ⟨hfree, ⟨⟩⟩ := Option.ite_none_right_eq_some.mp hstep
    exact silent_entry hcontrol rfl rfl rfl rfl (isFree_held hfree).symm
  | addConnection conn | reconnectTimer =>
    cases hstep
    exact ⟨.none rfl rfl rfl rfl, hcontrol⟩
  | move t now => exact move_entry hcontrol hstep

/-- Every accepted message is handed over, in the hands of a flush, or
queued. -/
structure Balanced (s : ConnectionPool n) : Prop where
  control : s.outboundQueue.controlLane = []
  balance : ∀ data, s.accepted.count data =
    s.handedData.count data + ∑ u, (s.hands u).count data + s.queued.count data

theorem balanced_start (n : Nat) (config : PoolConfig) : (start n config).Balanced where
  control := rfl
  balance := by
    intro data
    change 0 = 0 + ∑ u : Fin n, List.count data [] + 0
    simp

theorem Balanced.step (hs : s.Balanced) (hfinds : s.Finds action)
    (hstep : s.step action = some s') : s'.Balanced := by
  obtain ⟨hentry, hcontrol⟩ := step_entry hs.control hstep
  refine ⟨hcontrol, fun data => ?_⟩
  have hbalance := hs.balance data
  have hupdate := fun t next => Interleaving.sum_update
    (fun hand : List (List UInt8) => hand.count data) s.hands t next
  cases hentry with
  | none haccepted hhanded hqueued hhands =>
    rw [haccepted, hhanded, hqueued, hhands, hbalance]
  | direct new _ haccepted hhanded hqueued hhands
  | enqueue new haccepted hhanded hqueued hhands =>
    rw [haccepted, hhanded, hqueued, hhands, count_append, count_append, hbalance]
    omega
  | take t taken _ hempty haccepted hhanded hqueued hhands =>
    have hsum := hupdate t [taken]
    rw [hqueued, count_cons] at hbalance
    rw [hempty, count_nil, count_singleton] at hsum
    rw [haccepted, hhanded, hhands, hbalance]
    omega
  | drop hcond _ => exact absurd hfinds hcond
  | give t given hheld haccepted hhanded hqueued hhands =>
    have hsum := hupdate t []
    rw [hheld, count_nil, count_singleton] at hsum
    rw [haccepted, hhanded, hqueued, hhands, count_append, count_singleton, hbalance]
    omega

/-- What is in hand, of all threads. -/
def inHand (s : ConnectionPool n) : List (List UInt8) :=
  (List.finRange n).flatMap s.hands

theorem inHand_of_empty (hempty : ∀ u, s.hands u = []) : s.inHand = [] := by
  rw [inHand, flatMap_eq_nil_iff]
  exact fun u _ => hempty u

theorem flatMap_single {α β : Type} {f : α → List β} {a : α} {l : List α}
    (hnodup : l.Nodup) (hmem : a ∈ l) (hother : ∀ b, b ≠ a → f b = []) :
    l.flatMap f = f a := by
  induction l with
  | nil => cases hmem
  | cons b rest ih =>
    obtain ⟨hnew, hrest⟩ := nodup_cons.mp hnodup
    rw [flatMap_cons]
    by_cases hb : b = a
    · subst hb
      have hnone : rest.flatMap f = [] := by
        rw [flatMap_eq_nil_iff]
        exact fun c hc => hother c fun heq => hnew (heq ▸ hc)
      rw [hnone, append_nil]
    · rw [hother b hb, nil_append]
      exact ih hrest ((mem_cons.mp hmem).resolve_left (Ne.symm hb))

theorem inHand_single (hother : ∀ u, u ≠ t → s.hands u = []) : s.inHand = s.hands t :=
  flatMap_single (nodup_finRange n) (mem_finRange t) hother

/-- The accepted messages are those handed over, the one in the hands of a
flush, and the queued ones, in this order. -/
structure InOrder (s : ConnectionPool n) : Prop where
  control : s.outboundQueue.controlLane = []
  alone : ∀ t u, s.hands t ≠ [] → s.hands u ≠ [] → t = u
  order : s.accepted = s.handedData ++ (s.inHand ++ s.queued)

theorem inOrder_start (n : Nat) (config : PoolConfig) : (start n config).InOrder where
  control := rfl
  alone := fun _ _ hheld => absurd rfl hheld
  order := by
    rw [inHand_of_empty fun _ => rfl]
    rfl

theorem InOrder.step (hs : s.InOrder) (horderly : s.Orderly action)
    (hstep : s.step action = some s') : s'.InOrder := by
  obtain ⟨hentry, hcontrol⟩ := step_entry hs.control hstep
  have horder := hs.order
  cases hentry with
  | none haccepted hhanded hqueued hhands =>
    refine ⟨hcontrol, by rw [hhands]; exact hs.alone, ?_⟩
    rw [haccepted, hhanded, hqueued, inHand, hhands]
    exact horder
  | direct new hcond haccepted hhanded hqueued hhands =>
    obtain ⟨hnone, hempty⟩ := hcond horderly
    refine ⟨hcontrol, by rw [hhands]; exact hs.alone, ?_⟩
    rw [inHand_of_empty hempty, hnone] at horder
    rw [haccepted, hhanded, hqueued, hnone, horder, inHand_of_empty (by rw [hhands]; exact hempty)]
    simp only [append_nil]
  | enqueue new haccepted hhanded hqueued hhands =>
    refine ⟨hcontrol, by rw [hhands]; exact hs.alone, ?_⟩
    rw [haccepted, hhanded, hqueued, inHand, hhands, horder]
    simp only [append_assoc]
    rfl
  | take t taken hcond _ haccepted hhanded hqueued hhands =>
    have hempty := hcond horderly
    have hother : ∀ u, u ≠ t → s'.hands u = [] := by
      intro u hu
      rw [hhands, update_of_ne hu]
      exact hempty u
    refine ⟨hcontrol, fun u v hu hv => ?_, ?_⟩
    · have hut : u = t := by_contra fun hne => hu (hother u hne)
      have hvt : v = t := by_contra fun hne => hv (hother v hne)
      rw [hut, hvt]
    · rw [inHand_of_empty hempty, hqueued] at horder
      rw [haccepted, hhanded, horder, inHand_single hother, hhands, update_self]
      rfl
  | drop _ hcond => exact absurd horderly hcond
  | give t given hheld haccepted hhanded hqueued hhands =>
    have hother : ∀ u, u ≠ t → s.hands u = [] := by
      intro u hu
      by_contra hne
      exact hu (hs.alone u t hne (by rw [hheld]; exact cons_ne_nil _ _))
    have hempty : ∀ u, s'.hands u = [] := by
      intro u
      rw [hhands]
      by_cases hu : u = t
      · subst hu
        exact update_self _ _ _
      · rw [update_of_ne hu]
        exact hother u hu
    refine ⟨hcontrol, fun u _ hu => absurd (hempty u) hu, ?_⟩
    rw [inHand_single hother, hheld] at horder
    rw [haccepted, hhanded, hqueued, inHand_of_empty hempty, horder]
    simp only [append_assoc]
    rfl

/-- If every flush finds a connection for what it has taken out, every accepted
message is handed over, in hand or queued, as often as it was accepted; if
besides no message is handed over ahead of another, what has been handed over
is the beginning of what was accepted. -/
theorem accepted_arrive {config : PoolConfig} {actions : List (Action n)}
    (hrun : Runs.run step (start n config) actions = some s) :
    (Runs.EachStep step Finds (start n config) actions → ∀ data, s.accepted.count data =
        s.handedData.count data + ∑ u, (s.hands u).count data + s.queued.count data) ∧
    (Runs.EachStep step Orderly (start n config) actions → s.handedData <+: s.accepted) := by
  constructor
  · intro hfinds
    exact (Runs.run_invariant (fun _ _ _ hs hcond hstep => hs.step hcond hstep)
      (balanced_start n config) hfinds hrun).balance
  · intro horderly
    have hs : s.InOrder := Runs.run_invariant (fun _ _ _ hs hcond hstep => hs.step hcond hstep)
      (inOrder_start n config) horderly hrun
    exact ⟨_, hs.order.symm⟩

namespace DeliveryWitness

open PoolWitness

/-- A message is queued, flushed when a connection is ready, and followed by
one that is handed over directly. -/
def inTurn : List (Action 2) :=
  [.trySend sender (message 1)] ++ moves sender 4 0 ++ [.onConnectionReady loop 7] ++
    moves loop 5 0 ++ [.trySend sender (message 2)] ++ moves sender 4 0

def books (s : ConnectionPool 2) :
    List (List UInt8) × List (Nat × List UInt8) × List (List UInt8) :=
  (s.accepted, s.handed, s.queued)

theorem in_turn_arrive :
    ∃ s, Runs.run step (start 2 {}) inTurn = some s ∧
      books s = ([[1], [2]], [(7, [1]), (7, [2])], []) ∧
      (∀ data, s.accepted.count data = s.handedData.count data +
        ∑ u, (s.hands u).count data + s.queued.count data) ∧
      s.handedData <+: s.accepted := by
  have hview : (Runs.run step (start 2 {}) inTurn).map books =
      some ([[1], [2]], [(7, [1]), (7, [2])], []) := by
    decide +kernel
  obtain ⟨s, hrun, hbooks⟩ := Option.map_eq_some_iff.mp hview
  have harrive := accepted_arrive hrun
  exact ⟨s, hrun, hbooks, harrive.1 (by decide +kernel), harrive.2 (by decide +kernel)⟩

/-- The second message finds the connection before the first one is flushed to
it; and a message that has been taken out of the queue is gone when the
connection fails before it is handed over. -/
theorem overtaken_and_lost :
    (Runs.run step (start 2 {})
      ([.trySend sender (message 1)] ++ moves sender 4 0 ++
        [.onConnectionReady loop 7] ++ [.trySend sender (message 2)] ++
        moves sender 4 0)).map books =
        some ([[1], [2]], [(7, [2])], [[1]]) ∧
      (Runs.run step (start 2 {})
        ([.trySend sender (message 1)] ++ moves sender 4 0 ++
          [.onConnectionReady loop 7] ++ moves loop 2 0 ++
          [.onConnectionError sender 7] ++ moves loop 1 0)).map books =
          some ([[1]], [], []) :=
  ⟨by decide +kernel, by decide +kernel⟩

end DeliveryWitness

end HPActor.ConnectionPool
