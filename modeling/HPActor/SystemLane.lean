/-
System messages and user load.  What a mailbox does with system messages depends
on two things only, the system lane and the counter of its reservations, and no
user message touches either: user messages go to the user lanes and the overflow
queue, evictions take from the user lanes, and the rate limiter asks for user
messages only.

So a mailbox simulates a bounded queue of system messages that does not notice
user calls at all, and two runs that differ in their user calls look the same
from the system lane.
-/
import HPActor.Machines
import HPActor.MailboxContents

namespace HPActor.Mailbox

open Machines MultiLaneQueue List

variable {s : MailboxSetup} {mb mb' : Mailbox} {msg node : TypedMessage}

/-- Only user messages are in the user lanes and in the overflow queue. -/
structure UsersOnly (b : Books) : Prop where
  lanes : ∀ msg ∈ b.lanes.userContents, msg.isSystem = false
  overflow : ∀ msg ∈ b.overflow.queue, msg.isSystem = false

/-- The step changed nothing that system messages depend on. -/
structure Undisturbed (b b' : Books) : Prop where
  lane_eq : b'.lanes.systemLane = b.lanes.systemLane
  reserved_eq : b'.systemLaneReserved = b.systemLaneReserved
  users : UsersOnly b → UsersOnly b'

theorem Undisturbed.refl (b : Books) : Undisturbed b b :=
  ⟨rfl, rfl, fun h => h⟩

theorem Undisturbed.trans {b b' b'' : Books} (h : Undisturbed b b')
    (h' : Undisturbed b' b'') : Undisturbed b b'' :=
  ⟨h'.lane_eq.trans h.lane_eq, h'.reserved_eq.trans h.reserved_eq,
    fun husers => h'.users (h.users husers)⟩

theorem Undisturbed.of_eq {b b' : Books} (h : b' = b) : Undisturbed b b' := by
  rw [h]
  exact .refl b

theorem usersOnly_fresh (s : MailboxSetup) : UsersOnly (fresh s).books :=
  ⟨by simp [books, fresh], by simp [books, fresh]⟩

/-- A reservation is made or refused in the user ledger. -/
theorem undisturbed_tryReserve (mb : Mailbox) (bytes : Nat) :
    Undisturbed mb.books (mb.tryReserve s bytes).2.books :=
  ⟨rfl, rfl, fun h => ⟨h.lanes, h.overflow⟩⟩

theorem undisturbed_enqueueReserved (mb : Mailbox) (huser : node.isSystem = false)
    (envelope : MailboxEnvelopeMeta) (lane : Fin kMaxUserLanes) (suppress : Bool) :
    Undisturbed mb.books (mb.enqueueReserved s node envelope (.user lane) suppress).books := by
  rw [books_enqueueReserved]
  refine ⟨rfl, rfl, fun h => ⟨fun other hother => ?_, h.overflow⟩⟩
  rw [userContents_enqueue_user, Multiset.mem_cons] at hother
  rcases hother with rfl | hold
  · exact huser
  · exact h.lanes other hold

theorem undisturbed_pushOverflow (mb : Mailbox) (huser : msg.isSystem = false) :
    Undisturbed mb.books (mb.pushOverflow msg).books := by
  refine ⟨rfl, rfl, fun h => ⟨h.lanes, fun other hother => ?_⟩⟩
  rcases OverflowQueue.mem_tryPush hother with rfl | hold
  · exact huser
  · exact h.overflow other hold

/-- An eviction takes its node out of a user lane. -/
theorem undisturbed_dropTaken (mb : Mailbox) (order : List (Fin kMaxUserLanes)) :
    Undisturbed mb.books (mb.dropTaken s (mb.lanes.scanUser order)).2.books := by
  cases hscan : mb.lanes.scanUser order with
  | none => exact .refl _
  | some taken =>
    obtain ⟨node, lanes⟩ := taken
    have hbooks : (mb.dropTaken s (some (node, lanes))).2.books =
        { mb.books with
          lanes := lanes
          reservation := mb.reservation.release (.ofNat (s.bytes node)) } := by
      simp only [dropTaken]
      split <;> rfl
    rw [hbooks]
    refine ⟨(scanUser_userContents hscan).2, rfl, fun h => ⟨fun other hother => ?_, h.overflow⟩⟩
    exact h.lanes other (mem_userContents_of_scanUser hscan hother)

theorem undisturbed_evictOverflow {refusal : ReservationResult}
    {evicted : Bool × Mailbox} (h : Undisturbed mb.books evicted.2.books) :
    Undisturbed mb.books (mb.evictOverflow s refusal evicted).1.books := by
  unfold evictOverflow
  split
  · exact h
  · exact h

/-- Whatever the overflow policy is. -/
theorem undisturbed_handleOverflow (mb : Mailbox)
    (huser : msg.isSystem = false) (refusal : ReservationResult) :
    Undisturbed mb.books (mb.handleOverflow s msg refusal).1.books := by
  unfold handleOverflow
  split
  · exact .refl _
  · exact .refl _
  · exact .refl _
  · exact .refl _
  · exact undisturbed_evictOverflow (undisturbed_dropTaken mb _)
  · exact undisturbed_evictOverflow (undisturbed_dropTaken mb _)
  · exact .refl _
  · exact undisturbed_pushOverflow mb huser

theorem undisturbed_retryEvicted (mb : Mailbox) (huser : msg.isSystem = false)
    (envelope : MailboxEnvelopeMeta) (lane : Fin kMaxUserLanes) (result : EnqueueResult) :
    Undisturbed mb.books (mb.retryEvicted s msg envelope (.user lane) result).1.books := by
  have hreserve := undisturbed_tryReserve (s := s) mb (s.bytes msg)
  unfold retryEvicted
  split
  · next reserved heq =>
      rw [heq] at hreserve
      exact hreserve.trans (undisturbed_enqueueReserved reserved huser envelope lane false)
  · next refused _ heq =>
      rw [heq] at hreserve
      exact hreserve

theorem undisturbed_pushUser (mb : Mailbox) (huser : msg.isSystem = false)
    (envelope : MailboxEnvelopeMeta) (lane : Fin kMaxUserLanes) :
    Undisturbed mb.books (mb.pushUser s msg envelope (.user lane)).1.books := by
  have hreserve := undisturbed_tryReserve (s := s) mb (s.bytes msg)
  unfold pushUser
  split
  · next reserved heq =>
      rw [heq] at hreserve
      exact hreserve.trans (undisturbed_enqueueReserved reserved huser envelope lane false)
  · next refusal refused _ heq =>
      rw [heq] at hreserve
      have hhandled := hreserve.trans (undisturbed_handleOverflow (s := s)
        (refused.updatePressureState s true) huser refusal)
      dsimp only
      split
      · exact hhandled.trans (undisturbed_retryEvicted _ huser envelope lane _)
      · exact hhandled

/-- A push of a user message, under user metadata. -/
theorem undisturbed_tryPush (mb : Mailbox) {envelope : MailboxEnvelopeMeta}
    (hpolicies : s.admissionPolicies = none) (huser : msg.isSystem = false)
    (htag : isSystemMessage envelope.typeTag = false) :
    Undisturbed mb.books (mb.tryPush s msg envelope).1.books := by
  simp only [tryPush, hpolicies, pushAdmitted, routeLane, htag, Bool.false_eq_true, if_false]
  split
  · next hlane =>
      split at hlane
      · cases hlane
      · cases hlane
  · exact undisturbed_pushUser mb huser _ _

/-- The overflow queue is drained into a user lane. -/
theorem undisturbed_drainLoop {msgs : List TypedMessage} (mb : Mailbox)
    (husers : ∀ msg ∈ msgs, msg.isSystem = false) :
    Undisturbed mb.books (mb.drainLoop s msgs).books := by
  induction msgs generalizing mb with
  | nil => exact .refl _
  | cons first rest ih =>
    have hfirst := husers first mem_cons_self
    have hrest : ∀ msg ∈ rest, msg.isSystem = false := fun msg hmsg =>
      husers msg (mem_cons_of_mem first hmsg)
    have hpop : Undisturbed mb.books (mb.popOverflow rest).books :=
      ⟨rfl, rfl, fun h => ⟨h.lanes, hrest⟩⟩
    have hreserve := hpop.trans
      (undisturbed_tryReserve (s := s) (mb.popOverflow rest) (s.bytes first))
    unfold drainLoop
    split
    · next reserved heq =>
        rw [heq] at hreserve
        exact (hreserve.trans (undisturbed_enqueueReserved reserved hfirst
          _ 0 true)).trans (ih _ hrest)
    · next refused _ heq =>
        rw [heq] at hreserve
        exact hreserve.trans (undisturbed_pushOverflow refused hfirst)

theorem undisturbed_drainOverflow (mb : Mailbox) (husers : UsersOnly mb.books) :
    Undisturbed mb.books (mb.drainOverflow s).books := by
  unfold drainOverflow
  split
  · exact undisturbed_drainLoop mb husers.overflow
  · exact .refl _

/-- After the release the consumer does nothing more to the system lane. -/
theorem undisturbed_consumeNode (mb : Mailbox) (husers : UsersOnly (mb.releaseNode s node).books) :
    Undisturbed (mb.releaseNode s node).books (mb.consumeNode s node).books := by
  have hdrain : ∀ mb' : Mailbox, mb'.books = (mb.releaseNode s node).books →
      Undisturbed (mb.releaseNode s node).books (mb'.drainOverflow s).books := by
    intro mb' hsame
    rw [← hsame] at husers ⊢
    exact undisturbed_drainOverflow mb' husers
  unfold consumeNode
  dsimp only
  split
  · exact hdrain _ rfl
  · exact hdrain _ rfl

/-- The part of a mailbox that system messages see. -/
structure SystemQueue where
  lane : List TypedMessage := []
  reserved : UInt32 := 0

inductive LaneCall where
  | tryPush (msg : TypedMessage) (envelope : MailboxEnvelopeMeta)
  | dequeue
deriving Repr, DecidableEq

/-- What is seen of system messages: whether a push was accepted, and the
system message that a dequeue returned, if it did. -/
inductive SystemAnswer where
  | pushed (msg : TypedMessage) (accepted : Bool)
  | dequeued (msg : Option TypedMessage)
deriving Repr, DecidableEq

namespace LaneCall

/-- A dequeue, or a push of a system message. -/
def shared : LaneCall → Bool
  | .tryPush msg _ => msg.isSystem
  | .dequeue => true

/-- The metadata is of the class of the message. -/
def ClassAgrees : LaneCall → Prop
  | .tryPush msg envelope => isSystemMessage envelope.typeTag = msg.isSystem
  | .dequeue => True

instance : ∀ call : LaneCall, Decidable call.ClassAgrees := by
  intro call
  unfold ClassAgrees
  split <;> infer_instance

end LaneCall

def laneStep (s : MailboxSetup) (mb : Mailbox) : LaneCall → Mailbox
  | .tryPush msg envelope => (mb.tryPush s msg envelope).1
  | .dequeue => (mb.dequeue s).1

def laneAnswer (s : MailboxSetup) (mb : Mailbox) : LaneCall → Option SystemAnswer
  | .tryPush msg envelope =>
    if msg.isSystem then
      some (.pushed msg (mb.tryPush s msg envelope).2.accepted)
    else none
  | .dequeue => some (.dequeued ((mb.dequeue s).2.filter (·.isSystem)))

namespace SystemQueue

/-- The queue accepts while fewer than `protected_system_messages` are
reserved. -/
def accepts (s : MailboxSetup) (q : SystemQueue) : Bool :=
  q.reserved < s.config.protectedSystemMessages

def step (s : MailboxSetup) (q : SystemQueue) : LaneCall → SystemQueue
  | .tryPush msg _ =>
    if msg.isSystem = true ∧ q.accepts s = true then
      { lane := q.lane ++ [msg], reserved := q.reserved + 1 }
    else q
  | .dequeue =>
    match q.lane with
    | [] => q
    | _ :: tail => { lane := tail, reserved := q.reserved - 1 }

def answer (s : MailboxSetup) (q : SystemQueue) : LaneCall → Option SystemAnswer
  | .tryPush msg _ =>
    if msg.isSystem then some (.pushed msg (q.accepts s)) else none
  | .dequeue => some (.dequeued q.lane.head?)

end SystemQueue

/-- The mailbox holds the queue in its system lane. -/
structure ShowsQueue (mb : Mailbox) (q : SystemQueue) : Prop where
  lane_eq : mb.lanes.systemLane = q.lane
  reserved_eq : mb.systemLaneReserved = q.reserved
  systems : ∀ msg ∈ q.lane, msg.isSystem = true
  users : UsersOnly mb.books

namespace ShowsQueue

variable {q : SystemQueue}

theorem undisturbed (h : mb.ShowsQueue q)
    (hstep : Undisturbed mb.books mb'.books) : mb'.ShowsQueue q :=
  ⟨hstep.lane_eq.trans h.lane_eq, hstep.reserved_eq.trans h.reserved_eq,
    h.systems, hstep.users h.users⟩

theorem fresh (s : MailboxSetup) : (Mailbox.fresh s).ShowsQueue {} :=
  ⟨rfl, rfl, fun _ hmem => absurd hmem not_mem_nil, usersOnly_fresh s⟩

theorem accepted_acceptResult (mb : Mailbox) : (mb.acceptResult s).accepted = true := by
  cases hstate : mb.pressureState with
  | normal | softPressure | hardPressure | recovering =>
    simp [acceptResult, makeResult, stateResult, hstate,
      EnqueueResult.accepted, PressureStateMachine.codeAfterAccept]

theorem tryPush_system (hpolicies : s.admissionPolicies = none) {envelope : MailboxEnvelopeMeta}
    (hsystem : isSystemMessage envelope.typeTag = true) :
    mb.tryPush s msg envelope = mb.pushSystem s msg
      { envelope with estimatedBytes := s.bytes msg } := by
  simp only [tryPush, hpolicies]
  exact pushAdmitted_system hsystem

open SystemQueue

/-- A system push goes by the queue's own count. -/
theorem pushSystem (h : mb.ShowsQueue q) (hsystem : msg.isSystem = true)
    (envelope : MailboxEnvelopeMeta) :
    (mb.pushSystem s msg envelope).1.ShowsQueue (q.step s (.tryPush msg envelope)) ∧
      (mb.pushSystem s msg envelope).2.accepted = q.accepts s := by
  have haccepts : q.accepts s =
      decide (mb.systemLaneReserved < s.config.protectedSystemMessages) := by
    rw [accepts, h.reserved_eq]
  unfold Mailbox.pushSystem
  split
  · next hfull =>
      have hrefuses : q.accepts s = false := by
        rw [haccepts]
        exact decide_eq_false (UInt32.not_lt.mpr hfull)
      rw [step, if_neg (by simp [hrefuses]), hrefuses]
      exact ⟨h.undisturbed (.refl _), rfl⟩
  · next hroom =>
      have htakes : q.accepts s = true := by
        rw [haccepts]
        exact decide_eq_true (UInt32.not_le.mp hroom)
      rw [step, if_pos ⟨hsystem, htakes⟩, htakes]
      refine ⟨?_, ?_⟩
      · have hbooks := books_enqueueReserved (s := s)
          { mb with
            systemLaneReserved := mb.systemLaneReserved + 1
            systemLaneBytes := mb.systemLaneBytes + UInt64.ofNat (s.bytes msg) }
          msg envelope .system false
        refine ⟨?_, ?_, ?_, ?_⟩
        · rw [← h.lane_eq]
          exact congrArg (fun b : Books => b.lanes.systemLane) hbooks
        · rw [← h.reserved_eq]
          exact congrArg Books.systemLaneReserved hbooks
        · exact forall_mem_append.mpr ⟨h.systems, forall_mem_singleton.mpr hsystem⟩
        · rw [hbooks]
          exact ⟨h.users.lanes, h.users.overflow⟩
      · exact accepted_acceptResult _

theorem askLimiter_system (mb : Mailbox) (hsystem : node.isSystem = true) :
    mb.askLimiter s node = (true, mb) := by
  unfold askLimiter
  split
  · rfl
  · rw [if_pos hsystem]

/-- A dequeue that finds a system message gives back its reservation. -/
theorem consumeSystem {lanes : MultiLaneQueue TypedMessage}
    {tail : List TypedMessage} (h : mb.ShowsQueue q) (hlane : q.lane = node :: tail)
    (hlanes : lanes = { mb.lanes with systemLane := tail }) :
    (((mb.setWasEmpty true).setLanes lanes).consumeNode s node).ShowsQueue
      { lane := tail, reserved := q.reserved - 1 } := by
  have hsystem : node.isSystem = true :=
    h.systems node (by rw [hlane]; exact mem_cons_self)
  have hreleased : (((mb.setWasEmpty true).setLanes lanes).releaseNode s
      node).ShowsQueue { lane := tail, reserved := q.reserved - 1 } := by
    subst hlanes
    rw [releaseNode, if_pos hsystem]
    refine ⟨rfl, ?_, ?_, ⟨h.users.lanes, h.users.overflow⟩⟩
    · rw [← h.reserved_eq]
      rfl
    · intro other hother
      exact h.systems other (by rw [hlane]; exact mem_cons_of_mem node hother)
  exact hreleased.undisturbed (undisturbed_consumeNode _ hreleased.users)

/-- A dequeue that finds no system message is a matter of user messages. -/
theorem dequeue_user (h : mb.ShowsQueue q) (hlane : q.lane = []) :
    (mb.dequeue s).1.ShowsQueue q ∧ (mb.dequeue s).2.filter (·.isSystem) = none := by
  have hscan : (mb.setWasEmpty true).lanes.dequeue = mb.lanes.scanUser mb.lanes.laneOrder := by
    have hempty : mb.lanes.systemLane = [] := h.lane_eq.trans hlane
    unfold MultiLaneQueue.dequeue
    rw [show (mb.setWasEmpty true).lanes = mb.lanes from rfl, hempty]
  unfold Mailbox.dequeue
  dsimp only
  rw [hscan]
  cases htaken : mb.lanes.scanUser mb.lanes.laneOrder with
  | none =>
    refine ⟨h.undisturbed (.of_eq ?_), rfl⟩
    exact books_recheckWakeup _
  | some taken =>
    obtain ⟨node, lanes⟩ := taken
    obtain ⟨hcontents, hsame⟩ := MultiLaneQueue.scanUser_userContents htaken
    have huser : node.isSystem = false :=
      h.users.lanes node (by
        rw [show mb.books.lanes = mb.lanes from rfl, hcontents]
        exact Multiset.mem_cons_self _ _)
    have htook : Undisturbed mb.books ((mb.setWasEmpty true).setLanes lanes).books :=
      ⟨hsame, rfl, fun husers => ⟨fun other hother =>
        husers.lanes other (MultiLaneQueue.mem_userContents_of_scanUser htaken hother),
        husers.overflow⟩⟩
    have hasked := books_askLimiter (s := s) ((mb.setWasEmpty true).setLanes lanes) node
    dsimp only
    split
    · next asked hgranted =>
        rw [hgranted] at hasked
        have hshows := h.undisturbed (htook.trans (.of_eq hasked))
        have hreleased : Undisturbed asked.books (asked.releaseNode s node).books := by
          rw [releaseNode, if_neg (by simp [huser])]
          exact ⟨rfl, rfl, fun husers => ⟨husers.lanes, husers.overflow⟩⟩
        have hconsumed := hreleased.trans
          (undisturbed_consumeNode asked (hreleased.users hshows.users))
        refine ⟨hshows.undisturbed (hconsumed.trans (.of_eq (books_recheckWakeup _))), ?_⟩
        simp [huser]
    · next asked hdenied =>
        rw [hdenied] at hasked
        have hshows := h.undisturbed (htook.trans (.of_eq hasked))
        exact ⟨hshows.undisturbed (undisturbed_enqueueReserved (s := s) asked huser {} 0 true), rfl⟩

theorem dequeue (h : mb.ShowsQueue q) :
    (mb.dequeue s).1.ShowsQueue (q.step s .dequeue) ∧
      (mb.dequeue s).2.filter (·.isSystem) = q.lane.head? := by
  cases hlane : q.lane with
  | nil =>
    simp only [step, hlane]
    exact h.dequeue_user hlane
  | cons node tail =>
    have hsystem : node.isSystem = true :=
      h.systems node (by rw [hlane]; exact mem_cons_self)
    have hfront : (mb.setWasEmpty true).lanes.dequeue =
        some (node, { mb.lanes with systemLane := tail }) := by
      have hsystemLane : mb.lanes.systemLane = node :: tail :=
        h.lane_eq.trans hlane
      unfold MultiLaneQueue.dequeue
      rw [show (mb.setWasEmpty true).lanes = mb.lanes from rfl, hsystemLane]
    have hconsumed := h.consumeSystem (s := s) hlane rfl
    unfold Mailbox.dequeue
    dsimp only
    rw [hfront]
    dsimp only
    rw [askLimiter_system _ hsystem]
    simp only [step, hlane]
    refine ⟨hconsumed.undisturbed (.of_eq (books_recheckWakeup _)), ?_⟩
    simp [hsystem]

end ShowsQueue

/-- What a run shows of system messages. -/
def systemView (s : MailboxSetup) (calls : List LaneCall) : List SystemAnswer :=
  observed (laneStep s) (laneAnswer s) (fresh s) calls

/-- The system messages that were accepted. -/
def acceptedIn (view : List SystemAnswer) : List TypedMessage :=
  view.filterMap fun
    | .pushed msg true => some msg
    | _ => none

/-- The system messages that were dequeued. -/
def dequeuedIn (view : List SystemAnswer) : List TypedMessage :=
  view.filterMap fun
    | .dequeued msg => msg
    | _ => none

/-- One call on the mailbox is the call on the queue, and looks the same. -/
theorem laneStep_simulates (hpolicies : s.admissionPolicies = none) {q : SystemQueue}
    {call : LaneCall} (h : mb.ShowsQueue q) (hclass : call.ClassAgrees) :
    (mb.laneStep s call).ShowsQueue (q.step s call) ∧ mb.laneAnswer s call = q.answer s call := by
  cases call with
  | tryPush msg envelope =>
    have hclass : isSystemMessage envelope.typeTag = msg.isSystem := hclass
    cases hsystem : msg.isSystem with
    | true =>
      rw [hsystem] at hclass
      have hpush := h.pushSystem (s := s) hsystem
        { envelope with estimatedBytes := s.bytes msg }
      simp only [laneStep, laneAnswer, SystemQueue.answer, hsystem, if_true,
        ShowsQueue.tryPush_system hpolicies hclass]
      exact ⟨hpush.1, by rw [hpush.2]⟩
    | false =>
      rw [hsystem] at hclass
      have hpush := undisturbed_tryPush (s := s) mb hpolicies hsystem hclass
      simp only [laneStep, laneAnswer, SystemQueue.answer, SystemQueue.step,
        hsystem, Bool.false_eq_true, if_false, false_and]
      exact ⟨h.undisturbed hpush, trivial⟩
  | dequeue =>
    have hdequeue := h.dequeue (s := s)
    exact ⟨hdequeue.1, by rw [laneAnswer, SystemQueue.answer, hdequeue.2]⟩

theorem systemView_eq (hpolicies : s.admissionPolicies = none)
    {calls : List LaneCall} (hclass : ∀ call ∈ calls, call.ClassAgrees) :
    systemView s calls = observed (SystemQueue.step s) (SystemQueue.answer s) {} calls := by
  have halong : Along (SystemQueue.step s) (fun _ call => LaneCall.ClassAgrees call) {} calls :=
    along_of_forall_mem hclass
  have hstep := fun (mb : Mailbox) (q : SystemQueue) (call : LaneCall)
      (h : mb.ShowsQueue q) (hagrees : call.ClassAgrees) =>
    laneStep_simulates hpolicies h hagrees
  have hsame := answers_simulates (fun mb q call h hagrees => (hstep mb q call h hagrees).1)
    (fun mb q call h hagrees => (hstep mb q call h hagrees).2)
    (ShowsQueue.fresh s) halong
  rw [systemView, observed, hsame, observed]

variable (s : MailboxSetup) (q : SystemQueue) (calls : List LaneCall)

/-- The queue does not notice user calls. -/
theorem observed_shared :
    observed (SystemQueue.step s) (SystemQueue.answer s) q calls =
      observed (SystemQueue.step s) (SystemQueue.answer s) q (calls.filter LaneCall.shared) := by
  refine observed_filter ?_ ?_ q calls
  all_goals
    intro q call hshared
    cases call with
    | tryPush msg envelope =>
      have huser : msg.isSystem = false := hshared
      simp [SystemQueue.step, SystemQueue.answer, huser]
    | dequeue => cases hshared

/-- First in, first out, and nothing on the way is lost. -/
theorem queue_keeps :
    q.lane ++ acceptedIn (observed (SystemQueue.step s) (SystemQueue.answer s) q calls) = dequeuedIn
          (observed (SystemQueue.step s) (SystemQueue.answer s) q calls) ++
        (final (SystemQueue.step s) q calls).lane := by
  induction calls generalizing q with
  | nil => simp [observed, answers, acceptedIn, dequeuedIn, final]
  | cons call rest ih =>
    have hrest := ih (q.step s call)
    rw [final_cons]
    cases call with
    | tryPush msg envelope =>
      cases hsystem : msg.isSystem <;> cases haccepts : q.accepts s <;>
        simp_all [observed, answers, acceptedIn, dequeuedIn, SystemQueue.step, SystemQueue.answer]
    | dequeue =>
      cases hlane : q.lane <;>
        simp_all [observed, answers, acceptedIn, dequeuedIn, SystemQueue.step, SystemQueue.answer]

/-- User load does not show: two runs with the same system pushes and dequeues
accept the same system messages and dequeue them at the same calls, and in each
run what was accepted has been dequeued, in order, or is still in the lane. -/
theorem systemView_user_load (hpolicies : s.admissionPolicies = none) {calls calls' : List LaneCall}
    (hclass : ∀ call ∈ calls, call.ClassAgrees) (hclass' : ∀ call ∈ calls', call.ClassAgrees)
    (hshared : calls.filter LaneCall.shared = calls'.filter LaneCall.shared) :
    systemView s calls = systemView s calls' ∧
      acceptedIn (systemView s calls) = dequeuedIn (systemView s calls) ++
        (final (laneStep s) (fresh s) calls).lanes.systemLane := by
  constructor
  · rw [systemView_eq hpolicies hclass, systemView_eq hpolicies hclass',
      observed_shared, hshared, ← observed_shared]
  · have halong : Along (SystemQueue.step s) (fun _ call => LaneCall.ClassAgrees call) {} calls :=
      along_of_forall_mem hclass
    have hstep := fun (mb : Mailbox) (q : SystemQueue) (call : LaneCall)
        (h : mb.ShowsQueue q) (hagrees : call.ClassAgrees) =>
      (laneStep_simulates hpolicies h hagrees).1
    have hfinal := final_simulates hstep (ShowsQueue.fresh s) halong
    rw [hfinal.lane_eq, systemView_eq hpolicies hclass]
    exact queue_keeps s {} calls

namespace SystemLaneWitness

/-- Room for one system message, and for one user message that the next one
evicts. -/
def tight : MailboxSetup :=
  .ofConfig
    { capacity := { maxMessages := 1 }
      protectedSystemMessages := 1
      overflowPolicy := .dropOldest } 7 64

def system : TypedMessage := { typeId := ⟨1⟩ }

def user : TypedMessage := { typeId := .user }

def quietCalls : List LaneCall :=
  [.tryPush system { typeTag := ⟨1⟩ }, .dequeue, .dequeue]

def loadedCalls : List LaneCall :=
  [.tryPush user { typeTag := .user }, .tryPush user { typeTag := .user },
    .tryPush system { typeTag := ⟨1⟩ }, .tryPush user { typeTag := .user },
    .dequeue, .dequeue]

theorem systemView_user_load_evictions :
    systemView tight quietCalls = systemView tight loadedCalls :=
  (systemView_user_load (s := tight) rfl (by decide) (by decide) (by decide)).1

/-- A user message that is pushed as a system message takes the place of one. -/
def disguisedCalls : List LaneCall :=
  [.tryPush user { typeTag := ⟨1⟩ }, .tryPush system { typeTag := ⟨1⟩ }, .dequeue, .dequeue]

theorem disguised_disturbs :
    quietCalls.filter LaneCall.shared = disguisedCalls.filter LaneCall.shared ∧
      systemView tight quietCalls = [.pushed system true, .dequeued (some system), .dequeued none] ∧
      systemView tight disguisedCalls = [.pushed system false, .dequeued none, .dequeued none] := by
  refine ⟨by decide, ?_, ?_⟩
  · decide +kernel
  · decide +kernel

end SystemLaneWitness

end HPActor.Mailbox
