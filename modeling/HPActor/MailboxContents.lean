/-
What the entry points of a mailbox do to the messages in its lanes: a push
adds, a dequeue takes out the one it returns, and the overflow queue only ever
adds to the lanes when it is drained.
-/
import HPActor.MailboxAccounting

namespace HPActor

open MultiLaneQueue Multiset List

namespace Mailbox

variable {s : MailboxSetup} {mb mb' : Mailbox} {msg node : TypedMessage}

@[simp] theorem lanes_recheckWakeup : mb.recheckWakeup.lanes = mb.lanes :=
  congrArg Books.lanes mb.books_recheckWakeup

@[simp] theorem lanes_enqueueReserved (envelope : MailboxEnvelopeMeta)
    (lane : LaneIdx) (suppress : Bool) :
    (mb.enqueueReserved s node envelope lane suppress).lanes = mb.lanes.enqueue node lane :=
  congrArg Books.lanes (mb.books_enqueueReserved (s := s) node envelope lane suppress)

theorem lanes_askLimiter (mb : Mailbox) (node : TypedMessage) :
    (mb.askLimiter s node).2.lanes = mb.lanes :=
  congrArg Books.lanes (books_askLimiter (s := s) mb node)

theorem lanes_releaseNode (mb : Mailbox) (node : TypedMessage) :
    (mb.releaseNode s node).lanes = mb.lanes := by
  unfold releaseNode
  split
  · rfl
  · rfl

/-- Draining moves messages into the lanes and none out of them. -/
theorem contents_le_drainLoop (msgs : List TypedMessage) :
    mb.lanes.contents ≤ (mb.drainLoop s msgs).lanes.contents := by
  induction msgs generalizing mb with
  | nil => exact le_refl _
  | cons first rest ih =>
    have hpopped : (mb.popOverflow rest).lanes = mb.lanes := rfl
    rcases (mb.popOverflow rest).tryReserve_cases (s := s) (s.bytes first) with
      ⟨-, r, -, hreserve⟩ | ⟨-, refusal, rfl | rfl, hreserve⟩
    · simp only [drainLoop, hreserve]
      refine le_trans ?_ ih
      rw [lanes_enqueueReserved, contents_enqueue]
      exact le_cons_self _ _
    all_goals
      simp only [drainLoop, hreserve]
      exact le_refl _

theorem contents_le_drainOverflow (mb : Mailbox) :
    mb.lanes.contents ≤ (mb.drainOverflow s).lanes.contents := by
  unfold drainOverflow
  split
  · exact contents_le_drainLoop _
  · exact le_refl _

theorem contents_le_consumeNode : mb.lanes.contents ≤ (mb.consumeNode s node).lanes.contents := by
  have hreleased := congrArg contents (lanes_releaseNode (s := s) mb node)
  refine le_trans ?_ (contents_le_drainOverflow _)
  dsimp only
  split
  · exact hreleased.ge
  · exact hreleased.ge

/-- A dequeue takes nothing out of the lanes but what it returns. -/
theorem dequeue_keeps :
    mb.lanes.contents ≤ (mb.dequeue s).2.toList + (mb.dequeue s).1.lanes.contents := by
  unfold dequeue
  dsimp only
  split
  · simp [setWasEmpty]
  · rename_i first lanes hdeq
    have htaken : mb.lanes.contents = first ::ₘ lanes.contents :=
      dequeue_contents hdeq
    have hasked := lanes_askLimiter (s := s) ((mb.setWasEmpty true).setLanes lanes) first
    split
    · rename_i asked hgranted
      rw [hgranted] at hasked
      rw [htaken, lanes_recheckWakeup]
      simp only [Option.toList_some, coe_singleton, singleton_add]
      rw [cons_le_cons_iff]
      exact (congrArg contents hasked).ge.trans contents_le_consumeNode
    · rename_i asked hdenied
      rw [hdenied] at hasked
      -- A withheld node goes back to lane 0.
      have hback : ((asked.enqueueReserved s first {} (.user 0) true).setWasEmpty
          false).lanes = asked.lanes.enqueue first (.user 0) :=
        lanes_enqueueReserved (s := s) {} (.user 0) true
      rw [htaken, hback, hasked, contents_enqueue]
      simp [setLanes]

/-- The admission chain, if there is one, accepts the message. -/
def admits (s : MailboxSetup) (mb : Mailbox) (msg : TypedMessage)
    (envelope : MailboxEnvelopeMeta) : Bool :=
  match s.admissionPolicies with
  | none => true
  | some evaluate =>
    evaluate mb.admissionEvaluations msg
      { envelope with estimatedBytes := s.bytes msg }
      mb.lanes.totalDepth = .accept

theorem pushSystem_keeps (envelope : MailboxEnvelopeMeta) :
    mb.lanes.contents ≤ (mb.pushSystem s msg envelope).1.lanes.contents := by
  unfold pushSystem
  split
  · exact le_refl _
  · rw [lanes_enqueueReserved, contents_enqueue]
    exact le_cons_self _ _

variable {envelope : MailboxEnvelopeMeta}

theorem pushAdmitted_system (hsystem : isSystemMessage envelope.typeTag = true) :
    mb.pushAdmitted s msg envelope = mb.pushSystem s msg envelope := by
  simp [pushAdmitted, routeLane, hsystem]

/-- A system message displaces nothing. -/
theorem tryPush_system_keeps (hsystem : isSystemMessage envelope.typeTag = true) :
    mb.lanes.contents ≤ (mb.tryPush s msg envelope).1.lanes.contents := by
  unfold tryPush
  dsimp only
  split
  · rw [pushAdmitted_system]
    · exact pushSystem_keeps _
    · exact hsystem
  · split
    · rw [pushAdmitted_system]
      · refine le_trans (le_of_eq ?_) (pushSystem_keeps _)
        rfl
      · exact hsystem
    · exact le_refl _

theorem pushAdmitted_user (huser : isSystemMessage envelope.typeTag = false)
    (hroom : HasRoom s mb (s.bytes msg)) :
    msg ∈ (mb.pushAdmitted s msg envelope).1.lanes.contents := by
  have hlane : ∃ lane, mb.routeLane s envelope = .user lane := by
    unfold routeLane
    rw [if_neg (by simp [huser])]
    split
    · exact ⟨_, rfl⟩
    · exact ⟨_, rfl⟩
  obtain ⟨lane, hlane⟩ := hlane
  rcases mb.tryReserve_cases (s := s) (s.bytes msg) with ⟨-, r, -, heq⟩ | ⟨hfull, -⟩
  · simp [pushAdmitted, hlane, pushUser, heq]
  · exact absurd hroom hfull

/-- An admitted user message that finds room is in the lanes afterwards. -/
theorem tryPush_user_mem (huser : isSystemMessage envelope.typeTag = false)
    (hadmits : mb.admits s msg envelope = true) (hroom : HasRoom s mb (s.bytes msg)) :
    msg ∈ (mb.tryPush s msg envelope).1.lanes.contents := by
  unfold tryPush
  dsimp only
  split
  · exact pushAdmitted_user huser hroom
  · rename_i evaluate hevaluate
    simp only [admits, hevaluate, decide_eq_true_eq] at hadmits
    rw [if_pos hadmits]
    exact pushAdmitted_user huser hroom

end Mailbox

end HPActor
