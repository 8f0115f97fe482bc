/-
What a batch reports.  A batch for which there is room is reserved as one
message and enqueued whole, however many messages it has.  Otherwise its
messages are pushed one by one, and the result of the last push stands for all
of them.
-/
import HPActor.MailboxContents

namespace HPActor

open MultiLaneQueue List

namespace Mailbox

variable {s : MailboxSetup} {mb mid after : Mailbox} {msg : TypedMessage}
  {envelope : MailboxEnvelopeMeta} {lane : LaneIdx} {msgs more : List TypedMessage}

/-- The messages of one lane, oldest first. -/
def inLane (mb : Mailbox) : LaneIdx → List TypedMessage
  | .system => mb.lanes.systemLane
  | .user lane => mb.lanes.userLanes lane

/-- How many of some messages for a lane are user messages. -/
def userShare (msgs : List TypedMessage) : LaneIdx → Nat
  | .system => 0
  | .user _ => msgs.length

def userHeld (mb : Mailbox) : Nat :=
  mb.lanes.userContents.card

/-- The messages were put at the end of the lane, one after the other.  The
lane may have lost older messages meanwhile. -/
structure Enqueues (lane : LaneIdx) (msgs : List TypedMessage) (mb after : Mailbox) : Prop where
  count : after.totalEnqueued = mb.totalEnqueued + msgs.length
  order : after.inLane lane <:+ mb.inLane lane ++ msgs
  lanes : after.lanes.numUserLanes = mb.lanes.numUserLanes

/-- Besides, user messages were evicted from the lanes. -/
structure Takes (lane : LaneIdx) (msgs : List TypedMessage) (evicted : Nat)
    (mb after : Mailbox) : Prop extends Enqueues lane msgs mb after where
  held : after.userHeld + evicted = mb.userHeld + userShare msgs lane

theorem userShare_append (msgs more : List TypedMessage) (lane : LaneIdx) :
    userShare (msgs ++ more) lane = userShare msgs lane + userShare more lane := by
  cases lane with
  | system => rfl
  | user lane => exact length_append

namespace Takes

theorem of_lanes (hcount : after.totalEnqueued = mb.totalEnqueued)
    (hlanes : after.lanes = mb.lanes) : Takes lane [] 0 mb after where
  count := hcount
  order := by
    cases lane <;> simp [inLane, hlanes]
  lanes := congrArg _ hlanes
  held := by
    rw [userHeld, userHeld, hlanes]
    cases lane <;> rfl

theorem trans {evicted later : Nat} (hfirst : Takes lane msgs evicted mb mid)
    (hsecond : Takes lane more later mid after) :
    Takes lane (msgs ++ more) (later + evicted) mb after where
  count := by
    rw [hsecond.count, hfirst.count, length_append, Nat.add_assoc]
  order := by
    obtain ⟨older, holder⟩ := hfirst.order
    rw [← append_assoc, ← holder, append_assoc]
    exact hsecond.order.trans (suffix_append older _)
  lanes := hsecond.lanes.trans hfirst.lanes
  held := by
    have hheld := hfirst.held
    have hmore := hsecond.held
    rw [userShare_append]
    omega

end Takes

theorem totalEnqueued_claimWakeup (mb : Mailbox) (wakeup : Wakeup) :
    (mb.claimWakeup wakeup).totalEnqueued = mb.totalEnqueued := by
  unfold claimWakeup
  split <;> rfl

theorem takes_enqueueReserved (node : TypedMessage) (suppress : Bool) :
    Takes lane [node] 0 mb (mb.enqueueReserved s node envelope lane suppress) where
  count := by
    unfold enqueueReserved
    split
    · rfl
    · exact totalEnqueued_claimWakeup _ _
  order := by
    cases lane <;> simp [inLane, MultiLaneQueue.enqueue]
  lanes := by
    rw [lanes_enqueueReserved]
    cases lane <;> rfl
  held := by
    rw [userHeld, lanes_enqueueReserved]
    cases lane with
    | system => rfl
    | user lane =>
      rw [userContents_enqueue_user, Multiset.card_cons]
      rfl

theorem takes_enqueueAll (lane : LaneIdx) (msgs : List TypedMessage) (suppress : Bool) :
    Takes lane msgs 0 mb (enqueueAll s envelope lane mb msgs suppress) := by
  induction msgs generalizing mb suppress with
  | nil => exact .of_lanes rfl rfl
  | cons first rest ih => exact (takes_enqueueReserved first suppress).trans (ih true)

/-- What becomes of a message that is pushed, and whether an older message is
evicted for it. -/
inductive PushFate where
  | stored (evicting : Bool)
  | spilled
  | refused (evicting : Bool)
deriving Repr, DecidableEq

namespace PushFate

def accepted : PushFate → Bool
  | .stored _ | .spilled => true
  | .refused _ => false

def isStored : PushFate → Bool
  | .stored _ => true
  | .spilled | .refused _ => false

/-- The messages that come into the lanes. -/
def kept (fate : PushFate) (msg : TypedMessage) : List TypedMessage :=
  if fate.isStored then [msg] else []

def evicted : PushFate → Nat
  | .stored evicting | .refused evicting => evicting.toNat
  | .spilled => 0

end PushFate

/-- The fate of a message for which the oldest message of a lane is evicted, if
there is one. -/
def evictFate (s : MailboxSetup) (mb : Mailbox) (bytes : Nat) :
    Option (TypedMessage × MultiLaneQueue TypedMessage) → PushFate
  | none => .refused false
  | some (node, _) =>
    if HasRoom s (mb.setReservation (mb.reservation.release (.ofNat (s.bytes node)))) bytes then
      .stored true
    else .refused true

/-- The fate of a user message, by the room for it and the overflow policy. -/
def userFate (s : MailboxSetup) (mb : Mailbox) (bytes : Nat) : PushFate :=
  if HasRoom s mb bytes then .stored false
  else
    match s.config.overflowPolicy with
    | .spillToOverflowQueue => .spilled
    | .dropOldest => evictFate s mb bytes mb.lanes.tryDropOldestUserLane
    | .dropLowestPriority => evictFate s mb bytes mb.lanes.tryDropFromLowestUserLane
    | .rejectNewest | .blockWhenAllowed | .signalOnly | .dropNewest | .deadLetter =>
      .refused false

def systemFate (s : MailboxSetup) (mb : Mailbox) : PushFate :=
  if s.config.protectedSystemMessages ≤ mb.systemLaneReserved then .refused false
  else .stored false

def fate (s : MailboxSetup) (mb : Mailbox) (msg : TypedMessage)
    (envelope : MailboxEnvelopeMeta) : PushFate :=
  if mb.admits s msg envelope then
    match mb.routeLane s envelope with
    | .system => systemFate s mb
    | .user _ => userFate s mb (s.bytes msg)
  else .refused false

/-- A push ends in a fate: it is reported as accepted unless the message is
refused, and the lanes gain and lose messages as the fate says. -/
structure Ends (lane : LaneIdx) (msg : TypedMessage) (mb : Mailbox) (fate : PushFate)
    (pushed : Mailbox × EnqueueResult) : Prop where
  accepted : pushed.2.accepted = fate.accepted
  takes : Takes lane (fate.kept msg) fate.evicted mb pushed.1

theorem Ends.congr {fate : PushFate} {pushed : Mailbox × EnqueueResult}
    (h : Ends lane msg mid fate pushed) (hlanes : mid.lanes = mb.lanes)
    (hcount : mid.totalEnqueued = mb.totalEnqueued) : Ends lane msg mb fate pushed :=
  ⟨h.accepted, (Takes.of_lanes hcount hlanes).trans h.takes⟩

theorem accepted_acceptResult (mb : Mailbox) : (mb.acceptResult s).accepted = true := by
  unfold acceptResult makeResult stateResult PressureStateMachine.codeAfterAccept
  cases mb.pressureState <;> rfl

/-- A message that finds its reservation is put into its lane. -/
theorem ends_store {reserved : Mailbox} (hlanes : reserved.lanes = mb.lanes)
    (hcount : reserved.totalEnqueued = mb.totalEnqueued) :
    let stored := reserved.enqueueReserved s msg envelope lane false
    Ends lane msg mb (.stored false) (stored, stored.acceptResult s) :=
  ⟨accepted_acceptResult _,
    (Takes.of_lanes hcount hlanes).trans (takes_enqueueReserved msg false)⟩

theorem ends_refused {result : EnqueueResult} (hlanes : after.lanes = mb.lanes)
    (hcount : after.totalEnqueued = mb.totalEnqueued) (hcode : result.accepted = false) :
    Ends lane msg mb (.refused false) (after, result) :=
  ⟨hcode, .of_lanes hcount hlanes⟩

theorem ends_pushSystem :
    Ends .system msg mb (systemFate s mb) (mb.pushSystem s msg envelope) := by
  unfold pushSystem systemFate
  split
  · exact ends_refused rfl rfl rfl
  · exact ends_store rfl rfl

/-- An eviction takes the oldest message of a lane. -/
theorem takes_scanUser {order : List (Fin kMaxUserLanes)} {node : TypedMessage}
    {lanes : MultiLaneQueue TypedMessage} (hscan : mb.lanes.scanUser order = some (node, lanes))
    (hlanes : after.lanes = lanes) (hcount : after.totalEnqueued = mb.totalEnqueued) :
    Takes lane [] 1 mb after := by
  have hheld : after.userHeld + 1 = mb.userHeld := by
    rw [userHeld, userHeld, hlanes, (scanUser_userContents hscan).1, Multiset.card_cons]
  simp only [scanUser, Option.map_eq_some_iff, Prod.exists, Prod.mk.injEq] at hscan
  obtain ⟨_, userLanes, hscan, rfl, rfl⟩ := hscan
  obtain ⟨evictedFrom, tail, -, htail, rfl⟩ := scan_eq_some hscan
  refine ⟨⟨hcount, ?_, by rw [hlanes]⟩, by cases lane <;> exact hheld⟩
  rw [append_nil]
  cases lane with
  | system => rw [inLane, inLane, hlanes]
  | user lane =>
    rw [inLane, inLane, hlanes]
    dsimp only
    by_cases hlane : lane = evictedFrom
    · rw [hlane, Function.update_self, htail]
      exact suffix_cons _ tail
    · rw [Function.update_of_ne hlane]

/-- The mailbox without a message that is evicted. -/
structure Evicted (s : MailboxSetup) (mb : Mailbox) (node : TypedMessage)
    (dropped : Mailbox) : Prop where
  takes : ∀ lane, Takes lane [] 1 mb dropped
  reservation : dropped.reservation = mb.reservation.release (.ofNat (s.bytes node))

theorem dropTaken_evicted {order : List (Fin kMaxUserLanes)} {node : TypedMessage}
    {lanes : MultiLaneQueue TypedMessage} (hscan : mb.lanes.scanUser order = some (node, lanes)) :
    Evicted s mb node (mb.dropTaken s (some (node, lanes))).2 := by
  have hlanes : (mb.dropTaken s (some (node, lanes))).2.lanes = lanes := by
    unfold dropTaken
    dsimp only
    split <;> rfl
  refine ⟨fun lane => takes_scanUser hscan hlanes ?_, ?_⟩
  · unfold dropTaken
    dsimp only
    split <;> rfl
  · unfold dropTaken
    dsimp only
    split <;> rfl

/-- A push that ends after an eviction as it would have without it. -/
theorem Evicted.ends {node : TypedMessage} {pushed : Mailbox × EnqueueResult}
    (h : Evicted s mb node mid) (fate : Bool → PushFate)
    (hends : Ends lane msg mid (fate false) pushed)
    (hkept : (fate true).isStored = (fate false).isStored)
    (haccepted : (fate true).accepted = (fate false).accepted)
    (hevicted : (fate true).evicted = (fate false).evicted + 1) :
    Ends lane msg mb (fate true) pushed := by
  have hsame : (fate true).kept msg = (fate false).kept msg := by
    rw [PushFate.kept, PushFate.kept, hkept]
  refine ⟨hends.accepted.trans haccepted.symm, ?_⟩
  rw [hsame, hevicted]
  exact (h.takes lane).trans hends.takes

theorem ends_retryEvicted {node : TypedMessage} {lanes : MultiLaneQueue TypedMessage}
    {result : EnqueueResult} (lane : Fin kMaxUserLanes) (h : Evicted s mb node mid) :
    Ends (.user lane) msg mb (evictFate s mb (s.bytes msg) (some (node, lanes)))
      (mid.retryEvicted s msg envelope (.user lane) result) := by
  have hiff : HasRoom s mid (s.bytes msg) ↔
      HasRoom s (mb.setReservation (mb.reservation.release (.ofNat (s.bytes node))))
        (s.bytes msg) := by
    rw [HasRoom, HasRoom, h.reservation]
    rfl
  rw [evictFate]
  rcases mid.tryReserve_cases (s := s) (s.bytes msg) with
    ⟨hroom, r, -, heq⟩ | ⟨hroom, refusal, rfl | rfl, heq⟩
  · rw [if_pos (hiff.mp hroom)]
    simp only [retryEvicted, heq]
    exact h.ends .stored (ends_store rfl rfl) rfl rfl rfl
  all_goals
    rw [if_neg (mt hiff.mpr hroom)]
    refine h.ends .refused ?_ rfl rfl rfl
    simp only [retryEvicted, heq]
    exact ends_refused rfl rfl rfl

/-- What `try_push` does when an evicting handler was called. -/
theorem ends_evictOverflow (s : MailboxSetup) (mb : Mailbox) (msg : TypedMessage)
    (envelope : MailboxEnvelopeMeta) (lane : Fin kMaxUserLanes) (refusal : ReservationResult)
    (order : List (Fin kMaxUserLanes)) :
    let handled := mb.evictOverflow s refusal (mb.dropTaken s (mb.lanes.scanUser order))
    let result := handled.1.withPressure s handled.2
    Ends (.user lane) msg mb (evictFate s mb (s.bytes msg) (mb.lanes.scanUser order))
      (if result.code = .droppedExisting then
        handled.1.retryEvicted s msg envelope (.user lane) result
      else (handled.1, result)) := by
  cases hscan : mb.lanes.scanUser order with
  | none => exact ends_refused rfl rfl rfl
  | some taken =>
    obtain ⟨node, lanes⟩ := taken
    exact ends_retryEvicted lane (dropTaken_evicted hscan)

theorem ends_pushUser (lane : Fin kMaxUserLanes) :
    Ends (.user lane) msg mb (userFate s mb (s.bytes msg))
      (mb.pushUser s msg envelope (.user lane)) := by
  rw [userFate]
  rcases mb.tryReserve_cases (s := s) (s.bytes msg) with
    ⟨hroom, r, -, heq⟩ | ⟨hroom, -⟩
  · rw [if_pos hroom]
    simp only [pushUser, heq]
    exact ends_store rfl rfl
  · obtain ⟨refusal, hpush⟩ := pushUser_refused hroom envelope (.user lane)
    rw [if_neg hroom, hpush]
    cases hpolicy : s.config.overflowPolicy with
    | dropOldest | dropLowestPriority =>
      simp only [handleOverflow, hpolicy]
      have hevicted :=
        ends_evictOverflow s (mb.updatePressureState s true) msg envelope lane refusal
      exact (hevicted _).congr rfl rfl
    | spillToOverflowQueue =>
      simp only [handleOverflow, hpolicy]
      exact ⟨rfl, .of_lanes rfl rfl⟩
    | rejectNewest | blockWhenAllowed | signalOnly | dropNewest | deadLetter =>
      simp only [handleOverflow, hpolicy]
      exact ends_refused rfl rfl rfl

theorem ends_pushAdmitted (s : MailboxSetup) (mb : Mailbox) (msg : TypedMessage)
    (envelope : MailboxEnvelopeMeta) :
    Ends (mb.routeLane s envelope) msg mb
      (match mb.routeLane s envelope with
      | .system => systemFate s mb
      | .user _ => userFate s mb (s.bytes msg))
      (mb.pushAdmitted s msg envelope) := by
  unfold pushAdmitted
  cases mb.routeLane s envelope with
  | system => exact ends_pushSystem
  | user lane => exact ends_pushUser lane

theorem ends_tryPush (s : MailboxSetup) (mb : Mailbox) (msg : TypedMessage)
    (envelope : MailboxEnvelopeMeta) :
    Ends (mb.routeLane s envelope) msg mb (mb.fate s msg envelope)
      (mb.tryPush s msg envelope) := by
  unfold tryPush fate admits
  cases hpolicies : s.admissionPolicies with
  | none => exact ends_pushAdmitted s mb msg { envelope with estimatedBytes := s.bytes msg }
  | some evaluate =>
    simp only [decide_eq_true_eq]
    split
    · have hadmitted :=
        ends_pushAdmitted s { mb with admissionEvaluations := mb.admissionEvaluations + 1 } msg
          { envelope with estimatedBytes := s.bytes msg }
      exact hadmitted.congr rfl rfl
    · exact ends_refused rfl rfl rfl

/-- Messages that are pushed one by one, with their fates. -/
def fates (s : MailboxSetup) (envelope : MailboxEnvelopeMeta) :
    Mailbox → List TypedMessage → List (TypedMessage × PushFate)
  | _, [] => []
  | mb, msg :: rest =>
    (msg, mb.fate s msg envelope) :: fates s envelope (mb.tryPush s msg envelope).1 rest

/-- The messages of a batch that come into the lanes. -/
def kept (each : List (TypedMessage × PushFate)) : List TypedMessage :=
  (each.filter fun pushed => pushed.2.isStored).map Prod.fst

def evicted (each : List (TypedMessage × PushFate)) : Nat :=
  (each.map fun pushed => pushed.2.evicted).sum

theorem fates_fst (mb : Mailbox) (msgs : List TypedMessage) :
    (fates s envelope mb msgs).map Prod.fst = msgs := by
  induction msgs generalizing mb with
  | nil => rfl
  | cons msg rest ih => rw [fates, map_cons, ih]

theorem kept_cons (fate : PushFate) (each : List (TypedMessage × PushFate)) :
    kept ((msg, fate) :: each) = fate.kept msg ++ kept each := by
  cases hstored : fate.isStored <;> simp [kept, PushFate.kept, hstored]

theorem routeLane_congr (hlanes : after.lanes.numUserLanes = mb.lanes.numUserLanes) :
    after.routeLane s envelope = mb.routeLane s envelope := by
  unfold routeLane
  simp only [hlanes]

/-- In a run of pushes the lanes gain and lose as all the fates say. -/
theorem takes_tryPushEach (s : MailboxSetup) (envelope : MailboxEnvelopeMeta) (mb : Mailbox)
    (last : EnqueueResult) (msgs : List TypedMessage) :
    Takes (mb.routeLane s envelope) (kept (fates s envelope mb msgs))
      (evicted (fates s envelope mb msgs)) mb (mb.tryPushEach s envelope last msgs).1 := by
  induction msgs generalizing mb last with
  | nil => exact .of_lanes rfl rfl
  | cons msg rest ih =>
    have hfirst := (ends_tryPush s mb msg envelope).takes
    have hrest := ih (mb.tryPush s msg envelope).1 (mb.tryPush s msg envelope).2
    rw [routeLane_congr hfirst.lanes] at hrest
    rw [fates, kept_cons, evicted, map_cons, sum_cons, Nat.add_comm]
    exact hfirst.trans hrest

/-- The result of the last push stands for all of them. -/
theorem accepted_tryPushEach (mb : Mailbox) (last : EnqueueResult) (msgs : List TypedMessage) :
    (mb.tryPushEach s envelope last msgs).2.accepted =
      ((fates s envelope mb msgs).getLast?.map fun pushed => pushed.2.accepted).getD
        last.accepted := by
  induction msgs generalizing mb last with
  | nil => rfl
  | cons msg rest ih =>
    rw [fates, getLast?_cons, tryPushEach, ih, (ends_tryPush s mb msg envelope).accepted]
    cases (fates s envelope (mb.tryPush s msg envelope).1 rest).getLast? <;> rfl

/-- The fates of the messages of a batch that is pushed one by one. -/
def batchFates (s : MailboxSetup) (mb : Mailbox) (msgs : List TypedMessage)
    (envelope : MailboxEnvelopeMeta) : List (TypedMessage × PushFate) :=
  fates s { envelope with estimatedBytes := batchBytes s msgs } (mb.updatePressureState s true) msgs

theorem tryPushBatch_reserved (envelope : MailboxEnvelopeMeta)
    (hroom : HasRoom s mb (batchBytes s msgs)) :
    Takes (mb.routeLane s envelope) msgs 0 mb (mb.tryPushBatch s msgs envelope).1 := by
  cases msgs with
  | nil => exact .of_lanes rfl rfl
  | cons first rest =>
    rcases mb.tryReserve_cases (s := s) (batchBytes s (first :: rest)) with
      ⟨-, r, -, heq⟩ | ⟨hfull, -⟩
    · simp only [tryPushBatch, heq]
      have hreserved : Takes (mb.routeLane s envelope) [] 0 mb (mb.setReservation r) :=
        .of_lanes rfl rfl
      exact hreserved.trans (takes_enqueueAll _ _ _)
    · exact absurd hroom hfull

theorem accepted_tryPushBatch (hroom : ¬ HasRoom s mb (batchBytes s msgs)) (hne : msgs ≠ []) :
    (mb.tryPushBatch s msgs envelope).2.accepted = true ↔
      ∃ last ∈ (mb.batchFates s msgs envelope).getLast?, last.2.accepted = true := by
  rw [tryPushBatch_refused hroom hne, accepted_tryPushEach, batchFates]
  cases hlast : (fates s { envelope with estimatedBytes := batchBytes s msgs }
      (mb.updatePressureState s true) msgs).getLast? with
  | none =>
    have hnil := congrArg (map Prod.fst) (getLast?_eq_none_iff.mp hlast)
    rw [fates_fst] at hnil
    exact absurd hnil hne
  | some last => simp

theorem takes_tryPushBatch (envelope : MailboxEnvelopeMeta)
    (hroom : ¬ HasRoom s mb (batchBytes s msgs)) :
    Takes (mb.routeLane s envelope) (kept (mb.batchFates s msgs envelope))
      (evicted (mb.batchFates s msgs envelope)) mb (mb.tryPushBatch s msgs envelope).1 := by
  by_cases hne : msgs = []
  · subst hne
    exact .of_lanes rfl rfl
  · rw [tryPushBatch_refused hroom hne]
    have hpressed : Takes (mb.routeLane s envelope) [] 0 mb (mb.updatePressureState s true) :=
      .of_lanes rfl rfl
    exact hpressed.trans (takes_tryPushEach s { envelope with estimatedBytes := batchBytes s msgs }
      (mb.updatePressureState s true) {} msgs)

theorem Enqueues.kept_iff {each : List (TypedMessage × PushFate)}
    (h : Enqueues lane (kept each) mb after) (hmsgs : each.map Prod.fst = msgs) :
    Enqueues lane msgs mb after ↔ ∀ pushed ∈ each, pushed.2.isStored = true := by
  subst hmsgs
  refine ⟨fun hall => ?_, fun hstored => ?_⟩
  · have hlength := Nat.add_left_cancel (h.count.symm.trans hall.count)
    rwa [kept, length_map, length_map, length_filter_eq_length_iff] at hlength
  · rwa [kept, filter_eq_self.mpr hstored] at h

/-- An accepted batch was enqueued whole exactly if there was room for its one
reservation, or none of its messages was spilled or refused unless the last one
was refused.  The user messages stay within the capacity exactly if the whole
batch fits beside those held, or, pushed one by one, what is stored less what is
evicted does. -/
theorem batch_reports_truth_iff (s : MailboxSetup) (mb : Mailbox) (msgs : List TypedMessage)
    (envelope : MailboxEnvelopeMeta) :
    let pushed := mb.tryPushBatch s msgs envelope
    let lane := mb.routeLane s envelope
    let room := HasRoom s mb (batchBytes s msgs)
    let each := mb.batchFates s msgs envelope
    let maxMessages := s.config.capacity.maxMessages.toNat
    ((pushed.2.accepted = true → Enqueues lane msgs mb pushed.1) ↔
        (¬ room → (∃ last ∈ each.getLast?, last.2.accepted = true) →
          ∀ pushed ∈ each, pushed.2.isStored = true)) ∧
      ((mb.userHeld ≤ maxMessages → pushed.1.userHeld ≤ maxMessages) ↔
        (mb.userHeld ≤ maxMessages →
          if room then mb.userHeld + userShare msgs lane ≤ maxMessages
          else mb.userHeld + userShare (kept each) lane ≤ maxMessages + evicted each)) := by
  intro pushed lane room each maxMessages
  by_cases hroom : room
  · have htakes := tryPushBatch_reserved envelope hroom
    refine ⟨iff_of_true (fun _ => htakes.toEnqueues) fun hnot => absurd hroom hnot, ?_⟩
    rw [if_pos hroom, ← htakes.held]
    rfl
  · have htakes := takes_tryPushBatch envelope hroom
    have hheld : pushed.1.userHeld + evicted each = mb.userHeld + userShare (kept each) lane :=
      htakes.held
    refine ⟨?_, ?_⟩
    · have hall := htakes.kept_iff (fates_fst _ msgs)
      rcases eq_or_ne msgs [] with hnil | hne
      · have hnone : ∀ pushed ∈ each, pushed.2.isStored = true := by
          simp [each, batchFates, hnil, fates]
        exact iff_of_true (fun _ => hall.mpr hnone) fun _ _ => hnone
      · rw [forall_prop_of_true hroom]
        exact imp_congr (accepted_tryPushBatch hroom hne) hall
    · rw [if_neg hroom]
      refine imp_congr_right fun _ => ?_
      omega

end Mailbox

namespace MailboxBatchWitness

open MailboxAccountingWitness

/-- A mailbox for one message takes a batch of two.  Of a batch whose first
message has too many bytes the second one is enqueued alone, and the batch is
reported as accepted; so is one of which all is spilled. -/
theorem batch_misreported :
    let push (policy : OverflowPolicy) (capacity : MailboxCapacity) (msgs : List TypedMessage) :=
      let s := MailboxSetup.ofConfig { capacity := capacity, overflowPolicy := policy } 7 64
      let pushed := (Mailbox.fresh s).tryPushBatch s msgs userEnvelope
      (pushed.2.accepted, pushed.1.inLane (.user 0))
    let large : TypedMessage := { typeId := .user, payload := List.replicate 60 0 }
    push .rejectNewest ⟨1, 0⟩ [userMessage, userMessage] = (true, [userMessage, userMessage]) ∧
      push .rejectNewest ⟨8, 100⟩ [large, userMessage] = (true, [userMessage]) ∧
      push .spillToOverflowQueue ⟨8, 100⟩ [large, large] = (true, []) := by
  decide +kernel

end MailboxBatchWitness

end HPActor
