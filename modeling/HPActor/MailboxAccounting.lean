/-
The books of a mailbox.  Two ledgers, the user reservation and the system-lane
counter, are kept in step with the messages that sit in the lanes; the
invariant is proved entry point by entry point and carried over whole runs of
calls, under the condition on batches and preallocated nodes that the code
needs for it.
-/
import HPActor.Runs
import HPActor.ActorMailbox

namespace HPActor

open Runs MultiLaneQueue MailboxSetup List ReservationManager OverflowQueue

def userCount (msgs : Multiset TypedMessage) : Nat :=
  msgs.countP fun msg => msg.isSystem = false

def systemCount (msgs : Multiset TypedMessage) : Nat :=
  msgs.countP fun msg => msg.isSystem = true

def MailboxSetup.userBytes (s : MailboxSetup) (msgs : Multiset TypedMessage) : Nat :=
  ((msgs.filter fun msg => msg.isSystem = false).map s.bytes).sum

def MailboxSetup.allBytes (s : MailboxSetup) (msgs : Multiset TypedMessage) : Nat :=
  (msgs.map s.bytes).sum

variable {s : MailboxSetup} {msg : TypedMessage} {msgs : Multiset TypedMessage}

theorem userCount_cons_user (huser : msg.isSystem = false) :
    userCount (msg ::ₘ msgs) = userCount msgs + 1 :=
  Multiset.countP_cons_of_pos msgs huser

theorem userCount_cons_system (hsys : msg.isSystem = true) :
    userCount (msg ::ₘ msgs) = userCount msgs :=
  Multiset.countP_cons_of_neg msgs (by simp [hsys])

theorem systemCount_cons_user (huser : msg.isSystem = false) :
    systemCount (msg ::ₘ msgs) = systemCount msgs :=
  Multiset.countP_cons_of_neg msgs (by simp [huser])

theorem systemCount_cons_system (hsys : msg.isSystem = true) :
    systemCount (msg ::ₘ msgs) = systemCount msgs + 1 :=
  Multiset.countP_cons_of_pos msgs hsys

theorem userBytes_cons_user (huser : msg.isSystem = false) :
    s.userBytes (msg ::ₘ msgs) = s.userBytes msgs + s.bytes msg := by
  simp [userBytes, huser, Nat.add_comm]

theorem userBytes_cons_system (hsys : msg.isSystem = true) :
    s.userBytes (msg ::ₘ msgs) = s.userBytes msgs := by
  simp [userBytes, hsys]

@[simp] theorem allBytes_cons : s.allBytes (msg ::ₘ msgs) = s.bytes msg + s.allBytes msgs := by
  simp [allBytes]

theorem userBytes_le_allBytes : s.userBytes msgs ≤ s.allBytes msgs := by
  induction msgs using Multiset.induction with
  | empty => simp [userBytes]
  | cons msg msgs ih =>
    rw [allBytes_cons]
    cases hclass : msg.isSystem with
    | true =>
      rw [userBytes_cons_system hclass]
      omega
    | false =>
      rw [userBytes_cons_user hclass]
      omega

/-- The fields of a mailbox the accounting speaks about. -/
structure Books where
  lanes : MultiLaneQueue TypedMessage
  overflow : OverflowQueue TypedMessage
  reservation : ReservationManager
  systemLaneReserved : UInt32
  systemWrapped : Bool

def Mailbox.books (mb : Mailbox) : Books where
  lanes := mb.lanes
  overflow := mb.overflow
  reservation := mb.reservation
  systemLaneReserved := mb.systemLaneReserved
  systemWrapped := mb.systemWrapped

/-- Bytes of all messages the mailbox holds, in the lanes or spilled. -/
def Books.heldBytes (s : MailboxSetup) (b : Books) : Nat :=
  s.allBytes b.lanes.contents + s.allBytes b.overflow.queue

structure Books.Balanced (s : MailboxSetup) (b : Books) : Prop where
  ledger : b.reservation.Accounts (userCount b.lanes.contents) (s.userBytes b.lanes.contents)
  system_eq : b.systemLaneReserved.toNat = systemCount b.lanes.contents
  system_kept : b.systemWrapped = false
  user_lanes : ∀ msg ∈ b.lanes.userContents, msg.isSystem = false
  overflow_user : ∀ msg ∈ b.overflow.queue, msg.isSystem = false

namespace Mailbox

variable (mb : Mailbox)

theorem books_fresh_balanced (s : MailboxSetup) : (fresh s).books.Balanced s where
  ledger := by
    simpa [books, fresh, userCount, userBytes] using accounts_fresh
  system_eq := by simp [books, fresh, systemCount]
  system_kept := rfl
  user_lanes := by simp [books, fresh]
  overflow_user := by simp [books, fresh]

@[simp] theorem books_updatePressureState (hardFailure : Bool) :
    (mb.updatePressureState s hardFailure).books = mb.books := rfl

@[simp] theorem books_claimWakeup (wakeup : Wakeup) : (mb.claimWakeup wakeup).books = mb.books := by
  unfold claimWakeup
  split <;> rfl

@[simp] theorem books_recheckWakeup : mb.recheckWakeup.books = mb.books := by
  unfold recheckWakeup
  split
  · rfl
  · exact mb.books_claimWakeup .self

@[simp] theorem books_enqueueReserved (node : TypedMessage)
    (envelope : MailboxEnvelopeMeta) (lane : LaneIdx) (suppress : Bool) :
    (mb.enqueueReserved s node envelope lane suppress).books =
      { mb.books with lanes := mb.lanes.enqueue node lane } := by
  unfold enqueueReserved
  split
  · rfl
  · exact books_claimWakeup _ _

end Mailbox

namespace Books.Balanced

variable {b : Books}

theorem bytes_le_held (b : Books) : s.userBytes b.lanes.contents ≤ b.heldBytes s :=
  userBytes_le_allBytes.trans (Nat.le_add_right _ _)

theorem user_lanes_enqueue (hb : b.Balanced s) (lane : LaneIdx) (huser : msg.isSystem = false) :
    ∀ other ∈ (b.lanes.enqueue msg lane).userContents, other.isSystem = false := by
  cases lane with
  | system => exact hb.user_lanes
  | user lane =>
    intro other hmem
    rw [userContents_enqueue_user, Multiset.mem_cons] at hmem
    rcases hmem with rfl | hmem
    · exact huser
    · exact hb.user_lanes other hmem

/-- Reserving for a user message and storing it keeps the balance. -/
theorem admit_user (hb : b.Balanced s) {r : ReservationManager}
    (huser : msg.isSystem = false) (lane : LaneIdx)
    (hfits : b.heldBytes s + s.bytes msg < 2 ^ 64)
    (hreserve : b.reservation.tryReserve (.ofNat (s.bytes msg))
      s.config.capacity.maxMessages s.config.capacity.maxBytes = (.reserved, r)) :
    Books.Balanced s
      { b with reservation := r, lanes := b.lanes.enqueue msg lane } where
  ledger := by
    have hbound := bytes_le_held (s := s) b
    rw [contents_enqueue, userCount_cons_user huser, userBytes_cons_user huser]
    exact tryReserve_reserved hb.ledger s.max_pos (by omega) hreserve
  system_eq := by
    rw [contents_enqueue, systemCount_cons_user huser]
    exact hb.system_eq
  system_kept := hb.system_kept
  user_lanes := hb.user_lanes_enqueue lane huser
  overflow_user := hb.overflow_user

theorem admit_system (hb : b.Balanced s) (hsys : msg.isSystem = true)
    {limit : UInt32} (hroom : b.systemLaneReserved < limit) :
    Books.Balanced s
      { b with
        systemLaneReserved := b.systemLaneReserved + 1
        lanes := b.lanes.enqueue msg .system } where
  ledger := by
    rw [contents_enqueue, userCount_cons_system hsys, userBytes_cons_system hsys]
    exact hb.ledger
  system_eq := by
    have hlimit := limit.toNat_lt
    have hcount := hb.system_eq
    rw [UInt32.lt_iff_toNat_lt] at hroom
    rw [contents_enqueue, systemCount_cons_system hsys, UInt32.toNat_add]
    simp only [UInt32.reduceToNat]
    omega
  system_kept := hb.system_kept
  user_lanes := hb.user_lanes
  overflow_user := hb.overflow_user

variable {lanes : MultiLaneQueue TypedMessage}

section

variable (hb : b.Balanced s)
include hb

/-- Taking a user message out of the lanes and releasing its reservation. -/
theorem release_user (huser : msg.isSystem = false)
    (htaken : b.lanes.contents = msg ::ₘ lanes.contents)
    (hlanes : ∀ other ∈ lanes.userContents, other ∈ b.lanes.userContents) :
    Books.Balanced s
      { b with
        lanes := lanes
        reservation := b.reservation.release (.ofNat (s.bytes msg)) } where
  ledger := by
    have hledger := hb.ledger
    rw [htaken, userCount_cons_user huser, userBytes_cons_user huser] at hledger
    exact release_accounts hledger
  system_eq := by
    have hcount := hb.system_eq
    rwa [htaken, systemCount_cons_user huser] at hcount
  system_kept := hb.system_kept
  user_lanes := fun other hmem => hb.user_lanes other (hlanes other hmem)
  overflow_user := hb.overflow_user

theorem release_system (hsys : msg.isSystem = true)
    (htaken : b.lanes.contents = msg ::ₘ lanes.contents)
    (hlanes : ∀ other ∈ lanes.userContents, other ∈ b.lanes.userContents) :
    Books.Balanced s
      { b with
        lanes := lanes
        systemLaneReserved := b.systemLaneReserved - 1
        systemWrapped :=
          b.systemWrapped || decide (b.systemLaneReserved < 1) } := by
  have hcount := hb.system_eq
  rw [htaken, systemCount_cons_system hsys] at hcount
  have hone : 1 ≤ b.systemLaneReserved := by
    rw [UInt32.le_iff_toNat_le, hcount]
    simp
  exact {
    ledger := by
      have hledger := hb.ledger
      rwa [htaken, userCount_cons_system hsys, userBytes_cons_system hsys] at hledger
    system_eq := by
      rw [UInt32.toNat_sub_of_le _ _ hone, hcount]
      simp
    system_kept := by
      simp only [hb.system_kept, Bool.false_or]
      exact decide_eq_false (UInt32.not_lt.mpr hone)
    user_lanes := fun other hmem => hb.user_lanes other (hlanes other hmem)
    overflow_user := hb.overflow_user }

/-- Putting a user message that was just taken back into a user lane. -/
theorem requeue (huser : msg.isSystem = false)
    (lane : LaneIdx) (htaken : b.lanes.contents = msg ::ₘ lanes.contents)
    (hlanes : ∀ other ∈ lanes.userContents, other ∈ b.lanes.userContents) :
    Books.Balanced s { b with lanes := lanes.enqueue msg lane } where
  ledger := by
    rw [contents_enqueue, ← htaken]
    exact hb.ledger
  system_eq := by
    rw [contents_enqueue, ← htaken]
    exact hb.system_eq
  system_kept := hb.system_kept
  user_lanes := by
    have hshrunk : Books.Balanced s
        { b with
          lanes := lanes
          reservation := b.reservation.release (.ofNat (s.bytes msg)) } :=
      hb.release_user huser htaken hlanes
    exact hshrunk.user_lanes_enqueue lane huser
  overflow_user := hb.overflow_user

theorem with_overflow {overflow : OverflowQueue TypedMessage}
    (huser : ∀ other ∈ overflow.queue, other.isSystem = false) :
    Books.Balanced s { b with overflow := overflow } :=
  { hb with overflow_user := huser }

end

end Books.Balanced

/-- The books stay balanced and hold at most `n` bytes more. -/
structure Books.Grows (s : MailboxSetup) (b b' : Books) (n : Nat) : Prop where
  balanced : b'.Balanced s
  held : b'.heldBytes s ≤ b.heldBytes s + n

theorem Books.Grows.mono {b b' : Books} {n m : Nat} (hgrow : b.Grows s b' n)
    (hle : n ≤ m) : b.Grows s b' m :=
  ⟨hgrow.balanced, hgrow.held.trans (Nat.add_le_add_left hle _)⟩

theorem Books.Grows.trans {b b' b'' : Books} {n m : Nat}
    (hfirst : b.Grows s b' n) (hsecond : b'.Grows s b'' m) :
    b.Grows s b'' (n + m) := by
  refine ⟨hsecond.balanced, hsecond.held.trans ?_⟩
  have hheld := hfirst.held
  omega

theorem Books.Balanced.grows_refl {b : Books} (hb : b.Balanced s) :
    b.Grows s b 0 := ⟨hb, Nat.le_refl _⟩

open Books

theorem Books.heldBytes_enqueue (b : Books) (lane : LaneIdx) :
    heldBytes s { b with lanes := b.lanes.enqueue msg lane } =
      b.heldBytes s + s.bytes msg := by
  simp only [heldBytes, contents_enqueue, allBytes_cons]
  omega

theorem allBytes_queue_cons (msg : TypedMessage) (rest : List TypedMessage) :
    s.allBytes (↑(msg :: rest)) = s.bytes msg + s.allBytes ↑rest := by
  rw [← Multiset.cons_coe, allBytes_cons]

theorem allBytes_tryPush (q : OverflowQueue TypedMessage) (msg : TypedMessage) :
    s.allBytes (q.tryPush msg).queue ≤ s.allBytes q.queue + s.bytes msg := by
  unfold tryPush
  split
  · cases hqueue : q.queue with
    | nil | cons head tail => simp [allBytes]
  · simp [allBytes]

namespace Mailbox

variable {mb : Mailbox}

theorem heldBytes_books (mb : Mailbox) :
    mb.books.heldBytes s = s.allBytes mb.lanes.contents + s.allBytes mb.overflow.queue := rfl

/-- There is room on the user ledger for one more reservation of `bytes`. -/
def HasRoom (s : MailboxSetup) (mb : Mailbox) (bytes : Nat) : Prop :=
  mb.reservation.reservedMessages < s.config.capacity.maxMessages ∧
    (s.config.capacity.maxBytes = 0 ∨
      mb.reservation.queuedBytes + .ofNat bytes ≤ s.config.capacity.maxBytes)

instance (s : MailboxSetup) (mb : Mailbox) (bytes : Nat) : Decidable (HasRoom s mb bytes) :=
  inferInstanceAs (Decidable (_ ∧ _))

theorem tryReserve_fst_eq_reserved (bytes : Nat) :
    (mb.tryReserve s bytes).1 = .reserved ↔ HasRoom s mb bytes := by
  have hpos := s.max_pos
  simp only [tryReserve, ReservationManager.tryReserve, HasRoom, hpos, true_and]
  split
  · rename_i hfull
    simp [UInt32.not_lt.mpr hfull]
  · rename_i hroom
    simp only [UInt32.not_le.mp hroom, true_and]
    split
    · rename_i hbytes
      simp only [reduceCtorEq, false_iff, not_or, UInt64.not_le]
      exact ⟨UInt64.pos_iff_ne_zero.mp hbytes.1, hbytes.2⟩
    · rename_i hbytes
      simp only [true_iff]
      by_cases hzero : s.config.capacity.maxBytes = 0
      · exact .inl hzero
      · exact .inr (UInt64.not_lt.mp fun hlt =>
          hbytes ⟨UInt64.pos_iff_ne_zero.mpr hzero, hlt⟩)

/-- A reservation either succeeds on the user ledger or changes nothing. -/
theorem tryReserve_cases (mb : Mailbox) (bytes : Nat) :
    (HasRoom s mb bytes ∧ ∃ r, mb.reservation.tryReserve (.ofNat bytes)
          s.config.capacity.maxMessages s.config.capacity.maxBytes = (.reserved, r) ∧
        mb.tryReserve s bytes = (.reserved, mb.setReservation r)) ∨
      ¬ HasRoom s mb bytes ∧ ∃ refusal, (refusal = .countCapacity ∨ refusal = .byteCapacity) ∧
        mb.tryReserve s bytes = (refusal, mb) := by
  rw [← tryReserve_fst_eq_reserved]
  rcases hres : mb.reservation.tryReserve (.ofNat bytes)
    s.config.capacity.maxMessages s.config.capacity.maxBytes with ⟨result, r⟩
  have heq : mb.tryReserve s bytes = (result, mb.setReservation r) := by
    simp only [tryReserve, hres]
  rw [heq]
  cases result with
  | reserved => exact .inl ⟨rfl, r, rfl, rfl⟩
  | countCapacity | byteCapacity =>
    rw [tryReserve_refused hres (by simp)]
    exact .inr ⟨by simp, _, by simp, rfl⟩

/-- What `try_push` does with a user message for which there is no room. -/
theorem pushUser_refused (hroom : ¬ HasRoom s mb (s.bytes msg)) (envelope : MailboxEnvelopeMeta)
    (lane : LaneIdx) : ∃ refusal, mb.pushUser s msg envelope lane =
      let handled := (mb.updatePressureState s true).handleOverflow s msg refusal
      let result := handled.1.withPressure s handled.2
      if result.code = .droppedExisting then
        handled.1.retryEvicted s msg envelope lane result
      else (handled.1, result) := by
  rcases mb.tryReserve_cases (s := s) (s.bytes msg) with
    ⟨hreserved, -⟩ | ⟨-, refusal, rfl | rfl, heq⟩
  · exact absurd hreserved hroom
  all_goals
    simp only [pushUser, heq]
    exact ⟨_, rfl⟩

theorem tryPushBatch_refused {msgs : List TypedMessage} (hroom : ¬ HasRoom s mb (batchBytes s msgs))
    (hne : msgs ≠ []) (envelope : MailboxEnvelopeMeta) :
    mb.tryPushBatch s msgs envelope =
      tryPushEach s { envelope with estimatedBytes := batchBytes s msgs }
        (mb.updatePressureState s true) {} msgs := by
  cases msgs with
  | nil => exact absurd rfl hne
  | cons first rest =>
    rcases mb.tryReserve_cases (s := s) (batchBytes s (first :: rest)) with
      ⟨hreserved, -⟩ | ⟨-, refusal, rfl | rfl, heq⟩
    · exact absurd hreserved hroom
    all_goals simp only [tryPushBatch, heq]

section

variable (hb : mb.books.Balanced s)
include hb

theorem dropTaken_grows (order : List (Fin kMaxUserLanes)) :
    mb.books.Grows s (mb.dropTaken s (mb.lanes.scanUser order)).2.books 0 := by
  cases hscan : mb.lanes.scanUser order with
  | none => exact hb.grows_refl
  | some taken =>
    obtain ⟨node, lanes⟩ := taken
    have htaken := scanUser_contents hscan
    have hmem : node ∈ mb.lanes.userContents := by
      rw [(scanUser_userContents hscan).1]
      exact Multiset.mem_cons_self _ _
    have hbooks : (mb.dropTaken s (some (node, lanes))).2.books =
        { mb.books with
          lanes := lanes
          reservation :=
            mb.reservation.release (.ofNat (s.bytes node)) } := by
      unfold dropTaken
      dsimp only
      split <;> rfl
    rw [hbooks]
    refine ⟨hb.release_user (hb.user_lanes node hmem) htaken fun other =>
      mem_userContents_of_scanUser hscan, ?_⟩
    rw [heldBytes_books, htaken, allBytes_cons]
    simp only [heldBytes, books]
    omega

section

variable (huser : msg.isSystem = false)
include huser

/-- Reserving and storing a user message, as `try_push`, `enqueue` and the
overflow drain do it. -/
theorem store_grows {r : ReservationManager} (hfits : mb.books.heldBytes s + s.bytes msg < 2 ^ 64)
    (hreserve : mb.reservation.tryReserve (.ofNat (s.bytes msg))
      s.config.capacity.maxMessages s.config.capacity.maxBytes = (.reserved, r))
    (envelope : MailboxEnvelopeMeta) (lane : LaneIdx) (suppress : Bool) :
    mb.books.Grows s
      ((mb.setReservation r).enqueueReserved s msg envelope lane suppress).books (s.bytes msg) := by
  rw [books_enqueueReserved]
  refine ⟨hb.admit_user huser lane hfits hreserve, ?_⟩
  exact (heldBytes_enqueue mb.books lane).le

theorem handleOverflow_grows (refusal : ReservationResult) :
    mb.books.Grows s (mb.handleOverflow s msg refusal).1.books (s.bytes msg) ∧
      ((mb.handleOverflow s msg refusal).2.code = .droppedExisting →
        mb.books.Grows s (mb.handleOverflow s msg refusal).1.books 0) := by
  have hsame : mb.books.Grows s mb.books 0 := hb.grows_refl
  have hevict : ∀ order : List (Fin kMaxUserLanes), mb.books.Grows s
        (mb.evictOverflow s refusal (mb.dropTaken s (mb.lanes.scanUser order))).1.books 0 := by
    intro order
    have hdrop := dropTaken_grows hb order
    unfold evictOverflow
    split <;> exact hdrop
  unfold handleOverflow
  split
  all_goals try exact ⟨hsame.mono (Nat.zero_le _), fun _ => hsame⟩
  all_goals try exact ⟨(hevict _).mono (Nat.zero_le _), fun _ => hevict _⟩
  · refine ⟨⟨hb.with_overflow ?_, ?_⟩, fun hcode => by cases hcode⟩
    · intro other hmem
      rcases mem_tryPush hmem with rfl | hmem
      · exact huser
      · exact hb.overflow_user other hmem
    · have hpush := allBytes_tryPush (s := s) mb.overflow msg
      rw [heldBytes_books, heldBytes_books]
      simp only [pushOverflow]
      omega

theorem retryEvicted_grows (hfits : mb.books.heldBytes s + s.bytes msg < 2 ^ 64)
    (envelope : MailboxEnvelopeMeta) (lane : LaneIdx) (result : EnqueueResult) :
    mb.books.Grows s (mb.retryEvicted s msg envelope lane result).1.books (s.bytes msg) := by
  rcases mb.tryReserve_cases (s := s) (s.bytes msg) with
    ⟨-, r, hreserve, heq⟩ | ⟨-, refusal, rfl | rfl, heq⟩
  · simp only [retryEvicted, heq]
    exact store_grows hb huser hfits hreserve envelope lane false
  all_goals
    simp only [retryEvicted, heq]
    exact hb.grows_refl.mono (Nat.zero_le _)

theorem pushUser_grows (hfits : mb.books.heldBytes s + s.bytes msg < 2 ^ 64)
    (envelope : MailboxEnvelopeMeta) (lane : LaneIdx) :
    mb.books.Grows s (mb.pushUser s msg envelope lane).1.books (s.bytes msg) := by
  rcases mb.tryReserve_cases (s := s) (s.bytes msg) with
    ⟨-, r, hreserve, heq⟩ | ⟨hroom, -⟩
  · simp only [pushUser, heq]
    exact store_grows hb huser hfits hreserve envelope lane false
  · obtain ⟨refusal, hpush⟩ := pushUser_refused hroom envelope lane
    have hpressed : (mb.updatePressureState s true).books.Balanced s := hb
    obtain ⟨hgrow, hevicted⟩ := handleOverflow_grows hpressed huser refusal
    rw [hpush]
    dsimp only
    split
    · rename_i hcode
      have hdropped := hevicted hcode
      have hheld := hdropped.held
      have hretry := retryEvicted_grows hdropped.balanced huser
        (by rw [books_updatePressureState] at hheld; omega) envelope lane
        (withPressure s ((mb.updatePressureState s true).handleOverflow s msg refusal).1
          ((mb.updatePressureState s true).handleOverflow s msg refusal).2)
      simpa using hdropped.trans hretry
    · exact hgrow

end

theorem pushSystem_grows (hsys : msg.isSystem = true) (envelope : MailboxEnvelopeMeta) :
    mb.books.Grows s (mb.pushSystem s msg envelope).1.books (s.bytes msg) := by
  unfold pushSystem
  split
  · exact hb.grows_refl.mono (Nat.zero_le _)
  · rename_i hroom
    dsimp only
    rw [books_enqueueReserved]
    refine ⟨hb.admit_system hsys (UInt32.not_le.mp hroom), ?_⟩
    exact (heldBytes_enqueue mb.books .system).le

end

variable {envelope : MailboxEnvelopeMeta} {msgs : List TypedMessage} {node : TypedMessage}

/-- A push whose envelope names the class of the message keeps the books. -/
theorem tryPush_grows (hb : mb.books.Balanced s)
    (hclass : msg.isSystem = isSystemMessage envelope.typeTag)
    (hfits : mb.books.heldBytes s + s.bytes msg < 2 ^ 64) :
    mb.books.Grows s (mb.tryPush s msg envelope).1.books (s.bytes msg) := by
  have hadmitted : ∀ (asked : Mailbox) (measured : MailboxEnvelopeMeta),
      asked.books = mb.books → measured.typeTag = envelope.typeTag →
      mb.books.Grows s (asked.pushAdmitted s msg measured).1.books (s.bytes msg) := by
    intro asked measured hbooks htag
    rw [← hbooks] at hb hfits ⊢
    unfold pushAdmitted routeLane
    rw [htag, ← hclass]
    cases hsys : msg.isSystem with
    | true => exact pushSystem_grows hb hsys measured
    | false =>
      simp only [Bool.false_eq_true, ↓reduceIte]
      split
      · rename_i hlane
        split at hlane <;> cases hlane
      · exact pushUser_grows hb hsys hfits measured _
  unfold tryPush
  split
  · exact hadmitted _ _ rfl rfl
  · dsimp only
    split
    · exact hadmitted _ _ rfl rfl
    · exact hb.grows_refl.mono (Nat.zero_le _)

theorem tryPushEach_grows (hb : mb.books.Balanced s)
    (hclass : ∀ msg ∈ msgs, msg.isSystem = isSystemMessage envelope.typeTag)
    (hfits : mb.books.heldBytes s + s.allBytes msgs < 2 ^ 64) (last : EnqueueResult) :
    (mb.tryPushEach s envelope last msgs).1.books.Balanced s := by
  induction msgs generalizing mb last with
  | nil => exact hb
  | cons msg rest ih =>
    rw [allBytes_queue_cons] at hfits
    have hpush := tryPush_grows hb (hclass msg mem_cons_self) (by omega)
    have hheld := hpush.held
    exact ih hpush.balanced (fun other hmem => hclass other (mem_cons_of_mem msg hmem)) (by omega) _

/-- What the accounting asks of one batch: with room for its single
reservation it must be a single user message, and without room its messages
must be of the class its envelope names. -/
def BatchKept (s : MailboxSetup) (mb : Mailbox) (msgs : List TypedMessage)
    (envelope : MailboxEnvelopeMeta) : Prop :=
  if HasRoom s mb (batchBytes s msgs) then
    msgs.length ≤ 1 ∧ ∀ msg ∈ msgs, msg.isSystem = false
  else ∀ msg ∈ msgs, msg.isSystem = isSystemMessage envelope.typeTag

instance (s : MailboxSetup) (mb : Mailbox) (msgs : List TypedMessage)
    (envelope : MailboxEnvelopeMeta) :
    Decidable (BatchKept s mb msgs envelope) :=
  inferInstanceAs (Decidable (ite _ _ _))

section

variable (hb : mb.books.Balanced s)
include hb

theorem tryPushBatch_balanced (hkept : BatchKept s mb msgs envelope)
    (hfits : mb.books.heldBytes s + s.allBytes msgs < 2 ^ 64) :
    (mb.tryPushBatch s msgs envelope).1.books.Balanced s := by
  cases msgs with
  | nil => exact hb
  | cons msg rest =>
    rw [allBytes_queue_cons] at hfits
    rcases mb.tryReserve_cases (s := s) (batchBytes s (msg :: rest)) with
      ⟨hroom, r, hreserve, heq⟩ | ⟨hroom, -⟩
    · rw [BatchKept, if_pos hroom] at hkept
      have hnil : rest = [] := by
        simpa using hkept.1
      subst hnil
      simp only [batchBytes, map_cons, map_nil, sum_cons, sum_nil, Nat.add_zero] at hreserve heq
      simp only [tryPushBatch, batchBytes, map_cons, map_nil,
        sum_cons, sum_nil, Nat.add_zero, heq, enqueueAll]
      exact (store_grows hb (hkept.2 msg mem_cons_self) (by omega) hreserve _ _ false).balanced
    · rw [BatchKept, if_neg hroom] at hkept
      have hpressed : (mb.updatePressureState s true).books.Balanced s := hb
      rw [tryPushBatch_refused hroom (by simp)]
      refine tryPushEach_grows hpressed (by exact hkept) ?_ _
      rw [books_updatePressureState, allBytes_queue_cons]
      omega

theorem enqueue_balanced (hkept : HasRoom s mb (s.bytes msg) → msg.isSystem = false)
    (hfits : mb.books.heldBytes s + s.bytes msg < 2 ^ 64) :
    (mb.enqueue s msg).books.Balanced s := by
  rcases mb.tryReserve_cases (s := s) (s.bytes msg) with
    ⟨hroom, r, hreserve, heq⟩ | ⟨-, refusal, rfl | rfl, heq⟩
  · simp only [enqueue, heq]
    exact (store_grows hb (hkept hroom) hfits hreserve _ _ false).balanced
  all_goals
    simp only [enqueue, heq]
    exact hb

/-- Draining moves messages from the overflow queue to the lanes, so what the
mailbox holds never grows. -/
theorem drainLoop_balanced (hqueue : mb.overflow.queue = msgs)
    (hfits : mb.books.heldBytes s < 2 ^ 64) :
    (mb.drainLoop s msgs).books.Balanced s := by
  induction msgs generalizing mb with
  | nil => exact hb
  | cons msg rest ih =>
    have huser : ∀ other ∈ msg :: rest, other.isSystem = false :=
      fun other hmem => hb.overflow_user other (by
        change other ∈ mb.overflow.queue
        rwa [hqueue])
    have hheld : mb.books.heldBytes s = (mb.popOverflow rest).books.heldBytes s + s.bytes msg := by
      rw [heldBytes_books, heldBytes_books, hqueue, allBytes_queue_cons]
      simp only [popOverflow, popTo]
      omega
    have hpopped : (mb.popOverflow rest).books.Balanced s :=
      hb.with_overflow fun other hmem =>
        huser other (mem_cons_of_mem msg hmem)
    rcases (mb.popOverflow rest).tryReserve_cases (s := s) (s.bytes msg) with
      ⟨-, r, hreserve, heq⟩ | ⟨-, refusal, hrefused, heq⟩
    · simp only [drainLoop, heq]
      have hstore := store_grows hpopped (huser msg mem_cons_self)
        (by omega) hreserve { estimatedBytes := s.bytes msg } (.user 0) true
      have hstoreHeld := hstore.held
      exact ih hstore.balanced
        (congrArg (·.overflow.queue) (books_enqueueReserved (s := s)
          ((mb.popOverflow rest).setReservation r) msg
          { estimatedBytes := s.bytes msg } (.user 0) true)) (by omega)
    · have hback : ((mb.popOverflow rest).pushOverflow msg).books.Balanced
          s := by
        refine hpopped.with_overflow fun other hmem => huser other ?_
        rcases mem_tryPush hmem with rfl | hmem
        · exact mem_cons_self
        · exact mem_cons_of_mem msg hmem
      rcases hrefused with rfl | rfl <;> simpa only [drainLoop, heq] using hback

theorem drainOverflow_balanced (hfits : mb.books.heldBytes s < 2 ^ 64) :
    (mb.drainOverflow s).books.Balanced s := by
  unfold drainOverflow
  split
  · exact drainLoop_balanced hb rfl hfits
  · exact hb

end

@[simp] theorem books_askLimiter (mb : Mailbox) (node : TypedMessage) :
    (mb.askLimiter s node).2.books = mb.books := by
  unfold askLimiter
  split
  · rfl
  · split <;> rfl

/-- The limiter is consulted about user messages only. -/
theorem askLimiter_denied (hdenied : (mb.askLimiter s node).1 = false) : node.isSystem = false := by
  unfold askLimiter at hdenied
  split at hdenied
  · cases hdenied
  · split at hdenied
    · cases hdenied
    · simpa using ‹¬ node.isSystem = true›

theorem releaseNode_grows (hb : mb.books.Balanced s) {lanes : MultiLaneQueue TypedMessage}
    (hdeq : mb.lanes.dequeue = some (node, lanes)) :
    mb.books.Grows s ((mb.setLanes lanes).releaseNode s node).books 0 := by
  have htaken := dequeue_contents hdeq
  have hlanes : ∀ other ∈ lanes.userContents, other ∈ mb.lanes.userContents :=
    fun other => mem_userContents_of_dequeue hdeq
  have hheld : s.allBytes lanes.contents + s.allBytes mb.overflow.queue ≤
      mb.books.heldBytes s + 0 := by
    rw [heldBytes_books, htaken, allBytes_cons]
    omega
  unfold releaseNode
  cases hclass : node.isSystem with
  | true => exact ⟨hb.release_system hclass htaken hlanes, hheld⟩
  | false => exact ⟨hb.release_user hclass htaken hlanes, hheld⟩

theorem books_releaseNode_congr {mb mb' : Mailbox}
    (hbooks : mb.books = mb'.books) (node : TypedMessage) :
    (mb.releaseNode s node).books = (mb'.releaseNode s node).books := by
  simp only [books, Books.mk.injEq] at hbooks
  obtain ⟨hlanes, hoverflow, hreservation, hreserved, hwrapped⟩ := hbooks
  unfold releaseNode
  split <;> simp [books, hlanes, hoverflow, hreservation, hreserved, hwrapped]

theorem consumeNode_balanced (hfits : (mb.releaseNode s node).books.heldBytes s < 2 ^ 64)
    (hreleased : (mb.releaseNode s node).books.Balanced s) :
    (mb.consumeNode s node).books.Balanced s := by
  have hdrain : ∀ flagged : Mailbox, flagged.books = (mb.releaseNode s node).books →
        (flagged.drainOverflow s).books.Balanced s := by
    intro flagged hbooks
    rw [← hbooks] at hfits hreleased
    exact drainOverflow_balanced hreleased hfits
  rw [consumeNode]
  apply hdrain
  split <;> rfl

theorem dequeue_balanced (hb : mb.books.Balanced s) (hfits : mb.books.heldBytes s < 2 ^ 64) :
    (mb.dequeue s).1.books.Balanced s := by
  unfold dequeue
  dsimp only
  split
  · rw [books_recheckWakeup]
    exact hb
  · rename_i node lanes hdeq
    have harmed : (mb.setWasEmpty true).books.Balanced s := hb
    have hgrow := releaseNode_grows harmed hdeq
    have hbooks := books_askLimiter (s := s) ((mb.setWasEmpty true).setLanes lanes) node
    split
    · rename_i asked hasked
      rw [hasked] at hbooks
      have hrelease := books_releaseNode_congr (s := s) hbooks node
      have hheld := hgrow.held
      rw [books_recheckWakeup]
      rw [← hrelease] at hgrow hheld
      exact consumeNode_balanced (lt_of_le_of_lt hheld hfits) hgrow.balanced
    · rename_i asked hasked
      have hdenied := askLimiter_denied (congrArg Prod.fst hasked)
      rw [hasked] at hbooks
      change (asked.enqueueReserved s node {} (.user 0) true).books.Balanced s
      rw [books_enqueueReserved]
      change Books.Balanced s
        { asked.books with lanes := asked.books.lanes.enqueue node (.user 0) }
      rw [hbooks]
      exact hb.requeue hdenied (.user 0) (dequeue_contents hdeq)
        fun other => mem_userContents_of_dequeue hdeq

end Mailbox

/-- The entry points of a mailbox. -/
inductive MailboxCall where
  | tryPush (msg : TypedMessage) (envelope : MailboxEnvelopeMeta)
  | tryPushBatch (msgs : List TypedMessage) (envelope : MailboxEnvelopeMeta)
  | enqueue (node : TypedMessage)
  | dequeue
  | tryPop
  | dropOneOldestGlobal
  | dropOneLowestPriority
  | drainOverflow

namespace MailboxCall

/-- The messages a call hands over. -/
def messages : MailboxCall → List TypedMessage
  | .tryPush msg _ => [msg]
  | .tryPushBatch msgs _ => msgs
  | .enqueue node => [node]
  | _ => []

def perform (s : MailboxSetup) (mb : Mailbox) : MailboxCall → Mailbox
  | .tryPush msg envelope => (mb.tryPush s msg envelope).1
  | .tryPushBatch msgs envelope => (mb.tryPushBatch s msgs envelope).1
  | .enqueue node => mb.enqueue s node
  | .dequeue => (mb.dequeue s).1
  | .tryPop => (mb.tryPop s).1
  | .dropOneOldestGlobal => (mb.dropOneOldestGlobal s).2
  | .dropOneLowestPriority => (mb.dropOneLowestPriority s).2
  | .drainOverflow => mb.drainOverflow s

/-- What the accounting asks of a call in the state it is made in.  The first
line is the callers' side of `try_push`; the other two restrict calls the code
accepts. -/
def Kept (s : MailboxSetup) (mb : Mailbox) : MailboxCall → Prop
  | .tryPush msg envelope => envelope.typeTag = msg.typeId
  | .tryPushBatch msgs envelope => mb.BatchKept s msgs envelope
  | .enqueue node => mb.HasRoom s (s.bytes node) → node.isSystem = false
  | _ => True

instance (s : MailboxSetup) (mb : Mailbox) : ∀ call, Decidable (Kept s mb call) := by
  intro call
  unfold Kept
  split <;> infer_instance

/-- The messages a mailbox holds and those handed to it are live objects of
one 64-bit address space; other calls do not occur. -/
def step (s : MailboxSetup) (mb : Mailbox) (call : MailboxCall) : Option Mailbox :=
  if mb.books.heldBytes s + s.allBytes call.messages < 2 ^ 64 then
    some (call.perform s mb)
  else none

open Mailbox

theorem perform_balanced {mb : Mailbox} {call : MailboxCall} (hb : mb.books.Balanced s)
    (hkept : call.Kept s mb) (hfits : mb.books.heldBytes s + s.allBytes call.messages < 2 ^ 64) :
    (call.perform s mb).books.Balanced s := by
  cases call with
  | tryPush msg envelope =>
    refine (tryPush_grows hb ?_ ?_).balanced
    · rw [TypedMessage.isSystem, ← hkept]
    · simpa [messages, allBytes] using hfits
  | tryPushBatch msgs envelope =>
    exact tryPushBatch_balanced hb hkept hfits
  | enqueue node =>
    refine enqueue_balanced hb hkept ?_
    simpa [messages, allBytes] using hfits
  | dequeue | tryPop => exact dequeue_balanced hb (by omega)
  | dropOneOldestGlobal | dropOneLowestPriority =>
    exact (dropTaken_grows hb _).balanced
  | drainOverflow => exact drainOverflow_balanced hb (by omega)

theorem step_balanced {mb mb' : Mailbox} {call : MailboxCall}
    (hb : mb.books.Balanced s) (hkept : call.Kept s mb)
    (hstep : step s mb call = some mb') : mb'.books.Balanced s := by
  unfold step at hstep
  split at hstep
  · cases hstep
    exact perform_balanced hb hkept ‹_›
  · cases hstep

end MailboxCall

/-- The accounting of a mailbox over whole runs: in every state reached by
calls that meet `MailboxCall.Kept`, each counter shows what is in the lanes
and no counter has ever been driven below zero. -/
theorem mailbox_run_accounting {calls : List MailboxCall} {mb : Mailbox}
    (hkept : EachStep (MailboxCall.step s) (fun mb call => call.Kept s mb) (.fresh s) calls)
    (hrun : run (MailboxCall.step s) (.fresh s) calls = some mb) :
    mb.reservation.reservedMessages.toNat = userCount mb.lanes.contents ∧
      mb.reservation.queuedBytes.toNat = s.userBytes mb.lanes.contents ∧
      mb.systemLaneReserved.toNat = systemCount mb.lanes.contents ∧
      mb.reservation.wrapped = false ∧ mb.systemWrapped = false := by
  have hbalanced : mb.books.Balanced s :=
    run_invariant (fun _ _ _ => MailboxCall.step_balanced)
      (Mailbox.books_fresh_balanced s) hkept hrun
  exact ⟨hbalanced.ledger.count_eq, hbalanced.ledger.total_eq,
    hbalanced.system_eq, hbalanced.ledger.not_wrapped, hbalanced.system_kept⟩

namespace MailboxAccountingWitness

def defaultSetup : MailboxSetup := .ofConfig {} 7 64

def userMessage : TypedMessage := { typeId := .user, payload := [171] }

def systemMessage : TypedMessage := { typeId := ⟨1⟩ }

def userEnvelope : MailboxEnvelopeMeta := { typeTag := .user }

/-- A batch of two reserves once: the ledger shows one message while two are
queued, and dequeuing both drives the counter below zero. -/
theorem batch_of_two_miscounted :
    (run (MailboxCall.step defaultSetup) (.fresh defaultSetup)
      [.tryPushBatch [userMessage, userMessage] userEnvelope]).map
        (fun mb => (mb.reservation.reservedMessages.toNat,
          userCount mb.lanes.contents)) = some (1, 2) ∧
    (run (MailboxCall.step defaultSetup) (.fresh defaultSetup)
      [.tryPushBatch [userMessage, userMessage] userEnvelope, .dequeue, .dequeue]).map
        (fun mb => (mb.reservation.reservedMessages.toNat,
          userCount mb.lanes.contents, mb.reservation.wrapped)) =
      some (4294967295, 0, true) := by
  decide +kernel

/-- The accounting theorem on a run that uses both ledgers. -/
theorem mixed_run_accounted :
    ∃ mb, run (MailboxCall.step defaultSetup) (.fresh defaultSetup)
        [.tryPushBatch [userMessage] userEnvelope,
          .tryPush systemMessage { typeTag := ⟨1⟩ }, .enqueue userMessage,
          .dequeue, .dropOneOldestGlobal] = some mb ∧
      mb.reservation.reservedMessages.toNat = userCount mb.lanes.contents := by
  have hkept : EachStep (MailboxCall.step defaultSetup)
      (fun mb call => call.Kept defaultSetup mb) (.fresh defaultSetup)
      [.tryPushBatch [userMessage] userEnvelope,
        .tryPush systemMessage { typeTag := ⟨1⟩ }, .enqueue userMessage,
        .dequeue, .dropOneOldestGlobal] := by
    decide +kernel
  exact ⟨_, rfl, (mailbox_run_accounting hkept rfl).1⟩

end MailboxAccountingWitness

end HPActor
