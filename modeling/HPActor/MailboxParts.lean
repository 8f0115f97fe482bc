/-
The components a mailbox is composed of: the reservation ledger for user
messages, the system and user lanes, the overflow queue, the pressure state
machine and the rate policy.
-/
import HPActor.Interleaving
import HPActor.Message
import Mathlib.Tactic

namespace HPActor

open Function Multiset List

universe u

inductive ReservationResult where
  | reserved
  | countCapacity
  | byteCapacity
deriving Repr, DecidableEq

/-- The two unsigned counters of the reservation manager.  `wrapped` is a
ghost field: it records that some `fetch_sub` took more than the counter
held. -/
structure ReservationManager where
  reservedMessages : UInt32 := 0
  queuedBytes : UInt64 := 0
  wrapped : Bool := false

namespace ReservationManager

variable (r : ReservationManager)

def fetchSubMessages : ReservationManager :=
  { r with
    reservedMessages := r.reservedMessages - 1
    wrapped := r.wrapped || decide (r.reservedMessages < 1) }

def fetchSubBytes (bytes : UInt64) : ReservationManager :=
  { r with
    queuedBytes := r.queuedBytes - bytes
    wrapped := r.wrapped || decide (r.queuedBytes < bytes) }

/-- The count half of a reservation; a zero bound switches it off. -/
def reserveCount (maxMessages : UInt32) : ReservationManager :=
  if 0 < maxMessages then
    { r with reservedMessages := r.reservedMessages + 1 }
  else r

/-- The rollback of the count half when the bytes do not fit. -/
def rollbackCount (maxMessages : UInt32) : ReservationManager :=
  if 0 < maxMessages then r.fetchSubMessages else r

def tryReserve (bytes : UInt64) (maxMessages : UInt32) (maxBytes : UInt64) :
    ReservationResult × ReservationManager :=
  if 0 < maxMessages ∧ maxMessages ≤ r.reservedMessages then
    (.countCapacity, r)
  else if 0 < maxBytes ∧ maxBytes < r.queuedBytes + bytes then
    (.byteCapacity, (r.reserveCount maxMessages).rollbackCount maxMessages)
  else
    (.reserved,
      { r.reserveCount maxMessages with
        queuedBytes := r.queuedBytes + bytes })

def release (bytes : UInt64) : ReservationManager :=
  let counted := r.fetchSubMessages
  if 0 < bytes then counted.fetchSubBytes bytes else counted

/-- The ledger shows exactly `count` messages of `total` bytes and has never
been driven below zero. -/
structure Accounts (r : ReservationManager) (count total : Nat) : Prop where
  count_eq : r.reservedMessages.toNat = count
  total_eq : r.queuedBytes.toNat = total
  not_wrapped : r.wrapped = false

theorem accounts_fresh : Accounts {} 0 0 := ⟨rfl, rfl, rfl⟩

variable {maxMessages : UInt32} {r : ReservationManager}

theorem rollbackCount_reserveCount (r : ReservationManager)
    (hroom : ¬ (0 < maxMessages ∧ maxMessages ≤ r.reservedMessages)) :
    (r.reserveCount maxMessages).rollbackCount maxMessages = r := by
  unfold rollbackCount reserveCount
  split
  · rename_i hpos
    have hlimit := maxMessages.toNat_lt
    have hnext : ¬ r.reservedMessages + 1 < 1 := by
      simp only [hpos, true_and, UInt32.le_iff_toNat_le] at hroom
      rw [UInt32.lt_iff_toNat_lt, UInt32.toNat_add]
      simp only [UInt32.reduceToNat]
      omega
    cases r
    simp_all [fetchSubMessages]
  · rfl

/-- A refused reservation leaves the ledger as it was. -/
theorem tryReserve_refused {r' : ReservationManager} {bytes : UInt64}
    {maxBytes : UInt64} {result : ReservationResult}
    (hreserve : r.tryReserve bytes maxMessages maxBytes = (result, r'))
    (hrefused : result ≠ .reserved) : r' = r := by
  unfold tryReserve at hreserve
  split at hreserve
  · cases hreserve
    rfl
  · rename_i hroom
    split at hreserve
    · cases hreserve
      exact r.rollbackCount_reserveCount hroom
    · cases hreserve
      exact absurd rfl hrefused

theorem tryReserve_reserved {r' : ReservationManager} {count total bytes : Nat}
    {maxBytes : UInt64} (hacc : r.Accounts count total) (hpos : 0 < maxMessages)
    (hfits : total + bytes < 2 ^ 64)
    (hreserve : r.tryReserve (.ofNat bytes) maxMessages maxBytes =
      (.reserved, r')) : r'.Accounts (count + 1) (total + bytes) := by
  obtain ⟨hcount, htotal, hwrapped⟩ := hacc
  have hlimit := maxMessages.toNat_lt
  unfold tryReserve at hreserve
  split at hreserve
  · cases hreserve
  · rename_i hroom
    split at hreserve
    · cases hreserve
    · cases hreserve
      simp only [hpos, true_and, UInt32.le_iff_toNat_le] at hroom
      refine ⟨?_, ?_, ?_⟩
      · simp only [reserveCount, hpos, ↓reduceIte, UInt32.toNat_add, UInt32.reduceToNat]
        omega
      · simp only [UInt64.toNat_add, UInt64.toNat_ofNat']
        omega
      · simpa [reserveCount, hpos] using hwrapped

theorem release_accounts {count total bytes : Nat} (hacc : r.Accounts (count + 1) (total + bytes)) :
    (r.release (.ofNat bytes)).Accounts count total := by
  obtain ⟨hcount, htotal, hwrapped⟩ := hacc
  have hbytes : (UInt64.ofNat bytes).toNat = bytes := by
    have hqueued := r.queuedBytes.toNat_lt
    rw [UInt64.toNat_ofNat']
    omega
  have hmessages : 1 ≤ r.reservedMessages := by
    rw [UInt32.le_iff_toNat_le, hcount]
    simp
  have hqueue : UInt64.ofNat bytes ≤ r.queuedBytes := by
    rw [UInt64.le_iff_toNat_le, hbytes, htotal]
    omega
  have hcount' : (r.reservedMessages - 1).toNat = count := by
    rw [UInt32.toNat_sub_of_le _ _ hmessages, hcount]
    simp
  have hkeep : r.fetchSubMessages.wrapped = false := by
    simp only [fetchSubMessages, hwrapped, Bool.false_or]
    exact decide_eq_false (UInt32.not_lt.mpr hmessages)
  unfold release
  split
  · refine ⟨hcount', ?_, ?_⟩
    · simp only [fetchSubBytes, fetchSubMessages]
      rw [UInt64.toNat_sub_of_le _ _ hqueue, hbytes, htotal]
      omega
    · simp only [fetchSubBytes, hkeep, Bool.false_or]
      exact decide_eq_false (UInt64.not_lt.mpr hqueue)
  · rename_i hzero
    have hbytes0 : bytes = 0 := by
      rw [UInt64.lt_iff_toNat_lt, hbytes] at hzero
      simpa using hzero
    refine ⟨hcount', ?_, hkeep⟩
    simp only [fetchSubMessages, htotal, hbytes0]
    omega

end ReservationManager

abbrev kMaxUserLanes : Nat := 8

/-- A lane number: the system sentinel or one of the user lanes. -/
inductive LaneIdx where
  | system
  | user (lane : Fin kMaxUserLanes)

structure MultiLaneQueue (α : Type u) where
  systemLane : List α
  userLanes : Fin kMaxUserLanes → List α
  numUserLanes : Nat
  one_le : 1 ≤ numUserLanes
  le_max : numUserLanes ≤ kMaxUserLanes

namespace MultiLaneQueue

variable {α : Type u} (levels : UInt8) (q : MultiLaneQueue α)

/-- `set_num_user_lanes`: a count outside `1..8` falls back to one lane. -/
def clampLanes : Nat :=
  if 1 ≤ levels.toNat ∧ levels.toNat ≤ kMaxUserLanes then levels.toNat else 1

theorem clampLanes_bounds : 1 ≤ clampLanes levels ∧ clampLanes levels ≤ kMaxUserLanes := by
  unfold clampLanes
  split
  · assumption
  · exact ⟨Nat.le_refl 1, by decide⟩

def fresh : MultiLaneQueue α where
  systemLane := []
  userLanes := fun _ => []
  numUserLanes := clampLanes levels
  one_le := (clampLanes_bounds levels).1
  le_max := (clampLanes_bounds levels).2

def enqueue (node : α) : LaneIdx → MultiLaneQueue α
  | .system => { q with systemLane := q.systemLane ++ [node] }
  | .user lane =>
    { q with
      userLanes :=
        update q.userLanes lane (q.userLanes lane ++ [node]) }

/-- The user lanes in use, highest priority first. -/
def laneOrder : List (Fin kMaxUserLanes) :=
  (List.finRange kMaxUserLanes).take q.numUserLanes

/-- Take the oldest node of the first lane in `order` that has one. -/
def scan (lanes : Fin kMaxUserLanes → List α) :
    List (Fin kMaxUserLanes) → Option (α × (Fin kMaxUserLanes → List α))
  | [] => none
  | lane :: rest =>
    match lanes lane with
    | [] => scan lanes rest
    | node :: tail => some (node, update lanes lane tail)

def scanUser (order : List (Fin kMaxUserLanes)) : Option (α × MultiLaneQueue α) :=
  (scan q.userLanes order).map fun (node, lanes) =>
    (node, { q with userLanes := lanes })

def tryDropOldestUserLane : Option (α × MultiLaneQueue α) := q.scanUser q.laneOrder

def tryDropFromLowestUserLane : Option (α × MultiLaneQueue α) := q.scanUser q.laneOrder.reverse

def dequeue : Option (α × MultiLaneQueue α) :=
  match q.systemLane with
  | node :: tail => some (node, { q with systemLane := tail })
  | [] => q.scanUser q.laneOrder

def empty : Bool :=
  q.systemLane.isEmpty && q.laneOrder.all fun lane => (q.userLanes lane).isEmpty

def userDepth : Nat :=
  (q.laneOrder.map fun lane => (q.userLanes lane).length).sum

def totalDepth : Nat :=
  q.systemLane.length + q.userDepth

/-- The nodes in the user lanes, whatever their order. -/
def userContents : Multiset α :=
  ∑ lane, (q.userLanes lane : Multiset α)

def contents : Multiset α :=
  (q.systemLane : Multiset α) + q.userContents

@[simp] theorem userContents_fresh : (fresh levels : MultiLaneQueue α).userContents = 0 := by
  simp [fresh, userContents]

@[simp] theorem contents_fresh : (fresh levels : MultiLaneQueue α).contents = 0 := by
  rw [contents, userContents_fresh]
  rfl

theorem userContents_enqueue_user (node : α) (lane : Fin kMaxUserLanes) :
    (q.enqueue node (.user lane)).userContents = node ::ₘ q.userContents := by
  have hsum := Interleaving.sum_update ((↑) : List α → Multiset α) q.userLanes
    lane (q.userLanes lane ++ [node])
  rw [← coe_add, add_comm (q.userLanes lane : Multiset α), ← add_assoc] at hsum
  simpa [enqueue, userContents, add_comm] using add_right_cancel hsum

@[simp] theorem contents_enqueue (node : α)
    (lane : LaneIdx) : (q.enqueue node lane).contents = node ::ₘ q.contents := by
  cases lane with
  | system =>
    simp only [contents, enqueue, userContents, ← coe_add, coe_singleton]
    rw [add_right_comm, add_comm, singleton_add]
  | user lane =>
    rw [contents, userContents_enqueue_user, add_cons]
    rfl

variable {order : List (Fin kMaxUserLanes)} {node : α} {q q' : MultiLaneQueue α}

theorem scan_eq_some {lanes lanes' : Fin kMaxUserLanes → List α}
    (hscan : scan lanes order = some (node, lanes')) :
    ∃ lane tail, lane ∈ order ∧ lanes lane = node :: tail ∧ lanes' = update lanes lane tail := by
  induction order with
  | nil => simp [scan] at hscan
  | cons head rest ih =>
    unfold scan at hscan
    split at hscan
    · obtain ⟨lane, tail, hmem, hrest⟩ := ih hscan
      exact ⟨lane, tail, mem_cons_of_mem head hmem, hrest⟩
    · rename_i hhead
      cases hscan
      exact ⟨head, _, mem_cons_self, hhead, rfl⟩

theorem scanUser_userContents (hscan : q.scanUser order = some (node, q')) :
    q.userContents = node ::ₘ q'.userContents ∧ q'.systemLane = q.systemLane := by
  simp only [scanUser, Option.map_eq_some_iff, Prod.exists, Prod.mk.injEq] at hscan
  obtain ⟨_, lanes, hlanes, rfl, rfl⟩ := hscan
  obtain ⟨lane, tail, _, hlane, rfl⟩ := scan_eq_some hlanes
  refine ⟨?_, rfl⟩
  have hsum := Interleaving.sum_update ((↑) : List α → Multiset α) q.userLanes lane tail
  rw [hlane, ← cons_coe, add_cons, ← cons_add] at hsum
  exact (add_right_cancel hsum).symm

theorem scanUser_contents (hscan : q.scanUser order = some (node, q')) :
    q.contents = node ::ₘ q'.contents := by
  obtain ⟨huser, hsystem⟩ := scanUser_userContents hscan
  rw [contents, contents, huser, hsystem, add_cons]

/-- What a dequeue takes out of the lanes. -/
theorem dequeue_contents (hdeq : q.dequeue = some (node, q')) :
    q.contents = node ::ₘ q'.contents := by
  unfold dequeue at hdeq
  split at hdeq
  · rename_i hsystem
    cases hdeq
    rw [contents, contents, hsystem, ← cons_coe, cons_add]
    rfl
  · exact scanUser_contents hdeq

theorem mem_userContents_of_scanUser {other : α} (hscan : q.scanUser order = some (node, q'))
    (hmem : other ∈ q'.userContents) : other ∈ q.userContents := by
  rw [(scanUser_userContents hscan).1]
  exact mem_cons_of_mem hmem

theorem mem_userContents_of_dequeue {other : α}
    (hdeq : q.dequeue = some (node, q')) (hmem : other ∈ q'.userContents) :
    other ∈ q.userContents := by
  unfold dequeue at hdeq
  split at hdeq
  · cases hdeq
    exact hmem
  · exact mem_userContents_of_scanUser hdeq hmem

end MultiLaneQueue

/-- The spill queue; a zero `maxDepth` means no bound. -/
structure OverflowQueue (α : Type u) where
  queue : List α := []
  maxDepth : UInt32 := 0
  totalPushed : Nat := 0
  totalPopped : Nat := 0
  totalLost : Nat := 0

namespace OverflowQueue

variable {α : Type u}

/-- At its bound the queue loses its oldest element to the new one, so a push
never fails. -/
def tryPush (q : OverflowQueue α) (msg : α) : OverflowQueue α :=
  if 0 < q.maxDepth ∧ q.maxDepth.toNat ≤ q.queue.length ∧ q.queue ≠ [] then
    { q with
      queue := q.queue.tail ++ [msg]
      totalLost := q.totalLost + 1
      totalPushed := q.totalPushed + 1 }
  else
    { q with
      queue := q.queue ++ [msg]
      totalPushed := q.totalPushed + 1 }

/-- The state after a pop that found `rest` behind the front element. -/
def popTo (q : OverflowQueue α) (rest : List α) : OverflowQueue α :=
  { q with queue := rest, totalPopped := q.totalPopped + 1 }

theorem mem_tryPush {q : OverflowQueue α} {msg other : α}
    (hmem : other ∈ (q.tryPush msg).queue) : other = msg ∨ other ∈ q.queue := by
  unfold tryPush at hmem
  split at hmem
  · simp only [List.mem_append, List.mem_singleton] at hmem
    exact hmem.symm.imp_right List.mem_of_mem_tail
  · simp only [List.mem_append, List.mem_singleton] at hmem
    exact hmem.symm

end OverflowQueue

namespace PressureStateMachine

/-- `next_state`, with the thresholds in the order the source passes them. -/
def nextState (ratio : ℚ) (hardFailure : Bool)
    (high low critical : ℚ) (current : MailboxPressureState) :
    MailboxPressureState :=
  if hardFailure = true ∨ critical ≤ ratio then .hardPressure
  else
    match current with
    | .hardPressure | .recovering =>
      if ratio < low then .normal else .recovering
    | .normal | .softPressure =>
      if high ≤ ratio then .softPressure
      else if ratio < low then .normal
      else current

def codeAfterAccept : MailboxPressureState → EnqueueResultCode
  | .normal => .accepted
  | .softPressure | .hardPressure | .recovering => .acceptedWithSoftPressure

structure Update where
  ratio : ℚ
  hardFailure : Bool := false

section

variable (high low critical : ℚ)

def Severe (u : Update) : Prop := u.hardFailure = true ∨ critical ≤ u.ratio

def Release (u : Update) : Prop := u.hardFailure = false ∧ u.ratio < low

instance (u : Update) : Decidable (Severe critical u) := inferInstanceAs (Decidable (_ ∨ _))

instance (u : Update) : Decidable (Release low u) := inferInstanceAs (Decidable (_ ∧ _))

def updateAll (history : List Update) : MailboxPressureState :=
  history.foldl (fun state u => nextState u.ratio u.hardFailure high low critical state) .normal

/-- The updates since the last release or the start, latest first. -/
def sinceRelease (history : List Update) : List Update :=
  history.reverse.takeWhile fun u => ¬ Release low u

/-- The state that the history calls for. -/
def stateOf (history : List Update) : MailboxPressureState :=
  if ∃ u ∈ history.getLast?, Severe critical u then .hardPressure
  else if ∃ u ∈ sinceRelease low history, Severe critical u then .recovering
  else if ∃ u ∈ sinceRelease low history, high ≤ u.ratio then .softPressure
  else .normal

end

variable {high low critical : ℚ} {history : List Update} {u : Update}

theorem sinceRelease_concat : sinceRelease low (history ++ [u]) =
    if Release low u then [] else u :: sinceRelease low history := by
  rw [sinceRelease, reverse_append, reverse_singleton, singleton_append, takeWhile_cons]
  by_cases hrelease : Release low u <;> simp [hrelease, sinceRelease]

/-- A severe update at the end is no release. -/
theorem severe_since (hlow : low ≤ critical) (hlast : ∃ u ∈ history.getLast?, Severe critical u) :
    ∃ u ∈ sinceRelease low history, Severe critical u := by
  obtain ⟨u, hu, hsevere⟩ := hlast
  obtain ⟨front, rfl⟩ := getLast?_eq_some_iff.mp hu
  have hrelease : ¬ Release low u := by
    rintro ⟨hsoft, hbelow⟩
    rcases hsevere with hhard | habove
    · rw [hsoft] at hhard
      cases hhard
    · exact absurd (hlow.trans habove) (not_le.mpr hbelow)
  rw [sinceRelease_concat, if_neg hrelease]
  exact ⟨u, mem_cons_self, hsevere⟩

theorem stateOf_concat : stateOf high low critical (history ++ [u]) =
    if Severe critical u then .hardPressure
    else if Release low u then .normal
    else if ∃ v ∈ sinceRelease low history, Severe critical v then .recovering
    else if high ≤ u.ratio ∨ ∃ v ∈ sinceRelease low history, high ≤ v.ratio then .softPressure
    else .normal := by
  rw [stateOf, getLast?_concat, sinceRelease_concat]
  by_cases hsevere : Severe critical u
  · simp [hsevere]
  · by_cases hrelease : Release low u <;> simp [hsevere, hrelease]

theorem nextState_stateOf (hlow : low ≤ high) (hhigh : high ≤ critical) :
    nextState u.ratio u.hardFailure high low critical (stateOf high low critical history) =
      stateOf high low critical (history ++ [u]) := by
  rw [stateOf_concat]
  by_cases hsevere : Severe critical u
  · exact (if_pos hsevere).trans (if_pos hsevere).symm
  refine (if_neg hsevere).trans ?_
  rw [if_neg hsevere]
  obtain ⟨hsoft, -⟩ := not_or.mp hsevere
  by_cases hbelow : u.ratio < low
  · -- nothing before a release counts
    have hnot : ¬ high ≤ u.ratio := not_le.mpr (hbelow.trans_le hlow)
    rw [if_pos (show Release low u from ⟨by simpa using hsoft, hbelow⟩)]
    cases stateOf high low critical history <;> simp [hbelow, hnot]
  rw [if_neg fun hrelease : Release low u => hbelow hrelease.2, stateOf]
  by_cases hbefore : ∃ v ∈ sinceRelease low history, Severe critical v
  · rw [if_pos hbefore, if_pos hbefore]
    by_cases hlast : ∃ v ∈ history.getLast?, Severe critical v
    · rw [if_pos hlast]
      exact if_neg hbelow
    · rw [if_neg hlast]
      exact if_neg hbelow
  · have hlast := mt (severe_since (hlow.trans hhigh)) hbefore
    rw [if_neg hlast, if_neg hbefore, if_neg hbefore]
    by_cases hsince : ∃ v ∈ sinceRelease low history, high ≤ v.ratio <;> simp [hsince, hbelow]

/-- The state remembers what happened since the last release. -/
theorem updateAll_eq_stateOf (hlow : low ≤ high) (hhigh : high ≤ critical)
    (history : List Update) :
    updateAll high low critical history = stateOf high low critical history := by
  induction history using List.reverseRecOn with
  | nil => rfl
  | append_singleton history u ih =>
    rw [updateAll, List.foldl_append, ← updateAll, ih]
    exact nextState_stateOf hlow hhigh

theorem updateAll_recovers :
    updateAll (4 / 5) (1 / 2) 1 [⟨1, false⟩, ⟨3 / 4, false⟩] = .recovering :=
  (updateAll_eq_stateOf (by norm_num) (by norm_num) _).trans (by decide +kernel)

end PressureStateMachine

/-- What `evaluate` answers; the rejections are the match codes 1 and 2. -/
inductive RateVerdict where
  | accept
  | maxSendersExceeded
  | rateLimited

/-- The limiter is any one; `configured` is how a bucket starts. -/
structure PerSenderRatePolicy (L : Type) where
  maxSenders : UInt32
  configured : L
  tryConsume : L → Nat → Bool × L

namespace PerSenderRatePolicy

variable {L : Type} (p : PerSenderRatePolicy L) (buckets : List (UInt64 × L))

def consume (sender : UInt64) (limiter : L) (now : Nat) : RateVerdict × List (UInt64 × L) :=
  let (granted, limiter) := p.tryConsume limiter now
  (if granted then .accept else .rateLimited,
    buckets.map fun bucket => if bucket.1 = sender then (sender, limiter) else bucket)

/-- The first buckets of the map go, used or not.  The threshold is a product of
32 bits. -/
def maybePurgeStale : List (UInt64 × L) :=
  if (p.maxSenders * 2).toNat ≤ buckets.length then buckets.drop (max 1 (p.maxSenders.toNat / 4))
  else buckets

def evaluate (call : UInt64 × Nat) : RateVerdict × List (UInt64 × L) :=
  match buckets.lookup call.1 with
  | some limiter => p.consume buckets call.1 limiter call.2
  | none =>
    let kept := p.maybePurgeStale buckets
    if p.maxSenders.toNat ≤ kept.length then (.maxSendersExceeded, kept)
    else p.consume (kept ++ [(call.1, p.configured)]) call.1 p.configured call.2

def evaluateAll (calls : List (UInt64 × Nat)) : List (UInt64 × L) :=
  calls.foldl (fun buckets call => (p.evaluate buckets call).2) buckets

/-- The map is full and no purge will come. -/
def Closed : Prop :=
  buckets.length = p.maxSenders.toNat ∧ p.maxSenders.toNat < 2 ^ 31

variable {p buckets}

theorem consume_length {sender : UInt64} {limiter : L} {now : Nat} :
    (p.consume buckets sender limiter now).2.length = buckets.length :=
  length_map _

theorem maybePurgeStale_length_le : (p.maybePurgeStale buckets).length ≤ buckets.length := by
  rw [maybePurgeStale]
  split
  · exact (drop_sublist _ _).length_le
  · exact le_refl _

variable (hmax : 0 < p.maxSenders.toNat)
include hmax

section

variable (hsize : buckets.length ≤ p.maxSenders.toNat)
include hsize

/-- Below `2 ^ 31` senders the threshold is twice their number, above it is less
than their number. -/
theorem le_length_maybePurgeStale_iff :
    p.maxSenders.toNat ≤ (p.maybePurgeStale buckets).length ↔ p.Closed buckets := by
  have hlt : p.maxSenders.toNat < 2 ^ 32 := p.maxSenders.toNat_lt
  have hthreshold : (p.maxSenders * 2).toNat = p.maxSenders.toNat * 2 % 2 ^ 32 :=
    UInt32.toNat_mul _ _
  rw [maybePurgeStale, hthreshold, Closed]
  split
  · rw [length_drop]
    omega
  · omega

theorem evaluate_keeps (call : UInt64 × Nat) :
    (p.evaluate buckets call).2.length ≤ p.maxSenders.toNat ∧
      (p.Closed buckets → p.Closed (p.evaluate buckets call).2) := by
  have hkept := (@maybePurgeStale_length_le L p buckets).trans hsize
  simp only [evaluate]
  split
  · rw [Closed, Closed, consume_length]
    exact ⟨hsize, id⟩
  · split
    · next hle => exact ⟨hkept, fun h => ⟨hkept.antisymm hle, h.2⟩⟩
    · next hlt =>
        rw [consume_length, length_append]
        have hopen := mt (le_length_maybePurgeStale_iff hmax hsize).mpr hlt
        exact ⟨Nat.lt_of_not_le hlt, fun h => absurd h hopen⟩

end

theorem evaluateAll_keeps {calls : List (UInt64 × Nat)}
    (hsize : buckets.length ≤ p.maxSenders.toNat) :
    (p.evaluateAll buckets calls).length ≤ p.maxSenders.toNat ∧
      (p.Closed buckets → p.Closed (p.evaluateAll buckets calls)) := by
  induction calls generalizing buckets with
  | nil => exact ⟨hsize, id⟩
  | cons call rest ih =>
    obtain ⟨hfirst, hclosed⟩ := evaluate_keeps hmax hsize call
    exact (ih hfirst).imp_right fun h hbefore => h (hclosed hbefore)

/-- There are never more than `max_senders` buckets, and a map with that many is
closed to new senders for good, unless doubling the bound wraps. -/
theorem new_sender_refused_iff (calls : List (UInt64 × Nat)) :
    let reached := p.evaluateAll [] calls
    reached.length ≤ p.maxSenders.toNat ∧
    (∀ call, reached.lookup call.1 = none →
      ((p.evaluate reached call).1 = .maxSendersExceeded ↔ p.Closed reached)) ∧
    (p.Closed reached → ∀ later, p.Closed (p.evaluateAll reached later)) := by
  intro reached
  have hsize : reached.length ≤ p.maxSenders.toNat := (evaluateAll_keeps hmax (Nat.zero_le _)).1
  refine ⟨hsize, fun call hnew => ?_, fun h later => (evaluateAll_keeps hmax hsize).2 h⟩
  rw [← le_length_maybePurgeStale_iff hmax hsize]
  simp only [evaluate, hnew]
  split
  · next hle => exact iff_of_true rfl hle
  · next hlt =>
      refine iff_of_false (fun h => ?_) hlt
      simp only [consume] at h
      split at h <;> cases h

omit hmax

/-- One sender at most, and a limiter that always grants. -/
def single : PerSenderRatePolicy Unit :=
  ⟨1, (), fun _ _ => (true, ())⟩

theorem single_closes : single.Closed (single.evaluateAll [] [(1, 0)]) ∧
    ∀ later, single.Closed (single.evaluateAll (single.evaluateAll [] [(1, 0)]) later) :=
  ⟨⟨rfl, by decide⟩, (new_sender_refused_iff (by decide) [(1, 0)]).2.2 ⟨rfl, by decide⟩⟩

theorem single_refuses_idle_hour :
    (single.evaluate (single.evaluateAll [] [(1, 0)]) (2, 3600000000000)).1 =
      .maxSendersExceeded :=
  rfl

end PerSenderRatePolicy

end HPActor
