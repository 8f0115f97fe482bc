/-
The ledger of a fixed mailbox.  Every call keeps the number of reservations
equal to the number of user messages in the rings, with one exception: the
immediate drain empties the rings and leaves the reservations behind.
-/
import HPActor.DisruptorMailbox
import HPActor.RingBooks

namespace HPActor

open Function Option UInt64 ReservationManager Runs Finset

universe u

/-- The ledger stands at `count` reservations of `bytes` each; both counters are
words and may have wrapped. -/
structure Ledger (bytes : UInt64) (r : ReservationManager) (count : Nat) : Prop where
  messages : r.reservedMessages = UInt32.ofNat count
  queued : r.queuedBytes = UInt64.ofNat count * bytes

namespace Ledger

variable {bytes maxBytes : UInt64} {maxMessages : UInt32} {r r' : ReservationManager} {count : Nat}

theorem queued_next (bytes : UInt64) (count : Nat) :
    UInt64.ofNat (count + 1) * bytes = UInt64.ofNat count * bytes + bytes := by
  rw [UInt64.ofNat_add, UInt64.add_mul]
  exact congrArg _ (UInt64.one_mul bytes)

theorem toNat_messages (hl : Ledger bytes r count)
    (hle : count ≤ maxMessages.toNat) : r.reservedMessages.toNat = count := by
  have hlimit := maxMessages.toNat_lt
  rw [hl.messages, UInt32.toNat_ofNat']
  omega

theorem reserve (hl : Ledger bytes r count) (hle : count ≤ maxMessages.toNat)
    (hpos : 0 < maxMessages)
    (hreserve : r.tryReserve bytes maxMessages maxBytes = (.reserved, r')) :
    count < maxMessages.toNat ∧ Ledger bytes r' (count + 1) := by
  unfold tryReserve at hreserve
  split at hreserve
  · cases hreserve
  · rename_i hroom
    split at hreserve
    · cases hreserve
    · cases hreserve
      simp only [hpos, true_and, UInt32.le_iff_toNat_le, hl.toNat_messages hle] at hroom
      refine ⟨Nat.lt_of_not_le hroom, ?_, ?_⟩
      · simp only [reserveCount, if_pos hpos, hl.messages]
        exact (UInt32.ofNat_add count 1).symm
      · simp only [hl.queued, queued_next]

theorem reserve_room (hl : Ledger bytes r count) (hle : count < maxMessages.toNat)
    (hbytes : maxBytes = 0 ∨ (count + 1) * bytes.toNat ≤ maxBytes.toNat) :
    (r.tryReserve bytes maxMessages maxBytes).1 = .reserved := by
  have hmessages := hl.toNat_messages hle.le
  rw [tryReserve, if_neg, if_neg]
  · rw [not_and, UInt64.lt_iff_toNat_lt, UInt64.lt_iff_toNat_lt, hl.queued,
      ← queued_next, UInt64.toNat_mul, UInt64.toNat_ofNat', Nat.mod_mul_mod]
    intro hsome
    rcases hbytes with rfl | hfits
    · exact absurd hsome (Nat.lt_irrefl _)
    · exact Nat.not_lt_of_le ((Nat.mod_le _ _).trans hfits)
  · rw [not_and, UInt32.le_iff_toNat_le, hmessages]
    exact fun _ => Nat.not_le_of_lt hle

theorem release (hl : Ledger bytes r (count + 1)) : Ledger bytes (r.release bytes) count := by
  have hmessages : r.reservedMessages - 1 = UInt32.ofNat count := by
    rw [hl.messages, UInt32.ofNat_add]
    exact UInt32.add_sub_cancel _ _
  have hqueued : r.queuedBytes - bytes = UInt64.ofNat count * bytes := by
    rw [hl.queued, queued_next]
    exact UInt64.add_sub_cancel _ _
  unfold ReservationManager.release
  split
  · exact ⟨hmessages, hqueued⟩
  · rename_i hzero
    have hnone : bytes = 0 := by
      rw [UInt64.lt_iff_toNat_lt] at hzero
      exact UInt64.toNat_inj.mp (Nat.eq_zero_of_not_pos hzero)
    refine ⟨hmessages, ?_⟩
    rw [← hqueued, hnone]
    exact (UInt64.sub_zero _).symm

end Ledger

namespace DisruptorMailbox

open DisruptorMpscRing

variable {M : Type u} {s : DisruptorSetup} {mb mb' : DisruptorMailbox M}
  {counts : Fin kMaxPriorityLanes → Nat}
  {leased : Fin kMaxPriorityLanes → Set Nat} {held : Nat} {accepting : Bool}

/-- What the accounts of a mailbox are about. -/
structure Accounts (M : Type u) where
  userRings : Fin kMaxPriorityLanes → DisruptorMpscRing (DisruptorMessageEnvelope M)
  reservation : ReservationManager
  acceptingUser : Bool

def accounts (mb : DisruptorMailbox M) : Accounts M :=
  ⟨mb.userRings, mb.reservation, mb.acceptingUser⟩

theorem signalWork_accounts (mb : DisruptorMailbox M) :
    (mb.signalWork s).accounts = mb.accounts := by
  rw [signalWork]
  split
  · rfl
  · rfl

/-- Each ring holds its count, and the ledger shows the counts together with
`held` reservations of a call in progress. -/
structure Counted (s : DisruptorSetup) (a : Accounts M) (counts : Fin kMaxPriorityLanes → Nat)
    (leased : Fin kMaxPriorityLanes → Set Nat) (held : Nat) (accepting : Bool) : Prop where
  rings : ∀ lane, Holds s.cap (a.userRings lane) (counts lane) (leased lane)
  ledger : Ledger s.envelopeBytes a.reservation (∑ lane, counts lane + held)
  le : ∑ lane, counts lane + held ≤ s.config.capacity.maxMessages.toNat
  unused : ∀ lane, lane ∉ s.laneOrder → counts lane = 0
  accepts : a.acceptingUser = accepting

/-- Between calls nothing is leased and no reservation is in hand. -/
def Settled (s : DisruptorSetup) (mb : DisruptorMailbox M) (accepting : Bool) : Prop :=
  ∃ counts, Counted s mb.accounts counts (fun _ => ∅) 0 accepting

theorem settled_start (s : DisruptorSetup) : Settled s ({} : DisruptorMailbox M) true :=
  ⟨fun _ => 0,
    { rings := fun _ => holds_start s.cap
      ledger := ⟨by simp [accounts], by simp [accounts]⟩
      le := by simp
      unused := fun _ _ => rfl
      accepts := rfl }⟩

theorem update_free (lane : Fin kMaxPriorityLanes) :
    update (fun _ => ∅) lane ∅ = (fun _ => ∅ : Fin kMaxPriorityLanes → Set Nat) :=
  update_eq_self lane _

namespace Counted

theorem userMessages_eq (hc : Counted s mb.accounts counts leased held accepting) :
    mb.userMessages = ∑ lane, counts lane :=
  sum_congr rfl fun lane _ => (hc.rings lane).publishedDepth_eq

theorem setRing (hc : Counted s mb.accounts counts leased held accepting)
    (lane : Fin kMaxPriorityLanes) (held' : Nat)
    {ring : DisruptorMpscRing (DisruptorMessageEnvelope M)} {n : Nat} {tickets : Set Nat}
    (hring : Holds s.cap ring n tickets) (hn : n + held' = counts lane + held)
    (hlane : lane ∈ s.laneOrder ∨ n ≤ counts lane) :
    Counted s (mb.setRing lane ring).accounts (update counts lane n)
      (update leased lane tickets) held' accepting := by
  have hsum := Interleaving.sum_update id counts lane n
  simp only [id] at hsum
  have htotal : ∑ u, update counts lane n u + held' = ∑ u, counts u + held := by omega
  exact
    { rings := by
        intro other
        simp only [accounts, DisruptorMailbox.setRing]
        by_cases hother : other = lane
        · subst hother
          simp only [update_self]
          exact hring
        · simp only [update_of_ne hother]
          exact hc.rings other
      ledger := by rw [htotal]; exact hc.ledger
      le := htotal.trans_le hc.le
      unused := by
        intro other hother
        by_cases heq : other = lane
        · subst heq
          have hless := hlane.resolve_left hother
          rw [hc.unused other hother] at hless
          rw [update_self]
          exact Nat.le_zero.mp hless
        · rw [update_of_ne heq]
          exact hc.unused other hother
      accepts := hc.accepts }

theorem release (hc : Counted s mb.accounts counts leased (held + 1) accepting) :
    Counted s (mb.release s).accounts counts leased held accepting where
  rings := hc.rings
  ledger := hc.ledger.release
  le := (Nat.le_succ _).trans hc.le
  unused := hc.unused
  accepts := hc.accepts

theorem tryReserve (hc : Counted s mb.accounts counts leased held accepting) :
    (mb.tryReserve s).1 = .reserved ∧
        Counted s (mb.tryReserve s).2.accounts counts leased (held + 1) accepting ∨
      (mb.tryReserve s).1 ≠ .reserved ∧
        Counted s (mb.tryReserve s).2.accounts counts leased held accepting := by
  rcases hreserve : mb.reservation.tryReserve s.envelopeBytes
    s.config.capacity.maxMessages s.config.capacity.maxBytes with
    ⟨result, reservation⟩
  simp only [DisruptorMailbox.tryReserve, hreserve]
  by_cases hresult : result = .reserved
  · subst hresult
    obtain ⟨hlt, hledger⟩ := hc.ledger.reserve hc.le s.limit_pos hreserve
    exact .inl ⟨rfl, hc.rings, hledger, hlt, hc.unused, hc.accepts⟩
  · rw [tryReserve_refused hreserve hresult]
    exact .inr ⟨hresult, hc⟩

/-- A publication uses up a reservation, or it changes nothing. -/
theorem publish (hc : Counted s mb.accounts counts leased (held + 1) accepting)
    (envelope : DisruptorMessageEnvelope M) :
    (mb.publish s envelope).2.code = .published ∧
        (∃ counts', Counted s (mb.publish s envelope).1.accounts counts' leased held
          accepting ∧ ∑ lane, counts' lane = ∑ lane, counts lane + 1) ∨
      (mb.publish s envelope).2.code ≠ .published ∧
        Counted s (mb.publish s envelope).1.accounts counts leased (held + 1) accepting := by
  have hring := hc.rings (s.ringFor envelope.metadata.priority)
  rcases hring.publish envelope with ⟨hcode, hnext⟩ | ⟨hcode, hsame⟩
  · have hset := hc.setRing (s.ringFor envelope.metadata.priority) held hnext
      (by omega) (.inl (s.ringFor_mem _))
    rw [update_eq_self] at hset
    have hsum := Interleaving.sum_update id counts (s.ringFor envelope.metadata.priority)
      (counts (s.ringFor envelope.metadata.priority) + 1)
    simp only [id] at hsum
    exact .inl ⟨hcode, _, hset, by omega⟩
  · refine .inr ⟨ne_of_eq_of_ne hcode (by decide), ?_⟩
    simp only [accounts] at hsame
    simp only [DisruptorMailbox.publish, DisruptorMailbox.setRing, hsame, update_eq_self]
    exact hc

theorem publishReserved_published (hc : Counted s mb.accounts counts leased 1 accepting)
    {envelope : DisruptorMessageEnvelope M} (hcode : (mb.publish s envelope).2.code = .published) :
    ∃ counts', Counted s (mb.publishReserved s envelope).1.accounts counts' leased 0
      accepting ∧ ∑ lane, counts' lane = ∑ lane, counts lane + 1 := by
  rcases hc.publish envelope with ⟨-, counts', hnext, hsum⟩ | ⟨hfull, -⟩
  · refine ⟨counts', ?_, hsum⟩
    simp only [publishReserved, if_pos hcode]
    exact (signalWork_accounts _).symm ▸ hnext
  · exact absurd hcode hfull

/-- A push that holds a reservation ends with a message in the rings or without
the reservation. -/
theorem publishReserved (hc : Counted s mb.accounts counts leased 1 accepting)
    (envelope : DisruptorMessageEnvelope M) :
    ∃ counts', Counted s (mb.publishReserved s envelope).1.accounts counts' leased 0 accepting := by
  rcases hc.publish envelope with ⟨hcode, -⟩ | ⟨hcode, hnext⟩
  · obtain ⟨counts', hnext, -⟩ := hc.publishReserved_published hcode
    exact ⟨counts', hnext⟩
  · refine ⟨counts, ?_⟩
    simp only [DisruptorMailbox.publishReserved, if_neg hcode]
    exact hnext.release

/-- A lane has nothing to acquire, or one of its messages is leased. -/
theorem acquire (hc : Counted s mb.accounts counts (fun _ => ∅) 0 accepting)
    (lane : Fin kMaxPriorityLanes) :
    (((mb.userRings lane).tryAcquire s.cap).2 = none ∧
        Counted s (mb.setRing lane ((mb.userRings lane).tryAcquire s.cap).1).accounts
          counts (fun _ => ∅) 0 accepting) ∨
      ∃ k n, counts lane = n + 1 ∧
        ((mb.userRings lane).tryAcquire s.cap).2 = some (ofNat k) ∧
        Holds s.cap ((mb.userRings lane).tryAcquire s.cap).1 n {k} := by
  have hring := hc.rings lane
  cases hcount : counts lane with
  | zero =>
    rw [hcount] at hring
    obtain ⟨hnone, hnext⟩ := hring.acquire_none
    have hset := hc.setRing lane 0 (n := counts lane)
      (by rw [hcount]; exact hnext) rfl (.inr (Nat.le_refl _))
    rw [update_eq_self, update_free] at hset
    exact .inl ⟨hnone, hset⟩
  | succ n =>
    rw [hcount] at hring
    obtain ⟨k, hsome, hnext⟩ := hring.acquire_some
    exact .inr ⟨k, n, rfl, hsome, hnext⟩

/-- The ring of the only lease gets its slot back. -/
theorem giveBack {lane : Fin kMaxPriorityLanes} {k : Nat}
    (hc : Counted s mb.accounts counts (update (fun _ => ∅) lane {k}) held accepting) :
    Counted s (mb.setRing lane ((mb.userRings lane).releaseSlot s.cap
      (ofNat k))).accounts counts (fun _ => ∅) held accepting := by
  have hring := hc.rings lane
  rw [update_self] at hring
  have hset := hc.setRing lane held hring.release rfl (.inr (Nat.le_refl _))
  rwa [update_eq_self, update_idem, update_free] at hset

theorem drainLoop {queue : List (DisruptorMessageEnvelope M)}
    (hc : Counted s mb.accounts counts leased 0 accepting) :
    ∃ counts', Counted s (DisruptorMailbox.drainLoop s mb queue).accounts counts' leased 0
      accepting := by
  induction queue generalizing mb counts with
  | nil => exact ⟨counts, hc⟩
  | cons envelope rest ih =>
    rcases hreserve : DisruptorMailbox.tryReserve s
      { mb with overflow := mb.overflow.popTo rest } with ⟨result, reserved⟩
    have htry := @Counted.tryReserve _ _ { mb with overflow := mb.overflow.popTo rest } _ _ _ _ hc
    rw [hreserve] at htry
    rw [DisruptorMailbox.drainLoop, hreserve]
    rcases htry with ⟨rfl, hheld⟩ | ⟨hrefused, hkept⟩
    · rcases hheld.publish envelope with ⟨hcode, counts', hnext, -⟩ | ⟨hcode, hnext⟩
      · simp only [if_pos hcode]
        exact ih hnext
      · simp only [if_neg hcode]
        exact ⟨counts, hnext.release⟩
    · refine ⟨counts, ?_⟩
      cases result with
      | reserved => exact absurd rfl hrefused
      | countCapacity | byteCapacity => exact hkept

theorem drainOverflow (hc : Counted s mb.accounts counts leased 0 accepting) :
    ∃ counts', Counted s (mb.drainOverflow s).accounts counts' leased 0 accepting := by
  rw [DisruptorMailbox.drainOverflow]
  split
  · exact hc.drainLoop
  · exact ⟨counts, hc⟩

end Counted

theorem dropFirst_settled (order : List (Fin kMaxPriorityLanes)) (hs : Settled s mb accepting) :
    Settled s (dropFirst s order mb).2 accepting := by
  induction order generalizing mb with
  | nil => exact hs
  | cons lane rest ih =>
    obtain ⟨counts, hc⟩ := hs
    rcases hc.acquire lane with ⟨hnone, hnext⟩ | ⟨k, n, hcount, hsome, hring⟩
    · simp only [dropFirst, hnone]
      exact ih ⟨counts, hnext⟩
    · have hheld := hc.setRing lane 1 hring.release (by omega) (.inr (by omega))
      rw [update_free] at hheld
      simp only [dropFirst, hsome]
      exact ⟨_, hheld.release⟩

/-- The reservation goes first, then the overflow queue is drained, and the slot
is given back last. -/
theorem dispatch_settled {lane : Fin kMaxPriorityLanes} {k : Nat}
    (hc : Counted s mb.accounts counts (update (fun _ => ∅) lane {k}) 1 accepting) :
    Settled s (mb.dispatch s lane (ofNat k)) accepting := by
  have hhandled : Counted s (if s.target then { mb with
      userHandled := mb.userHandled ++ [((mb.userRings lane).slotAt s.cap
        (ofNat k)).value] } else mb).accounts counts
      (update (fun _ => ∅) lane {k}) 1 accepting := by
    split
    · exact hc
    · exact hc
  obtain ⟨counts', hdrained⟩ := hhandled.release.drainOverflow
  exact ⟨counts', hdrained.giveBack⟩

theorem recheck_settled (hs : Settled s mb accepting) : Settled s (mb.recheck s) accepting := by
  obtain ⟨counts, hc⟩ := hs
  refine ⟨counts, ?_⟩
  rw [recheck]
  split
  · rw [signalWork_accounts]
    exact hc
  · exact hc

theorem consumeLanes_settled (order : List (Fin kMaxPriorityLanes)) (hs : Settled s mb accepting) :
    Settled s (consumeLanes s order mb).1 accepting := by
  induction order generalizing mb with
  | nil => exact recheck_settled hs
  | cons lane rest ih =>
    obtain ⟨counts, hc⟩ := hs
    rcases hc.acquire lane with ⟨hnone, hnext⟩ | ⟨k, n, hcount, hsome, hring⟩
    · simp only [consumeLanes, hnone]
      exact ih ⟨counts, hnext⟩
    · simp only [consumeLanes, hsome]
      exact dispatch_settled (hc.setRing lane 1 hring (by omega) (.inr (by omega)))

theorem consumeOne_settled (hs : Settled s mb accepting) :
    Settled s (mb.consumeOne s).1 accepting := by
  have hsystem : ∀ {mb' : DisruptorMailbox M} (msg : TypedMessage),
      Settled s mb' accepting → Settled s (mb'.handleSystem s msg) accepting := by
    intro mb' msg hs
    rw [handleSystem]
    split
    · exact hs
    · exact hs
  rw [consumeOne]
  split
  · exact hsystem _ hs
  · split
    · exact hsystem _ hs
    · exact consumeLanes_settled _ hs

variable {refusal : ReservationResult} {envelope : DisruptorMessageEnvelope M}

theorem evictOverflow_settled {evicted : Bool × DisruptorMailbox M}
    (hs : Settled s evicted.2 accepting) :
    Settled s (evictOverflow s mb refusal evicted).1 accepting := by
  rw [evictOverflow]
  split
  · exact hs
  · exact hs

section

variable (hs : Settled s mb accepting)
include hs

theorem handleOverflow_settled {handled : DisruptorMailbox M × EnqueueResult}
    (hhandle : mb.handleOverflow s envelope refusal = some handled) :
    Settled s handled.1 accepting := by
  cases hpolicy : s.config.overflowPolicy with
  | rejectNewest | signalOnly | dropNewest | deadLetter
  | spillToOverflowQueue =>
    rw [handleOverflow, hpolicy] at hhandle
    rw [← some.inj hhandle]
    exact hs
  | dropOldest | dropLowestPriority =>
    rw [handleOverflow, hpolicy] at hhandle
    rw [← some.inj hhandle]
    exact evictOverflow_settled (dropFirst_settled _ hs)
  | blockWhenAllowed =>
    rw [handleOverflow, hpolicy] at hhandle
    cases hhandle

theorem finishOverflow_settled (result : EnqueueResult) (metadata : DisruptorEnvelopeMeta) :
    Settled s (mb.finishOverflow result metadata).1 accepting := by
  rw [finishOverflow]
  split
  · exact hs
  · exact hs

theorem retryEvicted_settled (envelope : DisruptorMessageEnvelope M) (result : EnqueueResult) :
    Settled s (mb.retryEvicted s envelope result).1 accepting := by
  obtain ⟨counts, hc⟩ := hs
  have htry := hc.tryReserve
  rcases hreserve : mb.tryReserve s with ⟨outcome, reserved⟩
  rw [hreserve] at htry
  rw [retryEvicted, hreserve]
  rcases htry with ⟨rfl, hheld⟩ | ⟨hrefused, hkept⟩
  · exact hheld.publishReserved envelope
  · have hrejected : Settled s (updatePressure s { reserved with
        totalRejected := reserved.totalRejected + 1 } true) accepting :=
      ⟨counts, hkept⟩
    cases outcome with
    | reserved => exact absurd rfl hrefused
    | countCapacity | byteCapacity =>
      exact finishOverflow_settled hrejected _ _

variable {outcome : DisruptorMailbox M × EnqueueResult}

theorem pushOverflow_settled (hpush : mb.pushOverflow s envelope refusal = some outcome) :
    Settled s outcome.1 accepting := by
  have hpressed : Settled s (mb.updatePressure s true) accepting := hs
  obtain ⟨handled, hhandle, hfinish⟩ := map_eq_some_iff.mp hpush
  have hhandled := handleOverflow_settled hpressed hhandle
  rw [← hfinish]
  simp only
  split
  · exact retryEvicted_settled hhandled _ _
  · exact finishOverflow_settled hhandled _ _

theorem tryPushUser_settled {push : Push M} (hpush : mb.tryPushUser s push = some outcome) :
    Settled s outcome.1 accepting := by
  have hreject : ∀ reason, Settled s (mb.reject s reason push.metadata).1 accepting := fun _ => hs
  rw [tryPushUser] at hpush
  split at hpush
  · cases hpush
    exact hreject _
  · split at hpush
    · cases hpush
      exact hreject _
    · split at hpush
      · cases hpush
        exact hreject _
      · obtain ⟨counts, hc⟩ := hs
        have htry := hc.tryReserve
        rcases hreserve : mb.tryReserve s with ⟨result, reserved⟩
        rw [hreserve] at htry hpush
        rcases htry with ⟨rfl, hheld⟩ | ⟨hrefused, hkept⟩
        · cases hpush
          exact hheld.publishReserved _
        · cases result with
          | reserved => exact absurd rfl hrefused
          | countCapacity | byteCapacity =>
            exact pushOverflow_settled ⟨counts, hkept⟩ hpush

end

theorem drainRing_holds {cap : RingCapacity} {ring : DisruptorMpscRing (DisruptorMessageEnvelope M)}
    {n rounds : Nat} (hh : Holds cap ring n ∅) (hrounds : n < rounds) :
    Holds cap (drainRing cap rounds ring) 0 ∅ := by
  induction rounds generalizing ring n with
  | zero => exact absurd hrounds (Nat.not_lt_zero n)
  | succ rounds ih =>
    cases n with
    | zero =>
      obtain ⟨hnone, hnext⟩ := hh.acquire_none
      rcases hacquire : ring.tryAcquire cap with ⟨after, lease⟩
      rw [hacquire] at hnone hnext
      subst hnone
      rw [drainRing, hacquire]
      exact hnext
    | succ n =>
      obtain ⟨k, hsome, hnext⟩ := hh.acquire_some
      rcases hacquire : ring.tryAcquire cap with ⟨after, lease⟩
      rw [hacquire] at hsome hnext
      subst hsome
      rw [drainRing, hacquire]
      exact ih hnext.release (Nat.lt_of_succ_lt_succ hrounds)

/-- Lanes that are drained hold nothing, and the others what they held. -/
theorem foldl_drainRings_holds (order : List (Fin kMaxPriorityLanes))
    (hrings : ∀ lane, Holds s.cap (mb.userRings lane) (counts lane) ∅)
    (lane : Fin kMaxPriorityLanes) :
    Holds s.cap ((order.foldl (drainRings s) mb).userRings lane)
      (if lane ∈ order then 0 else counts lane) ∅ := by
  induction order generalizing mb counts with
  | nil =>
    rw [if_neg List.not_mem_nil]
    exact hrings lane
  | cons first rest ih =>
    have hdrained : ∀ other, Holds s.cap ((mb.drainRings s first).userRings other)
        (update counts first 0 other) ∅ := by
      intro other
      simp only [drainRings, setRing]
      by_cases heq : other = first
      · subst heq
        rw [update_self, update_self]
        exact drainRing_holds (hrings other) (Nat.lt_succ_of_le (hrings other).le_size)
      · rw [update_of_ne heq, update_of_ne heq]
        exact hrings other
    have hall := ih hdrained
    by_cases heq : lane = first
    · subst heq
      rw [update_self, ite_self] at hall
      rw [if_pos List.mem_cons_self]
      exact hall
    · rw [update_of_ne heq] at hall
      simpa [heq] using hall

theorem drainAllNow_reservation (s : DisruptorSetup) (mb : DisruptorMailbox M) :
    (mb.drainAllNow s).reservation = mb.reservation :=
  foldl_keeps reservation (drainRings s) (fun _ _ => rfl) s.laneOrder mb.beginDrain

theorem drainAllNow_accepting (s : DisruptorSetup)
    (mb : DisruptorMailbox M) : (mb.drainAllNow s).acceptingUser = false :=
  foldl_keeps acceptingUser (drainRings s) (fun _ _ => rfl) s.laneOrder mb.beginDrain

/-- The immediate drain empties every ring. -/
theorem Counted.drainAllNow_holds (hc : Counted s mb.accounts counts (fun _ => ∅) 0 accepting)
    (lane : Fin kMaxPriorityLanes) :
    Holds s.cap ((mb.drainAllNow s).userRings lane) 0 ∅ := by
  have hbegun : ∀ lane, Holds s.cap (mb.beginDrain.userRings lane) (counts lane) ∅ := hc.rings
  have hlane := foldl_drainRings_holds s.laneOrder hbegun lane
  by_cases hused : lane ∈ s.laneOrder
  · rw [if_pos hused] at hlane
    exact hlane
  · rw [if_neg hused, hc.unused lane hused] at hlane
    exact hlane

section

variable (hs : Settled s mb accepting)
include hs

theorem drainAllNow_userMessages : (mb.drainAllNow s).userMessages = 0 := by
  obtain ⟨counts, hc⟩ := hs
  refine sum_eq_zero fun lane _ => ?_
  exact (hc.drainAllNow_holds lane).publishedDepth_eq

theorem Settled.reserved_eq : mb.reservation.reservedMessages.toNat = mb.userMessages := by
  obtain ⟨counts, hc⟩ := hs
  exact (hc.ledger.toNat_messages hc.le).trans hc.userMessages_eq.symm

theorem drainAllNow_settled
    (hempty : mb.userMessages = 0) : Settled s (mb.drainAllNow s) false := by
  obtain ⟨counts, hc⟩ := hs
  have hnone : ∑ lane, counts lane = 0 := hc.userMessages_eq.symm.trans hempty
  have hledger := hc.ledger
  rw [hnone] at hledger
  exact ⟨fun _ => 0,
    { rings := hc.drainAllNow_holds
      ledger := by
        simp only [accounts, drainAllNow_reservation, sum_const_zero]
        exact hledger
      le := by simp
      unused := fun _ _ => rfl
      accepts := drainAllNow_accepting s mb }⟩

end

theorem step_settled {call : Call M} (hs : Settled s mb accepting)
    (hcall : call ≠ .drainAllNow) (hstep : mb.step s call = some mb') :
    Settled s mb' accepting := by
  cases call with
  | tryPushUser push =>
    obtain ⟨outcome, hpush, rfl⟩ := map_eq_some_iff.mp hstep
    exact tryPushUser_settled hs hpush
  | tryPushControl msg | tryPushDynamic msg =>
    cases hstep
    obtain ⟨counts, hc⟩ := hs
    first | rw [tryPushControl] | rw [tryPushDynamic]
    split
    · exact ⟨counts, hc⟩
    · exact ⟨counts, (signalWork_accounts _).symm ▸ hc⟩
  | consumeOne =>
    cases hstep
    exact consumeOne_settled hs
  | dropOneOldestRing | dropOneLowestPriorityRing =>
    cases hstep
    exact dropFirst_settled _ hs
  | drainOverflow =>
    cases hstep
    obtain ⟨counts, hc⟩ := hs
    exact hc.drainOverflow
  | drainAllNow => exact absurd rfl hcall

/-- The immediate drain is called on empty rings only. -/
def DrainsNothing (mb : DisruptorMailbox M) : Call M → Prop
  | .drainAllNow => mb.userMessages = 0
  | _ => True

instance (mb : DisruptorMailbox M) : (call : Call M) → Decidable (mb.DrainsNothing call) := by
  intro call
  unfold DrainsNothing
  split <;> infer_instance

theorem run_settled {calls : List (Call M)}
    (hdrains : Runs.EachStep (step s) DrainsNothing {} calls)
    (hrun : run (step s) {} calls = some mb) :
    ∃ accepting, Settled s mb accepting := by
  have hkeep : ∀ (mb : DisruptorMailbox M) call mb',
      (∃ accepting, Settled s mb accepting) → mb.DrainsNothing call →
        mb.step s call = some mb' → ∃ accepting, Settled s mb' accepting := by
    rintro mb call mb' ⟨accepting, hs⟩ hdrain hstep
    by_cases hcall : call = .drainAllNow
    · subst hcall
      cases hstep
      exact ⟨false, drainAllNow_settled hs hdrain⟩
    · exact ⟨accepting, step_settled hs hcall hstep⟩
  exact run_invariant hkeep ⟨true, settled_start s⟩ hdrains hrun

theorem run_accepting {calls : List (Call M)} (hcalls : ∀ call ∈ calls, call ≠ .drainAllNow)
    (hrun : run (step s) {} calls = some mb) : Settled s mb true := by
  have hfree : Runs.EachStep (step s) (fun _ _ => True) {} calls :=
    Runs.EachStep.of_forall (fun _ _ => trivial) _ calls
  exact run_invariant (fun _ _ _ hs hcall hstep =>
    step_settled hs hcall.1 hstep) (settled_start s) (hfree.and_mem hcalls) hrun

/-- Neither the deadline nor the preflight stands in the way of the message. -/
def Push.Admitted (push : Push M) : Prop :=
  isExpired push.metadata.deadlineNs push.nowNs = false ∧ push.refusal = none

/-- A push, as long as it is accepted. -/
def acceptStep (s : DisruptorSetup) (mb : DisruptorMailbox M)
    (push : Push M) : Option (DisruptorMailbox M) :=
  match mb.tryPushUser s push with
  | some (after, result) => if result.code = .accepted then some after else none
  | none => none

theorem Counted.publish_room (hc : Counted s mb.accounts counts (fun _ => ∅) (held + 1) accepting)
    (envelope : DisruptorMessageEnvelope M) :
    (mb.publish s envelope).2.code = .published := by
  refine (hc.rings _).publish_room ?_ envelope
  have hle := hc.le
  have hlimit := s.limit_le
  have hlane : counts (s.ringFor envelope.metadata.priority) ≤ ∑ lane, counts lane :=
    single_le_sum (fun _ _ => Nat.zero_le _) (mem_univ _)
  omega

theorem publishReserved_accepted (hcode : (mb.publish s envelope).2.code = .published) :
    (mb.publishReserved s envelope).2.code = .accepted := by
  simp only [publishReserved, if_pos hcode]
  rfl

theorem acceptStep_room {push : Push M} {count : Nat}
    (hc : Counted s mb.accounts counts (fun _ => ∅) 0 true)
    (hcount : ∑ lane, counts lane = count)
    (hlt : count < s.config.capacity.maxMessages.toNat)
    (hbytes : s.config.capacity.maxBytes = 0 ∨
      (count + 1) * s.envelopeBytes.toNat ≤ s.config.capacity.maxBytes.toNat)
    (hpush : push.Admitted) :
    ∃ mb' counts', mb.acceptStep s push = some mb' ∧
      Counted s mb'.accounts counts' (fun _ => ∅) 0 true ∧ ∑ lane, counts' lane = count + 1 := by
  subst hcount
  have hroom : (mb.tryReserve s).1 = .reserved :=
    hc.ledger.reserve_room hlt hbytes
  rcases hreserve : mb.tryReserve s with ⟨result, reserved⟩
  rw [hreserve] at hroom
  subst hroom
  have htry := hc.tryReserve
  rw [hreserve] at htry
  obtain ⟨-, hheld⟩ := htry.resolve_right fun hrefused => hrefused.1 rfl
  have hcode := hheld.publish_room ⟨push.message, push.metadata⟩
  obtain ⟨counts', hdone, hsum⟩ := hheld.publishReserved_published hcode
  refine ⟨_, counts', ?_, hdone, hsum⟩
  have hopen : mb.acceptingUser = true := hc.accepts
  simp only [acceptStep, tryPushUser, hopen, hpush.1, hpush.2, hreserve,
    Bool.true_eq_false, if_false, Bool.false_eq_true]
  exact if_pos (publishReserved_accepted hcode)

theorem run_acceptStep {pushes : List (Push M)} {count : Nat}
    (hc : Counted s mb.accounts counts (fun _ => ∅) 0 true)
    (hcount : ∑ lane, counts lane = count)
    (hle : count + pushes.length ≤ s.config.capacity.maxMessages.toNat)
    (hbytes : s.config.capacity.maxBytes = 0 ∨ (count + pushes.length) * s.envelopeBytes.toNat ≤
        s.config.capacity.maxBytes.toNat)
    (hpushes : ∀ push ∈ pushes, push.Admitted) :
    ∃ mb', run (acceptStep s) mb pushes = some mb' ∧
      mb'.userMessages = count + pushes.length := by
  induction pushes generalizing mb counts count with
  | nil => exact ⟨mb, rfl, hc.userMessages_eq.trans hcount⟩
  | cons push rest ih =>
    have hnext : count + 1 + rest.length = count + (push :: rest).length := by
      rw [List.length_cons]
      omega
    rw [← hnext] at hle hbytes
    obtain ⟨mid, counts', hstep, hmid, hsum⟩ := acceptStep_room hc hcount
      (by omega) (hbytes.imp_right fun hfits =>
        (Nat.mul_le_mul_right _ (Nat.le_add_right _ _)).trans hfits)
      (hpushes push List.mem_cons_self)
    obtain ⟨mb', hrun, hall⟩ := ih hmid hsum hle hbytes fun other hother =>
      hpushes other (List.mem_cons_of_mem push hother)
    exact ⟨mb', run_cons_eq_some.mpr ⟨mid, hstep, hrun⟩, hall.trans hnext⟩

theorem reserved_iff_drainsNothing (calls : List (Call M)) :
    (∀ front back (mb : DisruptorMailbox M), calls = front ++ back →
      run (step s) {} front = some mb →
        mb.reservation.reservedMessages.toNat = mb.userMessages) ↔
      Runs.EachStep (step s) DrainsNothing {} calls := by
  constructor
  · -- the state before the last call is settled, by induction
    induction calls using List.reverseRecOn with
    | nil => exact fun _ => trivial
    | append_singleton calls call ih =>
      intro haccounts
      have hbefore : Runs.EachStep (step s) DrainsNothing {} calls := by
        apply ih
        rintro front back mb rfl hrun
        exact haccounts front (back ++ [call]) mb (by simp) hrun
      refine eachStep_concat.mpr ⟨hbefore, fun mb hrun => ?_⟩
      by_cases hcall : call = .drainAllNow
      · subst hcall
        obtain ⟨accepting, hs⟩ := run_settled hbefore hrun
        have hkept := haccounts (calls ++ [.drainAllNow]) [] _ (by simp)
          (by rw [run_append, hrun]; rfl)
        rwa [drainAllNow_reservation, drainAllNow_userMessages hs, hs.reserved_eq] at hkept
      · cases call <;> trivial
  · rintro hdrains front back mb rfl hrun
    obtain ⟨accepting, hs⟩ := run_settled hdrains.front hrun
    exact hs.reserved_eq

/-- The reservations are the messages in the rings after every call exactly if
immediate drains find empty rings; and an emptied mailbox that no immediate
drain has closed takes a full capacity of messages. -/
theorem run_reserved_iff (s : DisruptorSetup) (calls : List (Call M)) :
    ((∀ front back (mb : DisruptorMailbox M), calls = front ++ back →
      Runs.run (step s) {} front = some mb →
        mb.reservation.reservedMessages.toNat = mb.userMessages) ↔
      Runs.EachStep (step s) DrainsNothing {} calls) ∧
    ((∀ call ∈ calls, call ≠ .drainAllNow) →
      ∀ mb, Runs.run (step s) {} calls = some mb → mb.userMessages = 0 → ∀ pushes : List (Push M),
          pushes.length ≤ s.config.capacity.maxMessages.toNat →
          (s.config.capacity.maxBytes = 0 ∨ pushes.length * s.envelopeBytes.toNat ≤
              s.config.capacity.maxBytes.toNat) →
          (∀ push ∈ pushes, push.Admitted) →
          ∃ mb', Runs.run (acceptStep s) mb pushes = some mb' ∧
            mb'.userMessages = pushes.length) := by
  refine ⟨reserved_iff_drainsNothing calls, ?_⟩
  intro hcalls mb hrun hempty pushes hle hbytes hpushes
  obtain ⟨counts, hopen⟩ := run_accepting hcalls hrun
  have hnone : ∑ lane, counts lane = 0 :=
    hopen.userMessages_eq.symm.trans hempty
  have hall := run_acceptStep hopen hnone (by rwa [Nat.zero_add]) (by rwa [Nat.zero_add]) hpushes
  rwa [Nat.zero_add] at hall

end DisruptorMailbox

namespace DisruptorAccountingWitness

open DisruptorMailbox

def pair : RingCapacity := ⟨2, by decide⟩

def setup : DisruptorSetup :=
  .ofConfig pair 1 { overflowPolicy := .dropOldest } 64 32 true

def push (message : Nat) : Push Nat := { nowNs := 0, message := message }

/-- The oldest of two messages makes way for a third; the rings are then
emptied. -/
def emptied : List (Call Nat) :=
  [.tryPushUser (push 1), .tryPushUser (push 2), .tryPushUser (push 3),
    .consumeOne, .dropOneOldestRing]

theorem run_reserved_iff_emptied :
    ∃ mb, Runs.run (step setup) {} emptied = some mb ∧
      mb.reservation.reservedMessages.toNat = mb.userMessages ∧
      ∃ mb', Runs.run (acceptStep setup) mb [push 4, push 5] = some mb' ∧ mb'.userMessages = 2 := by
  have hdrains : Runs.EachStep (step setup) DrainsNothing {} emptied := by
    decide +kernel
  have hempty : (Runs.run (step setup) {} emptied).map userMessages = some 0 := by decide +kernel
  obtain ⟨mb, hrun, hnone⟩ := map_eq_some_iff.mp hempty
  obtain ⟨haccounts, haccepts⟩ := run_reserved_iff setup emptied
  refine ⟨mb, hrun, haccounts.mpr hdrains emptied [] mb (by simp) hrun,
    haccepts ?_ mb hrun hnone [push 4, push 5] ?_ ?_ ?_⟩
  · decide
  · decide
  · exact .inl rfl
  · intro push hpush
    simp only [List.mem_cons, List.not_mem_nil, or_false] at hpush
    rcases hpush with rfl | rfl
    · exact ⟨by decide, rfl⟩
    · exact ⟨by decide, rfl⟩

/-- The immediate drain takes the message and leaves its reservation; and it
closes the mailbox, so that no message is accepted again. -/
theorem drainAllNow_leaves_reservation :
    ((Runs.run (step setup) {} [.tryPushUser (push 1), .drainAllNow]).map
      fun mb => (mb.reservation.reservedMessages.toNat, mb.userMessages)) = some (1, 0) ∧
      ((Runs.run (step setup) {} [.drainAllNow]).map fun mb =>
        (mb.userMessages, (mb.acceptStep setup (push 1)).isSome)) = some (0, false) := by
  constructor
  · decide +kernel
  · decide +kernel

end DisruptorAccountingWitness

end HPActor
