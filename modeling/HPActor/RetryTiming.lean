/-
When a message is sent again: the exponential backoff of a retry policy
against unbounded arithmetic, and what a pass of `process_retries` makes of
deadlines and of the hint of a negative acknowledgement.
-/
import HPActor.DeliveryTracker
import Mathlib.Tactic.Linarith

namespace HPActor

namespace RetryPolicy

/-- The machine counts a shift modulo 64. -/
theorem shift_toInt :
    ∀ n < 256, 1 ≤ n → ((1 : Int64) <<< (Int64.ofNat n - 1)).toInt =
      ((2 : Int) ^ ((n - 1) % 64)).bmod (2 ^ 64) := by
  decide +kernel

/-- The product as the machine has it, before it is cut at the maximum. -/
def wrapped (policy : RetryPolicy) (attempt : UInt8) : Int :=
  (policy.initialBackoff.toInt * 2 ^ ((attempt.toNat - 1) % 64)).bmod (2 ^ 64)

/-- The product in unbounded arithmetic. -/
def product (policy : RetryPolicy) (attempt : UInt8) : Int :=
  policy.initialBackoff.toInt * 2 ^ (attempt.toNat - 1)

variable {policy : RetryPolicy} {attempt : UInt8}

theorem backoffDelay_toInt (hexp : policy.backoff = .exponential) (hjitter : policy.jitter = false)
    (hattempt : 1 ≤ attempt.toNat) (jitterPct : Int64) :
    (policy.backoffDelay attempt jitterPct).toInt =
      min (policy.wrapped attempt) policy.maxBackoff.toInt := by
  have hproduct : (policy.initialBackoff *
      ((1 : Int64) <<< (Int64.ofNat attempt.toNat - 1))).toInt = policy.wrapped attempt := by
    rw [Int64.toInt_mul, shift_toInt _ attempt.toNat_lt hattempt, Int.mul_bmod_bmod, wrapped]
  simp only [backoffDelay, hexp, hjitter, Bool.false_and, Bool.false_eq_true, ↓reduceIte]
  split
  · rename_i hcut
    rw [Int64.lt_iff_toInt_lt, hproduct] at hcut
    rw [min_eq_right hcut.le]
  · rename_i hcut
    rw [Int64.lt_iff_toInt_lt, hproduct, not_lt] at hcut
    rw [hproduct, min_eq_left hcut]

/-- A product that fits into 63 bits is the machine's. -/
theorem wrapped_eq_product (hinitial : 0 ≤ policy.initialBackoff.toInt)
    (hfits : policy.product attempt < 2 ^ 63) :
    policy.wrapped attempt = policy.product attempt := by
  rw [product] at hfits
  rw [wrapped, product]
  rcases hinitial.eq_or_lt with hzero | hpos
  · rw [← hzero, zero_mul, zero_mul]
    rfl
  · have hshift : attempt.toNat - 1 < 63 := by
      have hle : (2 : Int) ^ (attempt.toNat - 1) ≤
          policy.initialBackoff.toInt * 2 ^ (attempt.toNat - 1) :=
        le_mul_of_one_le_left (by positivity) hpos
      exact (pow_lt_pow_iff_right₀ one_lt_two).mp (hle.trans_lt hfits)
    rw [Nat.mod_eq_of_lt (by omega)]
    have hnonneg : 0 ≤ policy.initialBackoff.toInt * 2 ^ (attempt.toNat - 1) := by positivity
    exact Int.bmod_eq_of_le (by omega) (by omega)

/-- The delay is the exact one unless the product leaves the range of the
machine and comes back below the maximum; up to that range it is not negative
and grows with the attempts. -/
theorem backoffDelay_exact_iff (hexp : policy.backoff = .exponential)
    (hjitter : policy.jitter = false) (hinitial : 0 ≤ policy.initialBackoff.toInt)
    (hmax : policy.initialBackoff.toInt ≤ policy.maxBackoff.toInt) (jitterPct : Int64)
    (hattempt : 1 ≤ attempt.toNat) :
    ((policy.backoffDelay attempt jitterPct).toInt =
        min (policy.product attempt) policy.maxBackoff.toInt ↔
      policy.product attempt ≤ policy.maxBackoff.toInt ∨
        policy.maxBackoff.toInt ≤ policy.wrapped attempt) ∧
    (policy.product attempt < 2 ^ 63 → 0 ≤ (policy.backoffDelay attempt jitterPct).toInt ∧
      ∀ earlier : UInt8, 1 ≤ earlier.toNat → earlier ≤ attempt →
        (policy.backoffDelay earlier jitterPct).toInt ≤
          (policy.backoffDelay attempt jitterPct).toInt) := by
  have hceiling := policy.maxBackoff.toInt_lt
  refine ⟨?_, ?_⟩
  · rw [backoffDelay_toInt hexp hjitter hattempt]
    rcases le_or_gt (policy.product attempt) policy.maxBackoff.toInt with
      hle | hgt
    · rw [wrapped_eq_product hinitial (hle.trans_lt hceiling)]
      exact iff_of_true rfl (.inl hle)
    · rw [min_eq_right hgt.le, min_eq_right_iff]
      exact (or_iff_right hgt.not_ge).symm
  · intro hfits
    have hdelay : ∀ n : UInt8, 1 ≤ n.toNat → n ≤ attempt → (policy.backoffDelay n jitterPct).toInt =
            min (policy.product n) policy.maxBackoff.toInt ∧
          policy.product n ≤ policy.product attempt := by
      intro n hn hle
      have hproduct : policy.product n ≤ policy.product attempt := by
        have hexponent : n.toNat - 1 ≤ attempt.toNat - 1 :=
          Nat.sub_le_sub_right hle 1
        exact mul_le_mul_of_nonneg_left (pow_le_pow_right₀ one_le_two hexponent) hinitial
      rw [backoffDelay_toInt hexp hjitter hn, wrapped_eq_product hinitial (hproduct.trans_lt hfits)]
      exact ⟨rfl, hproduct⟩
    rw [(hdelay attempt hattempt UInt8.le_rfl).1]
    constructor
    · exact le_min (mul_nonneg hinitial (by positivity)) (hinitial.trans hmax)
    · intro earlier hearlier hle
      rw [(hdelay earlier hearlier hle).1]
      exact min_le_min_right _ (hdelay earlier hearlier hle).2

namespace BackoffWitness

/-- The default policy without jitter. -/
def steady : RetryPolicy := { jitter := false }

theorem steady_exact_nine :
    (steady.backoffDelay 9 0).toInt = min (steady.product 9) steady.maxBackoff.toInt :=
  (backoffDelay_exact_iff rfl rfl (by decide) (by decide) 0 (by decide)).1.mpr (.inl (by decide))

/-- The 58th delay of that policy is negative. -/
theorem steady_wraps :
    (steady.backoffDelay 57 0).toInt = 30000 ∧ (steady.backoffDelay 58 0).toInt < 0 ∧
      min (steady.product 58) steady.maxBackoff.toInt = 30000 := by
  decide +kernel

end BackoffWitness

end RetryPolicy

namespace OutboundDeliveryTracker

/-- The entry after a MailboxFull answer. -/
def PendingSend.noted (entry : PendingSend) (retryAfterMs : UInt32) : PendingSend :=
  { entry with retryAfterMs := retryAfterMs, nextRetryNs := 1 }

/-- The entry that is still pending after a pass. -/
def RetryOutcome.entry : RetryOutcome → Option PendingSend
  | .keep entry => some entry
  | .resend entry => some entry
  | .finish _ => none

namespace PendingSend

variable {ps next : PendingSend} {nowNs : UInt64} {jitterPct : Int64}

/-- A pass looks at the deadline of an entry whose retry is due, or whose
first timeout it starts. -/
def examined (ps : PendingSend) (nowNs : UInt64) : Bool :=
  decide (0 < ps.nextRetryNs ∧ ps.nextRetryNs ≤ nowNs) ||
    decide (ps.nextRetryNs = 0 ∧ 0 < ps.policy.perAttemptTimeout)

theorem retry_of_not_examined (hnot : ps.examined nowNs = false) :
    ps.retry nowNs jitterPct = .keep ps := by
  simp only [examined, Bool.or_eq_false_iff, decide_eq_false_iff_not] at hnot
  rw [retry, if_neg hnot.1, if_neg hnot.2]

/-- An examined entry is finished if it is expired. -/
theorem retry_examined (hexamined : ps.examined nowNs = true) (hexpired : ps.expired nowNs = true) :
    ∃ status, ps.retry nowNs jitterPct = .finish status := by
  simp only [examined, Bool.or_eq_true, decide_eq_true_eq] at hexamined
  rw [retry, hexpired, Bool.or_true, if_pos rfl, if_pos rfl, if_pos rfl]
  split
  · exact ⟨_, rfl⟩
  · rename_i hdue
    rw [if_pos (hexamined.resolve_left hdue)]
    exact ⟨_, rfl⟩

/-- An entry that stays has its deadline. -/
theorem retry_deadline (hstays : next ∈ (ps.retry nowNs jitterPct).entry) :
    next.deadlineNs = ps.deadlineNs := by
  revert hstays
  rw [retry]
  split_ifs <;> rintro ⟨⟩ <;> rfl

/-- After a pass an expired entry is one the pass did not examine. -/
theorem retry_leaves_expired_iff :
    next ∈ (ps.retry nowNs jitterPct).entry ∧ next.expired nowNs = true ↔
      next = ps ∧ ps.expired nowNs = true ∧ ps.examined nowNs = false := by
  cases hexamined : ps.examined nowNs with
  | true =>
    simp only [Bool.true_eq_false, and_false, iff_false, not_and]
    intro hstays hexpired
    rw [expired, retry_deadline hstays] at hexpired
    obtain ⟨status, hfinish⟩ := retry_examined hexamined hexpired
    rw [hfinish] at hstays
    cases hstays
  | false =>
    rw [retry_of_not_examined hexamined]
    simp only [RetryOutcome.entry, Option.mem_some_iff, and_true]
    constructor <;> exact fun ⟨heq, hexpired⟩ => ⟨heq.symm, heq ▸ hexpired⟩

end PendingSend

variable {t : OutboundDeliveryTracker} {id : Nat} {nowNs : UInt64} {jitterPct : Nat → Int64}

theorem processRetries_pending {entry : PendingSend} :
    (t.processRetries nowNs jitterPct).pending id = some entry ↔ ∃ ps, t.pending id = some ps ∧
        entry ∈ (ps.retry nowNs (jitterPct id)).entry := by
  change (retryOne nowNs (jitterPct id) (t.pending id) _).1 = some entry ↔ _
  cases t.pending id with
  | none => simp [retryOne]
  | some ps =>
    simp only [retryOne, Option.some.injEq, exists_eq_left']
    cases ps.retry nowNs (jitterPct id) <;> simp [RetryOutcome.entry]

open PendingSend

/-- No expired entry is left exactly if the pass examined each of them. -/
theorem processRetries_no_expired_iff :
    (∀ id entry, (t.processRetries nowNs jitterPct).pending id = some entry →
        ¬ entry.expired nowNs) ↔
      ∀ id entry, t.pending id = some entry → entry.expired nowNs → entry.examined nowNs := by
  constructor
  · intro hnone id entry hentry hexpired
    by_contra hnot
    rw [Bool.not_eq_true] at hnot
    refine hnone id entry (processRetries_pending.mpr ⟨entry, hentry, ?_⟩) hexpired
    exact (retry_leaves_expired_iff.mpr ⟨rfl, hexpired, hnot⟩).1
  · intro hall id entry hentry hexpired
    obtain ⟨ps, hps, hstays⟩ := processRetries_pending.mp hentry
    obtain ⟨rfl, hexpired, hnot⟩ :=
      retry_leaves_expired_iff.mp ⟨hstays, hexpired⟩
    rw [hall id entry hps hexpired] at hnot
    cases hnot

/-- An acknowledgement, or a cancellation of the message or of its endpoint. -/
def Call.ends (id : Nat) (remote : EndPoint) : Call → Bool
  | .onAck msgId => decide (msgId = id)
  | .cancel msgId => decide (msgId = id)
  | .cancelEndpoint endpoint _ => decide (remote = endpoint)
  | _ => false

def passTime : Call → Option UInt64
  | .processRetries nowNs _ => some nowNs
  | _ => none

/-- The time of the first pass that can find the message due: a pass at zero
finds nothing due, and one after the message has ended does not find it. -/
def firstDue (id : Nat) (remote : EndPoint) : List Call → Option UInt64
  | [] => none
  | .processRetries nowNs _ :: rest => if 0 < nowNs then some nowNs else firstDue id remote rest
  | c :: rest => if c.ends id remote then none else firstDue id remote rest

/-- The call is a pass before the time that resends the message. -/
def ResendsNow (t : OutboundDeliveryTracker) (id time : Nat) : Call → Prop
  | .processRetries nowNs jitterPct => nowNs.toNat < time ∧
      ((t.processRetries nowNs jitterPct).messages id).map TrackedMessage.resends ≠
        (t.messages id).map TrackedMessage.resends
  | _ => False

/-- One of the calls is such a pass. -/
def ResendsBefore (id time : Nat) : OutboundDeliveryTracker → List Call → Prop
  | _, [] => False
  | t, c :: rest => t.ResendsNow id time c ∨ ResendsBefore id time (t.call c) rest

/-- The number was given to a message. -/
def Given (id : Nat) (t : OutboundDeliveryTracker) : Prop := id < t.nextMsgId

variable {c : Call} {entry : PendingSend} {time : Nat}

theorem resolve_pending (msgId : Nat) (result : DeliveryResult) :
    (t.resolve msgId result).pending = Function.update t.pending msgId none ∧
      (t.resolve msgId result).nextMsgId = t.nextMsgId := by
  rw [resolve]
  split
  · next hnone => exact ⟨(Function.update_eq_self_iff.mpr hnone.symm).symm, rfl⟩
  · exact ⟨rfl, rfl⟩

theorem nextMsgId_le_call (t : OutboundDeliveryTracker) (c : Call) :
    t.nextMsgId ≤ (t.call c).nextMsgId := by
  cases c with
  | track serializedFrame remote policy deadlineNs => exact Nat.le_succ _
  | onAck msgId | cancel msgId => exact (resolve_pending msgId _).2.ge
  | onNack msgId reasonCode hint =>
    simp only [call, onNack]
    split
    · exact (resolve_pending msgId _).2.ge
    · split
      · exact le_rfl
      · split <;> exact le_rfl
  | _ => exact le_rfl

/-- A call other than a pass and a negative acknowledgement of the message
leaves its entry alone, unless it ends the message. -/
theorem call_pending (hid : id < t.nextMsgId ∨ (t.call c).nextMsgId ≤ id)
    (hpass : passTime c = none) (hnack : ∀ reasonCode hint, c ≠ .onNack id reasonCode hint) :
    (t.call c).pending id =
      (t.pending id).filter (fun entry => !c.ends id entry.remoteEndpoint) := by
  have hall : (t.pending id).filter (fun _ => true) = t.pending id := by
    cases t.pending id <;> rfl
  have hresolve (msgId : Nat) (result : DeliveryResult) : (t.resolve msgId result).pending id =
      (t.pending id).filter (fun _ => !decide (msgId = id)) := by
    rw [(resolve_pending _ _).1]
    by_cases hmsg : msgId = id
    · simp [hmsg]
    · simp [hmsg, Function.update_of_ne (Ne.symm hmsg), hall]
  cases c with
  | track serializedFrame remote policy deadlineNs =>
    have hne : id ≠ t.nextMsgId := by
      rcases hid with hlt | hle
      · exact hlt.ne
      · exact (Nat.lt_of_succ_le hle).ne'
    exact (Function.update_of_ne hne _ _).trans hall.symm
  | onAck msgId | cancel msgId => exact hresolve msgId _
  | onNack msgId reasonCode hint =>
    have hother : id ≠ msgId := fun heq => hnack reasonCode hint (heq ▸ rfl)
    simp only [Call.ends, Bool.not_false, hall, call, onNack]
    split
    · rw [onAck, (resolve_pending _ _).1, Function.update_of_ne hother]
    · split
      · rfl
      · split <;> exact Function.update_of_ne hother _ _
  | processRetries nowNs jitterPct => cases hpass
  | cancelEndpoint endpoint reason =>
    change (cancelOne endpoint reason (t.pending id) _).1 = _
    cases t.pending id with
    | none => rfl
    | some entry =>
      by_cases hend : entry.remoteEndpoint = endpoint <;>
        simp [cancelOne, Call.ends, hend, Option.filter_some]
  | onComplete msgId callback | onCompletePort msgId port => exact hall.symm

/-- A number without an entry gets one only when it is given to a message. -/
theorem call_ended (hid : id < t.nextMsgId ∨ (t.call c).nextMsgId ≤ id)
    (hended : t.pending id = none) : (t.call c).pending id = none := by
  cases c with
  | processRetries nowNs jitterPct =>
    change (retryOne nowNs (jitterPct id) (t.pending id) _).1 = none
    rw [hended, retryOne]
  | onNack msgId reasonCode hint =>
    by_cases hmsg : msgId = id
    · subst hmsg
      simp only [call, onNack, onAck, resolve, hended, ite_self]
    · rw [call_pending hid rfl (by simp [hmsg]), hended]
      rfl
  | _ =>
    rw [call_pending hid rfl (by simp), hended]
    rfl

/-- A number that was not given to a message has no entry. -/
def Fresh (t : OutboundDeliveryTracker) : Prop :=
  ∀ id, ¬ t.Given id → t.pending id = none

theorem Fresh.call (hfresh : t.Fresh) (c : Call) : (t.call c).Fresh := by
  intro id hnot
  refine call_ended (.inr (Nat.not_lt.mp hnot)) (hfresh id fun hgiven => hnot ?_)
  exact hgiven.trans_le (t.nextMsgId_le_call c)

theorem Fresh.after (hfresh : t.Fresh) (calls : List Call) : (t.after calls).Fresh := by
  induction calls generalizing t with
  | nil => exact hfresh
  | cons c rest ih => exact ih (hfresh.call c)

/-- A message that is not pending is not resent any more. -/
theorem not_resendsBefore_of_ended {calls : List Call} (hgiven : t.Given id)
    (hended : t.pending id = none) : ¬ ResendsBefore id time t calls := by
  induction calls generalizing t with
  | nil => exact not_false
  | cons c rest ih =>
    rintro (hnow | hlater)
    · cases c with
      | processRetries nowNs jitterPct =>
        simp [ResendsNow, processRetries, hended, retryOne] at hnow
      | _ => exact hnow
    · exact ih (hgiven.trans_le (t.nextMsgId_le_call c)) (call_ended (.inl hgiven) hended) hlater

/-- No pass is before the time. -/
theorem not_resendsBefore_of_late {calls : List Call}
    (hlate : ∀ nowNs ∈ calls.filterMap passTime, time ≤ nowNs.toNat) :
    ¬ ResendsBefore id time t calls := by
  induction calls generalizing t with
  | nil => exact not_false
  | cons c rest ih =>
    rintro (hnow | hlater)
    · cases c with
      | processRetries nowNs jitterPct =>
        exact absurd hnow.1 (Nat.not_lt.mpr (hlate nowNs List.mem_cons_self))
      | _ => exact hnow
    · refine ih (fun nowNs hmem => hlate nowNs ?_) hlater
      obtain ⟨c, hc, htime⟩ := List.mem_filterMap.mp hmem
      exact List.mem_filterMap.mpr ⟨c, List.mem_cons_of_mem _ hc, htime⟩

/-- What a pass makes of an entry that was told to try again. -/
theorem retry_noted (hdue : entry.nextRetryNs = 1) (nowNs : UInt64) (jitterPct : Int64) :
    if 0 < nowNs then
      if entry.exhausted = false ∧ entry.expired nowNs = false then
        ∃ next, entry.retry nowNs jitterPct = .resend next
      else ∃ status, entry.retry nowNs jitterPct = .finish status
    else entry.retry nowNs jitterPct = .keep entry := by
  have hnow : 0 < entry.nextRetryNs ∧ entry.nextRetryNs ≤ nowNs ↔ 0 < nowNs := by
    rw [hdue, UInt64.lt_iff_toNat_lt, UInt64.le_iff_toNat_le, UInt64.lt_iff_toNat_lt]
    change 0 < 1 ∧ 1 ≤ nowNs.toNat ↔ 0 < nowNs.toNat
    omega
  simp only [retry, hnow]
  split_ifs with hpos hleft hover hover hzero <;> simp_all

theorem Sound.message (hsound : t.Sound) (hentry : t.pending id = some entry) :
    ∃ message, t.messages id = some message := by
  have hbooks := hsound id
  rw [hentry] at hbooks
  cases hmessage : t.messages id with
  | none =>
    rw [hmessage] at hbooks
    exact hbooks.elim
  | some message => exact ⟨message, rfl⟩

/-- After a MailboxFull answer the message is resent before a time exactly if
the first pass that finds it comes before that time, with an attempt left and
the deadline not reached. -/
theorem resendsBefore_iff {calls : List Call} (hsound : t.Sound) (hgiven : t.Given id)
    (hentry : t.pending id = some entry) (hdue : entry.nextRetryNs = 1)
    (hnack : ∀ reasonCode hint, .onNack id reasonCode hint ∉ calls)
    (hclock : (calls.filterMap passTime).Pairwise (· ≤ ·)) :
    ResendsBefore id time t calls ↔
      ∃ nowNs ∈ firstDue id entry.remoteEndpoint calls,
        nowNs.toNat < time ∧ entry.exhausted = false ∧ entry.expired nowNs = false := by
  induction calls generalizing t with
  | nil => simp [ResendsBefore, firstDue]
  | cons c rest ih =>
    simp only [List.mem_cons, not_or] at hnack
    have hrest : ∀ reasonCode hint, .onNack id reasonCode hint ∉ rest :=
      fun reasonCode hint => (hnack reasonCode hint).2
    cases hpass : passTime c with
    | none =>
      rw [List.filterMap_cons_none hpass] at hclock
      have hpending := call_pending (.inl hgiven) hpass
        fun reasonCode hint => Ne.symm (hnack reasonCode hint).1
      have hstill : (t.call c).Given id := hgiven.trans_le (t.nextMsgId_le_call c)
      have hquiet : ¬ t.ResendsNow id time c := by
        cases c <;> first | exact not_false | cases hpass
      have hfirst : firstDue id entry.remoteEndpoint (c :: rest) =
          if c.ends id entry.remoteEndpoint then none
          else firstDue id entry.remoteEndpoint rest := by
        cases c <;> first | rfl | cases hpass
      rw [ResendsBefore, or_iff_right hquiet, hfirst]
      rw [hentry] at hpending
      cases hend : c.ends id entry.remoteEndpoint with
      | true =>
        simp only [hend, Option.filter_some, Bool.not_true] at hpending
        simpa using not_resendsBefore_of_ended hstill hpending
      | false =>
        simp only [hend, Option.filter_some, Bool.not_false, if_true] at hpending
        simpa using ih (hsound.call c) hstill hpending hrest hclock
    | some nowNs =>
      obtain ⟨jitterPct, rfl⟩ : ∃ jitterPct, c = .processRetries nowNs jitterPct := by
        cases c <;> simp_all [passTime]
      rw [List.filterMap_cons_some hpass] at hclock
      obtain ⟨hlater, hclock⟩ := List.pairwise_cons.mp hclock
      obtain ⟨message, hmessage⟩ := hsound.message hentry
      have hpending : (t.processRetries nowNs jitterPct).pending id =
          (retryOne nowNs (jitterPct id) (some entry) (some message)).1 := by
        rw [← hentry, ← hmessage]
        rfl
      have hmessages : (t.processRetries nowNs jitterPct).messages id =
          (retryOne nowNs (jitterPct id) (some entry) (some message)).2 := by
        rw [← hentry, ← hmessage]
        rfl
      have hretry := retry_noted hdue nowNs (jitterPct id)
      rw [ResendsBefore, ResendsNow, hmessages, hmessage, firstDue]
      split_ifs at hretry ⊢ with hpos hleft
      · obtain ⟨next, hretry⟩ := hretry
        -- a later pass is no earlier than this one
        have hafter : ResendsBefore id time (t.call (.processRetries nowNs jitterPct)) rest →
            nowNs.toNat < time := by
          intro hearly
          by_contra hlate
          refine not_resendsBefore_of_late (fun later hmem => ?_) hearly
          exact (Nat.not_lt.mp hlate).trans (UInt64.le_iff_toNat_le.mp (hlater later hmem))
        simpa [retryOne, hretry, TrackedMessage.resend, hleft] using hafter
      · obtain ⟨status, hretry⟩ := hretry
        rw [retryOne, hretry] at hpending
        have hquiet : ¬ ResendsBefore id time (t.call (.processRetries nowNs jitterPct)) rest :=
          not_resendsBefore_of_ended hgiven hpending
        simp [retryOne, hretry, TrackedMessage.resolve, hquiet, hleft]
      · rw [retryOne, hretry] at hpending
        have hnext := ih (hsound.call (.processRetries nowNs jitterPct))
          hgiven hpending hrest hclock
        simpa [retryOne, hretry] using hnext

/-- After any calls, a pass leaves no expired entry exactly if it examines
all of them.  After a MailboxFull answer, and as long as there is no other and
the clock does not run backwards, the message is resent before the hint is over
exactly if the first pass that finds it comes before, with an attempt left and
the deadline not reached. -/
theorem retry_timing (calls : List Call) (nowNs : UInt64) (jitterPct : Nat → Int64) :
    ((∀ id entry, ((after {} calls).processRetries nowNs jitterPct).pending id =
          some entry → ¬ entry.expired nowNs) ↔
        ∀ id entry, (after {} calls).pending id = some entry →
          entry.expired nowNs → entry.examined nowNs) ∧
      ∀ id entry reasonCode retryAfterMs (lastPassNs : UInt64) (later : List Call),
        (after {} calls).pending id = some entry →
        DeliveryStatus.ofCode reasonCode = .mailboxFull →
        (∀ reasonCode hint, .onNack id reasonCode hint ∉ later) →
        (later.filterMap passTime).Pairwise (· ≤ ·) →
        (ResendsBefore id (lastPassNs.toNat + retryAfterMs.toNat * 1000000)
            ((after {} calls).onNack id reasonCode retryAfterMs) later ↔
          ∃ firstNs ∈ firstDue id entry.remoteEndpoint later,
            firstNs.toNat < lastPassNs.toNat + retryAfterMs.toNat * 1000000 ∧
              entry.exhausted = false ∧ entry.expired firstNs = false) := by
  refine ⟨processRetries_no_expired_iff, ?_⟩
  intro id entry reasonCode retryAfterMs lastPassNs later hentry hfull hnack hclock
  have hfresh : ({} : OutboundDeliveryTracker).Fresh := fun _ _ => rfl
  have hgiven : (after {} calls).Given id := by
    by_contra hnot
    rw [hfresh.after calls id hnot] at hentry
    cases hentry
  have hnoted : (after {} calls).onNack id reasonCode retryAfterMs =
      (after {} calls).setPending id (some (entry.noted retryAfterMs)) := by
    rw [onNack, hfull, if_neg (by decide), hentry]
    rfl
  have hsound := (empty_sound.after calls).onNack id reasonCode retryAfterMs
  rw [hnoted] at hsound ⊢
  exact @resendsBefore_iff _ id (entry.noted retryAfterMs) _ later hsound hgiven
    (Function.update_self ..) rfl hnack hclock

/-- A message that waits for its timeout outlives its deadline, and a hint of a
second does not keep the next pass from resending. -/
theorem retry_timing_fails :
    let patient : RetryPolicy := { maxAttempts := 3, jitter := false }
    let sent : List Call := [.track [] (.ipv4 0 0) patient 50, .processRetries 10 fun _ => 0]
    ((after {} (sent ++ [.processRetries 60 fun _ => 0])).pending 1).map
        (fun entry => entry.expired 60) = some true ∧
      ((after {} (sent ++ [.onNack 1 4 1000, .processRetries 20 fun _ => 0])).messages 1).map
          TrackedMessage.resends = some 1 := by
  decide +kernel

end OutboundDeliveryTracker

end HPActor
