/-
The circuit breaker of an event-based actor.  The delivery pipeline asks it
before every user message, and the actor reports how each message ended; the
rate of failures decides when it trips.  Rates are rational numbers here.
-/
import HPActor.Message
import Mathlib

namespace HPActor

inductive CircuitBreakerState where
  | kClosed
  | kOpen
  | kHalfOpen
deriving Repr, DecidableEq

structure CircuitBreakerTracker where
  state : CircuitBreakerState := .kClosed
  tripCount : UInt32 := 0
  halfOpenProbeInFlight : Bool := false
  openedAtNs : Nat := 0
  failureEma : ℚ := 0

structure QuarantinePolicy where
  enabled : Bool := false
  failureRateThreshold : UInt32 := 0
  timeoutRateThreshold : UInt32 := 0
  cooldownPeriodMs : Int := 30000
  observationWindowMs : UInt32 := 10000

/-- `duration_cast<milliseconds>` of the time between two clock readings. -/
def elapsedMs (nowNs sinceNs : Nat) : Int :=
  ((nowNs : Int) - sinceNs).tdiv 1000000

abbrev kNumBuckets : Nat := 10

def firstBucket : Fin kNumBuckets := 0

/-- The failures and timeouts of the last slices of time. -/
structure FailureRateTracker where
  failureBuckets : Fin kNumBuckets → UInt32 := fun _ => 0
  timeoutBuckets : Fin kNumBuckets → UInt32 := fun _ => 0
  currentBucket : Fin kNumBuckets := firstBucket
  bucketIntervalMs : UInt32 := 1000
  lastBucketAdvanceNs : Nat := 0

namespace FailureRateTracker

variable (t : FailureRateTracker)

def recordFailure : FailureRateTracker :=
  { t with
    failureBuckets := Function.update t.failureBuckets t.currentBucket
      (t.failureBuckets t.currentBucket + 1) }

def recordTimeout : FailureRateTracker :=
  { t with
    timeoutBuckets := Function.update t.timeoutBuckets t.currentBucket
      (t.timeoutBuckets t.currentBucket + 1) }

/-- Clear the next bucket and make it the current one, `steps` times. -/
def advanceSteps : Nat → FailureRateTracker → FailureRateTracker
  | 0, t => t
  | steps + 1, t =>
    advanceSteps steps
      { t with
        currentBucket := t.currentBucket + 1
        failureBuckets :=
          Function.update t.failureBuckets (t.currentBucket + 1) 0
        timeoutBuckets :=
          Function.update t.timeoutBuckets (t.currentBucket + 1) 0 }

def advanceBuckets (nowNs : Nat) : FailureRateTracker :=
  if t.bucketIntervalMs = 0 then t
  else if elapsedMs nowNs t.lastBucketAdvanceNs ≤ 0 then t
  else
    let steps := (elapsedMs nowNs t.lastBucketAdvanceNs).toNat / t.bucketIntervalMs.toNat
    if steps = 0 then t
    else if kNumBuckets ≤ steps then
      { t with
        failureBuckets := fun _ => 0
        timeoutBuckets := fun _ => 0
        currentBucket := 0
        lastBucketAdvanceNs := nowNs }
    else { t.advanceSteps steps with lastBucketAdvanceNs := nowNs }

/-- Events per second over the window; the sum is a 32-bit counter. -/
def rate (buckets : Fin kNumBuckets → UInt32) (windowMs : UInt32) : ℚ :=
  if windowMs = 0 then 0
  else ((List.finRange kNumBuckets).map buckets).sum.toNat * 1000 / windowMs.toNat

def failureRate (windowMs : UInt32) : ℚ :=
  rate t.failureBuckets windowMs

def timeoutRate (windowMs : UInt32) : ℚ :=
  rate t.timeoutBuckets windowMs

end FailureRateTracker

/-- The part of an event-based actor that the circuit breaker needs. -/
structure EventBasedActor where
  quarantinePolicy : QuarantinePolicy := {}
  circuitBreaker : CircuitBreakerTracker := {}
  failureRateTracker : FailureRateTracker := {}

/-- What the breaker says about a user message. -/
inductive BreakerVerdict where
  | pass
  | probe
  | blocked

namespace CircuitBreakerTracker

variable (cb : CircuitBreakerTracker)

/-- A probe is under way: every other user message is refused. -/
def Probing : Prop :=
  cb.state = .kHalfOpen ∧ cb.halfOpenProbeInFlight = true

instance (cb : CircuitBreakerTracker) : Decidable cb.Probing :=
  inferInstanceAs (Decidable (_ ∧ _))

/-- The admission gate.  An open breaker becomes half-open with the first user
message after the cooldown, and that message is the probe. -/
def check (cooldownMs : Int) (nowNs : Nat) : BreakerVerdict × CircuitBreakerTracker :=
  match cb.state with
  | .kOpen =>
    if cooldownMs ≤ elapsedMs nowNs cb.openedAtNs then
      (.probe,
        { cb with state := .kHalfOpen, halfOpenProbeInFlight := true })
    else (.blocked, cb)
  | .kHalfOpen =>
    if cb.halfOpenProbeInFlight then (.blocked, cb)
    else (.probe, { cb with halfOpenProbeInFlight := true })
  | .kClosed => (.pass, cb)

/-- The next user message is let through as a probe. -/
def wouldProbe (cooldownMs : Int) (nowNs : Nat) : Bool :=
  match cb.state with
  | .kOpen => decide (cooldownMs ≤ elapsedMs nowNs cb.openedAtNs)
  | .kHalfOpen => !cb.halfOpenProbeInFlight
  | .kClosed => false

def trip (nowNs : Nat) : CircuitBreakerTracker :=
  { cb with
    state := .kOpen
    openedAtNs := nowNs
    halfOpenProbeInFlight := false
    tripCount := cb.tripCount + 1 }

/-- Only a closed or half-open breaker trips. -/
def tripIfShut (nowNs : Nat) : CircuitBreakerTracker :=
  match cb.state with
  | .kClosed | .kHalfOpen => cb.trip nowNs
  | .kOpen => cb

def close : CircuitBreakerTracker :=
  { cb with state := .kClosed, tripCount := 0, halfOpenProbeInFlight := false }

end CircuitBreakerTracker

namespace EventBasedActor

variable {eba : EventBasedActor}

def kAlpha : ℚ := 2 / 11

variable (eba : EventBasedActor) (nowNs : Nat)

/-- The rates after one more failure at `nowNs`. -/
def failedRates : FailureRateTracker :=
  (eba.failureRateTracker.advanceBuckets nowNs).recordFailure

/-- The moving average after one more failure at `nowNs`. -/
def failedEma : ℚ :=
  kAlpha * (eba.failedRates nowNs).failureRate eba.quarantinePolicy.observationWindowMs +
    (1 - kAlpha) * eba.circuitBreaker.failureEma

/-- A failure at `nowNs` is one too many. -/
def failureTrips : Bool :=
  decide (0 < eba.quarantinePolicy.failureRateThreshold) &&
    decide ((eba.quarantinePolicy.failureRateThreshold.toNat : ℚ) < eba.failedEma nowNs)

/-- `record_circuit_breaker_result`, up to the escalation to quarantine. -/
def recordCircuitBreakerResult (success : Bool) (nowNs : Nat) : EventBasedActor :=
  if ¬ eba.quarantinePolicy.enabled then eba
  else if success then
    match eba.circuitBreaker.state with
    | .kHalfOpen => { eba with circuitBreaker := eba.circuitBreaker.close }
    | .kClosed | .kOpen => eba
  else if eba.quarantinePolicy.failureRateThreshold = 0 then eba
  else
    let averaged :=
      { eba.circuitBreaker with failureEma := eba.failedEma nowNs }
    { eba with
      failureRateTracker := eba.failedRates nowNs
      circuitBreaker :=
        if eba.failedEma nowNs ≤ eba.quarantinePolicy.failureRateThreshold.toNat
        then averaged
        else averaged.tripIfShut nowNs }

/-- `record_circuit_breaker_timeout`. -/
def recordCircuitBreakerTimeout : EventBasedActor :=
  if ¬ eba.quarantinePolicy.enabled then eba
  else if eba.quarantinePolicy.timeoutRateThreshold = 0 then eba
  else
    let rates := (eba.failureRateTracker.advanceBuckets nowNs).recordTimeout
    { eba with
      failureRateTracker := rates
      circuitBreaker :=
        if (eba.quarantinePolicy.timeoutRateThreshold.toNat : ℚ) <
            rates.timeoutRate eba.quarantinePolicy.observationWindowMs
        then eba.circuitBreaker.tripIfShut nowNs
        else eba.circuitBreaker }

/-- An operator's release from quarantine closes the breaker. -/
def unquarantine : EventBasedActor :=
  { eba with circuitBreaker := eba.circuitBreaker.close }

end EventBasedActor

namespace CircuitBreakerTracker

variable {cb cb' : CircuitBreakerTracker} {cooldownMs : Int} {nowNs : Nat}

/-- A message that just passes leaves the breaker as it was, and no probe is
under way. -/
theorem check_pass (hcheck : cb.check cooldownMs nowNs = (.pass, cb')) :
    cb' = cb ∧ ¬ cb.Probing := by
  unfold check at hcheck
  split at hcheck
  · split at hcheck
    · cases hcheck
    · cases hcheck
  · split at hcheck
    · cases hcheck
    · cases hcheck
  · rename_i hclosed
    cases hcheck
    exact ⟨rfl, by simp [Probing, hclosed]⟩

theorem check_probe (hcheck : cb.check cooldownMs nowNs = (.probe, cb')) :
    cb.wouldProbe cooldownMs nowNs = true := by
  unfold check at hcheck
  unfold wouldProbe
  split at hcheck
  · rename_i hopen
    split at hcheck
    · rename_i hcooled
      simp [hcooled]
    · cases hcheck
  · rename_i hhalf
    split at hcheck
    · cases hcheck
    · rename_i hfree
      simpa using hfree
  · cases hcheck

theorem not_probing_trip : ¬ (cb.trip nowNs).Probing := by
  simp [Probing, trip]

theorem not_probing_close : ¬ cb.close.Probing := by
  simp [Probing, close]

theorem tripIfShut_probing (hprobing : (cb.tripIfShut nowNs).Probing) :
    cb.state = .kOpen ∧ cb.Probing := by
  unfold tripIfShut at hprobing
  split at hprobing
  · exact absurd hprobing not_probing_trip
  · exact absurd hprobing not_probing_trip
  · rename_i hopen
    exact ⟨hopen, hprobing⟩

/-- A breaker that trips, if it can, has no probe under way. -/
theorem not_probing_tripIfShut : ¬ (cb.tripIfShut nowNs).Probing := by
  intro hprobing
  obtain ⟨hopen, hhalf, -⟩ := tripIfShut_probing hprobing
  rw [hopen] at hhalf
  cases hhalf

end CircuitBreakerTracker

namespace EventBasedActor

variable {eba : EventBasedActor} {nowNs : Nat}

theorem recordResult_policy (success : Bool) :
    (eba.recordCircuitBreakerResult success nowNs).quarantinePolicy = eba.quarantinePolicy := by
  unfold recordCircuitBreakerResult
  split_ifs <;> first | rfl | (split <;> rfl)

open CircuitBreakerTracker

/-- Reporting a result never puts a probe under way. -/
theorem recordResult_probing {success : Bool}
    (hprobing : (eba.recordCircuitBreakerResult success nowNs).circuitBreaker.Probing) :
    eba.circuitBreaker.Probing := by
  unfold recordCircuitBreakerResult at hprobing
  split at hprobing
  · exact hprobing
  · split at hprobing
    · split at hprobing
      · exact absurd hprobing not_probing_close
      · exact hprobing
      · exact hprobing
    · split at hprobing
      · exact hprobing
      · dsimp only at hprobing
        split at hprobing
        · exact hprobing
        · exact absurd hprobing not_probing_tripIfShut

/-- A success ends the probe. -/
theorem recordResult_success (henabled : eba.quarantinePolicy.enabled = true) :
    ¬ (eba.recordCircuitBreakerResult true nowNs).circuitBreaker.Probing := by
  intro hprobing
  have hbefore := recordResult_probing hprobing
  unfold recordCircuitBreakerResult at hprobing
  simp only [henabled, not_true_eq_false, if_false, if_true, hbefore.1] at hprobing
  exact not_probing_close hprobing

/-- A failure that is one too many ends the probe. -/
theorem recordResult_failure (henabled : eba.quarantinePolicy.enabled = true)
    (htrips : eba.failureTrips nowNs = true) :
    ¬ (eba.recordCircuitBreakerResult false nowNs).circuitBreaker.Probing := by
  simp only [failureTrips, Bool.and_eq_true, decide_eq_true_eq] at htrips
  have hpos : eba.quarantinePolicy.failureRateThreshold ≠ 0 := by
    intro hzero
    rw [hzero] at htrips
    exact absurd htrips.1 (by decide)
  unfold recordCircuitBreakerResult
  simp only [henabled, not_true_eq_false, if_false, Bool.false_eq_true, hpos,
    if_neg (not_le.mpr htrips.2)]
  exact not_probing_tripIfShut

theorem recordTimeout_policy :
    (eba.recordCircuitBreakerTimeout nowNs).quarantinePolicy = eba.quarantinePolicy := by
  unfold recordCircuitBreakerTimeout
  split_ifs <;> rfl

theorem recordTimeout_probing
    (hprobing : (eba.recordCircuitBreakerTimeout nowNs).circuitBreaker.Probing) :
    eba.circuitBreaker.Probing := by
  unfold recordCircuitBreakerTimeout at hprobing
  split at hprobing
  · exact hprobing
  · split at hprobing
    · exact hprobing
    · dsimp only at hprobing
      split at hprobing
      · exact absurd hprobing not_probing_tripIfShut
      · exact hprobing

end EventBasedActor

end HPActor
