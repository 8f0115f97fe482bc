/-
One remote call through `RpcChannel`.  The channel sends the request again on each timeout until
the deadline of all attempts together; the future that the caller waits on has the time of a single
attempt.  Times are milliseconds since the call.
-/
import HPActor.Runs
import Mathlib.Algebra.GroupWithZero.Nat

namespace HPActor

structure RpcError where
  code : Nat
  text : String

def errors.timeout : Nat := 5

structure PendingCall where
  timeout : Nat
  retryCount : Nat := 0
  maxRetries : Nat
  deadline : Nat

/-- The channel with one call; the promise keeps the time it was set at. -/
structure RpcChannel where
  now : Nat := 0
  pending : Option PendingCall
  promise : Option (Nat × Except RpcError (List UInt8)) := none
  /-- When `on_timeout` is due. -/
  timer : Option Nat
  /-- The requests sent, with the flag of a retry. -/
  requests : List Bool := [false]

namespace RpcChannel

def callRaw (timeout maxRetries : Nat) : RpcChannel where
  pending := some
    { timeout, maxRetries
      deadline := if maxRetries > 0 then timeout * (maxRetries + 1) else timeout }
  timer := some timeout

variable (s : RpcChannel)

/-- The call is over, with this result. -/
def settle (result : Except RpcError (List UInt8)) : RpcChannel :=
  { s with pending := none, promise := some (s.now, result) }

def onResponse (payload : List UInt8) : RpcChannel :=
  match s.pending with
  | none => s
  | some _ => s.settle (.ok payload)

/-- The timeout of the next attempt ends at the deadline at the latest. -/
def scheduleRetry (call : PendingCall) : RpcChannel :=
  { s with
    pending := some call
    timer := some (s.now + min call.timeout (call.deadline - s.now))
    requests := s.requests ++ [true] }

def onTimeout : RpcChannel :=
  match s.pending with
  | none => s
  | some call =>
    if call.deadline ≤ s.now then s.settle (.error ⟨errors.timeout, "RPC deadline expired"⟩)
    else if call.retryCount < call.maxRetries then
      s.scheduleRetry { call with retryCount := call.retryCount + 1 }
    else s.settle (.error ⟨errors.timeout, "RPC call timed out"⟩)

/-- `RpcFuture::get`, called at once: it waits for one timeout. -/
def get (timeout : Nat) : Except RpcError (List UInt8) :=
  match s.promise with
  | some (time, result) =>
    if time < timeout then result else .error ⟨errors.timeout, "RPC call timed out"⟩
  | none => .error ⟨errors.timeout, "RPC call timed out"⟩

inductive Event where
  | response (payload : List UInt8)
  | timer

/-- Some time passes, then a response arrives or the timer fires, which it does not do early. -/
def step (event : Nat × Event) : Option RpcChannel :=
  let later := { s with now := s.now + event.1 }
  match event.2 with
  | .response payload => some (later.onResponse payload)
  | .timer =>
    match s.timer with
    | none => none
    | some due => if due ≤ later.now then some (onTimeout { later with timer := none }) else none

/-- Handling an event leaves the promise alone, or sets it now if the call is pending. -/
theorem step_promise {s t : RpcChannel} {event : Nat × Event} (hstep : s.step event = some t) :
    t.now = s.now + event.1 ∧ (s.pending = none → t.pending = none) ∧
      (t.promise = s.promise ∨ s.pending ≠ none ∧ ∃ result, t.promise = some (t.now, result)) := by
  obtain ⟨delay, payload | _⟩ := event
  · cases hstep
    cases hpending : s.pending <;> simp [onResponse, settle]
  · simp only [step] at hstep
    split at hstep
    · cases hstep
    · split at hstep
      · cases hstep
        cases hpending : s.pending with
        | none => simp [onTimeout]
        | some call =>
          simp only [onTimeout]
          split
          · simp [settle]
          · split <;> simp [scheduleRetry, settle]
      · cases hstep

/-- The caller gets the first response exactly when it arrives within the time of one attempt,
whatever the retries and the deadline are. -/
theorem get_eq_response_iff {timeout maxRetries delay : Nat} {payload : List UInt8}
    {before after : List (Nat × Event)} {s : RpcChannel}
    (htimers : ∀ event ∈ before, event.2 = .timer)
    (hrun : Runs.run step (callRaw timeout maxRetries)
      (before ++ (delay, .response payload) :: after) = some s) :
    s.get timeout = .ok payload ↔ (before.map Prod.fst).sum + delay < timeout := by
  cases before with
  | nil =>
    obtain ⟨mid, hmid, hrest⟩ := Runs.run_cons_eq_some.mp hrun
    cases hmid
    -- the response settles the call, and nothing changes the promise after that
    have hkept := @Runs.run_invariant' _ _ step
      (fun t => t.pending = none ∧ t.promise = some (delay, .ok payload))
      (fun t event u ht hstep => by
        obtain ⟨-, hnone, hsame | ⟨hpending, -⟩⟩ := step_promise hstep
        · exact ⟨hnone ht.1, hsame.trans ht.2⟩
        · exact absurd ht.1 hpending)
      _ _ _ (by simp [callRaw, onResponse, settle]) hrest
    rw [get, hkept.2]
    by_cases hearly : delay < timeout <;> simp [hearly]
  | cons first others =>
    obtain ⟨mid, hmid, hrest⟩ := Runs.run_cons_eq_some.mp hrun
    obtain ⟨wait, event⟩ := first
    cases htimers (wait, event) List.mem_cons_self
    have hwait : timeout ≤ wait := by
      by_contra hearly
      simp [step, callRaw, hearly] at hmid
    -- from the first timeout on it is too late
    have hlate := @Runs.run_invariant' _ _ step
      (fun t => timeout ≤ t.now ∧ ∀ p ∈ t.promise, timeout ≤ p.1)
      (fun t event u ht hstep => by
        obtain ⟨hnow, -, hsame | ⟨-, result, hset⟩⟩ := step_promise hstep
        · exact ⟨by omega, by rw [hsame]; exact ht.2⟩
        · have hlater : timeout ≤ u.now := by omega
          simp [hset, hlater])
      _ _ _ (by
        obtain ⟨hnow, -, hsame | ⟨-, result, hset⟩⟩ := step_promise hmid
        · simp [hnow, hsame, callRaw, hwait]
        · simp [hnow, hset, callRaw, hwait]) hrest
    have hnot : s.get timeout ≠ .ok payload := by
      rw [get]
      split
      · next time result hpromise =>
        rw [if_neg (Nat.not_lt.mpr (hlate.2 _ hpromise))]
        nofun
      · nofun
    refine iff_of_false hnot ?_
    simp only [List.map_cons, List.sum_cons]
    omega

theorem get_early_response : ∃ s,
    Runs.run step (callRaw 10 1) [(9, .response [1])] = some s ∧ s.get 10 = .ok [1] :=
  ⟨_, rfl, (@get_eq_response_iff 10 1 9 [1] [] [] _ nofun rfl).mpr (by decide)⟩

/-- The answer to the retry arrives after 15 of 20 milliseconds; the caller has left after 10. -/
theorem get_misses_retry :
    (Runs.run step (callRaw 10 1) [(10, .timer), (5, .response [1])]).map
      (fun s => (s.requests, s.promise, s.get 10)) =
        some ([false, true], some (15, .ok [1]),
          .error ⟨errors.timeout, "RPC call timed out"⟩) := rfl

end RpcChannel

end HPActor
