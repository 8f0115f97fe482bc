/-
The probes of a half-open breaker.  The breaker counts the messages it lets
through, and learns of their fate only through connection events.  A probe that
is queued will see the next connection event; a probe that is handed to a live
connection is never heard of again.
-/
import HPActor.ConnectionPool

namespace HPActor

open Function EndpointCircuitBreaker PoolPhase List

namespace EndpointCircuitBreaker

variable (b : EndpointCircuitBreaker) (now : Nat)

theorem recordSuccess_state : b.recordSuccess.state ≠ .halfOpen := by
  rw [recordSuccess]
  cases hstate : b.state with
  | closed | halfOpen => exact fun heq => by cases heq
  | «open» =>
    rw [hstate]
    decide

theorem recordFailure_state : (b.recordFailure now).state ≠ .halfOpen := by
  rw [recordFailure]
  cases hstate : b.state with
  | closed =>
    dsimp only
    split
    · exact fun heq => by cases heq
    · exact fun heq => by cases heq
  | «open» =>
    rw [hstate]
    decide
  | halfOpen => exact fun heq => by cases heq

@[simp] theorem recordSuccess_config : b.recordSuccess.config = b.config := by
  rw [recordSuccess]
  split <;> rfl

@[simp] theorem recordFailure_config : (b.recordFailure now).config = b.config := by
  rw [recordFailure]
  split
  · dsimp only
    split <;> rfl
  · rfl
  · rfl

@[simp] theorem allowSend_config : (b.allowSend now).1.config = b.config := by
  rw [allowSend]
  split
  · rfl
  · rfl
  · split <;> rfl

variable {b now}

/-- A breaker that is half open after a send check either was so before, or the
send is the first probe and is let through. -/
theorem allowSend_halfOpen (hlimit : 1 ≤ b.config.halfOpenProbeLimit)
    (hafter : (b.allowSend now).1.state = .halfOpen) :
    b.state = .halfOpen ∨ (b.state = .open ∧ (b.allowSend now).2 = true) := by
  rw [allowSend] at hafter ⊢
  cases hstate : b.state with
  | closed =>
    rw [hstate] at hafter
    dsimp only at hafter
    rw [hstate] at hafter
    cases hafter
  | halfOpen => exact .inl rfl
  | «open» =>
    rw [hstate] at hafter
    refine .inr ⟨rfl, ?_⟩
    dsimp only at hafter ⊢
    split at hafter
    · rename_i helapsed
      rw [if_pos helapsed]
      exact decide_eq_true hlimit
    · rw [hstate] at hafter
      cases hafter

/-- A breaker that refuses every send is half open with its quota used up. -/
theorem refuses_all (hlimit : 1 ≤ b.config.halfOpenProbeLimit)
    (hrefused : ∀ now, (b.allowSend now).2 = false) :
    b.state = .halfOpen ∧ b.config.halfOpenProbeLimit ≤ b.halfOpenProbes := by
  cases hstate : b.state with
  | closed =>
    have hnow := hrefused 0
    rw [allowSend, hstate] at hnow
    cases hnow
  | «open» =>
    have hnow := hrefused (b.openedAt + b.config.cooldown)
    rw [allowSend, hstate] at hnow
    dsimp only at hnow
    rw [if_pos le_rfl] at hnow
    exact absurd hlimit (of_decide_eq_false hnow)
  | halfOpen =>
    have hnow := hrefused 0
    rw [allowSend, hstate] at hnow
    exact ⟨rfl, Nat.not_lt.mp (of_decide_eq_false hnow)⟩

end EndpointCircuitBreaker

namespace PoolPhase

/-- A thread with a probe that is not queued yet. -/
def isProbing : PoolPhase → Bool
  | .admitted _ isProbe | .unfound _ isProbe => isProbe
  | _ => false

theorem isFree_isProbing {phase : PoolPhase} (hfree : phase.isFree = true) :
    phase.isProbing = false := by
  cases phase <;> first | rfl | cases hfree

end PoolPhase

namespace ConnectionPool

variable {n : Nat} {s s' : ConnectionPool n} {t : Fin n}

/-- A probe is queued, or a sender is about to queue one. -/
def Outstanding (s : ConnectionPool n) : Prop :=
  (∃ msg ∈ s.outboundQueue.dataLane, msg ∈ s.probes) ∨ ∃ u, (s.threads u).isProbing = true

variable {phase : PoolPhase} {now : Nat} {msg : PendingMessage}

theorem Outstanding.keep (hs : s.Outstanding)
    (hlane : ∀ msg ∈ s.outboundQueue.dataLane, msg ∈ s'.outboundQueue.dataLane)
    (hprobes : ∀ msg ∈ s.probes, msg ∈ s'.probes) (hthreads : s'.threads = update s.threads t phase)
    (hphase : (s.threads t).isProbing = true → phase.isProbing = true) :
    s'.Outstanding := by
  rcases hs with ⟨msg, hmem, hprobe⟩ | ⟨u, hu⟩
  · exact .inl ⟨msg, hlane msg hmem, hprobes msg hprobe⟩
  · refine .inr ⟨u, ?_⟩
    rw [hthreads]
    by_cases hut : u = t
    · subst hut
      rw [update_self]
      exact hphase hu
    · rwa [update_of_ne hut]

/-- What a probing thread carries is known to be a probe, and a half-open
breaker has one outstanding. -/
structure Probed (s : ConnectionPool n) : Prop where
  limit : 1 ≤ s.circuitBreaker.config.halfOpenProbeLimit
  admitted : ∀ u msg, s.threads u = .admitted msg true → msg ∈ s.probes
  unfound : ∀ u msg, s.threads u = .unfound msg true → msg ∈ s.probes
  outstanding : s.circuitBreaker.state = .halfOpen → s.Outstanding

theorem probed_start (n : Nat) {config : PoolConfig}
    (hlimit : 1 ≤ config.circuitBreakerCfg.halfOpenProbeLimit) :
    (start n config).Probed where
  limit := hlimit
  admitted := fun _ _ hphase => by cases hphase
  unfound := fun _ _ hphase => by cases hphase
  outstanding := fun hstate => by cases hstate

section

variable (hs : s.Probed)
include hs

/-- A step of a thread that is not probing afterwards. -/
theorem Probed.setThread (hlimit : s'.circuitBreaker.config = s.circuitBreaker.config)
    (hprobes : ∀ msg ∈ s.probes, msg ∈ s'.probes) (hthreads : s'.threads = update s.threads t phase)
    (hphase : ∀ msg, phase = .admitted msg true ∨ phase = .unfound msg true → msg ∈ s'.probes)
    (houtstanding : s'.circuitBreaker.state = .halfOpen → s'.Outstanding) :
    s'.Probed where
  limit := by rw [hlimit]; exact hs.limit
  admitted := by
    intro u msg hu
    rw [hthreads] at hu
    by_cases hut : u = t
    · subst hut
      rw [update_self] at hu
      exact hphase msg (.inl hu)
    · rw [update_of_ne hut] at hu
      exact hprobes msg (hs.admitted u msg hu)
  unfound := by
    intro u msg hu
    rw [hthreads] at hu
    by_cases hut : u = t
    · subst hut
      rw [update_self] at hu
      exact hphase msg (.inr hu)
    · rw [update_of_ne hut] at hu
      exact hprobes msg (hs.unfound u msg hu)
  outstanding := houtstanding

/-- A step that has nothing to do with probes. -/
theorem Probed.idle (hbreaker : s'.circuitBreaker = s.circuitBreaker)
    (hlane : ∀ msg ∈ s.outboundQueue.dataLane, msg ∈ s'.outboundQueue.dataLane)
    (hprobes : s'.probes = s.probes)
    (hthreads : s'.threads = update s.threads t phase)
    (hbefore : (s.threads t).isProbing = false)
    (hafter : phase.isProbing = false) : s'.Probed := by
  refine hs.setThread (by rw [hbreaker]) (by rw [hprobes]; exact fun _ h => h) hthreads ?_ ?_
  · rintro msg (rfl | rfl) <;> cases hafter
  · intro hstate
    rw [hbreaker] at hstate
    refine (hs.outstanding hstate).keep hlane (by rw [hprobes]; exact fun _ h => h) hthreads ?_
    intro hprobing
    rw [hbefore] at hprobing
    cases hprobing

/-- A sender asks the breaker. -/
theorem Probed.check (hphase : s.threads t = .checked msg)
    (hmove : s.move t now = some s') : s'.Probed := by
  simp only [move, hphase] at hmove
  have hbefore : (s.threads t).isProbing = true → False := by
    rw [hphase]
    exact Bool.false_ne_true
  have hhalf := @EndpointCircuitBreaker.allowSend_halfOpen s.circuitBreaker now hs.limit
  split at hmove
  · cases hmove
    have hgrow : ∀ other ∈ s.probes, other ∈
        (if decide (s.circuitBreaker.state ≠ .closed) = true then
          msg :: s.probes else s.probes) := by
      intro other hmem
      split
      · exact mem_cons_of_mem msg hmem
      · exact hmem
    refine hs.setThread (allowSend_config _ _) hgrow rfl ?_ ?_
    · rintro other (heq | heq)
      · obtain ⟨rfl, hprobe⟩ := admitted.inj heq
        change msg ∈ if decide (s.circuitBreaker.state ≠ .closed) = true then
          msg :: s.probes else s.probes
        rw [if_pos hprobe]
        exact mem_cons_self
      · cases heq
    · intro hstate
      rcases hhalf hstate with hold | ⟨hopen, -⟩
      · exact (hs.outstanding hold).keep (fun _ hmem => hmem) hgrow rfl
          fun hprobing => (hbefore hprobing).elim
      · refine .inr ⟨t, ?_⟩
        change (update s.threads t _ t).isProbing = true
        rw [update_self]
        change decide (s.circuitBreaker.state ≠ .closed) = true
        rw [hopen]
        rfl
  · rename_i hrefused
    cases hmove
    refine hs.setThread (allowSend_config _ _) (fun _ hmem => hmem) rfl ?_ ?_
    · rintro other (heq | heq) <;> cases heq
    · intro hstate
      rcases hhalf hstate with hold | ⟨-, hallowed⟩
      · exact (hs.outstanding hold).keep (fun _ hmem => hmem)
          (fun _ hmem => hmem) rfl fun hprobing => (hbefore hprobing).elim
      · exact absurd hallowed hrefused

/-- A sender looks for a connection; a probe finds none. -/
theorem Probed.look {isProbe : Bool} (hphase : s.threads t = .admitted msg isProbe)
    (hprobing : isProbe = true → s.activeConnections = [])
    (hmove : s.move t now = some s') : s'.Probed := by
  simp only [move, hphase] at hmove
  have hsame : (s.threads t).isProbing = isProbe := by
    rw [hphase]
    rfl
  rcases s.getConnection_cases with ⟨-, hnone⟩ | ⟨hactive, conn, hsome⟩
  · rw [hnone] at hmove
    cases hmove
    refine hs.setThread rfl (fun _ hmem => hmem) rfl ?_ ?_
    · rintro other (heq | heq)
      · cases heq
      · obtain ⟨rfl, rfl⟩ := unfound.inj heq
        exact hs.admitted t msg hphase
    · intro hstate
      refine (hs.outstanding hstate).keep (fun _ hmem => hmem)
        (fun _ hmem => hmem) rfl fun hprobe => ?_
      rw [← hprobe, hsame]
      rfl
  · have hplain : isProbe = false :=
      Bool.eq_false_iff.mpr fun hprobe => hactive (hprobing hprobe)
    rw [hsome] at hmove
    cases hmove
    exact hs.idle rfl (fun _ hmem => hmem) rfl rfl (hsame.trans hplain) rfl

/-- A sender that found no connection; there is room for a probe. -/
theorem Probed.enqueue {isProbe : Bool} (hphase : s.threads t = .unfound msg isProbe)
    (hroom : isProbe = true → (s.enqueue msg).2 = .sent)
    (hmove : s.move t now = some s') : s'.Probed := by
  simp only [move, hphase] at hmove
  cases hmove
  have hlane : ∀ other ∈ s.outboundQueue.dataLane, other ∈ (s.enqueue msg).1.dataLane := by
    intro other hmem
    rw [enqueue]
    rcases s.outboundQueue.tryEnqueue_user msg .bestEffort with
      ⟨-, hdata, -⟩ | ⟨-, hsame⟩
    · rw [hdata]
      exact mem_append_left _ hmem
    · rwa [hsame]
  cases isProbe with
  | false =>
    exact hs.idle rfl hlane rfl rfl (by rw [hphase]; rfl) rfl
  | true =>
    refine hs.setThread rfl (fun _ hmem => hmem) rfl ?_ ?_
    · rintro other (heq | heq) <;> cases heq
    · intro _
      refine .inl ⟨msg, ?_, hs.unfound t msg hphase⟩
      have hsent := hroom rfl
      rw [enqueue] at hsent
      change msg ∈ (s.enqueue msg).1.dataLane
      rw [enqueue]
      rcases s.outboundQueue.tryEnqueue_user msg .bestEffort with
        ⟨-, hdata, -⟩ | ⟨hfull, -⟩
      · rw [hdata]
        exact mem_append_right _ mem_cons_self
      · rw [hfull] at hsent
        cases hsent

/-- A step after which the breaker is not half open. -/
theorem Probed.settled (hconfig : s'.circuitBreaker.config = s.circuitBreaker.config)
    (hprobes : s'.probes = s.probes)
    (hthreads : s'.threads = update s.threads t phase)
    (hafter : phase.isProbing = false)
    (hstate : s'.circuitBreaker.state ≠ .halfOpen) : s'.Probed := by
  refine hs.setThread hconfig (by rw [hprobes]; exact fun _ h => h) hthreads ?_
    fun hhalf => absurd hhalf hstate
  rintro msg (rfl | rfl) <;> cases hafter

theorem Probed.move (hprobing : s.Probing (.move t now))
    (hmove : s.move t now = some s') : s'.Probed := by
  cases hphase : s.threads t with
  | checked msg => exact hs.check hphase hmove
  | admitted msg isProbe =>
    refine hs.look hphase (fun hprobe => ?_) hmove
    rw [hprobe] at hphase
    simpa only [Probing, ProbingIn, hphase] using hprobing
  | unfound msg isProbe =>
    refine hs.enqueue hphase (fun hprobe => ?_) hmove
    rw [hprobe] at hphase
    simpa only [Probing, ProbingIn, hphase] using hprobing
  | idle | returned =>
    simp only [ConnectionPool.move, hphase] at hmove
    cases hmove
  | entered msg =>
    simp only [ConnectionPool.move, hphase] at hmove
    cases hmove
    refine hs.idle rfl (fun _ hmem => hmem) rfl rfl (by rw [hphase]; rfl) ?_
    split <;> rfl
  | found msg conn | handing msg conn =>
    simp only [ConnectionPool.move, hphase] at hmove
    cases hmove
    exact hs.idle rfl (fun _ hmem => hmem) rfl rfl (by rw [hphase]; rfl) rfl
  | readied =>
    simp only [ConnectionPool.move, hphase] at hmove
    cases hmove
    exact hs.settled (recordSuccess_config _) rfl rfl
      rfl (recordSuccess_state _)
  | flushing =>
    have hstate : s.circuitBreaker.state ≠ .halfOpen := by
      simpa only [Probing, ProbingIn, hphase] using hprobing
    simp only [ConnectionPool.move, hphase] at hmove
    split at hmove
    all_goals
      cases hmove
      exact hs.settled rfl rfl rfl rfl hstate
  | dequeued msg =>
    simp only [ConnectionPool.move, hphase] at hmove
    rcases s.getConnection_cases with ⟨-, hconn⟩ | ⟨-, conn, hconn⟩
    all_goals
      rw [hconn] at hmove
      cases hmove
      exact hs.idle rfl (fun _ hmem => hmem) rfl rfl (by rw [hphase]; rfl) rfl
  | erased =>
    simp only [ConnectionPool.move, hphase] at hmove
    cases hmove
    exact hs.settled (recordFailure_config _ _) rfl rfl
      rfl (recordFailure_state _ _)
  | failed =>
    simp only [ConnectionPool.move, hphase, scheduleReconnect] at hmove
    split at hmove
    all_goals
      cases hmove
      exact hs.idle rfl (fun _ hmem => hmem) rfl rfl (by rw [hphase]; rfl) rfl

theorem Probed.step {action : Action n} (hprobing : s.Probing action)
    (hstep : s.step action = some s') : s'.Probed := by
  cases action with
  | trySend t msg | onConnectionReady t conn | onConnectionError t conn =>
    rw [ConnectionPool.step] at hstep
    obtain ⟨hfree, ⟨⟩⟩ := Option.ite_none_right_eq_some.mp hstep
    exact hs.idle rfl (fun _ hmem => hmem) rfl rfl (isFree_isProbing hfree) rfl
  | addConnection conn | reconnectTimer =>
    cases hstep
    exact ⟨hs.limit, hs.admitted, hs.unfound, hs.outstanding⟩
  | move t now => exact hs.move hprobing hstep

end

/-- In a run whose probes find no connection and are queued, a half-open breaker
with its quota used up has a probe outstanding, and so has a breaker that
refuses every send. -/
theorem probes_stay_outstanding {config : PoolConfig} {actions : List (Action n)}
    (hlimit : 1 ≤ config.circuitBreakerCfg.halfOpenProbeLimit)
    (hprobing : Runs.EachStep step Probing (start n config) actions)
    (hrun : Runs.run step (start n config) actions = some s) :
    (s.circuitBreaker.state = .halfOpen → s.circuitBreaker.config.halfOpenProbeLimit ≤
        s.circuitBreaker.halfOpenProbes → s.Outstanding) ∧
    ((∀ now, (s.circuitBreaker.allowSend now).2 = false) → s.Outstanding) := by
  have hs : s.Probed := Runs.run_invariant
    (fun _ _ _ hs hcond hstep => hs.step hcond hstep) (probed_start n hlimit)
    hprobing hrun
  exact ⟨fun hstate _ => hs.outstanding hstate,
    fun hrefused => hs.outstanding (EndpointCircuitBreaker.refuses_all hs.limit hrefused).1⟩

namespace ProbeWitness

open PoolWitness

/-- One failure opens the breaker. -/
def touchy : PoolConfig :=
  { circuitBreakerCfg := { failureThreshold := 1, cooldown := 10 } }

/-- Half open, with the only probe used up. -/
def spent : EndpointCircuitBreaker :=
  { config := touchy.circuitBreakerCfg, state := .halfOpen, failureCount := 1,
    halfOpenProbes := 1 }

/-- A connection fails; after the cooldown a probe is queued. -/
def queuedProbe : List (Action 2) :=
  [.onConnectionError loop 5] ++ moves loop 2 0 ++ [.trySend sender (message 1)] ++
    moves sender 4 20

theorem queued_probe_outstanding :
    ∃ s, Runs.run step (start 2 touchy) queuedProbe = some s ∧
      s.circuitBreaker.state = .halfOpen ∧ s.circuitBreaker.halfOpenProbes = 1 ∧
      s.Outstanding := by
  have hview : (Runs.run step (start 2 touchy) queuedProbe).map
      (fun s => s.circuitBreaker) = some spent := by
    decide +kernel
  obtain ⟨s, hrun, hbreaker⟩ := Option.map_eq_some_iff.mp hview
  have hprobes := probes_stay_outstanding (Nat.le_refl 1) (by decide +kernel) hrun
  exact ⟨s, hrun, by rw [hbreaker]; rfl, by rw [hbreaker]; rfl,
    hprobes.1 (by rw [hbreaker]; rfl) (by rw [hbreaker]; decide)⟩

/-- The next connection is ready while the breaker is open, which takes no
notice; the probe is handed to it. -/
def handedProbe : List (Action 2) :=
  [.onConnectionError loop 5] ++ moves loop 2 0 ++
    [.reconnectTimer, .onConnectionReady loop 7] ++ moves loop 2 0 ++
    [.trySend sender (message 1)] ++ moves sender 4 20

/-- A connection is live, nothing is queued or under way, no reconnect is
scheduled, and every send is refused. -/
theorem handed_probe_stuck :
    ∃ s, Runs.run step (start 2 touchy) handedProbe = some s ∧
      s.activeConnections = [7] ∧ s.queued = [] ∧
      s.reconnectScheduled = false ∧ (∀ u, (s.threads u).isFree = true) ∧
      ∀ now, (s.circuitBreaker.allowSend now).2 = false := by
  have hview : (Runs.run step (start 2 touchy) handedProbe).map (fun s =>
      decide (s.circuitBreaker = spent ∧ s.activeConnections = [7] ∧
        s.queued = [] ∧ s.reconnectScheduled = false ∧
        (s.threads loop).isFree = true ∧ (s.threads sender).isFree = true)) =
      some true := by
    decide +kernel
  obtain ⟨s, hrun, hfacts⟩ := Option.map_eq_some_iff.mp hview
  obtain ⟨hbreaker, hactive, hqueued, htimer, hfirst, hsecond⟩ :=
    of_decide_eq_true hfacts
  refine ⟨s, hrun, hactive, hqueued, htimer, ?_, fun now => ?_⟩
  · exact Fin.forall_fin_two.mpr ⟨hfirst, hsecond⟩
  · rw [hbreaker]
    rfl

end ProbeWitness

end ConnectionPool

end HPActor
