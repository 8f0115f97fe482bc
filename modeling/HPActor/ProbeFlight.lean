/-
Deliveries and dispatches together: what keeps a half-open breaker from being
stuck is the probe, which has to be in the mailbox or with the actor until its
result is reported.  The pipeline sets the flag in its first stage and never
takes it back, so this holds in the runs in which every probe gets through.
-/
import HPActor.DeliveryPipeline
import HPActor.MailboxContents

namespace HPActor

open Runs Pipeline Option EventBasedActor Mailbox

/-- How the dispatch of a message ends: a handler took it, it could not be
decoded, a gate in front of the handlers (or the expiry check of the runner)
dropped it, or it was an operator's release from quarantine. -/
inductive DispatchOutcome where
  | handled
  | undecodable
  | dropped
  | released
deriving Repr, DecidableEq

/-- What the actor reports to its breaker after a dispatch. -/
def EventBasedActor.afterDispatch (eba : EventBasedActor) (msg : TypedMessage)
    (outcome : DispatchOutcome) (nowNs : Nat) : EventBasedActor :=
  match outcome with
  | .handled =>
    if msg.isSystem then eba else eba.recordCircuitBreakerResult true nowNs
  | .undecodable =>
    if msg.isSystem then eba else eba.recordCircuitBreakerResult false nowNs
  | .dropped => eba
  | .released => if msg.isSystem then eba.unquarantine else eba

theorem EventBasedActor.afterDispatch_policy (eba : EventBasedActor)
    (msg : TypedMessage) (outcome : DispatchOutcome) (nowNs : Nat) :
    (eba.afterDispatch msg outcome nowNs).quarantinePolicy = eba.quarantinePolicy := by
  unfold afterDispatch
  split
  · split
    · rfl
    · exact recordResult_policy true
  · split
    · rfl
    · exact recordResult_policy false
  · rfl
  · split
    · rfl
    · rfl

variable {eba : EventBasedActor} {msg : TypedMessage} {outcome : DispatchOutcome} {nowNs : Nat}

/-- No dispatch starts a probe. -/
theorem EventBasedActor.afterDispatch_probing
    (hprobing : (eba.afterDispatch msg outcome nowNs).circuitBreaker.Probing) :
    eba.circuitBreaker.Probing := by
  unfold afterDispatch at hprobing
  split at hprobing
  · split at hprobing
    · exact hprobing
    · exact recordResult_probing hprobing
  · split at hprobing
    · exact hprobing
    · exact recordResult_probing hprobing
  · exact hprobing
  · split at hprobing
    · exact absurd hprobing CircuitBreakerTracker.not_probing_close
    · exact hprobing

/-- A success, and a failure that is one too many, end the probe. -/
theorem EventBasedActor.afterDispatch_ends (henabled : eba.quarantinePolicy.enabled = true)
    (huser : msg.isSystem = false)
    (houtcome : outcome = .handled ∨ outcome = .undecodable ∧ eba.failureTrips nowNs = true) :
    ¬ (eba.afterDispatch msg outcome nowNs).circuitBreaker.Probing := by
  rcases houtcome with rfl | ⟨rfl, htrips⟩
  · simp only [afterDispatch, huser, Bool.false_eq_true, if_false]
    exact recordResult_success henabled
  · simp only [afterDispatch, huser, Bool.false_eq_true, if_false]
    exact recordResult_failure henabled htrips

/-- The pipeline, and the message each actor is working on. -/
structure Flight where
  pipeline : Pipeline
  dispatching : UInt64 → Option TypedMessage := fun _ => none

inductive FlightAct where
  | deliver (d : Delivery)
  | take (actor : UInt64)
  | finish (actor : UInt64) (outcome : DispatchOutcome) (nowNs : Nat)
  | timeout (actor : UInt64) (nowNs : Nat)

namespace Flight

variable (f : Flight) (actor : UInt64)

def setDispatching (msg : Option TypedMessage) : Flight :=
  { f with dispatching := Function.update f.dispatching actor msg }

def setEntry (f : Flight) (actor : UInt64) (entry : ActorEntry) : Flight :=
  { f with pipeline := f.pipeline.setEntry actor entry }

/-- The actor takes the next message out of its mailbox, if it gets one. -/
def takeNext (entry : ActorEntry) (box : VariableMailbox) : Flight :=
  (f.setEntry actor
    { entry with
      mailbox := some { box with state := (box.state.tryPop box.setup).1 }
      }).setDispatching actor (box.state.tryPop box.setup).2

/-- Change the breaker of an event-based actor. -/
def updateActor (change : EventBasedActor → EventBasedActor) : Flight :=
  match f.pipeline.actors actor with
  | none => f
  | some entry =>
    match entry.eventBased with
    | none => f
    | some eba => f.setEntry actor (entry.setActor (change eba))

/-- The mailbox pressure that is looked at after a dispatch is left out: it can
trip the breaker and do nothing else to it. -/
def step (s : PipelineSetup) (f : Flight) : FlightAct → Option Flight
  | .deliver d => some { f with pipeline := (f.pipeline.tryDeliver s d).1 }
  | .take actor =>
    match f.dispatching actor, f.pipeline.actors actor with
    | none, some entry =>
      match entry.mailbox with
      | some box => some (f.takeNext actor entry box)
      | none => none
    | _, _ => none
  | .finish actor outcome nowNs =>
    match f.dispatching actor with
    | none => none
    | some msg =>
      some ((f.setDispatching actor none).updateActor actor (·.afterDispatch msg outcome nowNs))
  | .timeout actor nowNs =>
    some (f.updateActor actor (·.recordCircuitBreakerTimeout nowNs))

/-- A message that would be let through as a probe is neither expired nor a
duplicate, and its mailbox admits it and has room for it. -/
def ProbeFits (s : PipelineSetup) (p : Pipeline) (d : Delivery) : Prop :=
  ∀ entry ∈ p.actors d.target, ∀ box ∈ entry.mailbox, wouldProbe entry d = true →
      isExpired (applyDefaultTtl s d.deadlineNs d.clock.ttl) d.clock.expiry = false ∧
      p.seen d = false ∧
      box.state.admits box.setup (stamped d (applyDefaultTtl s d.deadlineNs d.clock.ttl))
        (envelope d (applyDefaultTtl s d.deadlineNs d.clock.ttl)) = true ∧
      Mailbox.HasRoom box.setup box.state (box.setup.bytes d.msg)

instance (s : PipelineSetup) (p : Pipeline) (d : Delivery) : Decidable (ProbeFits s p d) :=
  inferInstanceAs (Decidable (∀ entry ∈ _, ∀ box ∈ _, _ → _))

/-- The dispatch of a probe, while the breaker waits for it, ends with a success
or with a failure that trips the breaker. -/
def ProbeReports (outcome : DispatchOutcome) (nowNs : Nat) : Prop :=
  ∀ msg ∈ f.dispatching actor, ∀ entry ∈ f.pipeline.actors actor, ∀ eba ∈ entry.eventBased,
      msg.ticket ∈ f.pipeline.probes → eba.circuitBreaker.Probing → outcome = .handled ∨
          outcome = .undecodable ∧ eba.failureTrips nowNs = true

instance (f : Flight) (actor : UInt64) (outcome : DispatchOutcome)
    (nowNs : Nat) : Decidable (f.ProbeReports actor outcome nowNs) :=
  inferInstanceAs (Decidable (∀ msg ∈ _, ∀ entry ∈ _, ∀ eba ∈ _, _ → _ → _))

def Kept (s : PipelineSetup) (f : Flight) : FlightAct → Prop
  | .deliver d => ProbeFits s f.pipeline (f.pipeline.numbered d)
  | .finish actor outcome nowNs => f.ProbeReports actor outcome nowNs
  | .take _ | .timeout _ _ => True

instance (s : PipelineSetup) (f : Flight) : (act : FlightAct) → Decidable (f.Kept s act) := by
  intro act
  unfold Kept
  split <;> infer_instance

/-- The message is in the actor's mailbox, or the actor is working on it. -/
def Holds (entry : ActorEntry) (msg : TypedMessage) : Prop :=
  (∃ box, entry.mailbox = some box ∧ msg ∈ box.state.lanes.contents) ∨
    f.dispatching actor = some msg

/-- If the actor's breaker waits for a probe, there is one. -/
def ProbeLive : Prop :=
  ∀ entry eba, f.pipeline.actors actor = some entry →
    entry.eventBased = some eba → eba.circuitBreaker.Probing →
    eba.quarantinePolicy.enabled = true ∧ ∃ msg, f.Holds actor entry msg ∧ msg.isSystem = false ∧
        msg.ticket ∈ f.pipeline.probes

def AllLive : Prop := ∀ actor, f.ProbeLive actor

variable {s : PipelineSetup} {f g : Flight} {actor : UInt64}

section

variable (hlive : f.ProbeLive actor) (hprobes : f.pipeline.probes ⊆ g.pipeline.probes)
include hlive hprobes

/-- An entry and a set of probes carry the invariant on when nothing was taken
away from the actor. -/
theorem ProbeLive.mono
    (hkept : ∀ entry' eba', g.pipeline.actors actor = some entry' →
      entry'.eventBased = some eba' → eba'.circuitBreaker.Probing →
      ∃ entry eba, f.pipeline.actors actor = some entry ∧
      entry.eventBased = some eba ∧ eba.circuitBreaker.Probing ∧
      eba'.quarantinePolicy = eba.quarantinePolicy ∧
      ∀ msg, msg.isSystem = false → msg.ticket ∈ f.pipeline.probes →
      f.Holds actor entry msg → g.Holds actor entry' msg) : g.ProbeLive actor := by
  intro entry' eba' hentry' heba' hprobing'
  obtain ⟨entry, eba, hentry, heba, hprobing, hpolicy, hholds⟩ :=
    hkept entry' eba' hentry' heba' hprobing'
  obtain ⟨henabled, msg, hmsg, huser, hticket⟩ :=
    hlive entry eba hentry heba hprobing
  exact ⟨hpolicy ▸ henabled, msg, hholds msg huser hticket hmsg, huser, hprobes hticket⟩

/-- An actor whose entry and dispatch are the same keeps its probe. -/
theorem ProbeLive.of_same (hactors : g.pipeline.actors actor = f.pipeline.actors actor)
    (hdispatching : g.dispatching actor = f.dispatching actor) :
    g.ProbeLive actor := by
  apply hlive.mono hprobes
  intro entry eba hentry heba hprobing
  refine ⟨entry, eba, hactors ▸ hentry, heba, hprobing, rfl, ?_⟩
  intro msg _ _ hholds
  exact hholds.imp_right (hdispatching.trans ·)

end

variable {entry : ActorEntry} {d : Delivery} {p : Pipeline} {box : VariableMailbox}
  {target : UInt64} {change : EventBasedActor → EventBasedActor}

/-- A message that passes a breaker in wait is a system message, and displaces
nothing. -/
theorem ProbeLive.pushed {deadlineNs : Int} (hlive : f.ProbeLive d.target)
    (hentry : f.pipeline.actors d.target = some entry) (hbox : entry.mailbox = some box)
    (hpass : checkCircuitBreaker entry d = (.pass, entry))
    (hlands : Lands f.pipeline p d deadlineNs entry box) :
    ({ f with pipeline := p } : Flight).ProbeLive d.target := by
  obtain ⟨gate, htouch⟩ := hlands
  apply hlive.mono (htouch.probes ▸ List.Subset.refl _)
  intro entry' eba hentry' heba hprobing
  obtain rfl : landed d deadlineNs entry box gate = entry' :=
    some.inj (htouch.self.symm.trans hentry')
  refine ⟨entry, eba, hentry, heba, hprobing, rfl, ?_⟩
  rintro msg - - (⟨box', hbox', hmem⟩ | hdispatching)
  · obtain rfl : box = box' := some.inj (hbox.symm.trans hbox')
    have hsystem : isSystemMessage d.msg.typeId = true := by
      by_contra huser
      exact (checkCircuitBreaker_pass hpass).2 eba heba
        (hlive entry eba hentry heba hprobing).1 (by simpa using huser)
        hprobing
    exact .inl ⟨_, rfl, Multiset.mem_of_le (tryPush_system_keeps hsystem) hmem⟩
  · exact .inr hdispatching

/-- A probe that gets through is in the mailbox. -/
theorem ProbeLive.probe {deadlineNs : Int} {checked : ActorEntry}
    (hprobe : checkCircuitBreaker entry d = (.probe, checked))
    (hadmits : box.state.admits box.setup (stamped d deadlineNs) (envelope d deadlineNs) = true)
    (hroom : Mailbox.HasRoom box.setup box.state (box.setup.bytes d.msg))
    (hlands : Lands (f.pipeline.addProbe d.msg.ticket) p d deadlineNs checked box) :
    ({ f with pipeline := p } : Flight).ProbeLive d.target := by
  obtain ⟨gate, htouch⟩ := hlands
  obtain ⟨-, huser, -, eba, heba, henabled⟩ :=
    checkCircuitBreaker_probe hprobe
  intro entry' eba' hentry' heba' _
  obtain rfl : landed d deadlineNs checked box gate = entry' :=
    some.inj (htouch.self.symm.trans hentry')
  obtain rfl : eba = eba' := some.inj (heba.symm.trans heba')
  refine ⟨henabled, stamped d deadlineNs, .inl ⟨_, rfl, ?_⟩, huser, ?_⟩
  · exact tryPush_user_mem huser hadmits hroom
  · change d.msg.ticket ∈ p.probes
    rw [htouch.probes]
    exact List.mem_cons_self

theorem ProbeLive.other {p' : Pipeline} (hlive : f.ProbeLive actor)
    (hprobes : f.pipeline.probes ⊆ p.probes) (hactors : p.actors = f.pipeline.actors)
    (htouch : Touches p p' target entry) (hne : actor ≠ target) :
    ({ f with pipeline := p' } : Flight).ProbeLive actor := by
  apply hlive.of_same
  · exact htouch.probes ▸ hprobes
  · rw [htouch.others actor hne, hactors]
  · rfl

/-- A call keeps the invariant at every actor. -/
theorem ProbeLive.call (hlive : f.ProbeLive actor) (hfits : ProbeFits s f.pipeline d)
    (heffect : CallEffect s f.pipeline p d) :
    ({ f with pipeline := p } : Flight).ProbeLive actor := by
  cases heffect with
  | same hsame =>
    exact hlive.of_same (hsame.probes ▸ List.Subset.refl _) (congrFun hsame.actors actor) rfl
  | @fixed entry binding hentry hnone htouch =>
    by_cases hactor : actor = d.target
    · subst hactor
      apply hlive.mono (htouch.probes ▸ List.Subset.refl _)
      intro entry' eba hentry' heba hprobing
      obtain rfl := some.inj (htouch.self.symm.trans hentry')
      refine ⟨entry, eba, hentry, heba, hprobing, rfl, ?_⟩
      intro msg _ _ hholds
      exact hholds
    · exact hlive.other (List.Subset.refl _) rfl htouch hactor
  | pushed hentry hbox hpass hlands =>
    by_cases hactor : actor = d.target
    · subst hactor
      exact hlive.pushed hentry hbox hpass hlands
    · obtain ⟨gate, htouch⟩ := hlands
      exact hlive.other (List.Subset.refl _) rfl htouch hactor
  | lostProbe hentry hbox hprobe htouch hlost =>
    obtain ⟨hunexpired, hunseen, -⟩ := hfits _ hentry _ hbox (checkCircuitBreaker_probe hprobe).1
    rw [hunexpired, hunseen] at hlost
    simp at hlost
  | probe hentry hbox hprobe hlands =>
    obtain ⟨-, -, hadmits, hroom⟩ := hfits _ hentry _ hbox (checkCircuitBreaker_probe hprobe).1
    by_cases hactor : actor = d.target
    · subst hactor
      exact ProbeLive.probe hprobe hadmits hroom hlands
    · obtain ⟨gate, htouch⟩ := hlands
      refine hlive.other ?_ ?_ htouch hactor
      · exact List.subset_cons_self _ _
      · rfl

theorem setEntry_actors_of_ne {other : UInt64} (hne : actor ≠ other) :
    (f.setEntry other entry).pipeline.actors actor = f.pipeline.actors actor :=
  (setEntry_touches _ _).others actor hne

/-- What an actor takes out of its mailbox it works on. -/
theorem ProbeLive.takeNext (hlive : f.ProbeLive actor) (hidle : f.dispatching target = none)
    (hentry : f.pipeline.actors target = some entry) (hbox : entry.mailbox = some box) :
    (f.takeNext target entry box).ProbeLive actor := by
  by_cases hactor : actor = target
  · subst hactor
    refine hlive.mono ?_ ?_
    · exact List.Subset.refl _
    intro entry' eba hentry' heba hprobing
    obtain rfl := some.inj ((setEntry_touches _ _).self.symm.trans hentry')
    refine ⟨entry, eba, hentry, heba, hprobing, rfl, ?_⟩
    rintro msg - - (⟨box', hbox', hmem⟩ | hdispatching)
    · obtain rfl : box = box' := some.inj (hbox.symm.trans hbox')
      rcases Multiset.mem_add.mp (Multiset.mem_of_le (dequeue_keeps (s := box.setup)) hmem) with
        htaken | hleft
      · refine .inr ?_
        rw [Multiset.mem_coe, mem_toList] at htaken
        simpa [Flight.takeNext, setDispatching, tryPop] using htaken
      · exact .inl ⟨_, rfl, hleft⟩
    · rw [hidle] at hdispatching
      cases hdispatching
  · refine hlive.of_same ?_ ?_ ?_
    · exact List.Subset.refl _
    · exact setEntry_actors_of_ne hactor
    · simp [Flight.takeNext, setDispatching, Flight.setEntry, hactor]

theorem updateActor_none
    (hnone : ∀ entry, f.pipeline.actors actor = some entry →
      entry.eventBased = none) : f.updateActor actor change = f := by
  unfold updateActor
  split
  · rfl
  · rename_i entry hentry
    simp [hnone entry hentry]

theorem updateActor_some (hentry : f.pipeline.actors actor = some entry)
    (heba : entry.eventBased = some eba) :
    f.updateActor actor change = f.setEntry actor (entry.setActor (change eba)) := by
  simp only [updateActor, hentry, heba]

theorem updateActor_other (change : EventBasedActor → EventBasedActor) (hne : actor ≠ target) :
    (f.updateActor target change).pipeline.actors actor = f.pipeline.actors actor ∧
      (f.updateActor target change).pipeline.probes = f.pipeline.probes ∧
      (f.updateActor target change).dispatching = f.dispatching := by
  unfold updateActor
  split
  · exact ⟨rfl, rfl, rfl⟩
  · split
    · exact ⟨rfl, rfl, rfl⟩
    · exact ⟨setEntry_actors_of_ne hne, rfl, rfl⟩

/-- A report that never starts a probe, and ends the one the actor lets go of,
keeps the invariant. -/
theorem ProbeLive.report {next : Option TypedMessage} (hlive : f.ProbeLive actor)
    (hpolicy : ∀ eba, (change eba).quarantinePolicy = eba.quarantinePolicy)
    (hprobing : ∀ eba, (change eba).circuitBreaker.Probing → eba.circuitBreaker.Probing)
    (hends : ∀ entry eba msg, f.pipeline.actors target = some entry →
      entry.eventBased = some eba → (change eba).circuitBreaker.Probing →
      msg.isSystem = false → msg.ticket ∈ f.pipeline.probes →
      f.dispatching target = some msg → next = some msg) :
    ((f.setDispatching target next).updateActor target change).ProbeLive actor := by
  by_cases hactor : actor = target
  · subst hactor
    by_cases hnone : ∀ entry, f.pipeline.actors actor = some entry → entry.eventBased = none
    · rw [updateActor_none (f := f.setDispatching actor next) hnone]
      intro entry eba hentry heba
      rw [hnone entry hentry] at heba
      cases heba
    · push Not at hnone
      obtain ⟨entry, hentry, hsome⟩ := hnone
      obtain ⟨eba, heba⟩ := ne_none_iff_exists'.mp hsome
      rw [updateActor_some (f := f.setDispatching actor next) hentry heba]
      refine hlive.mono ?_ ?_
      · exact List.Subset.refl _
      intro entry' eba' hentry' heba' hprobing'
      obtain rfl := some.inj ((setEntry_touches _ _).self.symm.trans hentry')
      obtain rfl := some.inj heba'
      refine ⟨entry, eba, hentry, heba, hprobing eba hprobing', hpolicy eba, ?_⟩
      rintro msg huser hticket (hmailbox | hdispatching)
      · exact .inl hmailbox
      · refine .inr ?_
        have hnext := hends entry eba msg hentry heba hprobing' huser hticket hdispatching
        simpa [Flight.setEntry, setDispatching] using hnext
  · obtain ⟨hentry, hprobes, hdispatching⟩ :=
      updateActor_other (f := f.setDispatching target next) change hactor
    refine hlive.of_same ?_ hentry ?_
    · rw [hprobes]
      exact List.Subset.refl _
    · rw [hdispatching]
      simp [setDispatching, hactor]

theorem finish_live (hlive : f.AllLive) (hmsg : f.dispatching target = some msg)
    (hreports : f.ProbeReports target outcome nowNs) (actor : UInt64) :
    ((f.setDispatching target none).updateActor target
      (·.afterDispatch msg outcome nowNs)).ProbeLive actor := by
  apply (hlive actor).report
  · exact fun eba => eba.afterDispatch_policy msg outcome nowNs
  · exact fun eba => afterDispatch_probing
  · intro entry eba msg' hentry heba hprobing huser hticket hmsg'
    obtain rfl : msg = msg' := some.inj (hmsg.symm.trans hmsg')
    have hbefore := afterDispatch_probing hprobing
    exact absurd hprobing (afterDispatch_ends
      (hlive target entry eba hentry heba hbefore).1 huser
      (hreports msg hmsg entry hentry eba heba hticket hbefore))

theorem timeout_live (hlive : f.ProbeLive actor) :
    (f.updateActor target (·.recordCircuitBreakerTimeout nowNs)).ProbeLive actor := by
  have hself : f.setDispatching target (f.dispatching target) = f := by
    simp [setDispatching]
  rw [← hself]
  apply hlive.report
  · exact fun eba => recordTimeout_policy
  · exact fun eba => recordTimeout_probing
  · exact fun _ _ _ _ _ _ _ _ hmsg => hmsg

theorem step_live {act : FlightAct} (hlive : f.AllLive)
    (hkept : f.Kept s act) (hstep : f.step s act = some g) : g.AllLive := by
  intro actor
  cases act with
  | deliver d =>
    obtain rfl := some.inj hstep
    exact ProbeLive.call (f := { f with pipeline := f.pipeline.countAttempt })
      (hlive actor) hkept tryDeliver_effect
  | take target =>
    simp only [step] at hstep
    split at hstep
    · rename_i entry hidle hentry
      split at hstep
      · rename_i box hbox
        obtain rfl := some.inj hstep
        exact (hlive actor).takeNext hidle hentry hbox
      · cases hstep
    · cases hstep
  | finish target outcome nowNs =>
    simp only [step] at hstep
    split at hstep
    · cases hstep
    · rename_i msg hmsg
      obtain rfl := some.inj hstep
      exact finish_live hlive hmsg hkept actor
  | timeout target nowNs =>
    obtain rfl := some.inj hstep
    exact timeout_live (hlive actor)

/-- In every run in which the probes fit and report, a breaker that waits for
its probe has one: a user message let through as a probe that is in the mailbox
or being dispatched. -/
theorem probe_never_sticks {acts : List FlightAct}
    (hstart : ∀ actor entry eba, f.pipeline.actors actor = some entry →
      entry.eventBased = some eba → ¬ eba.circuitBreaker.Probing)
    (hkept : EachStep (step s) (Kept s) f acts)
    (hrun : run (step s) f acts = some g) (actor : UInt64)
    (entry : ActorEntry) (eba : EventBasedActor)
    (hentry : g.pipeline.actors actor = some entry)
    (heba : entry.eventBased = some eba)
    (hhalf : eba.circuitBreaker.state = .kHalfOpen)
    (hflag : eba.circuitBreaker.halfOpenProbeInFlight = true) :
    ∃ msg, g.Holds actor entry msg ∧ msg.isSystem = false ∧ msg.ticket ∈ g.pipeline.probes := by
  have hinit : f.AllLive := by
    intro actor entry eba hentry heba hprobing
    exact absurd hprobing (hstart actor entry eba hentry heba)
  have hlive : g.AllLive :=
    run_invariant (fun _ _ _ => step_live) hinit hkept hrun
  exact (hlive actor entry eba hentry heba ⟨hhalf, hflag⟩).2

end Flight

namespace ProbeFlightWitness

def setup : PipelineSetup := { endpoint := .ipv4 0x7F000001 0 }

def box : VariableMailbox where
  setup := .ofConfig {} 7 64
  state := .fresh (.ofConfig {} 7 64)

/-- One failure in the window of ten milliseconds is more than the threshold
allows. -/
def actor : EventBasedActor where
  quarantinePolicy :=
    { enabled := true
      failureRateThreshold := 1
      cooldownPeriodMs := 1
      observationWindowMs := 10 }

def start : Flight where
  pipeline :=
    { actors := Function.update (fun _ => none) 7
        (some { mailbox := some box, eventBased := some actor }) }

/-- A user message, delivered when the clock shows `nowNs`. -/
def send (nowNs : Nat) (deadlineNs : Int) : Delivery where
  target := 7
  msg := { typeId := .user }
  deadlineNs := deadlineNs
  clock := ⟨nowNs, nowNs, nowNs, nowNs, nowNs⟩

/-- The first message cannot be decoded and opens the breaker. -/
def opening : List FlightAct :=
  [.deliver (send 0 int64Max), .take 7, .finish 7 .undecodable 0]

/-- The state of the actor's breaker, its flag, and the number of messages in
the mailbox. -/
def view (f : Flight) : Option (CircuitBreakerState × Bool × Nat) :=
  (f.pipeline.actors 7).bind fun entry =>
    entry.eventBased.bind fun eba =>
      entry.mailbox.map fun box =>
        (eba.circuitBreaker.state, eba.circuitBreaker.halfOpenProbeInFlight,
          box.state.lanes.contents.card + box.state.overflow.queue.length)

/-- A probe that has expired is refused behind the breaker: the breaker waits
for a probe that is neither in the mailbox nor with the actor, and refuses the
next message although it is in order. -/
theorem expired_probe_sticks :
    ((run (Flight.step setup) start (opening ++ [.deliver (send 2000000 1)])).map fun f =>
        (view f, f.dispatching 7, (f.pipeline.tryDeliver setup (send 9000000 int64Max)).2.code)) =
      some (some (.kHalfOpen, true, 0), none, .circuitOpen) := by
  decide +kernel

/-- The same run with a probe in time: the breaker waits, and the probe is
there. -/
theorem timely_probe_is_held :
    ∃ f entry msg, run (Flight.step setup) start
        (opening ++ [.deliver (send 2000000 int64Max)]) = some f ∧
      view f = some (.kHalfOpen, true, 1) ∧ f.Holds 7 entry msg ∧
      msg.isSystem = false ∧ msg.ticket ∈ f.pipeline.probes := by
  have hkept : EachStep (Flight.step setup) (Flight.Kept setup) start
      (opening ++ [.deliver (send 2000000 int64Max)]) := by
    decide +kernel
  have hview : (run (Flight.step setup) start
      (opening ++ [.deliver (send 2000000 int64Max)])).map view =
        some (some (.kHalfOpen, true, 1)) := by
    decide +kernel
  have hstart : ∀ actor entry eba, start.pipeline.actors actor = some entry →
      entry.eventBased = some eba → ¬ eba.circuitBreaker.Probing := by
    intro id entry eba hentry heba
    by_cases hid : id = 7
    · subst hid
      cases hentry
      cases heba
      decide
    · simp [start, hid] at hentry
  obtain ⟨f, hrun, hf⟩ := map_eq_some_iff.mp hview
  have hparts := hf
  simp only [view, bind_eq_some_iff, map_eq_some_iff, Prod.mk.injEq] at hparts
  obtain ⟨entry, hentry, eba, heba, box, -, hhalf, hflag, -⟩ := hparts
  obtain ⟨msg, hmsg⟩ := Flight.probe_never_sticks hstart hkept hrun 7 entry eba
    hentry heba hhalf hflag
  exact ⟨f, entry, msg, hrun, hf, hmsg⟩

end ProbeFlightWitness

end HPActor
