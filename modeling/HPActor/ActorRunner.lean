/-
One activation of an actor on a worker: `BehaviorActorRunner::run` and
`run_fixed_actor` as a program over the actor's state word.  What the mailbox,
the clock and the registry of bindings answer is an input of the step.
-/
import HPActor.ReadyGate

namespace HPActor

inductive MailboxKind where
  | variableMpsc
  | disruptor

/-- What the actor system's directory knows about an actor id. -/
inductive ActorClass where
  | eventBased
  | other

inductive ActorRunDisposition where
  | skipped
  | suspendedOrIdle
  | requeueReady
  | terminated
deriving Repr, DecidableEq

def kRequeueBudget : Nat := 64

def kLostWakeupRequeueBudget : Nat := 1

/-- What an activation reads besides the state word and the mailbox. -/
structure RunContext where
  mailboxKind : MailboxKind
  registered : Option ActorClass
  workersPaused : Bool
  sequence : Nat

def RunContext.budgetExhausted (context : RunContext) : Bool :=
  !context.workersPaused && decide (kRequeueBudget ≤ context.sequence)

/-- Where a worker is in an activation.  `readMore` is the first question to
the mailbox whether it is empty, `recheck` the one after the word was set back
to idle; `lostWakeup` marks the exit of a pop that returned nothing. -/
inductive RunnerPc where
  | claim
  | checkTerminated
  | lookup
  | releaseMissing
  | consume
  | checkExpired
  | handle
  | readMore (hasWork : Bool)
  | readmission (gate : GatePc .markReadyAlreadyAdmitted)
  | storeIdle (lostWakeup : Bool)
  | recheck (lostWakeup : Bool)
  | wake (gate : GatePc .tryMarkReady)
  | done (disposition : ActorRunDisposition)
deriving DecidableEq

def requeueOr (other : ActorRunDisposition) (code : ReadyAdmissionCode) : RunnerPc :=
  .done (if code.requeues then .requeueReady else other)

def afterReadmission : GateOutcome .markReadyAlreadyAdmitted → RunnerPc
  | .again pc => .readmission pc
  | .answer code => requeueOr .skipped code

def afterWake : GateOutcome .tryMarkReady → RunnerPc
  | .again pc => .wake pc
  | .answer code => requeueOr .suspendedOrIdle code

/-- The directory lookup in front of `try_mark_ready`: an actor that is not
event based is accepted without a state word. -/
def tryMarkReady : Option ActorClass → GateOutcome .tryMarkReady
  | none => .answer .missingActor
  | some .other => .answer .accepted
  | some .eventBased => .again .load

/-- Where a pop leads.  The fixed path decides on its requeue with the value
`consume_one` returned; the behavior path leaves by the lost-wakeup exit. -/
def afterConsume (kind : MailboxKind) (hasWork : Bool) : RunnerPc :=
  match kind, hasWork with
  | .variableMpsc, true => .checkExpired
  | .variableMpsc, false => .storeIdle true
  | .disruptor, true => .handle
  | .disruptor, false => .readMore false

/-- One step of an activation.  `answer` is what the environment says where
the position asks it: a mailbox (or binding) exists, a message was popped, it
has expired, the mailbox is not empty. -/
def runnerStep (context : RunContext) (answer : Bool) (word : ActorState) :
    RunnerPc → ActorState × RunnerPc
  | .claim =>
    if word = .ready then (.running, .lookup) else (word, .checkTerminated)
  | .checkTerminated =>
    (word, .done (if word = .terminated then .terminated else .skipped))
  | .lookup => (word, if answer then .consume else .releaseMissing)
  | .releaseMissing => (.idle, .done .skipped)
  | .consume => (word, afterConsume context.mailboxKind answer)
  | .checkExpired => (word, if answer then .readMore true else .handle)
  | .handle => (word, .readMore true)
  | .readMore hasWork =>
    (word,
      if hasWork && answer && !context.budgetExhausted then .readmission .load
      else .storeIdle false)
  | .readmission pc =>
    ((gateStep word pc).1, afterReadmission (gateStep word pc).2)
  | .storeIdle lostWakeup => (.idle, .recheck lostWakeup)
  | .recheck lostWakeup =>
    (word,
      if answer && (!lostWakeup || decide (context.sequence < kLostWakeupRequeueBudget))
      then afterWake (tryMarkReady context.registered)
      else .done .suspendedOrIdle)
  | .wake pc => ((gateStep word pc).1, afterWake (gateStep word pc).2)
  | .done disposition => (word, .done disposition)

/-- From the successful claim to the activation's own next store of the state
word. -/
def RunnerPc.holds : RunnerPc → Bool
  | .lookup | .releaseMissing | .consume | .checkExpired | .handle => true
  | .readMore _ | .readmission _ | .storeIdle _ => true
  | _ => false

/-- From the successful claim to the end of the activation. -/
def RunnerPc.responsible : RunnerPc → Bool
  | .claim | .checkTerminated | .done _ => false
  | _ => true

variable (context : RunContext) (answer : Bool) {pc : RunnerPc} {word : ActorState}

theorem afterWake_not_holds (outcome : GateOutcome .tryMarkReady) :
    (afterWake outcome).holds = false := by
  cases outcome <;> rfl

theorem afterConsume_holds (kind : MailboxKind) (hasWork : Bool) :
    (afterConsume kind hasWork).holds = true := by
  cases kind <;> cases hasWork <;> rfl

/-- A readmission that finds its own word running can only go round its loop
or give the word up. -/
theorem afterReadmission_running (pc : GatePc .markReadyAlreadyAdmitted) :
    (afterReadmission (gateStep .running pc).2).holds = true ∧ (gateStep .running pc).1 = .running ∨
      afterReadmission (gateStep .running pc).2 = .done .requeueReady ∧
        (gateStep .running pc).1 = .ready := by
  cases pc with
  | load => exact .inl ⟨rfl, rfl⟩
  | cas expected admits =>
    by_cases heq : ActorState.running = expected
    · subst heq
      rw [gateStep_cas_hit]
      exact .inr ⟨rfl, rfl⟩
    · rw [gateStep_cas_miss admits heq]
      exact .inl ⟨rfl, rfl⟩

open RunnerPc

/-- An activation comes to hold the word by its claim only. -/
theorem runnerStep_acquire (hnext : (runnerStep context answer word pc).2.holds = true) :
    pc.holds = true ∨ word = .ready ∧ (runnerStep context answer word pc).1 = .running := by
  cases pc with
  | claim =>
    by_cases hready : word = .ready
    · refine .inr ⟨hready, ?_⟩
      simp [runnerStep, hready]
    · simp [runnerStep, hready, holds] at hnext
  | recheck lostWakeup =>
    simp only [runnerStep] at hnext
    split at hnext
    · rw [afterWake_not_holds] at hnext
      cases hnext
    · cases hnext
  | wake gate =>
    simp only [runnerStep, afterWake_not_holds] at hnext
    cases hnext
  | checkTerminated | done disposition => cases hnext
  | _ => exact .inl rfl

/-- Whoever holds a running word goes on holding it until the step that writes
the word. -/
theorem runnerStep_holding (hpc : pc.holds = true) :
    (runnerStep context answer .running pc).2.holds = true ∧
        (runnerStep context answer .running pc).1 = .running ∨
      (runnerStep context answer .running pc).2.holds = false ∧
        (runnerStep context answer .running pc).1 ≠ .running := by
  cases pc with
  | lookup | checkExpired => cases answer <;> exact .inl ⟨rfl, rfl⟩
  | consume => exact .inl ⟨afterConsume_holds _ _, rfl⟩
  | handle => exact .inl ⟨rfl, rfl⟩
  | readMore hasWork =>
    left
    simp only [runnerStep]
    split <;> exact ⟨rfl, trivial⟩
  | readmission gate =>
    rcases afterReadmission_running gate with hagain | ⟨hdone, hready⟩
    · exact .inl hagain
    · refine .inr ⟨?_, ?_⟩
      · simp only [runnerStep, hdone, holds]
      · simp [runnerStep, hready]
  | releaseMissing | storeIdle lostWakeup =>
    exact .inr ⟨rfl, by simp [runnerStep]⟩
  | _ => cases hpc

/-- An activation that does not hold the word leaves a running word alone. -/
theorem runnerStep_running (hpc : pc.holds = false) :
    (runnerStep context answer .running pc).1 = .running := by
  cases pc with
  | wake gate => exact gateStep_running gate
  | claim | checkTerminated | recheck lostWakeup | done disposition => rfl
  | _ => cases hpc

/-- After a step the word is ready only if it was before and the step was not
a claim, or if the step ended the activation with a requeue. -/
theorem runnerStep_ready (hready : (runnerStep context answer word pc).1 = .ready) :
    word = .ready ∧ pc ≠ .claim ∨ (runnerStep context answer word pc).2 = .done .requeueReady := by
  cases pc with
  | claim =>
    by_cases hword : word = .ready
    · simp [runnerStep, hword] at hready
    · simp [runnerStep, hword] at hready
  | releaseMissing | storeIdle lostWakeup => cases hready
  | readmission gate | wake gate =>
    rcases gateStep_word word gate with hsame | haccept
    · simp only [runnerStep, hsame] at hready
      exact .inl ⟨hready, by simp⟩
    · right
      simp only [runnerStep, haccept]
      rfl
  | _ => exact .inl ⟨hready, by simp⟩

end HPActor
