/-
The state word of an event-based actor and the gate that admits the actor into
the ready state.  Each load, store and compare-and-swap of the word is one
step; the gate's retry loop is a program of two positions.
-/
import Mathlib.Logic.Basic

namespace HPActor

/-- The values of the state word; `other` is every value the gate's `default`
branch answers. -/
inductive ActorState where
  | idle
  | ready
  | running
  | ioWaiting
  | terminated
  | other (value : UInt32)
deriving Repr, DecidableEq

inductive ReadyAdmissionCode where
  | accepted
  | missingActor
  | alreadyReady
  | alreadyRunning
  | terminated
  | notAdmissible

/-- The runners treat a word that is ready already like an admission. -/
def ReadyAdmissionCode.requeues : ReadyAdmissionCode → Bool
  | .accepted | .alreadyReady => true
  | _ => false

/-- The two entry points of the gate: `try_mark_ready` for notifications and
`mark_ready_already_admitted` for a caller that owns the activation. -/
inductive GateEntry where
  | tryMarkReady
  | markReadyAlreadyAdmitted

/-- What the gate's `switch` decides on a loaded word: the code to return, or
`none` for a word that it tries to swap for ready. -/
def gateDecision : GateEntry → ActorState → Option ReadyAdmissionCode
  | _, .idle => none
  | _, .ioWaiting => none
  | _, .ready => some .alreadyReady
  | .tryMarkReady, .running => some .alreadyRunning
  | .markReadyAlreadyAdmitted, .running => none
  | _, .terminated => some .terminated
  | _, .other _ => some .notAdmissible

/-- Where a caller is in the gate's loop.  The word it is about to swap is one
the entry point admits. -/
inductive GatePc (entry : GateEntry) where
  | load
  | cas (expected : ActorState) (admits : gateDecision entry expected = none)
deriving DecidableEq

/-- Where a step of the gate leads: back into its loop or out with a code. -/
inductive GateOutcome (entry : GateEntry) where
  | again (pc : GatePc entry)
  | answer (code : ReadyAdmissionCode)

variable {entry : GateEntry}

/-- One access of the gate to the state word. -/
def gateStep (word : ActorState) : GatePc entry → ActorState × GateOutcome entry
  | .load =>
    (word,
      match hdecision : gateDecision entry word with
      | none => .again (.cas word hdecision)
      | some code => .answer code)
  | .cas expected _ =>
    if word = expected then (.ready, .answer .accepted)
    else (word, .again .load)

theorem gateStep_cas_hit {expected : ActorState} (admits : gateDecision entry expected = none) :
    gateStep expected (.cas expected admits) = (.ready, .answer .accepted) := by
  simp [gateStep]

theorem gateStep_cas_miss {word expected : ActorState}
    (admits : gateDecision entry expected = none) (hne : word ≠ expected) :
    gateStep word (.cas expected admits) = (word, .again .load) := by
  simp [gateStep, hne]

/-- The gate changes the word only by an accepting swap. -/
theorem gateStep_word (word : ActorState) (pc : GatePc entry) :
    (gateStep word pc).1 = word ∨ gateStep word pc = (.ready, .answer .accepted) := by
  cases pc with
  | load => exact .inl rfl
  | cas expected admits =>
    by_cases heq : word = expected
    · subst heq
      exact .inr (gateStep_cas_hit admits)
    · rw [gateStep_cas_miss admits heq]
      exact .inl rfl

/-- A notification leaves the gate with the word ready, unless it found the
word running or outside the life cycle. -/
theorem gateStep_answer {word : ActorState} {pc : GatePc .tryMarkReady}
    {code : ReadyAdmissionCode} (hanswer : (gateStep word pc).2 = .answer code) :
    (gateStep word pc).1 = .ready ∨ word = .running ∨ word = .terminated ∨
      ∃ value, word = .other value := by
  cases pc with
  | load =>
    cases word with
    | idle | ioWaiting => cases hanswer
    | ready => exact .inl rfl
    | running => exact .inr (.inl rfl)
    | terminated => exact .inr (.inr (.inl rfl))
    | other value => exact .inr (.inr (.inr ⟨value, rfl⟩))
  | cas expected admits =>
    by_cases heq : word = expected
    · subst heq
      rw [gateStep_cas_hit]
      exact .inl rfl
    · rw [gateStep_cas_miss admits heq] at hanswer
      cases hanswer

/-- Notifications never take the word away from a running actor. -/
theorem gateStep_running (pc : GatePc .tryMarkReady) : (gateStep .running pc).1 = .running := by
  cases pc with
  | load => rfl
  | cas expected admits =>
    have hne : ActorState.running ≠ expected := by
      intro heq
      rw [← heq] at admits
      cases admits
    rw [gateStep_cas_miss admits hne]

end HPActor
