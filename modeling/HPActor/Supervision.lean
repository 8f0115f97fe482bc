/-
Supervision of children.  Two actors watch children and answer the message that
a child went down: one decides by itself under a policy, the other asks a
strategy first.  Both keep a restart count for each child and one start of a
window for all of them, which is the least time point until a failure sets it.

Time points are nanoseconds of a steady clock in a signed 64-bit integer.  The
difference of two of them is taken in that type, where it wraps around.
-/
import Mathlib.Logic.Function.Basic

namespace HPActor

inductive SupervisionDirective where
  | restart
  | stop
  | escalate
  | quarantine
deriving Repr, DecidableEq

/-- The part of the quarantine policy that supervision reads. -/
structure SupervisionPolicy.Quarantine where
  enabled : Bool := false
  escalateOnMaxRestarts : Bool := true

structure SupervisionPolicy where
  maxRestarts : UInt32 := 10
  /-- In milliseconds. -/
  restartInterval : Nat := 5000
  quarantine : SupervisionPolicy.Quarantine := {}

/-- What the steady clock may read. -/
abbrev SteadyTime := { now : Int64 // 0 ≤ now.toInt }

/-- A child went down; the time is when the message is handled. -/
structure ChildDown where
  actorId : UInt64
  reasonCode : UInt32 := 0
  now : SteadyTime

structure ChildFailure where
  childId : UInt64
  reason : UInt32
  directive : SupervisionDirective

/-- The strategies a supervisor can be given. -/
inductive Supervisor where
  | oneForOne
  | allForOne

def Supervisor.onChildFailure : Supervisor → ChildFailure → SupervisionDirective
  | oneForOne, failure => failure.directive
  | allForOne, _ => .restart

/-- Restart counts of the children and the start of the window. -/
structure RestartCounts where
  restartCounts : UInt64 → Nat := fun _ => 0
  firstFailureTime : Int64 := Int64.minValue

namespace RestartCounts

/-- Milliseconds as nanoseconds. -/
def nanoseconds (milliseconds : Nat) : Int := milliseconds * 1000000

/-- A failure after the window starts another one. -/
def refresh (counts : RestartCounts) (interval : Nat) (childId : UInt64)
    (now : Int64) : RestartCounts :=
  if (now - counts.firstFailureTime).toInt > nanoseconds interval then
    { restartCounts := Function.update counts.restartCounts childId 0
      firstFailureTime := now }
  else counts

def increment (counts : RestartCounts) (childId : UInt64) : RestartCounts :=
  { counts with
    restartCounts := Function.update counts.restartCounts childId
      (counts.restartCounts childId + 1) }

def erase (counts : RestartCounts) (childId : UInt64) : RestartCounts :=
  { counts with
    restartCounts := Function.update counts.restartCounts childId 0 }

end RestartCounts

structure SelfSupervisingActor where
  children : List UInt64
  policy : SupervisionPolicy := {}
  counts : RestartCounts := {}

namespace SelfSupervisingActor

variable (actor : SelfSupervisingActor)

def removeChild (child : UInt64) : SelfSupervisingActor :=
  { actor with children := actor.children.filter (· ≠ child) }

def decideRestart (childId : UInt64) (now : Int64) : SupervisionDirective × SelfSupervisingActor :=
  let policy := actor.policy
  let counts := actor.counts.refresh policy.restartInterval childId now
  if policy.maxRestarts.toNat ≤ counts.restartCounts childId then
    if policy.quarantine.enabled ∧ policy.quarantine.escalateOnMaxRestarts then
      (.quarantine, { actor with counts := counts })
    else (.stop, { actor with counts := counts })
  else (.restart, { actor with counts := counts.increment childId })

/-- The failure hook runs in every case; nobody reads what it answers. -/
def handleChildDown (down : ChildDown) : SupervisionDirective × SelfSupervisingActor :=
  let (directive, actor) := actor.decideRestart down.actorId down.now
  if directive = .stop then (directive, actor.removeChild down.actorId)
  else (directive, actor)

/-- The actor after a sequence of failures. -/
def handleAll (history : List ChildDown) : SelfSupervisingActor :=
  history.foldl (fun actor down => (actor.handleChildDown down).2) actor

end SelfSupervisingActor

structure SupervisorActor where
  strategy : Supervisor
  children : List UInt64
  counts : RestartCounts := {}

namespace SupervisorActor

/-- The number of restarts of a child in a window. -/
def restartLimit : Nat := 10

/-- The length of a window, in milliseconds. -/
def restartWindow : Nat := 5000

variable (actor : SupervisorActor) (down : ChildDown)

def eraseChild (childId : UInt64) : SupervisorActor :=
  { actor with children := actor.children.filter (· ≠ childId) }

/-- The count goes with the child, so another failure of it begins anew. -/
def restartChild (childId : UInt64) (now : Int64) : SupervisionDirective × SupervisorActor :=
  let counts := actor.counts.refresh restartWindow childId now
  if restartLimit ≤ counts.restartCounts childId then
    (.stop, { actor.eraseChild childId with counts := counts.erase childId })
  else (.restart, { actor with counts := counts.increment childId })

/-- What was done about the failure, and the actor after it. -/
def handleChildDown : SupervisionDirective × SupervisorActor :=
  let failure : ChildFailure :=
    { childId := down.actorId, reason := down.reasonCode, directive := .restart }
  match actor.strategy.onChildFailure failure with
  | .restart => actor.restartChild down.actorId down.now
  | .stop => (.stop, actor.eraseChild down.actorId)
  | .escalate => (.escalate, actor)
  | .quarantine => (.quarantine, actor.eraseChild down.actorId)

def handleAll (history : List ChildDown) : SupervisorActor :=
  history.foldl (fun actor down => (actor.handleChildDown down).2) actor

/-- The failed child may still be restarted in this window. -/
def WithinBudget : Prop :=
  (actor.counts.refresh restartWindow down.actorId down.now).restartCounts down.actorId <
    restartLimit

instance (actor : SupervisorActor) (down : ChildDown) : Decidable (actor.WithinBudget down) :=
  inferInstanceAs (Decidable (_ < _))

/-- The incarnations of the system's actors after a failure was handled: a restart bumps that of
the child it is about. -/
def bumpIncarnation (incarnations : UInt64 → Nat) : UInt64 → Nat :=
  if (actor.handleChildDown down).1 = .restart then
    Function.update incarnations down.actorId (incarnations down.actorId + 1)
  else incarnations

theorem handleChildDown_restart_iff :
    (actor.handleChildDown down).1 = .restart ↔ actor.WithinBudget down := by
  have hrestart : actor.handleChildDown down = actor.restartChild down.actorId down.now := by
    rw [handleChildDown]
    cases actor.strategy <;> rfl
  rw [hrestart, restartChild, WithinBudget]
  split
  · next hover => exact iff_of_false nofun (Nat.not_lt.mpr hover)
  · next hbelow => exact iff_of_true rfl (Nat.not_le.mp hbelow)

end SupervisorActor

end HPActor
