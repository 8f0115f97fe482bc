/-
Asks and what settles them.  An ask is entered in a table under a fresh message
id, and a timer is set for it.  A response, the timer and a cancellation race to
take it out of the table; who succeeds resolves the handle of the ask and counts
it, both outside the lock.

Calls run side by side: critical sections, resolutions, counter updates and the
setting of the timer are the steps of a call, and between two steps of a call
others may move.  Message ids are drawn from a counter of the process, which
others use as well.
-/
import Mathlib.Data.Finset.Basic

namespace HPActor

universe u

/-- What an ask ends with. -/
inductive Settlement (R : Type u) where
  | response (value : R)
  | timeout
  | cancelled

structure AskManager where
  pending : Finset Nat := ∅
  totalRegistered : Nat := 0
  totalResolved : Nat := 0
  totalTimedOut : Nat := 0
  totalCancelled : Nat := 0

namespace AskManager

variable {R : Type u} (manager : AskManager)

def emplace (key : Nat) : AskManager :=
  { manager with pending := insert key manager.pending }

/-- The critical section of the calls that settle an ask. -/
def take (id : Nat) : Option AskManager :=
  if id ∈ manager.pending then
    some { manager with pending := manager.pending.erase id }
  else none

def countRegistered : AskManager :=
  { manager with totalRegistered := manager.totalRegistered + 1 }

def count : Settlement R → AskManager
  | .response _ => { manager with totalResolved := manager.totalResolved + 1 }
  | .timeout => { manager with totalTimedOut := manager.totalTimedOut + 1 }
  | .cancelled =>
    { manager with totalCancelled := manager.totalCancelled + 1 }

end AskManager

namespace RequestHandle

variable {R : Type u}

/-- A handle that is resolved already stays as it is.  A handle is cancelled by
its caller only, and here nobody does, so that flag is not kept. -/
def resolve (inner : Option (Settlement R)) (value : Settlement R) : Option (Settlement R) :=
  match inner with
  | some old => some old
  | none => some value

end RequestHandle

inductive AskReply where
  | registered (msgId : Nat)
  | found (found : Bool)

/-- Where a call is. -/
inductive AskCall (R : Type u) where
  | emplace (key : Nat)
  | countRegistered (key : Nat)
  | schedule (key : Nat)
  | leave (key : Nat)
  | find (how : Settlement R) (id : Nat)
  | resolve (how : Settlement R) (id : Nat)
  | count (how : Settlement R) (id : Nat)
  | returned (reply : AskReply)

/-- All calls so far, the handles of the asks and the timers that are set. -/
structure AskSystem (R : Type u) where
  manager : AskManager := {}
  nextId : Nat := 1
  handles : Nat → Option (Settlement R) := fun _ => none
  timers : Finset Nat := ∅
  calls : List (AskCall R) := []
  -- what has happened: who left the table, which handles `resolve` was called
  -- on, and which timers have fired
  removals : List (Nat × Settlement R) := []
  resolves : List (Nat × Settlement R) := []
  fired : Finset Nat := ∅

inductive AskAction (R : Type u) where
  | registerAsk
  | onResponse (id : Nat) (response : R)
  | onTimeout (id : Nat)
  | cancel (id : Nat)
  | fireTimer (id : Nat)
  | drawMessageId
  | advance (call : Nat)

namespace AskSystem

variable {R : Type u}

/-- A call begins. -/
def begin (s : AskSystem R) (call : AskCall R) : AskSystem R :=
  { s with calls := s.calls ++ [call] }

/-- The next step of the call with the given number. -/
def advance (s : AskSystem R) (i : Nat) : AskCall R → Option (AskSystem R)
  | .emplace key =>
    some { s with
      manager := s.manager.emplace key
      calls := s.calls.set i (.countRegistered key) }
  | .countRegistered key =>
    some { s with
      manager := s.manager.countRegistered
      calls := s.calls.set i (.schedule key) }
  | .schedule key =>
    some { s with
      timers := insert key s.timers
      calls := s.calls.set i (.leave key) }
  | .leave key =>
    some { s with
      calls := s.calls.set i (.returned (.registered key)) }
  | .find how id =>
    match s.manager.take id with
    | none =>
      some { s with calls := s.calls.set i (.returned (.found false)) }
    | some manager =>
      some { s with
        manager := manager
        calls := s.calls.set i (.resolve how id)
        removals := s.removals ++ [(id, how)] }
  | .resolve how id =>
    some { s with
      handles := Function.update s.handles id (RequestHandle.resolve (s.handles id) how)
      calls := s.calls.set i (.count how id)
      resolves := s.resolves ++ [(id, how)] }
  | .count how _ =>
    some { s with
      manager := s.manager.count how
      calls := s.calls.set i (.returned (.found true)) }
  | .returned _ => none

/-- A timer fires once, as a call of `on_timeout`; such calls may also come from
elsewhere, and all calls that settle may name any id. -/
def step (s : AskSystem R) : AskAction R → Option (AskSystem R)
  | .registerAsk =>
    some (begin { s with nextId := s.nextId + 1 } (.emplace s.nextId))
  | .onResponse id response => some (s.begin (.find (.response response) id))
  | .onTimeout id => some (s.begin (.find .timeout id))
  | .cancel id => some (s.begin (.find .cancelled id))
  | .fireTimer id =>
    if id ∈ s.timers then
      some (begin { s with
        timers := s.timers.erase id
        fired := insert id s.fired } (.find .timeout id))
    else none
  | .drawMessageId => some { s with nextId := s.nextId + 1 }
  | .advance i => s.calls[i]?.bind fun call => s.advance i call

end AskSystem

end HPActor
