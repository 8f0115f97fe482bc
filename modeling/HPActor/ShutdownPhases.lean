/-
`ShutdownCoordinator::execute`: the built-in shutdown phases one after another,
each followed by the user phases registered for it.

A statement of `execute` adds to the log of what happened and either goes on or
returns.  The only returns are those of `check_force`, which moves the system to
`ForcedStop` first; what a run does that is never forced can therefore be read off
statement by statement.
-/
import HPActor.Machines
import Mathlib.Data.List.Nodup

namespace HPActor

open List

inductive ShutdownPhase where
  | running
  | drainingIngress
  | drainingActors
  | leavingCluster
  | flushingTelemetry
  | stopped
  | forcedStop
deriving Repr, DecidableEq

inductive LifecycleState where
  | starting
  | active
  | draining
  | stopping
  | stopped
  | failed
  | recovering
  | quarantined
  | passivating
  | passivated
deriving Repr, DecidableEq

inductive DrainPolicy where
  | drain
  | dropUserMessages
  | immediateStop
  | snapshotAndStop
  | transferShard
deriving Repr, DecidableEq

/-- What the coordinator asks of an actor that is to drain. -/
inductive DrainAction where
  | onExit
  | drainAllImmediate
  | emptyMailbox
  | startDrainTimer
  | transition (state : LifecycleState)
deriving Repr, DecidableEq

/-- An actor as `initiate_actor_drain` sees it. -/
structure DrainedActor where
  eventBased : Bool
  lifecycle : Option (LifecycleState × DrainPolicy)

inductive ShutdownEvent where
  | setPhase (phase : ShutdownPhase)
  | setReady (ready : Bool)
  | setRunning (running : Bool)
  | userPhase (name : String)
  | drain (id : Nat) (actions : List DrainAction)
  | pollDrain (id : Nat)
  | leaveDiscovery
  | stopRemoteRuntime
  | flushTelemetry
deriving Repr, DecidableEq

/-- A user phase, and whether it has a callback. -/
structure UserPhaseDef where
  name : String
  afterPhase : ShutdownPhase := .running
  afterUserName : String := ""
  callback : Bool := true
deriving Repr, DecidableEq

/-- The dependencies that are installed, the actors of the snapshot, and what
each comparison of the clock with the deadline of the moment says. -/
structure ShutdownEnvironment where
  setReady : Bool := true
  leaveDiscovery : Bool := true
  stopRemoteRuntime : Bool := true
  flushTelemetry : Bool := true
  running : Bool := true
  actors : List (Nat × Bool) := []
  getActor : Nat → Option DrainedActor := fun _ => none
  emptiesMailbox : Nat → Bool := fun _ => false
  forceAfterTimeout : Bool := false
  late : Nat → Bool := fun _ => false

/-- What has happened, and how often the clock was compared. -/
structure Progress where
  events : List ShutdownEvent := []
  checks : Nat := 0

namespace Shutdown

/-- A statement goes on with `ok` or returns from `execute` with `error`. -/
def Statement : Type := Progress → Except Progress Progress

def emit (events : List ShutdownEvent) : Statement := fun p =>
  .ok { p with events := p.events ++ events }

def seqAll : List Statement → Statement
  | [] => fun p => .ok p
  | first :: rest => fun p =>
    match first p with
    | .ok q => seqAll rest q
    | .error q => .error q

variable (env : ShutdownEnvironment)

/-- `check_force`: the answer, and the forced stop that comes with it. -/
def checkForce (p : Progress) : Bool × Progress :=
  if env.forceAfterTimeout then
    if env.late p.checks then
      (true,
        { events := p.events ++ .setPhase .forcedStop ::
            (if env.running then [.setRunning false] else [])
          checks := p.checks + 1 })
    else (false, { p with checks := p.checks + 1 })
  else (false, p)

/-- `if (check_force(deadline)) return;` -/
def returnIfForced : Statement := fun p =>
  match checkForce env p with
  | (true, q) => .error q
  | (false, q) => .ok q

/-- `if (!check_force(deadline)) { ... }` -/
def unlessForced (body : Statement) : Statement := fun p =>
  match checkForce env p with
  | (true, q) => .ok q
  | (false, q) => body q

/-- `initiate_actor_drain` of an actor that the directory still has. -/
def initiateActorDrain (id : Nat) : List DrainAction :=
  match env.getActor id with
  | none => []
  | some actor =>
    match actor.lifecycle with
    | none => if actor.eventBased then [.onExit] else []
    | some (state, policy) =>
      if state = .stopping ∨ state = .stopped then []
      else if policy = .immediateStop then
        (if actor.eventBased then [.drainAllImmediate]
          else if env.emptiesMailbox id then [.emptyMailbox] else []) ++
        [.transition .stopping, .transition .stopped] ++
        (if actor.eventBased then [.onExit] else [])
      else
        (if state = .active then [.transition .draining] else []) ++
        (if actor.eventBased then [.startDrainTimer]
          else [.transition .stopping, .transition .stopped])

def ofKind (system : Bool) : List Nat :=
  (env.actors.filter (·.2 = system)).map (·.1)

def drainActors (system : Bool) : Statement :=
  seqAll ((ofKind env system).map fun id =>
    seqAll [emit [.drain id (initiateActorDrain env id)], returnIfForced env])

def pollActors (system : Bool) : Statement :=
  seqAll ((ofKind env system).map fun id =>
    seqAll [emit [.pollDrain id], returnIfForced env])

variable (phases : List UserPhaseDef)

/-- `run_user_phases`: the callbacks whose phase is `after` and that name no
user phase. -/
def runUserPhases (after : ShutdownPhase) : List ShutdownEvent :=
  (phases.filter fun up =>
    up.afterPhase = after ∧ up.afterUserName = "" ∧ up.callback = true).map
      fun up => .userPhase up.name

def when (installed : Bool) (event : ShutdownEvent) : List ShutdownEvent :=
  if installed then [event] else []

def execute : Statement :=
  seqAll
    [emit (.setPhase .drainingIngress :: when env.setReady (.setReady false)), returnIfForced env,
      emit (runUserPhases phases .drainingIngress),
      emit [.setPhase .drainingActors],
      drainActors env false,
      unlessForced env (pollActors env false),
      unlessForced env (drainActors env true),
      unlessForced env (pollActors env true),
      returnIfForced env,
      emit (runUserPhases phases .drainingActors),
      emit (.setPhase .leavingCluster ::
        (when env.leaveDiscovery .leaveDiscovery ++ when env.stopRemoteRuntime .stopRemoteRuntime)),
      returnIfForced env,
      emit (runUserPhases phases .leavingCluster),
      emit (.setPhase .flushingTelemetry :: when env.flushTelemetry .flushTelemetry),
      emit (runUserPhases phases .flushingTelemetry),
      emit (.setPhase .stopped :: when env.running (.setRunning false))]

/-- The log of a whole run. -/
def executeLog : List ShutdownEvent :=
  match execute env phases {} with
  | .ok p => p.events
  | .error p => p.events

inductive Registration where
  | addUserPhase (name : String) (afterPhase : ShutdownPhase) (callback : Bool)
  | addUserPhaseAfter (name afterPhaseName : String) (callback : Bool)

def Registration.phase : Registration → UserPhaseDef
  | .addUserPhase name afterPhase callback => { name, afterPhase, callback }
  | .addUserPhaseAfter name afterPhaseName callback =>
    { name, afterUserName := afterPhaseName, callback }

/-- Both registrations refuse a name that is taken. -/
def register (r : Registration) : List UserPhaseDef :=
  if phases.any (·.name = r.phase.name) then phases else phases ++ [r.phase]

def registered (registrations : List Registration) : List UserPhaseDef :=
  Machines.final register [] registrations

theorem registered_nodup (registrations : List Registration) :
    ((registered registrations).map (·.name)).Nodup := by
  refine Machines.final_invariant' (s := []) (fun phases : List UserPhaseDef =>
      (phases.map UserPhaseDef.name).Nodup)
    (fun phases r hnodup => ?_) nodup_nil registrations
  unfold register
  split
  · exact hnodup
  · next hfree =>
      have hfresh : r.phase.name ∉ phases.map (·.name) := by
        intro hmem
        obtain ⟨up, hup, hname⟩ := mem_map.mp hmem
        exact hfree (any_eq_true.mpr ⟨up, hup, by simpa using hname⟩)
      rw [map_append, map_singleton]
      exact nodup_append.mpr ⟨hnodup, nodup_singleton _, fun a ha b hb => by
          rw [mem_singleton.mp hb]
          exact fun heq => hfresh (heq ▸ ha)⟩

def Forced (p : Progress) : Prop := .setPhase .forcedStop ∈ p.events

/-- A run that is not forced adds exactly `shown` and goes on. -/
structure Emits (f : Statement) (shown : List ShutdownEvent) : Prop where
  returned : ∀ p q, f p = .error q → Forced q
  went_on : ∀ p q, f p = .ok q → Forced q ∨ q.events = p.events ++ shown

theorem Emits.stays {f : Statement} {shown : List ShutdownEvent} (hf : Emits f shown)
    {p q : Progress} (h : f p = .ok q) (hforced : Forced p) : Forced q := by
  rcases hf.went_on p q h with hlater | hevents
  · exact hlater
  · rw [Forced, hevents]
    exact mem_append_left shown hforced

theorem emits_emit (events : List ShutdownEvent) : Emits (emit events) events := by
  refine ⟨fun p q h => (nomatch h), fun p q h => ?_⟩
  cases h
  exact .inr rfl

theorem checkForce_true {env : ShutdownEnvironment} {p q : Progress}
    (h : checkForce env p = (true, q)) : Forced q := by
  unfold checkForce at h
  split at h
  · split at h
    · cases h
      exact mem_append_right _ mem_cons_self
    · cases h
  · cases h

theorem checkForce_false {env : ShutdownEnvironment} {p q : Progress}
    (h : checkForce env p = (false, q)) : q.events = p.events := by
  unfold checkForce at h
  split at h
  · split at h
    · cases h
    · cases h
      rfl
  · cases h
    rfl

theorem emits_returnIfForced : Emits (returnIfForced env) [] := by
  refine ⟨fun p q h => ?_, fun p q h => ?_⟩
  all_goals
    unfold returnIfForced at h
    split at h
    all_goals cases h
  · next hcheck => exact checkForce_true hcheck
  · next hcheck =>
      exact .inr (by rw [checkForce_false hcheck, append_nil])

theorem emits_unlessForced {body : Statement} {shown : List ShutdownEvent}
    (hbody : Emits body shown) : Emits (unlessForced env body) shown := by
  refine ⟨fun p q h => ?_, fun p q h => ?_⟩
  all_goals
    unfold unlessForced at h
    split at h
  · cases h
  · exact hbody.returned _ q h
  · next hcheck =>
      cases h
      exact .inl (checkForce_true hcheck)
  · next hcheck =>
      rw [← checkForce_false hcheck]
      exact hbody.went_on _ q h

/-- Statements in sequence add what they add one after another. -/
theorem emits_seqAll {statements : List Statement} {shown : List (List ShutdownEvent)}
    (hall : List.Forall₂ Emits statements shown) :
    Emits (seqAll statements) shown.flatten := by
  induction hall with
  | nil =>
    refine ⟨fun p q h => (nomatch h), fun p q h => ?_⟩
    cases h
    exact .inr (append_nil _).symm
  | @cons first now rest later hfirst _ ih =>
    refine ⟨fun p q h => ?_, fun p q h => ?_⟩
    all_goals
      unfold seqAll at h
      split at h
    · exact ih.returned _ q h
    · next hreturned =>
        cases h
        exact hfirst.returned p _ hreturned
    · next mid hmid =>
        rcases hfirst.went_on p mid hmid with hforced | hevents
        · exact .inl (ih.stays h hforced)
        · rcases ih.went_on mid q h with hforced | hrest
          · exact .inl hforced
          · rw [hrest, hevents, flatten_cons, append_assoc]
            exact .inr rfl
    · cases h

/-- A loop with a forced return after each round. -/
theorem emits_rounds (ids : List Nat) (event : Nat → ShutdownEvent) :
    Emits (seqAll (ids.map fun id =>
      seqAll [emit [event id], returnIfForced env])) (ids.map event) := by
  have hround : ∀ id, Emits (seqAll [emit [event id], returnIfForced env]) [event id] := fun id =>
    emits_seqAll (.cons (emits_emit _) (.cons (emits_returnIfForced env) .nil))
  have hall : List.Forall₂ Emits (ids.map fun id => seqAll [emit [event id], returnIfForced env])
      (ids.map fun id => [event id]) := by
    induction ids with
    | nil => exact .nil
    | cons id rest ih => exact .cons (hround id) ih
  have hflat : (ids.map fun id => [event id]).flatten = ids.map event := by
    rw [← flatMap_def]
    exact flatMap_pure_eq_map event ids
  rw [← hflat]
  exact emits_seqAll hall

/-- What the built-in part of a phase does. -/
def builtinEvents : ShutdownPhase → List ShutdownEvent
  | .drainingIngress =>
    .setPhase .drainingIngress :: when env.setReady (.setReady false)
  | .drainingActors =>
    .setPhase .drainingActors ::
      ((ofKind env false).map (fun id => .drain id (initiateActorDrain env id)) ++
        (ofKind env false).map .pollDrain ++
        (ofKind env true).map (fun id => .drain id (initiateActorDrain env id)) ++
        (ofKind env true).map .pollDrain)
  | .leavingCluster =>
    .setPhase .leavingCluster ::
      (when env.leaveDiscovery .leaveDiscovery ++ when env.stopRemoteRuntime .stopRemoteRuntime)
  | .flushingTelemetry =>
    .setPhase .flushingTelemetry :: when env.flushTelemetry .flushTelemetry
  | _ => []

/-- The phases that user phases are run after. -/
def drainPhases : List ShutdownPhase :=
  [.drainingIngress, .drainingActors, .leavingCluster, .flushingTelemetry]

/-- A phase and the user phases registered for it. -/
def phaseEvents (phase : ShutdownPhase) : List ShutdownEvent :=
  builtinEvents env phase ++ runUserPhases phases phase

def fullLog : List ShutdownEvent :=
  drainPhases.flatMap (phaseEvents env phases) ++
    .setPhase .stopped :: when env.running (.setRunning false)

open ShutdownEvent

theorem emits_execute : Emits (execute env phases) (fullLog env phases) := by
  have hdrain := fun system => emits_rounds env (ofKind env system)
    fun id => .drain id (initiateActorDrain env id)
  have hpoll := fun system =>
    emits_rounds env (ofKind env system) pollDrain
  have hseq := emits_seqAll
    (.cons (emits_emit (.setPhase .drainingIngress :: when env.setReady (.setReady false))) <|
    .cons (emits_returnIfForced env) <|
    .cons (emits_emit (runUserPhases phases .drainingIngress)) <|
    .cons (emits_emit [.setPhase .drainingActors]) <|
    .cons (hdrain false) <|
    .cons (emits_unlessForced env (hpoll false)) <|
    .cons (emits_unlessForced env (hdrain true)) <|
    .cons (emits_unlessForced env (hpoll true)) <|
    .cons (emits_returnIfForced env) <|
    .cons (emits_emit (runUserPhases phases .drainingActors)) <|
    .cons (emits_emit (.setPhase .leavingCluster ::
      (when env.leaveDiscovery .leaveDiscovery ++
        when env.stopRemoteRuntime .stopRemoteRuntime))) <|
    .cons (emits_returnIfForced env) <|
    .cons (emits_emit (runUserPhases phases .leavingCluster)) <|
    .cons (emits_emit (.setPhase .flushingTelemetry :: when env.flushTelemetry .flushTelemetry)) <|
    .cons (emits_emit (runUserPhases phases .flushingTelemetry)) <|
    .cons (emits_emit (.setPhase .stopped :: when env.running (.setRunning false))) .nil)
  refine (congrArg (Emits (execute env phases)) ?_).mp hseq
  simp [fullLog, drainPhases, phaseEvents, builtinEvents]

/-- A run in which nobody forces the stop. -/
def Unforced : Prop :=
  .setPhase .forcedStop ∉ executeLog env phases

theorem executeLog_eq {env : ShutdownEnvironment} {phases : List UserPhaseDef}
    (h : Unforced env phases) : executeLog env phases = fullLog env phases := by
  have hemits := emits_execute env phases
  unfold Unforced at h
  unfold executeLog at h ⊢
  cases hrun : execute env phases {} with
  | error p =>
    rw [hrun] at h
    exact absurd (hemits.returned {} p hrun) h
  | ok p =>
    rw [hrun] at h
    rcases hemits.went_on {} p hrun with hforced | hevents
    · exact absurd hforced h
    · exact hevents

/-- Every user phase with a callback runs exactly once, when what it was
registered to follow has been done. -/
def RunsInOrder (log : List ShutdownEvent) : Prop :=
  ∀ up ∈ phases, up.callback = true → log.count (.userPhase up.name) = 1 ∧
      ∃ before rest, log = before ++ .userPhase up.name :: rest ∧
        if up.afterUserName = "" then builtinEvents env up.afterPhase ⊆ before
        else .userPhase up.afterUserName ∈ before

/-- The phases `run_user_phases` finds. -/
def FollowsBuiltin (up : UserPhaseDef) : Prop :=
  up.afterPhase ∈ drainPhases ∧ up.afterUserName = ""

variable {phases : List UserPhaseDef} {up : UserPhaseDef}

theorem mem_runUserPhases {name : String} {after : ShutdownPhase} :
    .userPhase name ∈ runUserPhases phases after ↔
      ∃ up ∈ phases, up.name = name ∧ up.afterPhase = after ∧
        up.afterUserName = "" ∧ up.callback = true := by
  constructor
  · intro hmem
    obtain ⟨up, hup, hname⟩ := mem_map.mp hmem
    obtain ⟨hphases, hcond⟩ := mem_filter.mp hup
    have hcond := of_decide_eq_true hcond
    exact ⟨up, hphases, userPhase.inj hname, hcond⟩
  · rintro ⟨up, hphases, hname, hcond⟩
    refine mem_map.mpr ⟨up, mem_filter.mpr ⟨hphases, ?_⟩, ?_⟩
    · exact decide_eq_true hcond
    · rw [hname]

theorem runUserPhases_nodup (hnodup : (phases.map (·.name)).Nodup)
    (after : ShutdownPhase) : (runUserPhases phases after).Nodup := by
  have hkept : ((phases.filter fun up => up.afterPhase = after ∧
      up.afterUserName = "" ∧ up.callback = true).map (·.name)).Nodup :=
    hnodup.sublist (filter_sublist.map _)
  have hinj : Function.Injective userPhase :=
    fun _ _ heq => userPhase.inj heq
  have hmap := hkept.map hinj
  rw [map_map] at hmap
  exact hmap

/-- Names tell the registered phases apart. -/
theorem eq_of_name_eq {other : UserPhaseDef}
    (hnodup : (phases.map (·.name)).Nodup) (hup : up ∈ phases)
    (hother : other ∈ phases) (hname : other.name = up.name) : other = up :=
  inj_on_of_nodup_map hnodup hother hup hname

theorem userPhase_not_mem_when {name : String} {installed : Bool}
    {event : ShutdownEvent} (hne : event ≠ .userPhase name) :
    .userPhase name ∉ when installed event := by
  unfold when
  split
  · exact fun hmem => hne (mem_singleton.mp hmem).symm
  · exact not_mem_nil

theorem userPhase_not_mem_builtin (name : String) (phase : ShutdownPhase) :
    .userPhase name ∉ builtinEvents env phase := by
  cases phase with
  | running | stopped | forcedStop => exact not_mem_nil
  | drainingIngress | leavingCluster | flushingTelemetry =>
    simp [builtinEvents, userPhase_not_mem_when]
  | drainingActors => simp [builtinEvents]

/-- What of the log is not in the four blocks is no user phase. -/
theorem userPhase_mem_fullLog {name : String} :
    .userPhase name ∈ fullLog env phases ↔
      ∃ phase ∈ drainPhases, .userPhase name ∈ runUserPhases phases phase := by
  simp [fullLog, phaseEvents, userPhase_not_mem_builtin, userPhase_not_mem_when]

section

variable (hnodup : (phases.map (·.name)).Nodup) (hup : up ∈ phases) (hcallback : up.callback = true)
include hnodup hup hcallback

theorem count_runUserPhases (hempty : up.afterUserName = "") (phase : ShutdownPhase) :
    (runUserPhases phases phase).count (.userPhase up.name) =
      if up.afterPhase = phase then 1 else 0 := by
  split
  · next hphase =>
      exact count_eq_one_of_mem (runUserPhases_nodup hnodup phase)
        (mem_runUserPhases.mpr ⟨up, hup, rfl, hphase, hempty, hcallback⟩)
  · next hphase =>
      refine count_eq_zero.mpr fun hmem => ?_
      obtain ⟨other, hother, hname, hafter, -⟩ := mem_runUserPhases.mp hmem
      rw [eq_of_name_eq hnodup hup hother hname] at hafter
      exact hphase hafter

theorem count_fullLog (hfollows : FollowsBuiltin up) :
    (fullLog env phases).count (.userPhase up.name) = 1 := by
  obtain ⟨hphase, hempty⟩ := hfollows
  have hbuiltin := fun phase =>
    count_eq_zero.mpr (userPhase_not_mem_builtin env up.name phase)
  have hlast : (.setPhase .stopped :: when env.running (.setRunning false)).count
      (userPhase up.name) = 0 :=
    count_eq_zero.mpr (by simp [userPhase_not_mem_when])
  have hblock : ∀ phase, (phaseEvents env phases phase).count
      (.userPhase up.name) = if up.afterPhase = phase then 1 else 0 := by
    intro phase
    rw [phaseEvents, count_append, hbuiltin, Nat.zero_add,
      count_runUserPhases hnodup hup hcallback hempty]
  rw [fullLog, count_append, hlast, drainPhases]
  simp only [flatMap_cons, flatMap_nil, append_nil, count_append, hblock]
  simp only [drainPhases, mem_cons, not_mem_nil, or_false] at hphase
  rcases hphase with h | h | h | h
  all_goals rw [h]; rfl

end

/-- A user phase of a block runs after the built-in part of the block. -/
theorem fullLog_split (hup : up ∈ phases) (hcallback : up.callback = true)
    (hfollows : FollowsBuiltin up) :
    ∃ before rest, fullLog env phases = before ++ .userPhase up.name :: rest ∧
      builtinEvents env up.afterPhase ⊆ before := by
  obtain ⟨hphase, hempty⟩ := hfollows
  have hmem : .userPhase up.name ∈ runUserPhases phases up.afterPhase :=
    mem_runUserPhases.mpr ⟨up, hup, rfl, rfl, hempty, hcallback⟩
  obtain ⟨early, late, hrun⟩ := append_of_mem hmem
  obtain ⟨front, back, hphases⟩ := append_of_mem hphase
  refine ⟨front.flatMap (phaseEvents env phases) ++ builtinEvents env up.afterPhase ++ early,
    late ++ back.flatMap (phaseEvents env phases) ++
      .setPhase .stopped :: when env.running (.setRunning false), ?_, ?_⟩
  · rw [fullLog, hphases, flatMap_append, flatMap_cons, phaseEvents, hrun]
    simp only [append_assoc, cons_append]
  · intro event hevent
    exact mem_append_left _ (mem_append_right _ hevent)

/-- In a run that is not forced all user phases run in their order exactly if
each of them, unless it has no callback, follows a built-in phase: a phase
registered to follow another user phase is never run. -/
theorem runsInOrder_iff (registrations : List Registration)
    (hunforced : Unforced env (registered registrations)) :
    RunsInOrder env (registered registrations) (executeLog env (registered registrations)) ↔
      ∀ up ∈ registered registrations, up.callback = true →
        FollowsBuiltin up := by
  have hnodup := registered_nodup registrations
  rw [executeLog_eq hunforced]
  constructor
  · intro hruns up hup hcallback
    have hone := (hruns up hup hcallback).1
    have hmem : .userPhase up.name ∈ fullLog env (registered registrations) :=
      count_pos_iff.mp (by omega)
    obtain ⟨phase, hphase, hrun⟩ := (userPhase_mem_fullLog env).mp hmem
    obtain ⟨other, hother, hname, hafter, hempty, -⟩ := mem_runUserPhases.mp hrun
    rw [eq_of_name_eq hnodup hup hother hname] at hafter hempty
    exact ⟨hafter ▸ hphase, hempty⟩
  · intro hall up hup hcallback
    have hfollows := hall up hup hcallback
    obtain ⟨before, rest, hlog, hdone⟩ :=
      fullLog_split env hup hcallback hfollows
    refine ⟨count_fullLog env hnodup hup hcallback hfollows, before, rest, hlog, ?_⟩
    rw [if_pos hfollows.2]
    exact hdone

namespace PhasesWitness

def chained : List Registration :=
  [.addUserPhase "flush" .drainingIngress true, .addUserPhaseAfter "archive" "flush" true]

def quiet : ShutdownEnvironment := {}

/-- "archive" is registered to follow "flush", which runs; it never does. -/
theorem chained_not_run :
    Unforced quiet (registered chained) ∧
      .userPhase "flush" ∈ executeLog quiet (registered chained) ∧
      .userPhase "archive" ∉ executeLog quiet (registered chained) ∧
      ¬ RunsInOrder quiet (registered chained) (executeLog quiet (registered chained)) := by
  have habsent :
      .userPhase "archive" ∉ executeLog quiet (registered chained) := by decide
  refine ⟨by unfold Unforced; decide, by decide, habsent, fun hruns => ?_⟩
  have hone := (hruns (Registration.phase (.addUserPhaseAfter "archive" "flush" true))
    (by decide) rfl).1
  exact habsent (count_pos_iff.mp (by
    have hname : (Registration.phase
      (.addUserPhaseAfter "archive" "flush" true)).name = "archive" := rfl
    rw [hname] at hone
    omega))

def straight : List Registration :=
  [.addUserPhase "flush" .drainingIngress true, .addUserPhase "archive" .flushingTelemetry true]

theorem runsInOrder_iff_straight :
    RunsInOrder quiet (registered straight) (executeLog quiet (registered straight)) := by
  have hunforced : Unforced quiet (registered straight) := by
    unfold Unforced
    decide
  refine (runsInOrder_iff quiet straight hunforced).mpr fun up hup _ => ?_
  have hphases : registered straight =
      [{ name := "flush", afterPhase := .drainingIngress },
        { name := "archive", afterPhase := .flushingTelemetry }] := by decide
  rw [hphases] at hup
  rcases mem_cons.mp hup with rfl | hup
  · exact ⟨by decide, rfl⟩
  · rw [mem_singleton.mp hup]
    exact ⟨by decide, rfl⟩

end PhasesWitness

end Shutdown

end HPActor
