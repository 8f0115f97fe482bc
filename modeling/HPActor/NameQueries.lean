/-
Concurrent resolution of names.  Each caller goes through `resolve` step by
step, one step for each stretch under a mutex; callers share the table of
pending resolves.  Responses arrive in any order.

A response does not name what it answers, so it completes every resolve that
is pending when it arrives.  A caller is sure to get the response to its own
query only if no other resolve is pending at that moment.
-/
import HPActor.NameResolver
import HPActor.Runs

namespace HPActor

open Function Option NameResolver

/-- Where a caller is in `resolve`. -/
inductive ResolvePhase where
  | idle
  | entered
  | unlisted
  | uncached
  | routed (home : EndPoint)
  | registered (home : EndPoint)
  | waiting
  | woken
  | cleaned (result : Option ActorAddress)
  | returned (result : Option ActorAddress)
deriving Repr, DecidableEq

namespace NameResolver

def setPending (r : NameResolver) (name : String)
    (pending : Option PendingResolve) : NameResolver :=
  { r with pendingResolves := update r.pendingResolves name pending }

/-- The next step of a caller inside `resolve`.  A caller that waits is woken
by the predicate of the condition variable. -/
def resolveStep (r : NameResolver) (name : String) (now : Nat) :
    ResolvePhase → Option (NameResolver × ResolvePhase)
  | .idle => none
  | .entered =>
    if r.enabled then
      match r.nameDirectory.resolve name with
      | some entry =>
        some (r, .returned (some { endpoint := entry.endpoint, id := entry.actorId }))
      | none => some (r, .unlisted)
    else some (r, .returned none)
  | .unlisted =>
    match r.cache.get now name with
    | some address => some (r, .returned (some address))
    | none => some (r, .uncached)
  | .uncached =>
    match r.ring name with
    | none => some (r, .returned none)
    | some home =>
      if r.outboundActive then some (r, .routed home)
      else some (r, .returned none)
  | .routed home => some (r.setPending name (some {}), .registered home)
  | .registered _ => some (r, .waiting)
  | .waiting =>
    match r.pendingResolves name with
    | some pending => if pending.ready then some (r, .woken) else none
    | none => none
  | .woken =>
    some (r.setPending name none, .cleaned ((r.pendingResolves name).bind PendingResolve.result))
  | .cleaned none => some (r, .returned none)
  | .cleaned (some address) =>
    some ({ r with
        cache := r.cache.put name address (now + r.cacheTtlSeconds) },
      .returned (some address))
  | .returned _ => none

end NameResolver

/-- The resolver of a node with `n` callers.  `asked` says whose query has been
sent, `answers` which responses have arrived. -/
structure NameQueries (n : Nat) where
  resolver : NameResolver
  callers : Fin n → ResolvePhase := fun _ => .idle
  asked : Fin n → Bool := fun _ => false
  answers : Fin n → Option NameResolveResponse := fun _ => none

namespace NameQueries

variable {n : Nat}

inductive Action (n : Nat) where
  | call (i : Fin n)
  | proceed (i : Fin n) (now : Nat)
  | timeout (i : Fin n)
  | respond (i : Fin n) (response : NameResolveResponse)

/-- The query leaves when the caller starts to wait. -/
def sends : ResolvePhase → Bool
  | .registered _ => true
  | _ => false

def step (inet : InetLibrary) (names : Fin n → String) (s : NameQueries n) :
    Action n → Option (NameQueries n)
  | .call i =>
    if s.callers i = .idle then
      some { s with callers := update s.callers i .entered }
    else none
  | .proceed i now =>
    match s.resolver.resolveStep (names i) now (s.callers i) with
    | none => none
    | some (resolver, phase) =>
      some { s with
        resolver := resolver
        callers := update s.callers i phase
        asked := update s.asked i (s.asked i || sends (s.callers i)) }
  | .timeout i =>
    if s.callers i = .waiting then
      some { s with
        resolver := s.resolver.setPending (names i) none
        callers := update s.callers i (.returned none) }
    else none
  | .respond i response =>
    if s.asked i = true ∧ s.answers i = none then
      some { s with
        resolver := s.resolver.onNameResolveResponse inet response
        answers := update s.answers i (some response) }
    else none

/-- The resolve of a caller is pending and has no result yet. -/
def IsPending (names : Fin n → String) (s : NameQueries n) (i : Fin n) : Prop :=
  ∃ pending, s.resolver.pendingResolves (names i) = some pending ∧ pending.ready = false

/-- Responses arrive in time, and while no other resolve is pending. -/
def Alone (names : Fin n → String) (s : NameQueries n) : Action n → Prop
  | .respond i _ => ∀ j, j ≠ i → ¬ s.IsPending names j
  | .timeout _ => False
  | _ => True

instance (names : Fin n → String) (s : NameQueries n) (i : Fin n) :
    Decidable (s.IsPending names i) :=
  inferInstanceAs (Decidable (∃ pending ∈ s.resolver.pendingResolves (names i), _))

instance (names : Fin n → String) (s : NameQueries n) (action : Action n) :
    Decidable (s.Alone names action) := by
  unfold Alone
  split <;> infer_instance

/-- A resolver that has to ask for the names of the callers. -/
structure Serves (names : Fin n → String) (r : NameResolver) : Prop where
  enabled : r.enabled = true
  outboundActive : r.outboundActive = true
  homes : ∀ i, r.ring (names i) ≠ none
  unlisted : ∀ i, r.nameDirectory.entries (names i) = none

/-- A resolver that has not seen the names of the callers, all of which have a
home. -/
structure Unseen (names : Fin n → String) (r : NameResolver) : Prop extends Serves names r where
  uncached : ∀ i, r.cache.cache (names i) = none
  quiet : ∀ i, r.pendingResolves (names i) = none

/-- A caller in a phase, with its pending resolve, its cached address, its
query and its response. -/
def Sound (inet : InetLibrary) (pending : Option PendingResolve)
    (cached : Option (ActorAddress × Nat)) (asked : Bool)
    (answer : Option NameResolveResponse) : ResolvePhase → Prop
  | .idle | .entered | .unlisted =>
    pending = none ∧ cached = none ∧ asked = false ∧ answer = none
  | .uncached | .routed _ => pending = none ∧ asked = false ∧ answer = none
  | .registered _ => pending = some {} ∧ asked = false ∧ answer = none
  | .waiting => (pending = some {} ∧ answer = none) ∨ ∃ response,
      pending = some ⟨response.address inet, true⟩ ∧ answer = some response
  | .woken => ∃ response, pending = some ⟨response.address inet, true⟩ ∧ answer = some response
  | .cleaned result | .returned result =>
    pending = none ∧ ∃ response, answer = some response ∧ result = response.address inet

structure Proper (inet : InetLibrary) (names : Fin n → String) (s : NameQueries n) : Prop where
  serves : Serves names s.resolver
  sound : ∀ i, Sound inet (s.resolver.pendingResolves (names i))
    (s.resolver.cache.cache (names i)) (s.asked i) (s.answers i) (s.callers i)

variable {inet : InetLibrary} {names : Fin n → String} {s t : NameQueries n} {r : NameResolver}

/-- A resolver after a step of a caller: nothing of the other names has
changed. -/
structure Touches (names : Fin n → String) (i : Fin n) (r r' : NameResolver) : Prop where
  serves : Serves names r'
  pending : ∀ name, name ≠ names i → r'.pendingResolves name = r.pendingResolves name
  cached : ∀ name, name ≠ names i → r'.cache.cache name = r.cache.cache name

variable {now : Nat} {phase : ResolvePhase} {i : Fin n} {response : NameResolveResponse}

theorem Serves.touches (hr : Serves names r) (i : Fin n) : Touches names i r r :=
  ⟨hr, fun _ _ => rfl, fun _ _ => rfl⟩

theorem Serves.touches_setPending (hr : Serves names r) (i : Fin n)
    (pending : Option PendingResolve) : Touches names i r (r.setPending (names i) pending) :=
  ⟨{ hr with }, fun _ hname => update_of_ne hname _ _, fun _ _ => rfl⟩

/-- A caller that moves keeps what it can count on. -/
theorem Sound.move {phase' : ResolvePhase} {r' : NameResolver} {asked : Bool}
    {answer : Option NameResolveResponse} (hr : Serves names r)
    (hsound : Sound inet (r.pendingResolves (names i)) (r.cache.cache (names i)) asked answer phase)
    (hstep : r.resolveStep (names i) now phase = some (r', phase')) :
    Touches names i r r' ∧ Sound inet (r'.pendingResolves (names i))
      (r'.cache.cache (names i)) (asked || sends phase) answer phase' := by
  cases phase with
  | idle | returned result => cases hstep
  | entered =>
    simp only [resolveStep, if_pos hr.enabled, NameDirectory.resolve, hr.unlisted,
      some.injEq] at hstep
    cases hstep
    refine ⟨hr.touches i, ?_⟩
    change Sound inet _ _ (asked || false) _ _
    rwa [Bool.or_false]
  | unlisted =>
    obtain ⟨hpending, hcached, hasked, hanswer⟩ := hsound
    simp only [resolveStep, NameResolveCache.get, hcached, some.injEq] at hstep
    cases hstep
    exact ⟨hr.touches i, hpending, by rw [hasked]; rfl, hanswer⟩
  | uncached =>
    obtain ⟨home, hsome⟩ := ne_none_iff_exists'.mp (hr.homes i)
    simp only [resolveStep, hsome, if_pos hr.outboundActive, some.injEq] at hstep
    cases hstep
    refine ⟨hr.touches i, ?_⟩
    change Sound inet _ _ (asked || false) _ _
    rwa [Bool.or_false]
  | routed home =>
    cases hstep
    obtain ⟨-, hasked, hanswer⟩ := hsound
    exact ⟨hr.touches_setPending i _, update_self _ _ _, by rw [hasked]; rfl, hanswer⟩
  | registered home =>
    cases hstep
    exact ⟨hr.touches i, .inl ⟨hsound.1, hsound.2.2⟩⟩
  | waiting =>
    rcases hsound with ⟨hpending, -⟩ | ⟨response, hpending, hanswer⟩
    · simp only [resolveStep, hpending] at hstep
      cases hstep
    · simp only [resolveStep, hpending, if_true, some.injEq] at hstep
      cases hstep
      exact ⟨hr.touches i, response, hpending, hanswer⟩
  | woken =>
    obtain ⟨response, hpending, hanswer⟩ := hsound
    simp only [resolveStep, hpending, bind_some, some.injEq] at hstep
    cases hstep
    exact ⟨hr.touches_setPending i none, update_self _ _ _, response, hanswer, rfl⟩
  | cleaned result =>
    obtain ⟨hpending, response, hanswer, hresult⟩ := hsound
    cases result with
    | none =>
      cases hstep
      exact ⟨hr.touches i, hpending, response, hanswer, hresult⟩
    | some address =>
      cases hstep
      exact ⟨⟨{ hr with }, fun _ _ => rfl, fun _ hname => update_of_ne hname _ _⟩,
        hpending, response, hanswer, hresult⟩

theorem Proper.proceed (hs : s.Proper inet names) (hnames : Injective names)
    (hstep : s.step inet names (.proceed i now) = some t) :
    t.Proper inet names := by
  rw [step] at hstep
  split at hstep
  · cases hstep
  · rename_i resolver phase hmove
    cases hstep
    obtain ⟨htouches, hsound⟩ := (hs.sound i).move hs.serves hmove
    refine ⟨htouches.serves, fun j => ?_⟩
    dsimp only
    by_cases hj : j = i
    · subst hj
      rw [update_self, update_self]
      exact hsound
    · have hname : names j ≠ names i := fun heq => hj (hnames heq)
      rw [update_of_ne hj, update_of_ne hj, htouches.pending _ hname, htouches.cached _ hname]
      exact hs.sound j

/-- A caller whose response is still out waits for it. -/
theorem Sound.waits {pending : Option PendingResolve} {cached : Option (ActorAddress × Nat)}
    (hsound : Sound inet pending cached true none phase) :
    phase = .waiting ∧ pending = some {} := by
  cases phase with
  | waiting =>
    rcases hsound with ⟨hpending, -⟩ | ⟨_, -, hanswer⟩
    · exact ⟨rfl, hpending⟩
    · cases hanswer
  | idle | entered | unlisted => cases hsound.2.2.1
  | uncached | routed | registered => cases hsound.2.1
  | woken =>
    obtain ⟨_, -, hanswer⟩ := hsound
    cases hanswer
  | cleaned | returned =>
    obtain ⟨-, _, hanswer, -⟩ := hsound
    cases hanswer

/-- A response completes the resolve it belongs to, and finds no other one to
complete. -/
theorem Proper.respond (hs : s.Proper inet names) (halone : ∀ j, j ≠ i → ¬ s.IsPending names j)
    (hstep : s.step inet names (.respond i response) = some t) :
    t.Proper inet names := by
  rw [step] at hstep
  obtain ⟨hasked, ⟨⟩⟩ := ite_none_right_eq_some.mp hstep
  refine ⟨{ hs.serves with }, fun j => ?_⟩
  have hsound := hs.sound j
  dsimp only
  by_cases hj : j = i
  · subst hj
    rw [update_self]
    rw [hasked.1, hasked.2] at hsound
    obtain ⟨hphase, hpending⟩ := hsound.waits
    rw [hphase]
    refine .inr ⟨response, ?_, rfl⟩
    simp only [onNameResolveResponse, hpending, map_some, Bool.false_eq_true, if_false, or_none]
  · rw [update_of_ne hj]
    have hkept : (s.resolver.onNameResolveResponse inet response).pendingResolves (names j) =
          s.resolver.pendingResolves (names j) := by
      simp only [onNameResolveResponse]
      cases hpending : s.resolver.pendingResolves (names j) with
      | none => rfl
      | some pending =>
        have hready : pending.ready = true := by
          by_contra hnot
          exact halone j hj ⟨pending, hpending, Bool.eq_false_iff.mpr hnot⟩
        rw [map_some, if_pos hready]
    rw [hkept]
    exact hsound

theorem Proper.step (hs : s.Proper inet names) (hnames : Injective names) {action : Action n}
    (halone : s.Alone names action)
    (hstep : s.step inet names action = some t) : t.Proper inet names := by
  cases action with
  | call i =>
    rw [NameQueries.step] at hstep
    obtain ⟨hidle, ⟨⟩⟩ := ite_none_right_eq_some.mp hstep
    refine ⟨{ hs.serves with }, fun j => ?_⟩
    have hsound := hs.sound j
    dsimp only
    by_cases hj : j = i
    · subst hj
      rw [update_self]
      rwa [hidle] at hsound
    · rwa [update_of_ne hj]
  | proceed i now => exact hs.proceed hnames hstep
  | timeout i => exact halone.elim
  | respond i response => exact hs.respond halone hstep

/-- The caller's own steps take it to the end of `resolve`, with the address
of the response. -/
def Finishes (inet : InetLibrary) (names : Fin n → String) (s : NameQueries n)
    (i : Fin n) (now : Nat) (response : NameResolveResponse) : Prop :=
  ∃ k t, Runs.run (step inet names) s (List.replicate k (.proceed i now)) = some t ∧
    t.callers i = .returned (response.address inet)

theorem finishes_step (hstep : s.step inet names (.proceed i now) = some t)
    (ht : t.Finishes inet names i now response) :
    s.Finishes inet names i now response := by
  obtain ⟨k, last, hrun, hreturned⟩ := ht
  refine ⟨k + 1, last, ?_, hreturned⟩
  rw [List.replicate_succ]
  exact Runs.run_cons_eq_some.mpr ⟨t, hstep, hrun⟩

theorem step_proceed
    (hmove : s.resolver.resolveStep (names i) now (s.callers i) = some (r, phase)) :
    ∃ t, s.step inet names (.proceed i now) = some t ∧
      t.callers i = phase ∧ t.answers = s.answers := by
  rw [step, hmove]
  exact ⟨_, rfl, update_self _ _ _, rfl⟩

section

variable (hs : s.Proper inet names)
include hs

theorem Proper.finishes_cleaned (hanswer : s.answers i = some response)
    {result : Option ActorAddress} (hphase : s.callers i = .cleaned result)
    (now : Nat) : s.Finishes inet names i now response := by
  have hsound := hs.sound i
  rw [hphase, hanswer] at hsound
  obtain ⟨-, _, hsame, hresult⟩ := hsound
  cases hsame
  obtain ⟨resolver, hmove⟩ : ∃ resolver, s.resolver.resolveStep (names i) now (s.callers i) =
        some (resolver, .returned result) := by
    rw [hphase]
    cases result <;> exact ⟨_, rfl⟩
  obtain ⟨t, hstep, hreturned, -⟩ := step_proceed hmove
  exact finishes_step hstep ⟨0, t, rfl, by rw [hreturned, hresult]⟩

section

variable (hnames : Injective names) (hanswer : s.answers i = some response)
include hnames hanswer

theorem Proper.finishes_woken (hphase : s.callers i = .woken) (now : Nat) :
    s.Finishes inet names i now response := by
  have hmove : s.resolver.resolveStep (names i) now (s.callers i) =
      some (s.resolver.setPending (names i) none, .cleaned
        ((s.resolver.pendingResolves (names i)).bind PendingResolve.result)) := by
    rw [hphase]
    rfl
  obtain ⟨t, hstep, hcleaned, hanswers⟩ := step_proceed hmove
  exact finishes_step hstep ((hs.proceed hnames hstep).finishes_cleaned
    (by rw [hanswers, hanswer]) hcleaned now)

theorem Proper.finishes_waiting (hphase : s.callers i = .waiting) (now : Nat) :
    s.Finishes inet names i now response := by
  have hsound := hs.sound i
  rw [hphase, hanswer] at hsound
  rcases hsound with ⟨-, hnone⟩ | ⟨_, hpending, -⟩
  · cases hnone
  · have hmove : s.resolver.resolveStep (names i) now (s.callers i) =
        some (s.resolver, .woken) := by
      simp only [hphase, resolveStep, hpending, if_true]
    obtain ⟨t, hstep, hwoken, hanswers⟩ := step_proceed hmove
    exact finishes_step hstep ((hs.proceed hnames hstep).finishes_woken hnames
      (by rw [hanswers, hanswer]) hwoken now)

theorem Proper.finishes (now : Nat) : s.Finishes inet names i now response := by
  have hsound := hs.sound i
  rw [hanswer] at hsound
  cases hphase : s.callers i with
  | idle | entered | unlisted =>
    rw [hphase] at hsound
    cases hsound.2.2.2
  | uncached | routed | registered =>
    rw [hphase] at hsound
    cases hsound.2.2
  | waiting => exact hs.finishes_waiting hnames hanswer hphase now
  | woken => exact hs.finishes_woken hnames hanswer hphase now
  | cleaned result => exact hs.finishes_cleaned hanswer hphase now
  | returned result =>
    rw [hphase] at hsound
    obtain ⟨-, _, hsame, hresult⟩ := hsound
    cases hsame
    exact ⟨0, s, rfl, by rw [hphase, hresult]⟩

end

end

/-- With distinct names, and responses that find no other resolve pending, a
caller returns what the response to its own query carries, not before that
response has arrived, and once it has arrived the caller can return. -/
theorem callers_get_their_answers {actions : List (Action n)} (hnames : Function.Injective names)
    (hr : Unseen names r)
    (halone : Runs.EachStep (step inet names) (Alone names) { resolver := r } actions)
    (hrun : Runs.run (step inet names) { resolver := r } actions = some s) (i : Fin n) :
    (∀ result, s.callers i = .returned result → ∃ response, s.answers i = some response ∧
        result = response.address inet) ∧
    ∀ response now, s.answers i = some response → s.Finishes inet names i now response := by
  have hstart : Proper inet names { resolver := r } :=
    ⟨hr.toServes, fun i => ⟨hr.quiet i, hr.uncached i, rfl, rfl⟩⟩
  have hs : s.Proper inet names := Runs.run_invariant
    (fun _ _ _ hinv hcond hstep => hinv.step hnames hcond hstep)
    hstart halone hrun
  refine ⟨fun result hreturned => ?_,
    fun response now hanswer => hs.finishes hnames hanswer now⟩
  have hsound := hs.sound i
  rw [hreturned] at hsound
  exact hsound.2

namespace QueryWitness

open EndPoint.EndpointWitness (plain)

/-- A node that knows no names, all of which live on another node. -/
def resolver : NameResolver :=
  { localEndpoint := .ipv4 1 0, ring := fun _ => some (.ipv4 2 0),
    enabled := true, outboundActive := true }

def one : Fin 2 := ⟨0, Nat.zero_lt_two⟩
def two : Fin 2 := ⟨1, Nat.one_lt_two⟩

def twoNames (i : Fin 2) : String := if i = one then "a" else "b"

/-- A caller enters and goes on until it waits. -/
def enter (i : Fin 2) : List (Action 2) :=
  .call i :: List.replicate 5 (.proceed i 0)

def found : NameResolveResponse :=
  { found := true, actorId := 7, endpoint := "10.0.0.1:80".toList,
    generation := 1 }

def returnedBy (s : NameQueries 2) (i : Fin 2) : Option (Option UInt64) :=
  match s.callers i with
  | .returned result => some (result.map ActorAddress.id)
  | _ => none

/-- One caller after the other. -/
def inTurn : List (Action 2) :=
  enter one ++ [.respond one found] ++ List.replicate 3 (.proceed one 0) ++
    enter two ++ [.respond two { found := false }] ++
    List.replicate 3 (.proceed two 0)

theorem in_turn_answered :
    ∃ s, Runs.run (step plain twoNames) { resolver := resolver } inTurn = some s ∧
      returnedBy s one = some (some 7) ∧ returnedBy s two = some none ∧
      ∀ result, s.callers two = .returned result → ∃ response, s.answers two = some response ∧
          result = response.address plain := by
  have hview : (Runs.run (step plain twoNames) { resolver := resolver }
      inTurn).map (fun s => (returnedBy s one, returnedBy s two)) =
        some (some (some 7), some none) := by
    decide +kernel
  obtain ⟨s, hrun, hboth⟩ := map_eq_some_iff.mp hview
  obtain ⟨hfirst, hsecond⟩ := Prod.mk.inj hboth
  refine ⟨s, hrun, hfirst, hsecond, ?_⟩
  have hdistinct : ∀ i j, twoNames i = twoNames j → i = j := by decide
  exact (callers_get_their_answers hdistinct
    ⟨⟨rfl, rfl, fun _ hnone => (by cases hnone), fun _ => rfl⟩, fun _ => rfl,
      fun _ => rfl⟩ (by decide +kernel) hrun two).1

/-- With both callers waiting, the response for the first name is returned to
the second one, whose own response has not arrived. -/
theorem answer_of_another :
    (Runs.run (step plain twoNames) { resolver := resolver }
      (enter one ++ enter two ++ [.respond one found] ++ List.replicate 3 (.proceed two 0))).map
          (fun s => (returnedBy s two, s.answers two)) =
      some (some (some 7), none) := by
  decide +kernel

end QueryWitness

end NameQueries

end HPActor
