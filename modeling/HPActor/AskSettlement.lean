/-
Every ask is settled once.  A key is drawn once, so it enters the table once and
leaves it once; who takes it out resolves its handle and counts it.  The counts
are compared call by call: an ask that has left the table and is not yet
resolved or counted is in the hands of a call that is going to do so.
-/
import HPActor.AskManager
import HPActor.Interleaving
import HPActor.Runs

namespace HPActor

open List Option AskCall

universe u

variable {R : Type u}

namespace AskCall

/-- The call is about to enter the key. -/
def enters (id : Nat) : AskCall R → Bool
  | .emplace key => key == id
  | _ => false

/-- The call is about to resolve the handle of the ask. -/
def resolves (id : Nat) : AskCall R → Bool
  | .resolve _ key => key == id
  | _ => false

/-- The call has entered an ask and not counted it. -/
def countsEntry : AskCall R → Bool
  | .countRegistered _ => true
  | _ => false

/-- The call has taken an ask from the table and not counted it. -/
def countsSettled : AskCall R → Bool
  | .resolve _ _ => true
  | .count _ _ => true
  | _ => false

def isReturned : AskCall R → Bool
  | .returned _ => true
  | _ => false

end AskCall

namespace AskSystem

open Interleaving

variable {s t : AskSystem R} {i : Nat} {call : AskCall R}

/-- How often the key is in the table. -/
def inTable (pending : Finset Nat) (id : Nat) : Nat :=
  if id ∈ pending then 1 else 0

/-- How often the key was drawn. -/
def drawn (nextId id : Nat) : Nat := if id < nextId then 1 else 0

/-- How often the id is in the list. -/
def times (events : List (Nat × Settlement R)) (id : Nat) : Nat :=
  (events.map Prod.fst).count id

variable {id key : Nat} {manager : AskManager} {action : AskAction R}
  {new : AskCall R} {how : Settlement R} {timers : Finset Nat}
  {handles : Nat → Option (Settlement R)} {resolved : List (Nat × Settlement R)}

theorem inTable_of_mem {pending : Finset Nat} (hmem : id ∈ pending) :
    inTable pending id = 1 := if_pos hmem

theorem drawn_le_one (nextId id : Nat) : drawn nextId id ≤ 1 := by
  rw [drawn]
  split <;> omega

theorem drawn_le_succ (nextId id : Nat) : drawn nextId id ≤ drawn (nextId + 1) id := by
  rw [drawn, drawn]
  split <;> split <;> omega

theorem times_append (events : List (Nat × Settlement R)) (id key : Nat) (how : Settlement R) :
    times (events ++ [(key, how)]) id = times events id + if key = id then 1 else 0 := by
  simp [times, count_append, count_singleton]

@[simp] theorem count_pending (manager : AskManager) (how : Settlement R) :
    (manager.count how).pending = manager.pending := by
  cases how <;> rfl

theorem take_eq_some {next : AskManager} (htake : manager.take id = some next) :
    id ∈ manager.pending ∧
      next = { manager with pending := manager.pending.erase id } := by
  rw [AskManager.take] at htake
  split at htake
  · next hmem => exact ⟨hmem, (some.inj htake).symm⟩
  · cases htake

/-- What a step does: a new call, a drawn id, or the next step of a call. -/
theorem step_cases (hstep : s.step action = some t) :
    t = begin { s with nextId := s.nextId + 1 } (.emplace s.nextId) ∨
    t = { s with nextId := s.nextId + 1 } ∨
    (∃ how id, t = s.begin (.find how id)) ∨
    (∃ id ∈ s.timers, t = begin { s with
      timers := s.timers.erase id
      fired := insert id s.fired } (.find .timeout id)) ∨
    ∃ i call, s.calls[i]? = some call ∧ s.advance i call = some t := by
  cases action with
  | registerAsk => exact .inl (some.inj hstep).symm
  | onResponse id response | onTimeout id | cancel id =>
    exact .inr (.inr (.inl ⟨_, id, (some.inj hstep).symm⟩))
  | fireTimer id =>
    rw [step] at hstep
    split at hstep
    · next hmem =>
        exact .inr (.inr (.inr (.inl ⟨id, hmem, (some.inj hstep).symm⟩)))
    · cases hstep
  | drawMessageId => exact .inr (.inl (some.inj hstep).symm)
  | advance i =>
    obtain ⟨call, hget, hadvance⟩ := bind_eq_some_iff.mp hstep
    exact .inr (.inr (.inr (.inr ⟨i, call, hget, hadvance⟩)))

/-- A key is with the call that enters it, in the table or out of it again, and
only if it was drawn. -/
def KeysOnce (s : AskSystem R) : Prop :=
  ∀ id, times s.removals id + inTable s.manager.pending id +
    s.calls.countP (AskCall.enters id) ≤ drawn s.nextId id

section

variable (hkeys : s.KeysOnce)
include hkeys

/-- A call that has nothing to do with the entry of a key moves on. -/
theorem KeysOnce.move (hget : s.calls[i]? = some call)
    (hcall : ∀ id, call.enters id = false) (hnew : ∀ id, new.enters id = false)
    (hpending : manager.pending = s.manager.pending) :
    KeysOnce { s with
      manager := manager, handles := handles, timers := timers, resolves := resolved
      calls := s.calls.set i new } := by
  intro id
  have hcount := countP_set_add (enters id) hget new
  rw [hcall, hnew] at hcount
  have hid := hkeys id
  simp only [hpending]
  omega

/-- The key of a call that is about to enter it was never in the table. -/
theorem KeysOnce.fresh (hget : s.calls[i]? = some (.emplace key)) :
    key ∉ s.manager.pending ∧ times s.removals key = 0 := by
  have hcall : (emplace key : AskCall R).enters key = true := by
    simp [enters]
  have hpositive := countP_pos_of_getElem? hget hcall
  have hkey := hkeys key
  have hdrawn := drawn_le_one s.nextId key
  refine ⟨fun hmem => ?_, by omega⟩
  rw [inTable_of_mem hmem] at hkey
  omega

open Finset

theorem KeysOnce.emplace (hget : s.calls[i]? = some (.emplace key)) :
    KeysOnce { s with
      manager := s.manager.emplace key
      calls := s.calls.set i (.countRegistered key) } := by
  intro id
  have hcount := countP_set_add (enters id) hget (.countRegistered key)
  have hid := hkeys id
  simp only [enters, beq_iff_eq, Bool.false_eq_true, if_false] at hcount
  simp only [AskManager.emplace]
  by_cases heq : key = id
  · subst heq
    rw [inTable_of_mem (mem_insert_self key _)]
    rw [if_pos rfl] at hcount
    omega
  · rw [if_neg heq] at hcount
    simp only [inTable, mem_insert, Ne.symm heq, false_or] at hid ⊢
    omega

theorem KeysOnce.removal (hget : s.calls[i]? = some (.find how key))
    (htake : s.manager.take key = some manager) :
    KeysOnce { s with
      manager := manager
      calls := s.calls.set i (.resolve how key)
      removals := s.removals ++ [(key, how)] } := by
  obtain ⟨hmem, rfl⟩ := take_eq_some htake
  intro id
  have hcount := countP_set_add (enters id) hget (.resolve how key)
  have hid := hkeys id
  simp only [enters, Bool.false_eq_true, if_false] at hcount
  simp only [times_append]
  by_cases heq : key = id
  · subst heq
    rw [inTable_of_mem hmem] at hid
    rw [inTable, if_neg (notMem_erase key _), if_pos rfl]
    omega
  · simp only [inTable, mem_erase, ne_eq, Ne.symm heq, not_false_eq_true,
      true_and, if_neg heq] at hid ⊢
    omega

theorem KeysOnce.begin_find (how : Settlement R) (id : Nat) :
    (s.begin (.find how id)).KeysOnce := by
  intro other
  have hother := hkeys other
  simp only [begin, countP_append, countP_singleton, enters, Bool.false_eq_true, if_false]
  exact hother

theorem KeysOnce.draw : KeysOnce { s with nextId := s.nextId + 1 } := by
  intro id
  exact Nat.le_trans (hkeys id) (drawn_le_succ s.nextId id)

theorem KeysOnce.register :
    (begin { s with nextId := s.nextId + 1 } (.emplace s.nextId)).KeysOnce := by
  intro id
  have hid := hkeys id
  simp only [begin, countP_append, countP_singleton, enters, beq_iff_eq]
  by_cases heq : s.nextId = id
  · subst heq
    simp only [drawn, Nat.lt_irrefl, Nat.lt_succ_self, if_true, if_false] at hid ⊢
    omega
  · have hle := drawn_le_succ s.nextId id
    rw [if_neg heq]
    omega

end

/-- The counters and the calls that are still to count come to the asks that
were entered and to those that were taken out. -/
structure Counted (s : AskSystem R) : Prop where
  entered : s.manager.totalRegistered + s.calls.countP AskCall.countsEntry =
    s.manager.pending.card + s.removals.length
  settled : s.manager.totalResolved + s.manager.totalTimedOut +
    s.manager.totalCancelled + s.calls.countP AskCall.countsSettled = s.removals.length

section

variable (hcounted : s.Counted)
include hcounted

section

variable (hget : s.calls[i]? = some call) (hcalls : t.calls = s.calls.set i new)
include hget hcalls

/-- A call moves on, and what it had and has to count makes up for the change of
the table and of the counters. -/
theorem Counted.replace
    (hentered : t.manager.totalRegistered + (if new.countsEntry then 1 else 0)
      + (s.manager.pending.card + s.removals.length) =
      s.manager.totalRegistered + (if call.countsEntry then 1 else 0) +
      (t.manager.pending.card + t.removals.length))
    (hsettled : t.manager.totalResolved + t.manager.totalTimedOut +
      t.manager.totalCancelled + (if new.countsSettled then 1 else 0) +
      s.removals.length = s.manager.totalResolved + s.manager.totalTimedOut +
      s.manager.totalCancelled + (if call.countsSettled then 1 else 0) +
      t.removals.length) : t.Counted := by
  have hentry := countP_set_add countsEntry hget new
  have hsettle := countP_set_add countsSettled hget new
  have hbefore := hcounted.entered
  have hbefore' := hcounted.settled
  constructor
  · rw [hcalls]
    omega
  · rw [hcalls]
    omega

/-- A call that has nothing to count moves on. -/
theorem Counted.move (hcall : call.countsEntry = new.countsEntry)
    (hcall' : call.countsSettled = new.countsSettled)
    (hremovals : t.removals = s.removals) (hmanager : t.manager = s.manager) :
    t.Counted := by
  apply hcounted.replace hget hcalls
  · rw [hremovals, hmanager, hcall]
  · rw [hremovals, hmanager, hcall']

end

/-- Calls that begin have nothing to count yet. -/
theorem Counted.begin (call : AskCall R) (hentry : call.countsEntry = false)
    (hsettled : call.countsSettled = false) : (s.begin call).Counted := by
  constructor
  all_goals
    simp only [AskSystem.begin, countP_append, countP_singleton,
      hentry, hsettled, Bool.false_eq_true, if_false]
  · exact hcounted.entered
  · exact hcounted.settled

end

/-- Who has left the table was resolved, or a call is about to do so. -/
structure Resolved (s : AskSystem R) : Prop where
  once : ∀ id, times s.resolves id + s.calls.countP (AskCall.resolves id) = times s.removals id
  held : ∀ how id, .resolve how id ∈ s.calls → (id, how) ∈ s.removals
  taken : ∀ event ∈ s.resolves, event ∈ s.removals
  handle : ∀ id how, s.handles id = some how ↔ (id, how) ∈ s.resolves

theorem KeysOnce.removed_le (hkeys : s.KeysOnce) (id : Nat) : times s.removals id ≤ 1 := by
  have hid := hkeys id
  have hdrawn := drawn_le_one s.nextId id
  omega

theorem times_pos {events : List (Nat × Settlement R)}
    (hmem : (id, how) ∈ events) : 0 < times events id :=
  count_pos_iff.mpr (mem_map_of_mem hmem)

section

variable (hresolved : s.Resolved)
include hresolved

/-- A call that does not resolve moves on. -/
theorem Resolved.move (hget : s.calls[i]? = some call)
    (hcall : ∀ id, call.resolves id = false) (hnew : ∀ id, new.resolves id = false) :
    Resolved { s with
      manager := manager, timers := timers, calls := s.calls.set i new } where
  once := by
    intro id
    have hcount := countP_set_add (AskCall.resolves id) hget new
    rw [hcall, hnew] at hcount
    simp only [← hresolved.once id]
    omega
  held := by
    intro how id hmem
    rcases mem_or_eq_of_mem_set hmem with hold | heq
    · exact hresolved.held how id hold
    · have hresolves := hnew id
      rw [← heq, AskCall.resolves, beq_self_eq_true] at hresolves
      cases hresolves
  taken := hresolved.taken
  handle := hresolved.handle

/-- Whoever takes an ask from the table is about to resolve it. -/
theorem Resolved.removal (hget : s.calls[i]? = some (.find how key)) (manager : AskManager) :
    Resolved { s with
      manager := manager
      calls := s.calls.set i (.resolve how key)
      removals := s.removals ++ [(key, how)] } where
  once := by
    intro id
    have hcount := countP_set_add (AskCall.resolves id) hget (.resolve how key)
    have hid := hresolved.once id
    simp only [AskCall.resolves, Bool.false_eq_true, if_false, beq_iff_eq] at hcount
    simp only [times_append]
    omega
  held := by
    intro how' id hmem
    rcases mem_or_eq_of_mem_set hmem with hold | heq
    · exact mem_append_left _ (hresolved.held how' id hold)
    · cases heq
      exact mem_concat_self
  taken := by
    intro event hevent
    exact mem_append_left _ (hresolved.taken event hevent)
  handle := hresolved.handle

/-- The handle of an ask is open while a call is about to resolve it. -/
theorem Resolved.open_handle (hkeys : s.KeysOnce) (hget : s.calls[i]? = some (.resolve how key)) :
    times s.resolves key = 0 ∧ s.handles key = none := by
  have hcall : (AskCall.resolve how key).resolves key = true := by
    simp [AskCall.resolves]
  have hpositive := countP_pos_of_getElem? hget hcall
  have honce := hresolved.once key
  have hle := hkeys.removed_le key
  refine ⟨by omega, ?_⟩
  cases hhandle : s.handles key with
  | none => rfl
  | some old =>
    have hpos := times_pos ((hresolved.handle key old).mp hhandle)
    omega

theorem Resolved.resolve (hkeys : s.KeysOnce) (hget : s.calls[i]? = some (.resolve how key)) :
    Resolved { s with
      handles := Function.update s.handles key (RequestHandle.resolve (s.handles key) how)
      calls := s.calls.set i (.count how key)
      resolves := s.resolves ++ [(key, how)] } := by
  have hmember := hresolved.held how key (mem_of_getElem? hget)
  obtain ⟨hfresh, hnone⟩ := hresolved.open_handle hkeys hget
  refine ⟨?_, ?_, ?_, ?_⟩
  · intro id
    have hcount := countP_set_add (AskCall.resolves id) hget (.count how key)
    have hid := hresolved.once id
    simp only [AskCall.resolves, Bool.false_eq_true, if_false, beq_iff_eq] at hcount
    simp only [times_append]
    omega
  · intro how' id hmem
    rcases mem_or_eq_of_mem_set hmem with hold | heq
    · exact hresolved.held how' id hold
    · cases heq
  · exact forall_mem_append.mpr ⟨hresolved.taken, forall_mem_singleton.mpr hmember⟩
  · intro id how'
    by_cases heq : id = key
    · subst heq
      simp only [Function.update_self, hnone, mem_append, mem_singleton]
      constructor
      · intro hsome
        cases hsome
        exact .inr rfl
      · rintro (hold | hnew)
        · have hpos := times_pos hold
          omega
        · cases hnew
          rfl
    · simp only [Function.update_of_ne heq, hresolved.handle, mem_append, mem_singleton]
      simp [heq]

theorem Resolved.begin (call : AskCall R)
    (hcall : ∀ id, call.resolves id = false) : (s.begin call).Resolved where
  once := by
    intro id
    simp only [AskSystem.begin, countP_append, countP_singleton,
      hcall, Bool.false_eq_true, if_false]
    exact hresolved.once id
  held := by
    intro how id hmem
    rcases mem_append.mp hmem with hold | hnew
    · exact hresolved.held how id hold
    · have hresolves := hcall id
      rw [← mem_singleton.mp hnew, AskCall.resolves, beq_self_eq_true] at hresolves
      cases hresolves
  taken := hresolved.taken
  handle := hresolved.handle

end

/-- The ask was entered in the table, and perhaps taken out again. -/
def Entered (s : AskSystem R) (id : Nat) : Prop :=
  id ∈ s.manager.pending ∨ 0 < times s.removals id

/-- Timers are set for asks that were entered, and a timer that has fired is a
call, which has yet to look if the ask is still there. -/
structure TimersSet (s : AskSystem R) : Prop where
  entered : ∀ key, .countRegistered key ∈ s.calls ∨ .schedule key ∈ s.calls ∨
    key ∈ s.timers ∨ key ∈ s.fired → s.Entered key
  waiting : ∀ id ∈ s.fired, id ∈ s.manager.pending → .find .timeout id ∈ s.calls

theorem KeysOnce.not_entered (hkeys : s.KeysOnce)
    (hget : s.calls[i]? = some (.emplace key)) : ¬s.Entered key := by
  obtain ⟨hnot, hzero⟩ := hkeys.fresh hget
  rw [Entered, hzero]
  exact not_or.mpr ⟨hnot, lt_irrefl 0⟩

/-- Calls on the way to their timer, after one call began or was changed. -/
theorem onWay_cases {calls calls' : List (AskCall R)} {elsewhere : Prop}
    (hcalls : ∀ call ∈ calls', call ∈ calls ∨ call = new)
    (hway : .countRegistered key ∈ calls' ∨ .schedule key ∈ calls' ∨ elsewhere) :
    (new = .countRegistered key ∨ new = .schedule key) ∨
      .countRegistered key ∈ calls ∨ .schedule key ∈ calls ∨ elsewhere := by
  rcases hway with hmem | hmem | helse
  · rcases hcalls _ hmem with hold | heq
    · exact .inr (.inl hold)
    · exact .inl (.inl heq.symm)
  · rcases hcalls _ hmem with hold | heq
    · exact .inr (.inr (.inl hold))
    · exact .inl (.inr heq.symm)
  · exact .inr (.inr (.inr helse))

theorem mem_or_eq_of_mem_begin (hmem : call ∈ (s.begin new).calls) : call ∈ s.calls ∨ call = new :=
  (mem_append.mp hmem).imp_right mem_singleton.mp

section

variable (htimers : s.TimersSet)
include htimers

/-- A call moves on that neither enters an ask nor takes one out. -/
theorem TimersSet.move (hget : s.calls[i]? = some call)
    (hpending : manager.pending = s.manager.pending)
    (hset : ∀ key ∈ timers, key ∈ s.timers ∨ s.Entered key)
    (hnew : ∀ key, new = .countRegistered key ∨ new = .schedule key → s.Entered key)
    (hcall : ∀ id ∈ s.manager.pending, call ≠ .find .timeout id) :
    TimersSet { s with
      manager := manager, handles := handles, timers := timers, resolves := resolved
      calls := s.calls.set i new } := by
  constructor
  · intro key hkey
    rw [Entered, hpending]
    rcases onWay_cases (fun _ => mem_or_eq_of_mem_set) hkey with heq | hmem | hmem | hmem | hmem
    · exact hnew key heq
    · exact htimers.entered key (.inl hmem)
    · exact htimers.entered key (.inr (.inl hmem))
    · rcases hset key hmem with hold | hentered
      · exact htimers.entered key (.inr (.inr (.inl hold)))
      · exact hentered
    · exact htimers.entered key (.inr (.inr (.inr hmem)))
  · intro id hid hmem
    rw [hpending] at hmem
    exact mem_set_of_ne hget (htimers.waiting id hid hmem) (Ne.symm (hcall id hmem)) new

theorem TimersSet.emplace (hkeys : s.KeysOnce) (hget : s.calls[i]? = some (.emplace key)) :
    TimersSet { s with
      manager := s.manager.emplace key
      calls := s.calls.set i (.countRegistered key) } := by
  have hfresh := hkeys.not_entered hget
  constructor
  · intro other hother
    by_cases heq : other = key
    · subst heq
      exact .inl (Finset.mem_insert_self other _)
    · have hold : s.Entered other := by
        rcases onWay_cases (fun _ => mem_or_eq_of_mem_set) hother with (hnew | hnew) | hold
        · cases hnew
          exact absurd rfl heq
        · cases hnew
        · exact htimers.entered other hold
      rcases hold with hmem | hpos
      · exact .inl (Finset.mem_insert_of_mem hmem)
      · exact .inr hpos
  · intro id hid hmem
    rcases Finset.mem_insert.mp hmem with heq | hold
    · -- the timer of a key that is only now entered was not set
      exact absurd (heq ▸ htimers.entered id (.inr (.inr (.inr hid)))) hfresh
    · exact mem_set_of_ne hget (htimers.waiting id hid hold) (fun h => by cases h) _

theorem TimersSet.removal (hget : s.calls[i]? = some (.find how key))
    (htake : s.manager.take key = some manager) :
    TimersSet { s with
      manager := manager
      calls := s.calls.set i (.resolve how key)
      removals := s.removals ++ [(key, how)] } := by
  obtain ⟨hmem, rfl⟩ := take_eq_some htake
  constructor
  · intro other hother
    have hold : s.Entered other := by
      rcases onWay_cases (fun _ => mem_or_eq_of_mem_set) hother with (hnew | hnew) | hold
      · cases hnew
      · cases hnew
      · exact htimers.entered other hold
    simp only [Entered, times_append, Finset.mem_erase]
    by_cases heq : key = other
    · exact .inr (by rw [if_pos heq]; omega)
    · rcases hold with hin | hpos
      · exact .inl ⟨Ne.symm heq, hin⟩
      · exact .inr (by omega)
  · intro id hid hin
    obtain ⟨hne, hold⟩ := Finset.mem_erase.mp hin
    refine mem_set_of_ne hget (htimers.waiting id hid hold) ?_ _
    intro heq
    cases heq
    exact hne rfl

theorem TimersSet.begin (call : AskCall R)
    (hcall : ∀ key, ¬ (call = .countRegistered key ∨ call = .schedule key)) :
    (s.begin call).TimersSet := by
  constructor
  · intro key hkey
    exact htimers.entered key ((onWay_cases (fun _ => mem_or_eq_of_mem_begin)
      hkey).resolve_left (hcall key))
  · intro id hid hmem
    exact mem_append_left _ (htimers.waiting id hid hmem)

theorem TimersSet.fire (hid : id ∈ s.timers) :
    (AskSystem.begin { s with
      timers := s.timers.erase id
      fired := insert id s.fired } (.find .timeout id)).TimersSet := by
  constructor
  · intro key hkey
    apply htimers.entered
    rcases onWay_cases (fun _ => mem_or_eq_of_mem_begin) hkey with
      (heq | heq) | hmem | hmem | hmem | hmem
    · cases heq
    · cases heq
    · exact .inl hmem
    · exact .inr (.inl hmem)
    · exact .inr (.inr (.inl (Finset.mem_of_mem_erase hmem)))
    · rcases Finset.mem_insert.mp hmem with rfl | hold
      · exact .inr (.inr (.inl hid))
      · exact .inr (.inr (.inr hold))
  · intro other hother hmem
    rcases Finset.mem_insert.mp hother with rfl | hold
    · exact mem_concat_self
    · exact mem_append_left _ (htimers.waiting other hold hmem)

end

structure Inv (s : AskSystem R) : Prop where
  keys : s.KeysOnce
  counted : s.Counted
  resolved : s.Resolved
  timers : s.TimersSet

theorem start_inv : Inv ({} : AskSystem R) := by
  refine ⟨?_, ⟨rfl, rfl⟩, ⟨fun _ => rfl, ?_, ?_, ?_⟩, ⟨?_, ?_⟩⟩
  · intro id
    exact Nat.zero_le _
  · intro how id hmem
    cases hmem
  · intro event hevent
    cases hevent
  · intro id how
    constructor <;> intro h <;> cases h
  · rintro key (hmem | hmem | hmem | hmem) <;> cases hmem
  · intro id hid
    cases hid

section

variable (hinv : s.Inv)
include hinv

theorem Inv.advance (hget : s.calls[i]? = some call) (hstep : s.advance i call = some t) :
    t.Inv := by
  obtain ⟨hkeys, hcounted, hresolved, htimers⟩ := hinv
  have hmem := mem_of_getElem? hget
  cases call with
  | emplace key =>
    cases hstep
    refine ⟨hkeys.emplace hget, hcounted.replace hget rfl ?_ rfl,
      hresolved.move hget (fun _ => rfl) fun _ => rfl, htimers.emplace hkeys hget⟩
    simp only [AskManager.emplace, countsEntry, Finset.card_insert_of_notMem (hkeys.fresh hget).1]
    grind
  | countRegistered key =>
    cases hstep
    refine ⟨hkeys.move hget (fun _ => rfl) (fun _ => rfl) rfl,
      hcounted.replace hget rfl rfl rfl,
      hresolved.move hget (fun _ => rfl) fun _ => rfl,
      htimers.move hget rfl (fun _ => .inl) ?_ (by simp)⟩
    rintro other (heq | heq) <;> cases heq
    exact htimers.entered key (.inl hmem)
  | schedule key =>
    cases hstep
    refine ⟨hkeys.move hget (fun _ => rfl) (fun _ => rfl) rfl,
      hcounted.move hget rfl rfl rfl rfl rfl,
      hresolved.move hget (fun _ => rfl) fun _ => rfl,
      htimers.move hget rfl (fun other hother => ?_) (by simp) (by simp)⟩
    rcases Finset.mem_insert.mp hother with heq | hold
    · exact .inr (heq ▸ htimers.entered key (.inr (.inl hmem)))
    · exact .inl hold
  | leave key =>
    cases hstep
    exact ⟨hkeys.move hget (fun _ => rfl) (fun _ => rfl) rfl,
      hcounted.move hget rfl rfl rfl rfl rfl,
      hresolved.move hget (fun _ => rfl) fun _ => rfl,
      htimers.move hget rfl (fun _ => .inl) (by simp) (by simp)⟩
  | find how key =>
    rw [AskSystem.advance] at hstep
    split at hstep
    · next htake =>
        cases hstep
        refine ⟨hkeys.move hget (fun _ => rfl) (fun _ => rfl) rfl,
          hcounted.move hget rfl rfl rfl rfl rfl,
          hresolved.move hget (fun _ => rfl) fun _ => rfl,
          htimers.move hget rfl (fun _ => .inl) (by simp) ?_⟩
        intro id hin heq
        cases heq
        rw [AskManager.take, if_pos hin] at htake
        cases htake
    · next manager htake =>
        cases hstep
        refine ⟨hkeys.removal hget htake, ?_, hresolved.removal hget manager,
          htimers.removal hget htake⟩
        obtain ⟨hin, rfl⟩ := take_eq_some htake
        have hcard := Finset.card_erase_add_one hin
        apply hcounted.replace hget rfl
        · simp only [countsEntry, Bool.false_eq_true, if_false, length_append, length_singleton]
          omega
        · simp only [countsSettled, length_append, length_singleton]
          grind
  | resolve how key =>
    cases hstep
    exact ⟨hkeys.move hget (fun _ => rfl) (fun _ => rfl) rfl,
      hcounted.move hget rfl rfl rfl rfl rfl, hresolved.resolve hkeys hget,
      htimers.move hget rfl (fun _ => .inl) (by simp) (by simp)⟩
  | count how key =>
    cases hstep
    refine ⟨hkeys.move hget (fun _ => rfl) (fun _ => rfl) (count_pending _ how), ?_,
      hresolved.move hget (fun _ => rfl) fun _ => rfl,
      htimers.move hget (count_pending _ how) (fun _ => .inl) (by simp) (by simp)⟩
    apply hcounted.replace hget rfl
    · cases how <;> rfl
    · cases how <;>
        simp only [AskManager.count, countsSettled] <;> grind
  | returned reply => cases hstep

theorem Inv.step (hstep : s.step action = some t) : t.Inv := by
  have hcounted : ∀ nextId timers fired, Counted { s with
      nextId := nextId, timers := timers, fired := fired } :=
    fun _ _ _ => { hinv.counted with }
  have hresolved : ∀ nextId timers fired, Resolved { s with
      nextId := nextId, timers := timers, fired := fired } :=
    fun _ _ _ => { hinv.resolved with }
  have htimers : TimersSet { s with nextId := s.nextId + 1 } := { hinv.timers with }
  rcases step_cases hstep with rfl | rfl | ⟨how, id, rfl⟩ | ⟨id, hid, rfl⟩ |
    ⟨i, call, hget, hadvance⟩
  · exact ⟨hinv.keys.register, (hcounted _ _ _).begin (.emplace s.nextId) rfl rfl,
      (hresolved _ _ _).begin (.emplace s.nextId) fun _ => rfl,
      htimers.begin (.emplace s.nextId) (by simp)⟩
  · exact ⟨hinv.keys.draw, hcounted _ _ _, hresolved _ _ _, htimers⟩
  · exact ⟨hinv.keys.begin_find how id, hinv.counted.begin (.find how id) rfl rfl,
      hinv.resolved.begin (.find how id) fun _ => rfl, hinv.timers.begin (.find how id) (by simp)⟩
  · exact ⟨hinv.keys.begin_find .timeout id, (hcounted _ _ _).begin (.find .timeout id) rfl rfl,
      (hresolved _ _ _).begin (.find .timeout id) fun _ => rfl, hinv.timers.fire hid⟩
  · exact hinv.advance hget hadvance

end

theorem run_inv {actions : List (AskAction R)} (hrun : Runs.run step {} actions = some s) : s.Inv :=
  Runs.run_invariant' (fun _ _ _ hinv hstep => hinv.step hstep) start_inv hrun

/-- No call is in progress. -/
def Quiet (s : AskSystem R) : Prop := ∀ call ∈ s.calls, call.isReturned = true

/-- What the manager promises of its asks. -/
structure SettlesOnce (s : AskSystem R) : Prop where
  removedOnce : (s.removals.map Prod.fst).Nodup
  resolvedOnce : (s.resolves.map Prod.fst).Nodup
  byRemoval : ∀ event ∈ s.resolves, event ∈ s.removals
  result : ∀ id how, s.handles id = some how ↔ (id, how) ∈ s.resolves
  resolvedAll : s.Quiet → ∀ event ∈ s.removals, event ∈ s.resolves
  ledger : s.Quiet → s.manager.totalRegistered = s.manager.totalResolved + s.manager.totalTimedOut +
      s.manager.totalCancelled + s.manager.pending.card
  drained : (∀ id, s.Entered id → id ∈ s.fired) →
    (∀ id, .find .timeout id ∉ s.calls) → s.manager.pending = ∅

theorem Quiet.countP {p : AskCall R → Bool} (hquiet : s.Quiet)
    (hp : ∀ reply, p (.returned reply) = false) : s.calls.countP p = 0 := by
  rw [countP_eq_zero]
  intro call hcall hpcall
  have hreturned := hquiet call hcall
  cases call with
  | returned reply =>
    rw [hp] at hpcall
    cases hpcall
  | _ => cases hreturned

/-- Every ask is settled once, by whoever takes it out of the table; when no
call is in progress the counters account for all asks, and when all timers have
fired no ask is left. -/
theorem run_settlesOnce {actions : List (AskAction R)}
    (hrun : Runs.run step {} actions = some s) : s.SettlesOnce := by
  obtain ⟨hkeys, hcounted, hresolved, htimers⟩ := run_inv hrun
  have hremoved : (s.removals.map Prod.fst).Nodup :=
    nodup_iff_count_le_one.mpr hkeys.removed_le
  have hle : ∀ id, times s.resolves id ≤ 1 := by
    intro id
    have honce := hresolved.once id
    have hremovedLe := hkeys.removed_le id
    omega
  refine ⟨hremoved, nodup_iff_count_le_one.mpr hle, hresolved.taken, hresolved.handle, ?_, ?_, ?_⟩
  · rintro hquiet ⟨id, how⟩ hevent
    have honce := hresolved.once id
    have hpos := times_pos hevent
    rw [hquiet.countP fun _ => rfl] at honce
    have hmem : id ∈ s.resolves.map Prod.fst := by
      rw [← count_pos_iff]
      exact Nat.lt_of_lt_of_eq hpos honce.symm
    obtain ⟨⟨id', how'⟩, hin, rfl⟩ := mem_map.mp hmem
    have hsame : how = how' := congrArg Prod.snd
      (inj_on_of_nodup_map hremoved hevent (hresolved.taken _ hin) rfl)
    rwa [hsame]
  · intro hquiet
    have hentered := hcounted.entered
    have hsettled := hcounted.settled
    rw [hquiet.countP fun _ => rfl] at hentered hsettled
    omega
  · intro hfired hnone
    rw [Finset.eq_empty_iff_forall_notMem]
    intro id hid
    exact hnone id (htimers.waiting id (hfired id (.inl hid)) hid)

namespace SettlementWitness

/-- The timer of the first ask fires before `register_ask` has returned, while
a response is on its way. -/
def raced : List (AskAction Nat) :=
  [.registerAsk, .advance 0, .onResponse 1 5, .advance 0, .advance 0,
    .fireTimer 1, .advance 2, .advance 1, .advance 2, .advance 2, .advance 0,
    .cancel 1, .advance 3]

theorem run_settlesOnce_raced :
    ∃ s, Runs.run step {} raced = some s ∧ s.Quiet ∧
      s.removals = [(1, .timeout)] ∧ s.SettlesOnce := by
  have hrun : ∃ s, Runs.run step {} raced = some s ∧ s.Quiet ∧ s.removals = [(1, .timeout)] :=
    ⟨_, rfl, by unfold Quiet; decide, rfl⟩
  obtain ⟨s, hrun, hquiet, hremovals⟩ := hrun
  exact ⟨s, hrun, hquiet, hremovals, run_settlesOnce hrun⟩

end SettlementWitness

end AskSystem

end HPActor
