/-
The timing wheel and a shard of the timer plane are interchangeable.  The same
calls go to both, with the wheel's times shifted by its first clock reading; the
answers to every call are put side by side.
-/
import HPActor.TimerRefinement
import Mathlib.Algebra.Order.BigOperators.Group.Finset

namespace HPActor

open HierarchicalWheel TimerPlaneShard Option List Wheel

/-- What one call answered on the wheel and on the shard, and the earliest
deadlines after it. -/
structure Answers where
  cancelled : Option (Bool × Bool)
  fired : List Nat × List Nat
  deadlines : Option Int × Option Int

/-- The wheel and the shard side by side, with the handles they returned and
their answers so far. -/
structure TimerPair where
  wheel : TimingWheel Nat
  shard : TimerPlaneShard Nat
  ids : List Nat
  handles : List TimerHandle
  answers : List Answers

inductive TimerCall where
  | schedule (delayNs : Int)
  | cancel (number : Nat)
  | advance (x : Int)

namespace TimerPair

/-- The wheel has four levels, both have a tick of one millisecond. -/
def start (t0 : Nat) (shardIndex : Nat) : TimerPair where
  wheel := TimingWheel.create 1000000 4 (by decide) t0
  shard := create shardIndex 1000000
  ids := []
  handles := []
  answers := []

def answer (p : TimerPair) (cancelled : Option (Bool × Bool))
    (fired : List Nat × List Nat) : TimerPair :=
  { p with
    answers := p.answers ++ [⟨cancelled, fired, (p.wheel.minDeadline, p.shard.minDeadline)⟩] }

/-- One call on both.  The callback of a timer is its number; a number that was
not handed out yet cannot be cancelled. -/
def step (t0 : Nat) (p : TimerPair) : TimerCall → Option TimerPair
  | .schedule delayNs =>
    let (timerId, wheel) := p.wheel.schedule delayNs p.ids.length
    let (handle, shard) := p.shard.schedule delayNs 0 p.handles.length
    some ({ p with
      wheel := wheel, shard := shard, ids := p.ids ++ [timerId],
      handles := p.handles ++ [handle] }.answer none ([], []))
  | .cancel number =>
    match p.ids[number]?, p.handles[number]? with
    | some timerId, some handle =>
      let (left, wheel) := p.wheel.cancel timerId
      let (right, shard) := p.shard.cancel handle
      some ({ p with wheel := wheel, shard := shard }.answer (some (left, right)) ([], []))
    | _, _ => none
  | .advance x =>
    let (left, wheel) := p.wheel.advance (t0 + x)
    let (right, shard) := p.shard.advance x
    some ({ p with wheel := wheel, shard := shard }.answer none (left, right))

/-- A schedule is at least one tick ahead, finds fewer live timers than slots, and
the slot it gets was handed out fewer than 255 times.  No time of the wheel, which
is the later one, is too large for an `int64_t`. -/
def Fits (t0 : Nat) (p : TimerPair) : TimerCall → Prop
  | .schedule delayNs =>
    1000000 ≤ delayNs ∧ t0 + p.shard.currentTimeNs + delayNs < 2 ^ 63 ∧
      p.shard.pending < kMaxSlots ∧ ∀ slot ∈ p.shard.freeSlots.head?, uses p.handles slot < 255
  | .cancel _ => True
  | .advance x => t0 + x < 2 ^ 63

instance Fits.decidable (t0 : Nat) (p : TimerPair) : ∀ call, Decidable (p.Fits t0 call) := by
  intro call
  unfold Fits
  split <;> infer_instance

/-- The wheel and the shard gave the same answer: same result of a cancel, same
timers fired, same deadline up to the shift. -/
structure Agree (t0 : Nat) (r : Answers) : Prop where
  cancelled : ∀ results ∈ r.cancelled, results.1 = results.2
  fired : r.fired.1.Perm r.fired.2
  deadlines : r.deadlines.1 = r.deadlines.2.map fun x => (t0 : Int) + x

/-- Both keep one timer set and agreed so far. -/
structure Together (t0 : Nat) (p : TimerPair) : Prop where
  tick : p.shard.tickNs = 1000000
  both : ∃ a, p.wheel.Shows p.ids t0 a ∧ p.shard.Shows p.handles a
  numbers : p.ids.length = p.handles.length
  agreed : ∀ r ∈ p.answers, Agree t0 r

/-- So few timers fit into the slots' generations that an id never reaches its
level bits. -/
theorem handles_few {shard : TimerPlaneShard Nat} {handles : List TimerHandle}
    {a : TimerSet} (h : shard.Shows handles a) :
    handles.length ≤ kMaxSlots * 255 := by
  let slots := handles.map TimerHandle.slotIndex
  have hcount : ∀ slot, slots.count slot ≤ 255 := by
    intro slot
    have hgeneration := (shard.generations slot).toNat_lt
    rw [h.counted slot, uses] at hgeneration
    rw [count, countP_map]
    exact Nat.le_of_lt_succ hgeneration
  have hsub : slots.toFinset ⊆ Finset.range kMaxSlots := by
    intro slot hslot
    obtain ⟨handle, hhandle, rfl⟩ := mem_map.mp (mem_toFinset.mp hslot)
    obtain ⟨slot, generation, hlt, rfl, -⟩ := h.made handle hhandle
    rw [Finset.mem_range, TimerHandle.slotIndex_makeEncoded _ _ (slot_lt_handle hlt)]
    exact hlt
  calc handles.length = ∑ slot ∈ slots.toFinset, slots.count slot := by
        rw [sum_toFinset_count_eq_length, length_map]
    _ ≤ slots.toFinset.card * 255 :=
        Finset.sum_le_card_nsmul _ _ _ fun slot _ => hcount slot
    _ ≤ kMaxSlots * 255 := by
        apply Nat.mul_le_mul_right
        simpa using Finset.card_le_card hsub

section

variable {t0 : Nat} {p q : TimerPair}

/-- The state after a call, once both sides are known to keep one timer set. -/
theorem Together.answer (h : Together t0 p) {cancelled : Option (Bool × Bool)}
    {fired : List Nat × List Nat}
    (hcancelled : ∀ results ∈ cancelled, results.1 = results.2)
    (hfired : fired.1.Perm fired.2) : Together t0 (p.answer cancelled fired) := by
  obtain ⟨a, hwheel, hshard⟩ := h.both
  refine ⟨h.tick, h.both, h.numbers, ?_⟩
  intro r hr
  rcases mem_append.mp hr with hold | hnew
  · exact h.agreed r hold
  · rw [mem_singleton] at hnew
    subst hnew
    exact ⟨hcancelled, hfired, hwheel.deadline.unique (hshard.deadline.shift t0)⟩

open Together

theorem Together.schedule (h : Together t0 p) {delayNs : Int}
    (hfits : p.Fits t0 (.schedule delayNs)) (hstep : p.step t0 (.schedule delayNs) = some q) :
    Together t0 q := by
  obtain ⟨a, hwheel, hshard⟩ := h.both
  obtain ⟨hdelay, -, hlive, huses⟩ := hfits
  have hcounted := hshard.sound.slotted.counted
  obtain ⟨slot, rest, hfree⟩ : ∃ slot rest, p.shard.freeSlots = slot :: rest := by
    cases hfree : p.shard.freeSlots with
    | nil =>
      rw [hfree, length_nil] at hcounted
      omega
    | cons slot rest => exact ⟨slot, rest, rfl⟩
  have hslot : uses p.handles slot < 255 :=
    huses slot (by simp [hfree])
  have hfew := handles_few hshard
  have hid : p.ids.length + 1 < 2 ^ 48 := by
    rw [h.numbers]
    have : kMaxSlots * 255 + 1 < 2 ^ 48 := by decide
    omega
  have hwheel' := hwheel.schedule hid (show 0 < delayNs by omega)
  have hshard' := hshard.schedule hfree hslot
    (show (p.shard.tickNs : Int) ≤ delayNs by rw [h.tick]; exact hdelay)
  simp only [step, some.injEq] at hstep
  subst hstep
  apply answer
  · refine ⟨?_, ⟨_, hwheel', ?_⟩, ?_, h.agreed⟩
    · show (p.shard.schedule delayNs 0 p.handles.length).2.tickNs = 1000000
      rw [schedule_free hfree]
      exact h.tick
    · rw [h.numbers]
      exact hshard'
    · simp [h.numbers]
  · simp
  · exact List.Perm.refl _

theorem Together.cancel (h : Together t0 p) {number : Nat}
    (hstep : p.step t0 (.cancel number) = some q) : Together t0 q := by
  obtain ⟨a, hwheel, hshard⟩ := h.both
  cases hid : p.ids[number]? with
  | none => simp [step, hid] at hstep
  | some timerId =>
    cases hhandle : p.handles[number]? with
    | none => simp [step, hid, hhandle] at hstep
    | some handle =>
      simp only [step, hid, hhandle, some.injEq] at hstep
      subst hstep
      cases hlive : a.live number with
      | none =>
        have hleft := hwheel.cancel_dead hid hlive
        have hright := hshard.cancel_dead hhandle hlive
        rw [hleft, hright]
        apply answer
        · exact ⟨h.tick, ⟨a, hwheel, hshard⟩, h.numbers, h.agreed⟩
        · simp
        · exact List.Perm.refl _
      | some x =>
        obtain ⟨hleft, hwheel'⟩ := hwheel.cancel_live hid hlive
        obtain ⟨hright, hshard'⟩ := hshard.cancel_live hhandle hlive
        have htick := hshard.sound.call_tickNs (c := .cancel handle) rfl
        apply answer
        · exact ⟨htick.trans h.tick, ⟨_, hwheel', hshard'⟩, h.numbers, h.agreed⟩
        · simp [hleft, hright]
        · exact List.Perm.refl _

/-- The shift moves the cap of the clock step as well. -/
theorem cappedNow_shift (t0 clock x : Int) : cappedNow (t0 + clock) (t0 + x) =
      t0 + cappedNow clock x := by
  unfold cappedNow
  split_ifs <;> omega

theorem Together.advance (h : Together t0 p) {x : Int}
    (hstep : p.step t0 (.advance x) = some q) : Together t0 q := by
  obtain ⟨a, hwheel, hshard⟩ := h.both
  simp only [step, some.injEq] at hstep
  subst hstep
  by_cases hnow : x ≤ a.clock
  · have hleft : p.wheel.advance (t0 + x) = ([], p.wheel) :=
      TimingWheel.advance_idle (by rw [hwheel.clock]; omega)
    have hright : p.shard.advance x = ([], p.shard) :=
      advance_idle hshard.sound.queue (by rwa [hshard.clock])
    rw [hleft, hright]
    apply answer
    · exact ⟨h.tick, ⟨a, hwheel, hshard⟩, h.numbers, h.agreed⟩
    · simp
    · exact List.Perm.refl _
  · have hcap := cappedNow_le a.clock x
    have hleft : p.wheel.advance (t0 + x) = p.wheel.advanceTo (t0 + cappedNow a.clock x) := by
      rw [TimingWheel.advance_moves (by rw [hwheel.clock]; omega), hwheel.clock, cappedNow_shift]
    have hright : p.shard.advance x = p.shard.advanceTo (cappedNow a.clock x) := by
      rw [advance_moves hshard.sound.queue (by rw [hshard.clock]; omega), hshard.clock]
    obtain ⟨hfires, hwheel'⟩ := hwheel.advanceTo hcap
    obtain ⟨hfires', hshard'⟩ := hshard.advanceTo hcap
    rw [hleft, hright]
    apply answer
    · exact ⟨(advanceTo_tickNs _ _).trans h.tick, ⟨_, hwheel', hshard'⟩, h.numbers, h.agreed⟩
    · simp
    · exact hfires.perm hfires'

theorem Together.step (h : Together t0 p) {call : TimerCall}
    (hfits : p.Fits t0 call) (hstep : p.step t0 call = some q) :
    Together t0 q := by
  cases call with
  | schedule delayNs => exact h.schedule hfits hstep
  | cancel number => exact h.cancel hstep
  | advance x => exact h.advance hstep

theorem start_together (t0 : Nat) {shardIndex : Nat}
    (hindex : shardIndex < 2 ^ 16) : Together t0 (start t0 shardIndex) where
  tick := rfl
  both := by
    refine ⟨TimerSet.start, ?_, ?_⟩
    · exact
        { sound := TimingWheel.create_sound 4 (by decide) t0 (by decide)
          clock := by simp [start, TimingWheel.create, TimerSet.start]
          next := rfl
          shown := by simp [start, TimingWheel.create, look, empty]
          held := by simp [TimerSet.start]
          made := by simp [start] }
    · exact
        { sound := create_sound shardIndex (by decide)
          clock := rfl
          fits := hindex
          shown := by
            simp [start, create, timerAt, look, empty]
          held := by simp [TimerSet.start]
          made := by simp [start]
          distinct := nodup_nil
          counted := by
            simp [start, create, uses] }
  numbers := rfl
  agreed := by simp [start]

end

/-- Whatever fitting calls are made, the wheel and the shard of an index below
65536 answer each of them alike. -/
theorem wheel_and_shard_agree (t0 : Nat) {shardIndex : Nat}
    (hindex : shardIndex < 65536) (calls : List TimerCall) {p : TimerPair}
    (hfits : Runs.EachStep (step t0) (Fits t0) (start t0 shardIndex) calls)
    (hrun : Runs.run (step t0) (start t0 shardIndex) calls = some p) :
    ∀ r ∈ p.answers, Agree t0 r := by
  have htogether : Together t0 p :=
    Runs.run_invariant (fun _ _ _ h hcall hstep => h.step hcall hstep)
      (start_together t0 hindex) hfits hrun
  exact htogether.agreed

namespace EquivalenceWitness

/-- Timers on two levels, a cancel, a capped advance, and a stale cancel. -/
def calls : List TimerCall :=
  [.schedule 5000000, .schedule 300000000, .schedule 7000000, .cancel 2,
    .advance 250000000, .cancel 0]

/-- The run is possible, and its answers show a cancel, a fired timer and a
refused cancel. -/
theorem calls_view :
    Runs.EachStep (step 123456789) (Fits 123456789) (start 123456789 3) calls ∧
      (Runs.run (step 123456789) (start 123456789 3) calls).map
          (fun p => p.answers.map fun r => (r.cancelled, r.fired)) =
        some [(none, [], []), (none, [], []), (none, [], []),
          (some (true, true), [], []), (none, [0], [0]),
          (some (false, false), [], [])] := by
  decide +kernel

theorem calls_agree :
    ∃ p, Runs.run (step 123456789) (start 123456789 3) calls = some p ∧
      ∀ r ∈ p.answers, Agree 123456789 r := by
  obtain ⟨p, hrun, -⟩ := map_eq_some_iff.mp calls_view.2
  exact ⟨p, hrun, wheel_and_shard_agree 123456789 (by decide) calls calls_view.1 hrun⟩

/-- The handle of shard 65536 says shard 0, so its cancel is refused. -/
theorem wide_index_view :
    Runs.EachStep (step 0) (Fits 0) (start 0 65536) [.schedule 1000000, .cancel 0] ∧
      (Runs.run (step 0) (start 0 65536) [.schedule 1000000, .cancel 0]).map
          (fun p => p.answers.map Answers.cancelled) =
        some [none, some (true, false)] := by
  decide +kernel

theorem wide_index_disagrees :
    ∃ calls p, Runs.EachStep (step 0) (Fits 0) (start 0 65536) calls ∧
      Runs.run (step 0) (start 0 65536) calls = some p ∧
      ∃ r ∈ p.answers, ¬ Agree 0 r := by
  obtain ⟨p, hrun, hanswers⟩ := map_eq_some_iff.mp wide_index_view.2
  have hmem : some (true, false) ∈ p.answers.map Answers.cancelled := by
    rw [hanswers]
    simp
  obtain ⟨r, hr, hcancelled⟩ := List.mem_map.mp hmem
  refine ⟨_, p, wide_index_view.1, hrun, r, hr, ?_⟩
  intro hagree
  have hsame := hagree.cancelled (true, false) hcancelled
  cases hsame

end EquivalenceWitness

end TimerPair

end HPActor
