/-
No lost wakeup.  In every state the flag is armed, the word is ready, or some
thread has the wakeup under way: a producer that has taken the flag and not
passed the gate, or a worker that holds the word or will find a message in its
last look.  A worker that holds the word has the flag armed or a message left
for that look; what can break this is a flag taken or a lane emptied behind its
back, and a pop that brings nothing although messages wait.
-/
import HPActor.Interleaving
import HPActor.MailboxWakeup
import Mathlib.Data.Fintype.Basic

namespace HPActor.Wakeup

open Runs Interleaving WorkerPc Option PushPc

universe u v w x

variable {N : Type u} {M : Type v} {W : Type w} {L : Type x}

/-- The producer has taken the flag and its notification has not passed the
gate. -/
def PushPc.claims : PushPc L → Bool
  | .notify _ => true
  | _ => false

def WorkerPc.holds : WorkerPc M L → Bool
  | .idle => false
  | .activation _ _ pc => pc.holds
  | .popping _ _ _ => true
  | .looking _ _ look _ => look.pc.holds

def WorkerPc.responsible : WorkerPc M L → Bool
  | .idle => false
  | .activation _ _ pc => pc.responsible
  | .popping _ _ _ => true
  | .looking _ _ _ _ => true

/-- The worker is about to claim a ready word or to queue an item for it. -/
def WorkerPc.promises : WorkerPc M L → Bool
  | .activation _ _ .claim => true
  | .activation _ _ (.done .requeueReady) => true
  | .popping _ _ (.selfPlace _) => true
  | _ => false

/-- The mailbox of the actor exists, so its activations never find it
missing. -/
def WorkerPc.served : WorkerPc M L → Prop
  | .activation _ _ .releaseMissing => False
  | _ => True

/-- The worker is about to take the flag away itself. -/
def WorkerPc.disarms : WorkerPc M L → Bool
  | .popping _ _ .disarm | .popping _ _ .disarmDenied | .popping _ _ (.swap _) => true
  | _ => false

/-- The values the word of an actor without coroutines takes. -/
def Plain : ActorState → Prop
  | .idle | .ready | .running => True
  | _ => False

section

variable (sh : Shared N M L)

def Waiting : Prop :=
  ∃ lane, 0 < (sh.lanes lane).count

/-- Whichever lane a message is taken from, one is left. -/
def Plenty [DecidableEq L] : Prop :=
  ∀ lane, ∃ other, (if other = lane then 1 else 0) < (sh.lanes other).count

/-- The worker can do without the flag: it has yet to re-arm it, or a message is
left for its looks, besides the one its scan takes. -/
def MessageLeft [DecidableEq L] : WorkerPc M L → Prop
  | .popping _ _ .lock | .popping _ _ .rearm => True
  | .popping _ _ (.scan _) => Plenty sh
  | .popping _ _ _ => Waiting sh
  | .activation _ _ .lookup | .activation _ _ .consume => True
  | .activation _ _ pc => pc.holds = true → Waiting sh
  | .looking _ _ (.readMore _) _ => Waiting sh
  | _ => True

/-- The worker holds the word, or its activation ends in another wakeup. -/
def Stands : WorkerPc M L → Prop
  | .activation _ _ (.wake _) => True
  | .activation _ _ (.recheck _) => Waiting sh
  | .looking _ _ (.recheck _) rest => ∃ lane ∈ rest, 0 < (sh.lanes lane).count
  | pc => pc.holds = true

end

section

variable [DecidableEq L] {sh next : Shared N M L} {pc : WorkerPc M L}

theorem Plenty.waiting (hplenty : Plenty sh) (lane : L) : Waiting sh := by
  obtain ⟨other, hother⟩ := hplenty lane
  refine ⟨other, lt_of_le_of_lt ?_ hother⟩
  split <;> decide

theorem messageLeft_of_not_holds (hpc : pc.holds = false) : MessageLeft sh pc := by
  cases pc with
  | idle => trivial
  | activation sequence round runner =>
    cases runner with
    | lookup | consume => trivial
    | _ => exact fun hholds => absurd (hpc.symm.trans hholds) (by decide)
  | popping => cases hpc
  | looking sequence round look rest =>
    cases look with
    | readMore => cases hpc
    | recheck => trivial

omit [DecidableEq L] in
theorem not_disarms (hpc : pc.holds = false) : pc.disarms = false := by
  cases pc with
  | popping => cases hpc
  | _ => rfl

omit [DecidableEq L] in
theorem Stands.of_holds (hpc : pc.holds = true) : Stands sh pc := by
  cases pc with
  | idle => exact hpc
  | activation sequence round runner => cases runner <;> first | exact hpc | cases hpc
  | popping => exact hpc
  | looking sequence round look rest => cases look <;> first | exact hpc | cases hpc

omit [DecidableEq L] in
theorem Stands.responsible (hpc : Stands sh pc) : pc.responsible = true := by
  cases pc with
  | idle => cases hpc
  | activation sequence round runner =>
    cases runner <;> first | rfl | cases hpc
  | _ => rfl

section

variable (hgrows : ∀ lane, (sh.lanes lane).count ≤ (next.lanes lane).count)
include hgrows

omit [DecidableEq L] in
theorem Waiting.mono (hwaiting : Waiting sh) : Waiting next := by
  obtain ⟨lane, hlane⟩ := hwaiting
  exact ⟨lane, hlane.trans_le (hgrows lane)⟩

theorem MessageLeft.mono (hleft : MessageLeft sh pc) : MessageLeft next pc := by
  unfold MessageLeft at hleft ⊢
  split at hleft
  · trivial
  · trivial
  · intro lane
    obtain ⟨other, hother⟩ := hleft lane
    exact ⟨other, hother.trans_le (hgrows other)⟩
  · exact hleft.mono hgrows
  · trivial
  · trivial
  · exact fun hholds => (hleft hholds).mono hgrows
  · exact hleft.mono hgrows
  · trivial

omit [DecidableEq L] in
theorem Stands.mono (hpc : Stands sh pc) : Stands next pc := by
  unfold Stands at hpc ⊢
  split at hpc
  · trivial
  · exact hpc.mono hgrows
  · obtain ⟨lane, hlane, hcount⟩ := hpc
    exact ⟨lane, hlane, hcount.trans_le (hgrows lane)⟩
  · exact hpc

end

end

variable {word : ActorState}

/-- A notification that leaves the gate leaves the word ready or running. -/
theorem gateStep_answer_plain {gate : GatePc .tryMarkReady} {code : ReadyAdmissionCode}
    (hplain : Plain word) (hanswer : (gateStep word gate).2 = .answer code) :
    (gateStep word gate).1 = .ready ∨ word = .running ∧ (gateStep word gate).1 = .running := by
  rcases gateStep_answer hanswer with hready | rfl | rfl | ⟨value, rfl⟩
  · exact .inl hready
  · exact .inr ⟨rfl, gateStep_running gate⟩
  · cases hplain
  · cases hplain

theorem gateStep_plain {entry : GateEntry} (gate : GatePc entry)
    (hplain : Plain word) : Plain (gateStep word gate).1 := by
  rcases gateStep_word word gate with hsame | haccept
  · rwa [hsame]
  · rw [haccept]
    trivial

/-- The gate never makes a word running. -/
theorem gateStep_eq_running (gate : GatePc .tryMarkReady) :
    (gateStep word gate).1 = .running ↔ word = .running := by
  constructor
  · intro hrunning
    rcases gateStep_word word gate with hsame | haccept
    · rwa [hsame] at hrunning
    · rw [haccept] at hrunning
      cases hrunning
  · rintro rfl
    exact gateStep_running gate

section

variable [DecidableEq N] [DecidableEq M] [DecidableEq L] {sh next : Shared N M L} {lane : L}

/-- An `enqueue` counts its node with its last step. -/
theorem enqueueLane_count {node : N ⊕ M} (hstep : enqueueLane sh lane node = some next)
    (other : L) :
    (next.lanes other).count = (sh.lanes other).count +
      if other = lane ∧ enqueued next lane node = true then 1 else 0 := by
  simp only [enqueueLane, map_eq_some_iff] at hstep
  obtain ⟨queue, hqueue, rfl⟩ := hstep
  by_cases hother : other = lane
  · subst hother
    unfold Mpsc.enqueueStep at hqueue
    split at hqueue <;> cases hqueue <;> simp [Shared.setLane, enqueued]
  · simp [Shared.setLane, hother]

theorem enqueueLane_grows {node : N ⊕ M} (hstep : enqueueLane sh lane node = some next)
    (other : L) : (sh.lanes other).count ≤ (next.lanes other).count := by
  rw [enqueueLane_count hstep]
  split <;> omega

/-- A `dequeue` takes its node off the count when it returns it. -/
theorem dequeueLane_count (sh : Shared N M L) (lane other : L) :
    ((dequeueLane sh lane).lanes other).count = (sh.lanes other).count -
      if other = lane ∧ returnsNode sh lane = true then 1 else 0 := by
  by_cases hother : other = lane
  · subst hother
    simp only [dequeueLane, Shared.setLane, Function.update_self, true_and, returnsNode]
    fun_cases Mpsc.dequeueStep (sh.lanes other) <;> simp [*, Mpsc.State.goto, Mpsc.State.storeNext]
  · simp [dequeueLane, Shared.setLane, hother]

end

section

variable [DecidableEq N] [DecidableEq M] [DecidableEq L]

/-- What the step of a producer keeps: the lanes lose a message to an eviction
only, and the flag goes to a producer that counts as claiming. -/
structure PushKeeps (sh next : Shared N M L) (pc pcNext : PushPc L) : Prop where
  running : next.word = .running ↔ sh.word = .running
  plain : Plain sh.word → Plain next.word
  armed : sh.wasEmpty = true → next.wasEmpty = true ∨ pc = .claim ∧ pcNext.claims = true
  counts : (∀ lane, (sh.lanes lane).count ≤ (next.lanes lane).count) ∨
    ∃ lane rest, pc = .dropScan (lane :: rest) ∧ returnsNode sh lane = true ∧
      next = dequeueLane sh lane
  awake : Plain sh.word → sh.word = .ready ∨ pc.claims = true →
    next.word = .ready ∨ pcNext.claims = true ∨ next.word = .running
  backed : next.word = .ready →
    next.queued ≠ [] ∨ pcNext = .place ∨ sh.word = .ready ∧ sh.queued = [] ∧ pc ≠ .place

variable {sh next : Shared N M L} {pc pcNext : PushPc L}

/-- A step that leaves the word and the work items alone. -/
theorem PushKeeps.of_frame (hword : next.word = sh.word) (hqueued : next.queued = sh.queued)
    (harmed : sh.wasEmpty = true → next.wasEmpty = true ∨ pc = .claim ∧ pcNext.claims = true)
    (hcounts : (∀ lane, (sh.lanes lane).count ≤ (next.lanes lane).count) ∨
      ∃ lane rest, pc = .dropScan (lane :: rest) ∧ returnsNode sh lane = true ∧
        next = dequeueLane sh lane)
    (hclaims : pc.claims = false) (hplace : pc ≠ .place) : PushKeeps sh next pc pcNext := by
  refine ⟨by rw [hword], by rw [hword]; exact id, harmed, hcounts, ?_, ?_⟩
  · rintro - (hready | hclaim)
    · exact .inl (hword.trans hready)
    · rw [hclaims] at hclaim
      cases hclaim
  · intro hready
    by_cases hnone : sh.queued = []
    · exact .inr (.inr ⟨hword.symm.trans hready, hnone, hplace⟩)
    · exact .inl (by rwa [hqueued])

/-- A step that moves the producer only. -/
theorem PushKeeps.of_goto (hword : next.word = sh.word) (hqueued : next.queued = sh.queued)
    (harmed : sh.wasEmpty = true → next.wasEmpty = true) (hlanes : next.lanes = sh.lanes)
    (hclaims : pc.claims = false) (hplace : pc ≠ .place) : PushKeeps sh next pc pcNext :=
  .of_frame hword hqueued (fun hflag => .inl (harmed hflag))
    (.inl fun lane => by rw [hlanes]) hclaims hplace

theorem notify_keeps (gate : GatePc .tryMarkReady) :
    PushKeeps sh (sh.setWord (gateStep sh.word gate).1) (.notify gate)
      (afterClaim (gateStep sh.word gate).2) := by
  refine ⟨gateStep_eq_running gate, gateStep_plain gate, .inl, .inl fun _ => le_rfl, ?_, ?_⟩
  · intro hplain _
    cases houtcome : (gateStep sh.word gate).2 with
    | again pc => exact .inr (.inl rfl)
    | answer code =>
      rcases gateStep_answer_plain hplain houtcome with hready | ⟨-, hrunning⟩
      · exact .inl hready
      · exact .inr (.inr hrunning)
  · intro hready
    rcases gateStep_word sh.word gate with hsame | haccept
    · have hword : sh.word = .ready := hsame.symm.trans hready
      by_cases hnone : sh.queued = []
      · exact .inr (.inr ⟨hword, hnone, by simp⟩)
      · exact .inl hnone
    · right
      left
      rw [haccept]
      rfl

/-- Every step of a producer keeps the wakeup of the actor. -/
theorem pushStep_keeps {setup : Setup L} {n : N} {choice : PushChoice L}
    (hstep : pushStep setup sh n choice pc = some (next, pcNext)) :
    PushKeeps sh next pc pcNext := by
  cases pc with
  | idle | dropUnlock dropped =>
    cases hstep
    exact .of_goto rfl rfl id rfl rfl (by simp)
  | admitting evicted =>
    cases choice <;> cases evicted <;> cases hstep <;> exact .of_goto rfl rfl id rfl rfl (by simp)
  | dropLock order =>
    simp only [pushStep] at hstep
    split at hstep
    · cases hstep
    · cases hstep
      exact .of_goto rfl rfl id rfl rfl (by simp)
  | dropScan order =>
    cases order with
    | nil =>
      cases hstep
      exact .of_goto rfl rfl id rfl rfl (by simp)
    | cons lane rest =>
      cases hstep
      refine .of_frame rfl rfl .inl ?_ rfl (by simp)
      by_cases hreturns : returnsNode sh lane = true
      · exact .inr ⟨lane, rest, rfl, hreturns, rfl⟩
      · left
        intro other
        rw [dequeueLane_count, if_neg fun htaken => hreturns htaken.2, sub_zero]
  | dropCheck rest =>
    cases rest <;> cases hstep <;> exact .of_goto rfl rfl id rfl rfl (by simp)
  | dropArm =>
    cases hstep
    exact .of_goto rfl rfl (fun _ => rfl) rfl rfl (by simp)
  | enqueue lane =>
    simp only [pushStep, map_eq_some_iff] at hstep
    obtain ⟨queued, hqueued, heq⟩ := hstep
    cases heq
    have hgrows := enqueueLane_grows hqueued
    simp only [enqueueLane, map_eq_some_iff] at hqueued
    obtain ⟨queue, -, rfl⟩ := hqueued
    exact .of_frame rfl rfl .inl (.inl hgrows) rfl (by simp)
  | claim =>
    simp only [pushStep] at hstep
    by_cases harmed : sh.wasEmpty = true
    · rw [if_pos harmed] at hstep
      cases hstep
      exact .of_frame rfl rfl (fun _ => .inr ⟨rfl, rfl⟩) (.inl fun _ => le_rfl) rfl (by simp)
    · rw [if_neg harmed] at hstep
      cases hstep
      exact .of_goto rfl rfl id rfl rfl (by simp)
  | notify gate =>
    cases hstep
    exact notify_keeps gate
  | place =>
    cases hstep
    refine ⟨Iff.rfl, id, .inl, .inl fun _ => le_rfl, ?_,
      fun _ => .inl (by simp [Shared.enqueueItem])⟩
    rintro - (hready | hclaim)
    · exact .inl hready
    · cases hclaim
  | done => cases hstep

end

section

variable [DecidableEq L]

/-- What a worker can rely on: it holds a running word, the flag is armed or a
message left for it, and it only takes the flag away while a message waits. -/
structure Guarded (sh : Shared N M L) (pc : WorkerPc M L) : Prop where
  counted : ∀ lane, 0 ≤ (sh.lanes lane).count
  taken : pc.holds = true → sh.word = .running
  left : sh.wasEmpty = true ∨ MessageLeft sh pc
  disarms : pc.disarms = true → Waiting sh

variable {sh next : Shared N M L} {pc pcNext : WorkerPc M L}

/-- A step of the holder that leaves the flag and the lanes alone. -/
theorem Guarded.goto (hpc : Guarded sh pc) (hword : next.word = .running)
    (hflag : next.wasEmpty = sh.wasEmpty) (hlanes : next.lanes = sh.lanes)
    (hleft : MessageLeft sh pc → MessageLeft sh pcNext) (hdisarms : pcNext.disarms = false) :
    Guarded next pcNext where
  counted := by
    rw [hlanes]
    exact hpc.counted
  taken := fun _ => hword
  left := by
    rw [hflag]
    exact hpc.left.imp_right fun hmessage => (hleft hmessage).mono fun lane => by rw [hlanes]
  disarms := by simp [hdisarms]

theorem Guarded.of_not_holds (hcounted : ∀ lane, 0 ≤ (next.lanes lane).count)
    (hpc : pcNext.holds = false) : Guarded next pcNext where
  counted := hcounted
  taken := by simp [hpc]
  left := .inr (messageLeft_of_not_holds hpc)
  disarms := by simp [not_disarms hpc]

theorem Guarded.waiting (lane : L) (hpc : Guarded sh pc) (hlane : laneEmpty sh lane ≠ true) :
    Waiting sh := by
  have hcount := hpc.counted lane
  simp only [laneEmpty, ne_eq, decide_eq_true_eq] at hlane
  exact ⟨lane, by omega⟩

variable {round sequence : Nat} {pop : DequeuePc M L}

/-- The pop ends: the word is still held. -/
theorem Guarded.result (hpc : Guarded sh (.popping sequence round pop))
    (hwaiting : MessageLeft sh (.popping sequence round pop) → Waiting sh)
    (hword : next.word = .running) (hflag : next.wasEmpty = sh.wasEmpty)
    (hlanes : next.lanes = sh.lanes) (found : Bool) :
    Guarded next (afterPop sequence round (.result found)) := by
  cases found <;> exact hpc.goto hword hflag hlanes (fun hleft _ => hwaiting hleft) rfl

/-- A worker takes no message before its push has counted it, and if its pop
brought nothing and it then finds a message, it has a requeue left. -/
def SparedWork (sh : Shared N M L) : WorkerPc M L → Prop
  | .popping _ _ (.scan (lane :: _)) => returnsNode sh lane = true → 0 < (sh.lanes lane).count
  | .looking sequence _ (.recheck true) (lane :: _) =>
    laneEmpty sh lane = false → sequence < kLostWakeupRequeueBudget
  | _ => True

/-- The state of a worker before a step that is spared. -/
structure Fit (sh : Shared N M L) (pc : WorkerPc M L) : Prop extends Guarded sh pc where
  plain : Plain sh.word
  served : pc.served
  spared : SparedWork sh pc

/-- What the step of a worker keeps: the holder of the word, what it can rely
on, and the wakeup of the actor. -/
structure WorkKeeps (sh next : Shared N M L) (pc pcNext : WorkerPc M L) : Prop where
  acquire : pcNext.holds = true → pc.holds = true ∨ sh.word ≠ .running
  running : next.word = .running ↔ pcNext.holds = true ∨ sh.word = .running ∧ pc.holds = false
  plain : Plain next.word
  frame : pc.holds = false ∨ pcNext.holds = false →
    next.wasEmpty = sh.wasEmpty ∧ next.lanes = sh.lanes
  guarded : Guarded next pcNext
  awake : sh.wasEmpty = true ∨ sh.word = .ready ∨ Stands sh pc →
    next.wasEmpty = true ∨ next.word = .ready ∨ Stands next pcNext ∨
      sh.word = .running ∧ pc.holds = false
  backed : next.word = .ready → next.queued ≠ [] ∨ pcNext.promises = true ∨
    sh.word = .ready ∧ sh.queued = [] ∧ pc.promises = false
  served : pcNext.served

/-- A step of a worker that goes on holding the word. -/
theorem WorkKeeps.of_holding (hpc : pc.holds = true) (hnext : pcNext.holds = true)
    (hserved : pcNext.served) (hguarded : Guarded next pcNext) : WorkKeeps sh next pc pcNext where
  acquire := fun _ => .inl hpc
  running := iff_of_true (hguarded.taken hnext) (.inl hnext)
  plain := by
    rw [hguarded.taken hnext]
    trivial
  frame := by simp [hpc, hnext]
  guarded := hguarded
  awake := fun _ => .inr (.inr (.inl (.of_holds hnext)))
  backed := by simp [hguarded.taken hnext]
  served := hserved

/-- The step with which a worker gives the word up. -/
theorem WorkKeeps.of_release {word : ActorState} (hfit : Fit sh pc) (hpc : pc.holds = true)
    (hnext : pcNext.holds = false) (hword : word ≠ .running) (hplain : Plain word)
    (hawake : sh.wasEmpty = true ∨ word = .ready ∨ Stands sh pcNext)
    (hpromises : word = .ready → pcNext.promises = true) (hserved : pcNext.served) :
    WorkKeeps sh (sh.setWord word) pc pcNext where
  acquire := fun _ => .inl hpc
  running := by simp [Shared.setWord, hword, hnext, hpc]
  plain := hplain
  frame := fun _ => ⟨rfl, rfl⟩
  guarded := .of_not_holds hfit.counted hnext
  awake := fun _ => hawake.imp_right
    (Or.imp_right fun hstands => .inl (hstands.mono fun _ => le_rfl))
  backed := fun hready => .inr (.inl (hpromises hready))
  served := hserved

/-- A step outside the activation's hold that changes the worker's position and
the items queued only. -/
theorem WorkKeeps.of_queue {items : List Nat} (hfit : Fit sh pc) (hpc : pc.holds = false)
    (hnext : pcNext.holds = false) (hstands : Stands sh pc → Stands sh pcNext)
    (hbacked : sh.word = .ready →
      items ≠ [] ∨ pcNext.promises = true ∨ sh.queued = [] ∧ pc.promises = false)
    (hserved : pcNext.served) : WorkKeeps sh { sh with queued := items } pc pcNext where
  acquire := by simp [hnext]
  running := by simp [hnext, hpc]
  plain := hfit.plain
  frame := fun _ => ⟨rfl, rfl⟩
  guarded := .of_not_holds hfit.counted hnext
  awake := Or.imp_right (Or.imp_right fun hpc =>
    .inl ((hstands hpc).mono fun _ => le_rfl))
  backed := fun hready => (hbacked hready).imp_right (Or.imp_right fun hnone => ⟨hready, hnone⟩)
  served := hserved

/-- A step outside the hold that changes the worker's position only. -/
theorem WorkKeeps.of_goto (hfit : Fit sh pc) (hpc : pc.holds = false)
    (hnext : pcNext.holds = false) (hstands : Stands sh pc → Stands sh pcNext)
    (hpromises : sh.word = .ready → pc.promises = true → pcNext.promises = true)
    (hserved : pcNext.served) : WorkKeeps sh sh pc pcNext := by
  refine .of_queue hfit hpc hnext hstands (fun hready => ?_) hserved
  by_cases hnone : sh.queued = []
  · right
    cases hpromise : pc.promises with
    | true => exact .inl (hpromises hready hpromise)
    | false => exact .inr ⟨hnone, rfl⟩
  · exact .inl hnone

variable {setup : Setup L} {answer : WorkAnswer M}

theorem claim_keeps (hfit : Fit sh (.activation sequence round .claim)) :
    WorkKeeps sh (activate setup sh answer.flag sequence round .claim).1
      (.activation sequence round .claim)
      (activate setup sh answer.flag sequence round .claim).2 := by
  by_cases hready : sh.word = .ready
  · simp only [activate, runnerStep, if_pos hready]
    exact
      { acquire := fun _ => .inr (by simp [hready])
        running := iff_of_true rfl (.inl rfl)
        plain := trivial
        frame := fun _ => ⟨rfl, rfl⟩
        guarded := ⟨hfit.counted, fun _ => rfl, .inr trivial, fun hdisarms => by cases hdisarms⟩
        awake := fun _ => .inr (.inr (.inl rfl))
        backed := fun hword => by cases hword
        served := trivial }
  · simp only [activate, runnerStep, if_neg hready]
    exact .of_goto hfit rfl rfl (fun hpc => by cases hpc) (fun hword => absurd hword hready) trivial

theorem wake_keeps {gate : GatePc .tryMarkReady}
    (hfit : Fit sh (.activation sequence round (.wake gate))) :
    WorkKeeps sh (activate setup sh answer.flag sequence round (.wake gate)).1
      (.activation sequence round (.wake gate))
      (activate setup sh answer.flag sequence round (.wake gate)).2 := by
  have hnext : (afterWake (gateStep sh.word gate).2).holds = false := afterWake_not_holds _
  have hmissing : (activation sequence round
      (afterWake (gateStep sh.word gate).2) : WorkerPc M L).served := by
    cases (gateStep sh.word gate).2 <;> trivial
  refine ⟨fun hholds => ?_, ?_, gateStep_plain gate hfit.plain, fun _ => ⟨rfl, rfl⟩,
    .of_not_holds hfit.counted hnext, ?_, ?_, hmissing⟩
  · cases hnext.symm.trans hholds
  · simpa [activate, runnerStep, WorkerPc.holds, hnext, Shared.setWord,
      show (RunnerPc.wake gate).holds = false from rfl] using gateStep_eq_running gate
  · rintro -
    cases houtcome : (gateStep sh.word gate).2 with
    | again pc =>
      simp only [activate, runnerStep, houtcome]
      exact .inr (.inr (.inl trivial))
    | answer code =>
      rcases gateStep_answer_plain hfit.plain houtcome with hready | ⟨hrunning, -⟩
      · exact .inr (.inl hready)
      · exact .inr (.inr (.inr ⟨hrunning, rfl⟩))
  · intro hready
    rcases gateStep_word sh.word gate with hsame | haccept
    · by_cases hnone : sh.queued = []
      · exact .inr (.inr ⟨hsame.symm.trans hready, hnone, rfl⟩)
      · exact .inl hnone
    · right
      left
      simp only [activate, runnerStep, haccept]
      rfl

theorem afterActivation_keeps {disposition : ActorRunDisposition}
    (hfit : Fit sh (.activation sequence round (.done disposition))) :
    WorkKeeps sh (afterActivation setup sh sequence round disposition).1
      (.activation sequence round (.done disposition))
      (afterActivation setup sh sequence round disposition).2 := by
  have hstands (pcNext : WorkerPc M L) :
      Stands sh (.activation sequence round (.done disposition)) → Stands sh pcNext := by
    intro hpc
    cases hpc
  cases disposition with
  | requeueReady =>
    simp only [afterActivation]
    split
    · exact .of_goto hfit rfl rfl (hstands _) (fun _ _ => rfl) trivial
    · exact .of_queue hfit rfl rfl (hstands _) (fun _ => .inl (by simp)) trivial
  | _ => exact .of_goto hfit rfl rfl (hstands _) (fun _ hpromise => by cases hpromise) trivial

theorem activationStep_keeps {runner : RunnerPc}
    (hfit : Fit sh (.activation sequence round runner)) :
    WorkKeeps sh (activationStep setup sh answer.flag sequence round runner).1
      (.activation sequence round runner)
      (activationStep setup sh answer.flag sequence round runner).2 := by
  cases runner with
  | claim => exact claim_keeps hfit
  | checkTerminated =>
    refine .of_goto hfit rfl rfl (fun hpc => by cases hpc) (fun _ hpromise => by cases hpromise) ?_
    trivial
  | releaseMissing => cases hfit.served
  | lookup =>
    exact .of_holding rfl rfl trivial (hfit.goto (hfit.taken rfl) rfl rfl id rfl)
  | consume =>
    exact .of_holding rfl rfl trivial (hfit.goto (hfit.taken rfl) rfl rfl id rfl)
  | checkExpired =>
    cases answer.flag <;>
      exact .of_holding rfl rfl trivial (hfit.goto (hfit.taken rfl) rfl rfl id rfl)
  | handle =>
    exact .of_holding rfl rfl trivial (hfit.goto (hfit.taken rfl) rfl rfl id rfl)
  | readMore hasWork =>
    exact .of_holding rfl rfl trivial
      (hfit.goto (hfit.taken rfl) rfl rfl (fun hleft => hleft rfl) rfl)
  | readmission gate =>
    simp only [activationStep, activate, runnerStep, hfit.taken rfl]
    cases gate with
    | load => exact .of_holding rfl rfl trivial (hfit.goto rfl rfl rfl id rfl)
    | cas expected admits =>
      by_cases heq : .running = expected
      · subst heq
        rw [gateStep_cas_hit]
        exact .of_release hfit rfl rfl (by simp) trivial (.inr (.inl rfl)) (fun _ => rfl) trivial
      · rw [gateStep_cas_miss admits heq]
        exact .of_holding rfl rfl trivial (hfit.goto rfl rfl rfl id rfl)
  | storeIdle lostWakeup =>
    refine .of_release hfit rfl rfl (fun hidle => by cases hidle) trivial ?_
      (fun hready => by cases hready) trivial
    exact hfit.left.imp_right fun hleft => .inr (hleft rfl)
  | recheck lostWakeup =>
    refine .of_goto hfit rfl rfl ?_ (fun _ hpromise => by cases hpromise) trivial
    rintro ⟨lane, hlane⟩
    exact ⟨lane, setup.scans_all lane, hlane⟩
  | wake gate => exact wake_keeps hfit
  | done disposition => exact afterActivation_keeps hfit

/-- A look at `empty`.  The last look of an activation that will find a message
goes on to the gate. -/
theorem lookStep_keeps {look : Look} {rest : List L}
    (hfit : Fit sh (.looking sequence round look rest)) :
    WorkKeeps sh (lookStep setup sh sequence round look rest).1 (.looking sequence round look rest)
      (lookStep setup sh sequence round look rest).2 := by
  cases look with
  | readMore hasWork =>
    have hactivate (answer : Bool) : WorkKeeps sh
        (activate setup sh answer sequence round (.readMore hasWork)).1
        (.looking sequence round (.readMore hasWork) rest)
        (activate setup sh answer sequence round (.readMore hasWork)).2 := by
      simp only [activate, runnerStep]
      split <;>
        exact .of_holding rfl rfl trivial
          (hfit.goto (hfit.taken rfl) rfl rfl (fun hwaiting _ => hwaiting) rfl)
    cases rest with
    | nil => exact hactivate false
    | cons lane rest =>
      simp only [lookStep]
      split
      · exact .of_holding rfl rfl trivial (hfit.goto (hfit.taken rfl) rfl rfl id rfl)
      · exact hactivate true
  | recheck lostWakeup =>
    cases rest with
    | nil =>
      simp only [lookStep, activate, Look.pc, runnerStep, Bool.false_and]
      refine .of_goto hfit rfl rfl ?_ (fun _ hpromise => by cases hpromise) trivial
      rintro ⟨lane, hlane, -⟩
      cases hlane
    | cons lane rest =>
      simp only [lookStep]
      split
      · rename_i hempty
        refine .of_goto hfit rfl rfl ?_ (fun _ hpromise => by cases hpromise) trivial
        rintro ⟨other, hother, hcount⟩
        rcases List.mem_cons.mp hother with rfl | hrest
        · simp only [laneEmpty, decide_eq_true_eq] at hempty
          omega
        · exact ⟨other, hrest, hcount⟩
      · rename_i hfull
        have hgo : runnerStep (runContext setup sequence) true sh.word (.recheck lostWakeup) =
            (sh.word, .wake .load) := by
          cases lostWakeup with
          | false => rfl
          | true =>
            have hbudget := hfit.spared (by simpa using hfull)
            simp [runnerStep, runContext, hbudget, afterWake, tryMarkReady]
        simp only [activate, Look.pc, hgo]
        exact .of_goto hfit rfl rfl (fun _ => trivial) (fun _ hpromise => by cases hpromise) trivial

variable [DecidableEq N] [DecidableEq M]

/-- A step of an `enqueue` inside the pop. -/
theorem Guarded.enqueue {lane : L} {node : N ⊕ M} {after before : DequeuePc M L}
    (hpc : Guarded sh (.popping sequence round pop))
    (hwaiting : MessageLeft sh (.popping sequence round pop) → Waiting sh)
    (hstep : enqueueLane sh lane node = some next)
    (hafter : Waiting next → MessageLeft next (.popping sequence round after))
    (hbefore : Waiting next → MessageLeft next (.popping sequence round before))
    (hdisarms : (WorkerPc.popping sequence round before).disarms = false) :
    Guarded next (.popping sequence round (if enqueued next lane node then after else before)) := by
  have hgrows := enqueueLane_grows hstep
  have hcounted (other : L) : 0 ≤ (next.lanes other).count :=
    (hpc.counted other).trans (hgrows other)
  have hframe : next.word = sh.word ∧ next.wasEmpty = sh.wasEmpty := by
    simp only [enqueueLane, map_eq_some_iff] at hstep
    obtain ⟨queue, -, rfl⟩ := hstep
    exact ⟨rfl, rfl⟩
  have hword := hframe.1.trans (hpc.taken rfl)
  have hleft : next.wasEmpty = true ∨ Waiting next := by
    rw [hframe.2]
    exact hpc.left.imp_right fun hmessage => (hwaiting hmessage).mono hgrows
  split
  · rename_i henqueued
    refine ⟨hcounted, fun _ => hword, hleft.imp_right hafter, fun _ => ⟨lane, ?_⟩⟩
    have hbase := hpc.counted lane
    rw [enqueueLane_count hstep, if_pos ⟨rfl, henqueued⟩]
    omega
  · exact ⟨hcounted, fun _ => hword, hleft.imp_right hbefore, by simp [hdisarms]⟩

/-- A step of the scan.  The message it takes is not the only one if the flag
is not armed. -/
theorem Guarded.scan {lane : L} {rest : List L}
    (hpc : Guarded sh (.popping sequence round (.scan (lane :: rest))))
    (hspared : SparedWork sh (.popping sequence round (.scan (lane :: rest)))) :
    Guarded (dequeueLane sh lane) (.popping sequence round (if returnsNode sh lane
      then afterTake setup lane
      else if returns sh lane then .scan rest else .scan (lane :: rest))) := by
  have hcount := dequeueLane_count sh lane
  by_cases hreturns : returnsNode sh lane = true
  · have hpos := hspared hreturns
    simp only [hreturns, and_true] at hcount
    have hcounted (other : L) : 0 ≤ ((dequeueLane sh lane).lanes other).count := by
      have hbase := hpc.counted other
      rw [hcount]
      split
      · next heq =>
        subst heq
        omega
      · omega
    have hleft : (dequeueLane sh lane).wasEmpty = true ∨ Waiting (dequeueLane sh lane) := by
      refine hpc.left.imp_right fun hplenty => ?_
      obtain ⟨other, hother⟩ := hplenty lane
      exact ⟨other, by rw [hcount]; omega⟩
    rw [if_pos hreturns, afterTake]
    split <;> exact ⟨hcounted, fun _ => hpc.taken rfl, hleft, fun hdisarms => by cases hdisarms⟩
  · have hsame (other : L) :
        ((dequeueLane sh lane).lanes other).count = (sh.lanes other).count := by
      rw [hcount, if_neg fun htaken => hreturns htaken.2, sub_zero]
    have hleft : (dequeueLane sh lane).wasEmpty = true ∨ Plenty (dequeueLane sh lane) := by
      refine hpc.left.imp_right fun hplenty other => ?_
      obtain ⟨third, hthird⟩ := hplenty other
      exact ⟨third, by rwa [hsame]⟩
    rw [if_neg hreturns]
    split <;> exact ⟨fun other => by rw [hsame]; exact hpc.counted other,
      fun _ => hpc.taken rfl, hleft, fun hdisarms => by cases hdisarms⟩

/-- The protocol of `dequeue`: re-arm before the scan, disarm only while a
message waits. -/
theorem popStep_guarded {outcome : PopOutcome M L}
    (hpc : Guarded sh (.popping sequence round pop))
    (hspared : SparedWork sh (.popping sequence round pop))
    (hstep : popStep setup sh answer pop = some (next, outcome)) :
    Guarded next (afterPop sequence round outcome) := by
  have hrunning := hpc.taken rfl
  cases pop with
  | lock =>
    simp only [popStep] at hstep
    split at hstep
    · cases hstep
    · cases hstep
      exact hpc.goto hrunning rfl rfl id rfl
  | rearm =>
    cases hstep
    exact ⟨hpc.counted, fun _ => hrunning, .inl rfl, fun hdisarms => by cases hdisarms⟩
  | scan rest =>
    cases rest with
    | nil =>
      cases hstep
      exact hpc.goto hrunning rfl rfl (fun hplenty => hplenty.waiting setup.lane0) rfl
    | cons lane rest =>
      cases hstep
      exact hpc.scan hspared
  | limiter =>
    simp only [popStep] at hstep
    split at hstep
    · cases hstep
      exact hpc.goto hrunning rfl rfl id rfl
    · rw [map_eq_some_iff] at hstep
      obtain ⟨node, -, heq⟩ := hstep
      cases heq
      exact hpc.goto hrunning rfl rfl id rfl
  | reenqueue node | drainEnqueue node =>
    simp only [popStep, map_eq_some_iff] at hstep
    obtain ⟨queued, hqueued, heq⟩ := hstep
    cases heq
    exact hpc.enqueue id hqueued id id rfl
  | disarmDenied | disarm =>
    cases hstep
    exact ⟨hpc.counted, fun _ => hrunning, .inr (hpc.disarms rfl), nofun⟩
  | unlockDenied | selfPlace found =>
    cases hstep
    exact hpc.result id (by exact hrunning) (by rfl) (by rfl) _
  | checkEmpty rest =>
    cases rest with
    | nil =>
      cases hstep
      exact hpc.goto hrunning rfl rfl id rfl
    | cons lane rest =>
      cases hstep
      simp only [afterPop]
      split
      · exact hpc.goto hrunning rfl rfl id rfl
      · exact ⟨hpc.counted, fun _ => hrunning, hpc.left, fun _ => hpc.waiting lane ‹_›⟩
  | drainOverflow =>
    simp only [popStep] at hstep
    split at hstep <;> cases hstep <;> exact hpc.goto hrunning rfl rfl id rfl
  | unlock found =>
    cases hstep
    exact hpc.goto hrunning rfl rfl id rfl
  | doubleCheck found rest =>
    cases rest with
    | nil =>
      cases hstep
      exact hpc.result id hrunning (by rfl) (by rfl) found
    | cons lane rest =>
      cases hstep
      simp only [afterPop]
      split
      · exact hpc.goto hrunning rfl rfl id rfl
      · exact ⟨hpc.counted, fun _ => hrunning, hpc.left, fun _ => hpc.waiting lane ‹_›⟩
  | swap found =>
    simp only [popStep] at hstep
    split at hstep
    · cases hstep
      exact ⟨hpc.counted, fun _ => hrunning, .inr (hpc.disarms rfl), nofun⟩
    · cases hstep
      exact hpc.result id hrunning (by rfl) (by rfl) found
  | selfNotify found gate =>
    cases hstep
    have hword := (gateStep_eq_running gate).mpr hrunning
    cases (gateStep sh.word gate).2 with
    | again pc => exact hpc.goto hword rfl rfl id rfl
    | answer code =>
      cases code with
      | accepted => exact hpc.goto hword rfl rfl id rfl
      | _ => exact hpc.result id hword (by rfl) (by rfl) found

theorem popStep_keeps {outcome : PopOutcome M L} (hfit : Fit sh (.popping sequence round pop))
    (hstep : popStep setup sh answer pop = some (next, outcome)) :
    WorkKeeps sh next (.popping sequence round pop) (afterPop sequence round outcome) := by
  have hguarded := popStep_guarded hfit.toGuarded hfit.spared hstep
  cases outcome with
  | on pc => exact .of_holding rfl rfl trivial hguarded
  | result found => cases found <;> exact .of_holding rfl rfl trivial hguarded

/-- Every step of a worker that is spared keeps the holder of the word and the
wakeup of the actor. -/
theorem workStep_keeps (hfit : Fit sh pc)
    (hstep : workStep setup sh answer pc = some (next, pcNext)) : WorkKeeps sh next pc pcNext := by
  cases pc with
  | idle =>
    simp only [workStep, map_eq_some_iff] at hstep
    obtain ⟨sequence, -, heq⟩ := hstep
    cases heq
    exact .of_queue hfit rfl rfl (fun hpc => by cases hpc) (fun _ => .inr (.inl rfl)) trivial
  | activation sequence round runner =>
    obtain ⟨rfl, rfl⟩ := Prod.ext_iff.mp (some.inj hstep)
    exact activationStep_keeps hfit
  | looking sequence round look rest =>
    obtain ⟨rfl, rfl⟩ := Prod.ext_iff.mp (some.inj hstep)
    exact lookStep_keeps hfit
  | popping sequence round pop =>
    simp only [workStep, map_eq_some_iff] at hstep
    obtain ⟨⟨mid, outcome⟩, hpop, heq⟩ := hstep
    cases heq
    exact popStep_keeps hfit hpop

end

section

/-- Some wakeup of the actor is armed, done or under way. -/
def Awake (s : State N M W L) : Prop :=
  s.shared.wasEmpty = true ∨ s.shared.word = .ready ∨
    (∃ n, (s.pushers n).claims = true) ∨ ∃ w, Stands s.shared (s.workers w)

def Holds (pc : WorkerPc M L) (_ : Unit) : Prop := pc.holds = true

def Taken (word : ActorState) (_ : Unit) : Prop := word = .running

variable [DecidableEq L]

structure Covered (s : State N M W L) : Prop where
  exclusive : Exclusive Holds Taken s.shared.word s.workers
  held : s.shared.word = .running → ∃ w, (s.workers w).holds = true
  plain : Plain s.shared.word
  served : ∀ w, (s.workers w).served
  guarded : ∀ w, Guarded s.shared (s.workers w)
  awake : Awake s
  backed : s.shared.word = .ready → s.shared.queued ≠ [] ∨ (∃ n, s.pushers n = .place) ∨
      ∃ w, (s.workers w).promises = true

theorem covered_init : Covered ({} : State N M W L) where
  exclusive :=
    { taken := fun _ _ hholds => by cases hholds
      unique := fun _ _ _ hholds => by cases hholds }
  held := fun hrunning => by cases hrunning
  plain := trivial
  served := fun _ => trivial
  guarded := fun _ => .of_not_holds (fun _ => le_rfl) rfl
  awake := .inl rfl
  backed := fun hready => by cases hready

/-- A producer evicts no message while an activation is under way, nor one that
is not counted, and takes the flag only while every worker can do without. -/
def SparedPush (sh : Shared N M L) (workers : W → WorkerPc M L) : PushPc L → Prop
  | .dropScan (lane :: _) => returnsNode sh lane = true →
    0 < (sh.lanes lane).count ∧ ∀ w, (workers w).responsible = false
  | .claim => sh.wasEmpty = true → ∀ w, MessageLeft sh (workers w)
  | _ => True

/-- The condition on a step. -/
def Spared (s : State N M W L) : Act N M W L → Prop
  | .push n _ => SparedPush s.shared s.workers (s.pushers n)
  | .work w _ => SparedWork s.shared (s.workers w)

section

variable [DecidableEq N] [DecidableEq M] {s : State N M W L} {n : N} {next : Shared N M L}
  {pcNext : PushPc L} (hcovered : Covered s)
  (hspared : SparedPush s.shared s.workers (s.pushers n))
  (hkeeps : PushKeeps s.shared next (s.pushers n) pcNext)
include hcovered hspared hkeeps

/-- The step of a producer leaves a worker what it relies on. -/
theorem PushKeeps.worker (w : W) : Guarded next (s.workers w) ∧
    (Stands s.shared (s.workers w) → Stands next (s.workers w)) := by
  have hpc := hcovered.guarded w
  rcases hkeeps.counts with hgrows | ⟨lane, rest, heq, hreturns, rfl⟩
  · refine ⟨⟨fun lane => (hpc.counted lane).trans (hgrows lane),
      fun hholds => hkeeps.running.mpr (hpc.taken hholds), ?_,
      fun hdisarms => (hpc.disarms hdisarms).mono hgrows⟩, .mono hgrows⟩
    rcases hpc.left with hflag | hleft
    · rcases hkeeps.armed hflag with harmed | ⟨hclaim, -⟩
      · exact .inl harmed
      · rw [hclaim] at hspared
        exact .inr ((hspared hflag w).mono hgrows)
    · exact .inr (hleft.mono hgrows)
  · -- an eviction: no activation is under way
    rw [heq] at hspared
    obtain ⟨hpos, hnone⟩ := hspared hreturns
    have hnot : ¬ Stands s.shared (s.workers w) := by
      intro hstands
      cases (hnone w).symm.trans hstands.responsible
    refine ⟨.of_not_holds (fun other => ?_) ?_, fun hstands => absurd hstands hnot⟩
    · have hbase := hpc.counted other
      rw [dequeueLane_count]
      split
      · next htaken =>
        rw [htaken.1]
        omega
      · omega
    · exact Bool.eq_false_iff.mpr fun hholds => hnot (.of_holds hholds)

theorem PushKeeps.awake_move : Awake (s.movePusher n next pcNext) := by
  have hown (hcause : s.shared.word = .ready ∨ (s.pushers n).claims = true) :
      Awake (s.movePusher n next pcNext) := by
    rcases hkeeps.awake hcovered.plain hcause with hready | hclaim | hrun
    · exact .inr (.inl hready)
    · exact .inr (.inr (.inl (exists_update_self (claims · = true) hclaim)))
    · obtain ⟨w, hw⟩ := hcovered.held (hkeeps.running.mp hrun)
      exact .inr (.inr (.inr ⟨w, .of_holds hw⟩))
  rcases hcovered.awake with hflag | hready | hclaim | ⟨w, hworker⟩
  · rcases hkeeps.armed hflag with harmed | ⟨-, hclaim⟩
    · exact .inl harmed
    · exact .inr (.inr (.inl (exists_update_self (claims · = true) hclaim)))
  · exact hown (.inl hready)
  · rcases exists_update (claims · = true) pcNext hclaim with hself | hother
    · exact hown (.inr hself)
    · exact .inr (.inr (.inl hother))
  · exact .inr (.inr (.inr ⟨w, (hkeeps.worker hcovered hspared w).2 hworker⟩))

theorem PushKeeps.covered : Covered (s.movePusher n next pcNext) where
  exclusive :=
    { taken := fun w k hw => hkeeps.running.mpr (hcovered.exclusive.taken w k hw)
      unique := hcovered.exclusive.unique }
  held := fun hrunning => hcovered.held (hkeeps.running.mp hrunning)
  plain := hkeeps.plain hcovered.plain
  served := hcovered.served
  guarded := fun w => (hkeeps.worker hcovered hspared w).1
  awake := hkeeps.awake_move hcovered hspared
  backed := by
    intro hready
    rcases hkeeps.backed hready with hqueued | hplace | ⟨hword, hnone, hne⟩
    · exact .inl hqueued
    · exact .inr (.inl (exists_update_self (· = place) hplace))
    · rcases hcovered.backed hword with hqueued | hplace | hworker
      · exact absurd hnone hqueued
      · rcases exists_update (· = place) pcNext hplace with hself | hother
        · exact absurd hself hne
        · exact .inr (.inl hother)
      · exact .inr (.inr hworker)

end

section

variable [DecidableEq W] {s : State N M W L} {w : W} {next : Shared N M L} {pcNext : WorkerPc M L}
  (hcovered : Covered s) (hkeeps : WorkKeeps s.shared next (s.workers w) pcNext)
include hcovered hkeeps

omit [DecidableEq W] in
/-- A worker that moves leaves the others what they rely on. -/
theorem WorkKeeps.other {u : W} (hne : u ≠ w) : Guarded next (s.workers u) ∧
    (Stands s.shared (s.workers u) → Stands next (s.workers u) ∨ Stands next pcNext) := by
  by_cases hboth : (s.workers w).holds = true ∧ pcNext.holds = true
  · refine ⟨.of_not_holds hkeeps.guarded.counted (Bool.eq_false_iff.mpr fun hu => ?_),
      fun _ => .inr (.of_holds hboth.2)⟩
    exact hne (hcovered.exclusive.unique u w () hu hboth.1)
  · have hfree : (s.workers w).holds = false ∨ pcNext.holds = false := by
      simpa only [not_and_or, Bool.not_eq_true] using hboth
    obtain ⟨hflag, hlanes⟩ := hkeeps.frame hfree
    have hgrows (lane : L) : (s.shared.lanes lane).count ≤ (next.lanes lane).count := by
      rw [hlanes]
    refine ⟨⟨hkeeps.guarded.counted, fun hu => hkeeps.running.mpr (.inr ⟨?_, ?_⟩), ?_,
      fun hdisarms => ((hcovered.guarded u).disarms hdisarms).mono hgrows⟩,
      fun hstands => .inl (hstands.mono hgrows)⟩
    · exact (hcovered.guarded u).taken hu
    · exact Bool.eq_false_iff.mpr fun hw => hne (hcovered.exclusive.unique u w () hu hw)
    · rw [hflag]
      exact (hcovered.guarded u).left.imp_right (.mono hgrows)

theorem WorkKeeps.awake_move : Awake (s.moveWorker w next pcNext) := by
  have hown (hcause : s.shared.wasEmpty = true ∨ s.shared.word = .ready ∨
      Stands s.shared (s.workers w)) : Awake (s.moveWorker w next pcNext) := by
    rcases hkeeps.awake hcause with hflag | hready | hstands | ⟨hrunning, hnot⟩
    · exact .inl hflag
    · exact .inr (.inl hready)
    · exact .inr (.inr (.inr (exists_update_self (Stands next) hstands)))
    · rcases exists_update (holds · = true) pcNext (hcovered.held hrunning) with hself | ⟨u, hu⟩
      · cases hnot.symm.trans hself
      · exact .inr (.inr (.inr ⟨u, .of_holds hu⟩))
  rcases hcovered.awake with hflag | hready | hclaim | ⟨u, hu⟩
  · exact hown (.inl hflag)
  · exact hown (.inr (.inl hready))
  · exact .inr (.inr (.inl hclaim))
  · by_cases hne : u = w
    · exact hown (.inr (.inr (hne ▸ hu)))
    · refine .inr (.inr (.inr ?_))
      rcases (hkeeps.other hcovered hne).2 hu with hstands | hstands
      · refine ⟨u, ?_⟩
        simpa only [State.moveWorker, Function.update_of_ne hne] using hstands
      · exact exists_update_self (Stands next) hstands

theorem WorkKeeps.covered : Covered (s.moveWorker w next pcNext) where
  exclusive := hcovered.exclusive.step w pcNext (fun _ hholds => hkeeps.acquire hholds)
    (fun _ hholds => hkeeps.guarded.taken hholds)
    (fun _ hrunning hnot => hkeeps.running.mpr (.inr ⟨hrunning, by simpa [Holds] using hnot⟩))
  held := by
    intro hrunning
    rcases hkeeps.running.mp hrunning with hholds | ⟨hold, hnot⟩
    · exact exists_update_self (holds · = true) hholds
    · rcases exists_update (holds · = true) pcNext (hcovered.held hold) with hself | hother
      · cases hnot.symm.trans hself
      · exact hother
  plain := hkeeps.plain
  served := forall_update hcovered.served hkeeps.served fun _ => id
  guarded := by
    intro u
    by_cases hne : u = w
    · subst hne
      simpa only [State.moveWorker, Function.update_self] using hkeeps.guarded
    · simpa only [State.moveWorker, Function.update_of_ne hne] using (hkeeps.other hcovered hne).1
  awake := hkeeps.awake_move hcovered
  backed := by
    intro hready
    rcases hkeeps.backed hready with hqueued | hpromise | ⟨hword, hnone, hnot⟩
    · exact .inl hqueued
    · exact .inr (.inr (exists_update_self (promises · = true) hpromise))
    · rcases hcovered.backed hword with hqueued | hplace | hworker
      · exact absurd hnone hqueued
      · exact .inr (.inl hplace)
      · rcases exists_update (promises · = true) pcNext hworker with hself | hother
        · cases hnot.symm.trans hself
        · exact .inr (.inr hother)

end

variable [DecidableEq N] [DecidableEq M] [DecidableEq W]

theorem step_covered {setup : Setup L} (s : State N M W L)
    (action : Act N M W L) (next : State N M W L) (hcovered : Covered s)
    (hspared : Spared s action) (hstep : step setup s action = some next) : Covered next := by
  cases action with
  | push n choice =>
    simp only [step, map_eq_some_iff] at hstep
    obtain ⟨⟨shared, pcNext⟩, hpush, rfl⟩ := hstep
    exact (pushStep_keeps hpush).covered hcovered hspared
  | work w answer =>
    simp only [step, map_eq_some_iff] at hstep
    obtain ⟨⟨shared, pcNext⟩, hwork, rfl⟩ := hstep
    have hfit : Fit s.shared (s.workers w) :=
      { hcovered.guarded w with
        plain := hcovered.plain
        served := hcovered.served w
        spared := hspared }
    exact (workStep_keeps hfit hwork).covered hcovered

/-- A producer that is not inside a call: it has not begun or it is done. -/
def PushPc.outside : PushPc L → Bool
  | .idle | .done => true
  | _ => false

/-- In every run whose steps are all spared, a state in which no producer and
no worker is inside a call has the flag armed or a work item queued, whether
the lanes are empty or not. -/
theorem no_wakeup_lost (setup : Setup L) (actions : List (Act N M W L)) (s : State N M W L)
    (hcond : EachStep (step setup) Spared {} actions)
    (hrun : run (step setup) {} actions = some s) (hpushers : ∀ n, (s.pushers n).outside = true)
    (hworkers : ∀ w, s.workers w = .idle) :
    s.shared.queued ≠ [] ∨ s.shared.wasEmpty = true := by
  have hcovered : Covered s :=
    run_invariant step_covered covered_init hcond hrun
  rcases hcovered.awake with hflag | hready | ⟨n, hclaim⟩ | ⟨w, hworker⟩
  · exact .inr hflag
  · rcases hcovered.backed hready with hqueued | ⟨n, hplace⟩ | ⟨w, hpromise⟩
    · exact .inl hqueued
    · have houtside := hpushers n
      rw [hplace] at houtside
      cases houtside
    · rw [hworkers w] at hpromise
      cases hpromise
  · have houtside := hpushers n
    cases hpc : s.pushers n with
    | notify gate =>
      rw [hpc] at houtside
      cases houtside
    | _ =>
      rw [hpc] at hclaim
      cases hclaim
  · rw [hworkers w] at hworker
    cases hworker

end

section

variable [DecidableEq L] [Fintype L]

instance MessageLeft.decidable (sh : Shared N M L) :
    ∀ pc : WorkerPc M L, Decidable (MessageLeft sh pc) := by
  intro pc
  unfold MessageLeft Plenty Waiting
  split <;> infer_instance

instance Spared.decidable [Fintype W] (s : State N M W L) :
    ∀ action, Decidable (Spared s action) := by
  intro action
  unfold Spared SparedPush SparedWork
  split <;> split <;> infer_instance

end

namespace WakeupWitness

/-- A system lane and one user lane, with a rate limiter installed. -/
def setup : Setup Bool where
  scanOrder := [false, true]
  scans_all := by decide
  dropOldestOrder := [true]
  dropLowestOrder := [true]
  systemLane := false
  lane0 := true
  rateLimited := true

/-- Steps of the `try_push` of a message; the whole of it takes ten. -/
def pushes (n : Fin 3) (count : Nat) : List (Act (Fin 3) Bool Unit Bool) :=
  List.replicate count (.push n (.enqueue true))

/-- Steps of the worker in which the limiter denies; the message goes back
into the lane as `node`. -/
def denied (node : Bool) (count : Nat) : List (Act (Fin 3) Bool Unit Bool) :=
  List.replicate count (.work () { node := some node })

def granted (count : Nat) : List (Act (Fin 3) Bool Unit Bool) :=
  List.replicate count (.work () { flag := true })

/-- A message in its lane, the flag disarmed, no work item, and nobody inside a
call. -/
def Lost (actions : List (Act (Fin 3) Bool Unit Bool)) : Prop :=
  ∃ s, run (step setup) {} actions = some s ∧ (∀ n, (s.pushers n).outside = true) ∧
    (∀ w, s.workers w = .idle) ∧ laneEmpty s.shared true = false ∧ s.shared.queued = [] ∧
    s.shared.wasEmpty = false

/-- One message and two denials of the rate limiter in a row; and a producer
that takes the flag in the dequeue that has taken its message. -/
theorem wakeups_are_lost :
    Lost (pushes 0 10 ++ denied false 32 ++ denied true 29) ∧
      Lost (pushes 0 10 ++ pushes 1 6 ++ granted 48 ++ pushes 1 2 ++ granted 20 ++ pushes 2 7) :=
  ⟨⟨_, rfl, by decide, fun _ => rfl, rfl, rfl, rfl⟩,
    _, rfl, by decide, fun _ => rfl, rfl, rfl, rfl⟩

theorem granted_run_keeps_wakeup :
    ∃ s, run (step setup) {} (pushes 0 10 ++ granted 38) = some s ∧
      (s.shared.queued ≠ [] ∨ s.shared.wasEmpty = true) := by
  obtain ⟨s, hrun, hpushers, hworkers⟩ : ∃ s,
      run (step setup) {} (pushes 0 10 ++ granted 38) = some s ∧
        (∀ n, (s.pushers n).outside = true) ∧ ∀ w, s.workers w = .idle :=
    ⟨_, rfl, by decide, fun _ => rfl⟩
  exact ⟨s, hrun, no_wakeup_lost setup (pushes 0 10 ++ granted 38) s (by decide) hrun hpushers
    hworkers⟩

end WakeupWitness

end HPActor.Wakeup
