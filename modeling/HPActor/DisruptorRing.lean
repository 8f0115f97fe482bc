/-
The ring behind the fixed mailboxes: many producers, one consumer.  Each call is
given twice, as a function on the ring for callers that are alone with it, and
as the atomic steps it consists of.  Cursors and sequence numbers are words of
64 bits; the assignment of a value to its slot is not atomic and takes two
steps, between which the slot holds no whole value.
-/
import HPActor.Runs
import Mathlib.Tactic

namespace HPActor

universe u v

def kMaxDisruptorRingCapacity : Nat := 1 <<< 20

def validDisruptorRingCapacity (capacity : Nat) : Bool :=
  decide (2 ≤ capacity) && decide (capacity ≤ kMaxDisruptorRingCapacity) &&
    decide (capacity &&& (capacity - 1) = 0)

/-- A capacity that the class template accepts. -/
structure RingCapacity where
  size : Nat
  valid : validDisruptorRingCapacity size = true

namespace RingCapacity

variable (cap : RingCapacity)

def kMask : UInt64 := UInt64.ofNat (cap.size - 1)

def index (sequence : UInt64) : Nat := (sequence &&& cap.kMask).toNat

theorem two_le : 2 ≤ cap.size := by
  have hvalid := cap.valid
  simp only [validDisruptorRingCapacity, Bool.and_eq_true, decide_eq_true_eq] at hvalid
  exact hvalid.1.1

theorem size_le : cap.size ≤ 2 ^ 20 := by
  have hvalid := cap.valid
  simp only [validDisruptorRingCapacity, Bool.and_eq_true, decide_eq_true_eq] at hvalid
  exact hvalid.1.2

theorem exists_pow : ∃ k, cap.size = 2 ^ k := by
  have hvalid := cap.valid
  simp only [validDisruptorRingCapacity, Bool.and_eq_true, decide_eq_true_eq] at hvalid
  have hne : cap.size ≠ 0 := by
    have htwo := cap.two_le
    omega
  exact (Nat.and_sub_one_eq_zero_iff_isPowerOfTwo hne).mp hvalid.2

theorem dvd_word : cap.size ∣ 2 ^ 64 := by
  obtain ⟨k, hk⟩ := cap.exists_pow
  rw [hk]
  apply Nat.pow_dvd_pow
  have hle := cap.size_le
  rw [hk] at hle
  have hsmall := (Nat.pow_le_pow_iff_right (Nat.lt_succ_self 1)).mp hle
  omega

/-- The mask takes a ticket to the slot that serves it. -/
theorem index_ofNat (n : Nat) : cap.index (UInt64.ofNat n) = n % cap.size := by
  have hsmall : cap.size - 1 < 2 ^ 64 := by
    have hle := cap.size_le
    omega
  rw [index, kMask, UInt64.toNat_and, UInt64.toNat_ofNat', UInt64.toNat_ofNat',
    Nat.mod_eq_of_lt hsmall]
  obtain ⟨k, hk⟩ := cap.exists_pow
  rw [hk, Nat.and_two_pow_sub_one_eq_mod, ← hk, Nat.mod_mod_of_dvd _ cap.dvd_word]

end RingCapacity

inductive RingPublishCode where
  | published
  | full
  | closed
deriving Repr, DecidableEq

structure RingPublishResult where
  code : RingPublishCode := .closed
  sequence : UInt64 := 0

/-- A slot; `none` stands for what is not a whole value. -/
structure RingSlot (V : Type u) where
  sequence : UInt64
  value : Option V := none

structure DisruptorMpscRing (V : Type u) where
  slots : Nat → RingSlot V := fun i => { sequence := UInt64.ofNat i }
  claimCursor : UInt64 := 0
  consumerMirror : UInt64 := 0
  publishedCursor : UInt64 := 0
  maxDepth : UInt64 := 0
  claimRetries : UInt64 := 0
  gapObservations : UInt64 := 0
  closed : Bool := false

namespace DisruptorMpscRing

variable {V : Type u} (cap : RingCapacity) (ring : DisruptorMpscRing V)

def slotAt (sequence : UInt64) : RingSlot V := ring.slots (cap.index sequence)

def setSlot (sequence : UInt64) (slot : RingSlot V) : DisruptorMpscRing V :=
  { ring with slots := Function.update ring.slots (cap.index sequence) slot }

def setValue (sequence : UInt64) (value : Option V) : DisruptorMpscRing V :=
  ring.setSlot cap sequence { ring.slotAt cap sequence with value := value }

def setSequence (sequence next : UInt64) : DisruptorMpscRing V :=
  ring.setSlot cap sequence { ring.slotAt cap sequence with sequence := next }

/-- `release_slot`: the slot waits for the ticket one turn later. -/
def releaseSlot (sequence : UInt64) : DisruptorMpscRing V :=
  ring.setSequence cap sequence (sequence + UInt64.ofNat cap.size)

def updateMaxDepth (publishedCursor : UInt64) : DisruptorMpscRing V :=
  let depth := publishedCursor - ring.consumerMirror
  if ring.maxDepth < depth then { ring with maxDepth := depth } else ring

/-- `try_publish` of a caller that is alone with the ring. -/
def tryPublish (value : V) : DisruptorMpscRing V × RingPublishResult :=
  if ring.closed then (ring, { code := .closed, sequence := 0 })
  else
    let sequence := ring.claimCursor
    if (ring.slotAt cap sequence).sequence ≠ sequence then
      (ring, { code := .full, sequence := sequence })
    else
      let claimed := { ring with claimCursor := sequence + 1 }
      let stored := (claimed.setValue cap sequence (some value)).setSequence cap
        sequence (sequence + 1)
      let published := { stored with publishedCursor := sequence + 1 }
      (published.updateMaxDepth (sequence + 1),
        { code := .published, sequence := sequence })

/-- `try_acquire`; the result is the sequence number of the lease. -/
def tryAcquire : DisruptorMpscRing V × Option UInt64 :=
  let c := ring.consumerMirror
  if (ring.slotAt cap c).sequence ≠ c + 1 then
    if c + 1 < ring.publishedCursor then
      ({ ring with gapObservations := ring.gapObservations + 1 }, none)
    else (ring, none)
  else ({ ring with consumerMirror := c + 1 }, some c)

def close : DisruptorMpscRing V :=
  { ring with closed := true }

def empty : Bool :=
  ring.consumerMirror == ring.publishedCursor

/-- The depth that `snapshot` reports. -/
def publishedDepth : UInt64 :=
  ring.publishedCursor - ring.consumerMirror

end DisruptorMpscRing

/-- Where a producer is in `try_publish`; the arguments are its locals. -/
inductive PublishPc (V : Type u) where
  | idle
  | entered (value : V)
  | opened (value : V)
  | claiming (value : V) (sequence : UInt64)
  | checked (value : V) (sequence : UInt64)
  | retrying (value : V) (sequence : UInt64)
  | claimed (value : V) (sequence : UInt64)
  | writing (value : V) (sequence : UInt64)
  | written (value : V) (sequence : UInt64)
  | stored (sequence : UInt64)
  | measuring (sequence : UInt64)
  | measured (sequence depth : UInt64)
  | raising (sequence depth current : UInt64)
  | returned (result : RingPublishResult)

namespace PublishPc

variable {V : Type u}

/-- The producer is between its claim and the publication of its slot. -/
def holds : PublishPc V → Bool
  | .claimed .. | .writing .. | .written .. => true
  | _ => false

def isFree : PublishPc V → Bool
  | .idle | .returned _ => true
  | _ => false

theorem holds_of_isFree {pc : PublishPc V} (hfree : pc.isFree = true) : pc.holds = false := by
  cases pc with
  | idle | returned => rfl
  | _ => cases hfree

end PublishPc

/-- Where the consumer is in `try_acquire`. -/
inductive AcquirePc where
  | idle
  | entered
  | looking (c : UInt64)
  | waiting (c : UInt64)
  | counting
  | ready (c : UInt64)
deriving Repr, DecidableEq

/-- A `ReadLease` that owns a slot.  `ticket` is a ghost: the number of leases
before this one. -/
structure ReadLease where
  sequence : UInt64
  ticket : Nat
deriving Repr, DecidableEq

/-- The ring, the position of every thread, the leases of the consumer, and
three ghosts: the values in the order of their claims, what the leased slots
held when they were leased, and the number of claims when a producer last read
the cursor. -/
structure RingSystem (P : Type v) (V : Type u) where
  ring : DisruptorMpscRing V := {}
  producers : P → PublishPc V := fun _ => .idle
  consumer : AcquirePc := .idle
  leases : List ReadLease := []
  claims : List V := []
  acquired : List (Option V) := []
  tickets : P → Nat := fun _ => 0

namespace RingSystem

variable {P : Type v} {V : Type u} [DecidableEq P] (s : RingSystem P V)

def goto (p : P) (pc : PublishPc V) : RingSystem P V :=
  { s with producers := Function.update s.producers p pc }

def setRing (ring : DisruptorMpscRing V) : RingSystem P V := { s with ring := ring }

/-- The producer notes how many tickets were claimed. -/
def noteTicket (p : P) : RingSystem P V :=
  { s with tickets := Function.update s.tickets p s.claims.length }

/-- The exchange on the cursor succeeds. -/
def claimNext (value : V) (sequence : UInt64) : RingSystem P V :=
  { s with
    ring := { s.ring with claimCursor := sequence + 1 }
    claims := s.claims ++ [value] }

/-- The next step of a producer; `weakFails` is a spurious failure of its
`compare_exchange_weak`. -/
def publishStep (cap : RingCapacity) (s : RingSystem P V) (p : P)
    (weakFails : Bool) : Option (RingSystem P V) :=
  match s.producers p with
  | .idle | .returned _ => none
  | .entered value =>
    some (s.goto p (if s.ring.closed then
      .returned { code := .closed, sequence := 0 } else .opened value))
  | .opened value =>
    some ((s.noteTicket p).goto p (.claiming value s.ring.claimCursor))
  | .claiming value sequence =>
    some (s.goto p (if (s.ring.slotAt cap sequence).sequence ≠ sequence then
      .returned { code := .full, sequence := sequence }
    else .checked value sequence))
  | .checked value sequence =>
    if weakFails = false ∧ s.ring.claimCursor = sequence then
      some (((s.noteTicket p).claimNext value sequence).goto p (.claimed value sequence))
    else
      -- a failed exchange reloads the local `sequence`
      some ((s.noteTicket p).goto p (.retrying value s.ring.claimCursor))
  | .retrying value sequence =>
    some ((s.setRing
      { s.ring with claimRetries := s.ring.claimRetries + 1 }).goto p (.claiming value sequence))
  | .claimed value sequence =>
    some ((s.setRing (s.ring.setValue cap sequence none)).goto p (.writing value sequence))
  | .writing value sequence =>
    some ((s.setRing (s.ring.setValue cap sequence (some value))).goto p (.written value sequence))
  | .written _ sequence =>
    some ((s.setRing (s.ring.setSequence cap sequence (sequence + 1))).goto p (.stored sequence))
  | .stored sequence =>
    some ((s.setRing { s.ring with publishedCursor := sequence + 1 }).goto p (.measuring sequence))
  | .measuring sequence =>
    some (s.goto p (.measured sequence (sequence + 1 - s.ring.consumerMirror)))
  | .measured sequence depth =>
    some (s.goto p (.raising sequence depth s.ring.maxDepth))
  | .raising sequence depth current =>
    if current < depth then
      if weakFails = false ∧ s.ring.maxDepth = current then
        some ((s.setRing { s.ring with maxDepth := depth }).goto p
          (.returned { code := .published, sequence := sequence }))
      else some (s.goto p (.raising sequence depth s.ring.maxDepth))
    else
      some (s.goto p (.returned { code := .published, sequence := sequence }))

/-- The next step of the consumer in `try_acquire`. -/
def acquireStep (cap : RingCapacity) (s : RingSystem P V) : Option (RingSystem P V) :=
  match s.consumer with
  | .idle => none
  | .entered => some { s with consumer := .looking s.ring.consumerMirror }
  | .looking c =>
    some { s with
      consumer :=
        if (s.ring.slotAt cap c).sequence ≠ c + 1 then .waiting c
        else .ready c }
  | .waiting c =>
    some { s with
      consumer :=
        if c + 1 < s.ring.publishedCursor then .counting else .idle }
  | .counting =>
    some { s with
      ring := { s.ring with gapObservations := s.ring.gapObservations + 1 }
      consumer := .idle }
  | .ready c =>
    some { s with
      ring := { s.ring with consumerMirror := c + 1 }
      consumer := .idle
      leases := s.leases ++ [{ sequence := c, ticket := s.acquired.length }]
      acquired := s.acquired ++ [(s.ring.slotAt cap c).value] }

inductive Action (P : Type v) (V : Type u) where
  | tryPublish (p : P) (value : V)
  | publish (p : P) (weakFails : Bool)
  | tryAcquire
  | acquire
  | release (lease : ReadLease)
  | close

def step (cap : RingCapacity) (s : RingSystem P V) : Action P V → Option (RingSystem P V)
  | .tryPublish p value =>
    if (s.producers p).isFree then some (s.goto p (.entered value)) else none
  | .publish p weakFails => s.publishStep cap p weakFails
  | .tryAcquire =>
    if s.consumer = .idle then some { s with consumer := .entered } else none
  | .acquire => s.acquireStep cap
  | .release lease =>
    if s.consumer = .idle ∧ lease ∈ s.leases then
      some { s with
        ring := s.ring.releaseSlot cap lease.sequence
        leases := s.leases.erase lease }
    else none
  | .close => some (s.setRing s.ring.close)

/-- A producer does not exchange the cursor after `2 ^ 64` further claims, when
the word it compares with has come round. -/
def TimelyIn (p : P) : PublishPc V → Prop
  | .checked .. => s.claims.length < s.tickets p + 2 ^ 64
  | _ => True

def Timely : Action P V → Prop
  | .publish p _ => s.TimelyIn p (s.producers p)
  | _ => True

instance (s : RingSystem P V) (p : P) (pc : PublishPc V) : Decidable (s.TimelyIn p pc) := by
  unfold TimelyIn
  split <;> infer_instance

instance (s : RingSystem P V) : (action : Action P V) → Decidable (s.Timely action) := by
  intro action
  unfold Timely
  split <;> infer_instance

end RingSystem

end HPActor
