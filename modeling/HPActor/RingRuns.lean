/-
Whole runs of the ring.  A thread that moves alone does what the sequential
functions say.  In every run whose exchanges on the cursor are timely, the ring
is a bounded queue; without that condition it is not.
-/
import HPActor.RingQueue

namespace HPActor

open TicketRing DisruptorMpscRing Runs Function List Option UInt64

universe u v

namespace RingSystem

variable {P : Type v} {V : Type u} {cap : RingCapacity} {s t : RingSystem P V}

/-- The number of steps that the consumer is away from its next call, at
most. -/
def distance : AcquirePc → Nat
  | .idle => 0
  | .counting | .ready _ => 1
  | .waiting _ => 2
  | .looking _ => 3
  | .entered => 4

theorem acquireStep_nearer (cap : RingCapacity) (hbusy : s.consumer ≠ .idle) :
    ∃ t, s.acquireStep cap = some t ∧ distance t.consumer < distance s.consumer := by
  cases hphase : s.consumer with
  | idle => exact absurd hphase hbusy
  | entered | counting | ready c =>
    rw [acquireStep, hphase]
    exact ⟨_, rfl, Nat.le_refl _⟩
  | looking c | waiting c =>
    rw [acquireStep, hphase]
    refine ⟨_, rfl, ?_⟩
    dsimp only
    split_ifs
    all_goals
      simp only [distance]
      decide

theorem acquireStep_keeps (hstep : s.acquireStep cap = some t) :
    t.claims = s.claims ∧ t.producers = s.producers ∧
      t.tickets = s.tickets ∧ s.acquired.length ≤ t.acquired.length := by
  cases hphase : s.consumer with
  | idle =>
    rw [acquireStep, hphase] at hstep
    cases hstep
  | entered | looking c | waiting c | counting =>
    rw [acquireStep, hphase] at hstep
    cases hstep
    exact ⟨rfl, rfl, rfl, Nat.le_refl _⟩
  | ready c =>
    rw [acquireStep, hphase] at hstep
    cases hstep
    exact ⟨rfl, rfl, rfl, (prefix_append _ _).length_le⟩

theorem Safe.word_taken (hs : Safe cap s) (hlt : s.acquired.length < s.claims.length)
    (hnot : ¬ s.InProgress s.acquired.length) :
    (s.ring.slotAt cap s.ring.consumerMirror).sequence = s.ring.consumerMirror + 1 := by
  rw [hs.mirror, slotAt_ofNat, ofNat_next]
  rcases hs.marks _ (.inl (.inl ⟨Nat.le_refl _, hlt⟩)) with
    ⟨hle | hwriting, -⟩ | ⟨-, hshows⟩
  · exact absurd hlt (Nat.not_lt_of_le hle)
  · exact absurd hwriting hnot
  · exact hshows

variable [DecidableEq P]

/-- An action of `try_acquire`. -/
def IsAcquire (action : Action P V) : Prop :=
  action = .tryAcquire ∨ action = .acquire

theorem step_acquire_keeps {action : Action P V} (haction : IsAcquire action)
    (hstep : s.step cap action = some t) :
    t.claims = s.claims ∧ t.producers = s.producers ∧
      t.tickets = s.tickets ∧ s.acquired.length ≤ t.acquired.length := by
  rcases haction with rfl | rfl
  · simp only [step, ite_none_right_eq_some] at hstep
    obtain ⟨-, hstep⟩ := hstep
    cases hstep
    exact ⟨rfl, rfl, rfl, Nat.le_refl _⟩
  · exact acquireStep_keeps hstep

/-- The consumer alone has brought the ring from one state to another. -/
structure Reads (cap : RingCapacity) (s t : RingSystem P V) : Prop where
  safe : Safe cap t
  claims : t.claims = s.claims
  progress : ∀ n, t.InProgress n ↔ s.InProgress n
  acquired : s.acquired.length ≤ t.acquired.length

theorem step_reads {u : RingSystem P V} {action : Action P V}
    (hreads : Reads cap s t) (haction : IsAcquire action)
    (hstep : t.step cap action = some u) : Reads cap s u := by
  obtain ⟨hclaims, hproducers, htickets, hacquired⟩ :=
    step_acquire_keeps haction hstep
  have htimely : t.Timely action := by
    rcases haction with rfl | rfl
    · exact trivial
    · exact trivial
  refine ⟨step_safe hreads.safe htimely hstep, hclaims.trans hreads.claims, ?_,
    hreads.acquired.trans hacquired⟩
  intro n
  rw [← hreads.progress n, InProgress, hproducers, htickets]
  rfl

theorem run_reads {more : List (Action P V)}
    (hmore : ∀ action ∈ more, IsAcquire action) (hs : Safe cap s)
    (hrun : run (step cap) s more = some t) : Reads cap s t := by
  have hfree : EachStep (step cap) (fun _ _ => True) s more :=
    EachStep.of_forall (fun _ _ => trivial) s more
  exact run_invariant (fun _ _ _ hreads haction hstep =>
    step_reads hreads haction.1 hstep) ⟨hs, rfl, fun _ => Iff.rfl, Nat.le_refl _⟩
    (hfree.and_mem hmore) hrun

/-- The consumer can end the call it is in. -/
theorem run_finish (cap : RingCapacity) (s : RingSystem P V) :
    ∃ n t, run (step cap) s (replicate n .acquire) = some t ∧ t.consumer = .idle := by
  induction hd : distance s.consumer using Nat.strong_induction_on generalizing s with
  | _ d ih =>
    by_cases hidle : s.consumer = .idle
    · exact ⟨0, s, rfl, hidle⟩
    · obtain ⟨mid, hstep, hnear⟩ := acquireStep_nearer cap hidle
      obtain ⟨n, t, hrun, ht⟩ := ih _ (hd ▸ hnear) mid rfl
      refine ⟨n + 1, t, ?_, ht⟩
      rw [replicate_succ]
      exact run_cons_eq_some.mpr ⟨mid, hstep, hrun⟩

theorem run_acquire (hidle : s.consumer = .idle)
    (hword : (s.ring.slotAt cap s.ring.consumerMirror).sequence = s.ring.consumerMirror + 1) :
    run (step cap) s (.tryAcquire :: replicate 3 .acquire) =
      some { s with
        ring := (s.ring.tryAcquire cap).1
        leases := s.leases ++ [⟨s.ring.consumerMirror, s.acquired.length⟩]
        acquired := s.acquired ++ [(s.ring.slotAt cap s.ring.consumerMirror).value] } := by
  simp only [replicate, run_cons, run_nil, step, hidle, acquireStep, hword, bind_some, if_true,
    ne_eq, not_true_eq_false, if_false, tryAcquire]

/-- A published value whose predecessors are published is acquired by the
consumer alone. -/
theorem reads_published (hs : Safe cap s) {m : Nat}
    (hm : m < s.claims.length) (hdone : ∀ n ≤ m, ¬ s.InProgress n) :
    ∃ more t, (∀ action ∈ more, IsAcquire action) ∧
      run (step cap) s more = some t ∧ m < t.acquired.length := by
  -- by induction on the number of values still to be read
  induction hd : m + 1 - s.acquired.length using Nat.strong_induction_on generalizing s with
  | _ d ih =>
    by_cases hlt : m < s.acquired.length
    · exact ⟨[], s, forall_mem_nil _, rfl, hlt⟩
    obtain ⟨k, idle, hfinish, hidle⟩ := run_finish cap s
    have hcalls : ∀ action ∈ replicate k (.acquire : Action P V),
        IsAcquire action := fun action haction =>
      .inr (eq_of_mem_replicate haction)
    have hreads := run_reads hcalls hs hfinish
    by_cases hnext : m < idle.acquired.length
    · exact ⟨_, idle, hcalls, hfinish, hnext⟩
    have hword := hreads.safe.word_taken
      (by rw [hreads.claims]; exact (Nat.le_of_not_lt hnext).trans_lt hm)
      fun hnow => hdone _ (Nat.le_of_not_lt hnext) ((hreads.progress _).mp hnow)
    have hcall := run_acquire hidle hword
    have hcall' : ∀ action ∈ (.tryAcquire ::
        replicate 3 .acquire : List (Action P V)), IsAcquire action := by
      intro action haction
      rcases mem_cons.mp haction with rfl | hmem
      · exact .inl rfl
      · exact .inr (eq_of_mem_replicate hmem)
    have hread := run_reads hcall' hreads.safe hcall
    have hdone' := fun n hn hnow =>
      hdone n hn ((hreads.progress n).mp ((hread.progress n).mp hnow))
    have hm' := hm
    rw [← hreads.claims, ← hread.claims] at hm'
    obtain ⟨more, t, hmore, hrun, ht⟩ := ih _ (by
      have hmono := hreads.acquired
      simp only [length_append, length_singleton]
      omega) hread.safe hm' hdone' rfl
    refine ⟨replicate k .acquire ++ (.tryAcquire :: replicate 3 .acquire ++ more), t, ?_, ?_, ht⟩
    · simp only [forall_mem_append]
      exact ⟨hcalls, hcall', hmore⟩
    · rw [run_append, hfinish, bind_some, run_append, hcall]
      exact hrun

/-- A claimed value that no lease was given on. -/
def Unread (s : RingSystem P V) (n : Nat) : Prop :=
  s.acquired.length ≤ n ∧ n < s.claims.length

def Leased (s : RingSystem P V) (n : Nat) : Prop :=
  ∃ lease ∈ s.leases, lease.ticket = n

/-- What the consumer got is the claimed values in the order of their claims,
and each value whose producer is done is read in the end.  Every value that is
not read, or leased, is in its slot, and no producer writes to that slot. -/
theorem run_queue (cap : RingCapacity) {actions : List (Action P V)}
    (htimely : Runs.EachStep (step cap) Timely {} actions)
    (hrun : Runs.run (step cap) {} actions = some s) :
    s.acquired = (s.claims.take s.acquired.length).map some ∧
      (∀ n < s.acquired.length, ¬ s.InProgress n) ∧
      (∀ n, s.Unread n → ¬ s.InProgress n →
        (s.ring.slotAt cap (UInt64.ofNat n)).value = s.claims[n]?) ∧
      (∀ lease ∈ s.leases, lease.ticket < s.acquired.length ∧
        (s.ring.slotAt cap lease.sequence).value = s.claims[lease.ticket]?) ∧
      (∀ p value sequence, s.producers p = .claimed value sequence ∨
        s.producers p = .writing value sequence → s.claims[s.tickets p]? = some value ∧
          ∀ n, s.Unread n ∨ s.Leased n → n ≠ s.tickets p →
            cap.index sequence ≠ cap.index (UInt64.ofNat n)) ∧
      (∀ m < s.claims.length, (∀ n ≤ m, ¬ s.InProgress n) →
        ∃ more t, (∀ action ∈ more, action = .tryAcquire ∨ action = .acquire) ∧
          Runs.run (step cap) s more = some t ∧
          t.acquired[m]? = s.claims[m]?.map some) := by
  have hs := run_safe htimely hrun
  refine ⟨hs.contents, ?_, ?_, ?_, ?_, ?_⟩
  · intro n hn hprogress
    exact Nat.not_le_of_lt hn (hs.sound.writing n hprogress).1
  · intro n hunread hnot
    rw [slotAt_ofNat]
    exact hs.keeps n (.inl hunread) hnot
  · intro lease hlease
    have hlt := hs.sound.leased _ ⟨lease, hlease, rfl⟩
    refine ⟨hlt, ?_⟩
    rw [hs.sequences lease hlease, slotAt_ofNat]
    refine hs.keeps _ (.inr ⟨lease, hlease, rfl⟩) fun hwriting => ?_
    exact Nat.not_le_of_lt hlt (hs.sound.writing _ hwriting).1
  · intro p value sequence hphase
    have hok := hs.producers p
    have hholds : (s.producers p).holds = true := by
      rcases hphase with hphase | hphase
      · rw [hphase]; rfl
      · rw [hphase]; rfl
    have hown : sequence = UInt64.ofNat (s.tickets p) ∧ s.claims[s.tickets p]? = some value := by
      rcases hphase with hphase | hphase
      · rwa [hphase] at hok
      · rwa [hphase] at hok
    refine ⟨hown.2, fun n hbusy hne hslot => hne ?_⟩
    rw [hown.1, cap.index_ofNat, cap.index_ofNat] at hslot
    exact hs.sound.live_inj (.inl hbusy)
      (.inl (hs.sound.busy_of_writing ⟨p, hholds, rfl⟩)) hslot.symm
  · intro m hm hdone
    obtain ⟨more, t, hmore, hreads, hlt⟩ := reads_published hs hm hdone
    refine ⟨more, t, hmore, hreads, ?_⟩
    have ht := run_reads hmore hs hreads
    rw [ht.safe.contents, getElem?_map, getElem?_take_of_lt hlt, ht.claims]

variable {p : P}

section

variable (value : V) (hfree : (s.producers p).isFree = true) (hopen : s.ring.closed = false)
  (hword : (s.ring.slotAt cap s.ring.claimCursor).sequence = s.ring.claimCursor)
include value hfree hopen hword

theorem run_check : run (step cap) s
      (.tryPublish p value :: replicate 3 (.publish p false)) =
        some ((s.noteTicket p).goto p (.checked value s.ring.claimCursor)) := by
  simp only [replicate, run_cons, run_nil, step, hfree, publishStep, goto, noteTicket,
    update_self, update_idem, hopen, hword, bind_some, if_true, if_false, ne_eq, not_true_eq_false,
    Bool.false_eq_true]

theorem run_claim : run (step cap) s
      (.tryPublish p value :: replicate 4 (.publish p false)) =
        some (((s.noteTicket p).claimNext value s.ring.claimCursor).goto p
          (.claimed value s.ring.claimCursor)) := by
  have hsplit : (.tryPublish p value :: replicate 4 (.publish p false) :
      List (Action P V)) = .tryPublish p value ::
        replicate 3 (.publish p false) ++ [.publish p false] := rfl
  rw [hsplit, run_append, run_check value hfree hopen hword, bind_some]
  simp only [run_cons, run_nil, step, publishStep, goto, noteTicket, claimNext, update_self,
    update_idem, and_self, if_true, bind_some]

end

/-- A producer with a slot fills it and returns. -/
theorem run_store {value : V} {sequence : UInt64}
    (hphase : s.producers p = .claimed value sequence) :
    run (step cap) s (replicate 7 (.publish p false)) =
      some ((s.setRing (updateMaxDepth
        { (s.ring.setValue cap sequence (some value)).setSequence cap sequence
          (sequence + 1) with publishedCursor := sequence + 1 } (sequence + 1))).goto p
              (.returned { code := .published, sequence := sequence })) := by
  simp only [replicate, run_cons, run_nil, step, publishStep, hphase, goto, setRing,
    update_self, update_idem, bind_some]
  simp only [updateMaxDepth, setValue, setSequence, setSlot, slotAt, update_self, update_idem]
  split <;> rfl

theorem run_publish (value : V) (hfree : (s.producers p).isFree = true)
    (hopen : s.ring.closed = false)
    (hword : (s.ring.slotAt cap s.ring.claimCursor).sequence = s.ring.claimCursor) :
    run (step cap) s (.tryPublish p value :: replicate 11 (.publish p false)) =
        some { s with
          ring := (s.ring.tryPublish cap value).1
          producers := update s.producers p (.returned (s.ring.tryPublish cap value).2)
          claims := s.claims ++ [value]
          tickets := update s.tickets p s.claims.length } := by
  have hsplit : (.tryPublish p value :: replicate 11 (.publish p false) :
      List (Action P V)) = .tryPublish p value :: replicate 4 (.publish p false) ++
          replicate 7 (.publish p false) := rfl
  rw [tryPublish_of_word cap s.ring value hopen hword, hsplit, run_append,
    run_claim value hfree hopen hword, bind_some, run_store (update_self _ _ _)]
  simp only [goto, setRing, update_idem]
  rfl

end RingSystem

namespace RingRunsWitness

open RingSystem

theorem two_valid : validDisruptorRingCapacity 2 = true := by
  decide

def pair : RingCapacity := ⟨2, two_valid⟩

/-- One value goes through the ring; a second producer is about to claim. -/
def passed : List (RingSystem.Action Bool Nat) :=
  .tryPublish true 5 :: List.replicate 11 (.publish true false) ++
    [.tryPublish false 7, .publish false false] ++
    .tryAcquire :: List.replicate 3 .acquire

theorem run_queue_passed :
    ∃ s, Runs.run (step pair) {} passed = some s ∧ s.acquired = [some 5] ∧
      s.acquired = (s.claims.take s.acquired.length).map some := by
  have htimely : EachStep (step pair) Timely {} passed := by
    decide +kernel
  have hacquired : (Runs.run (step pair) {} passed).map RingSystem.acquired =
      some [some 5] := by decide +kernel
  obtain ⟨s, hs, hfive⟩ := map_eq_some_iff.mp hacquired
  exact ⟨s, hs, hfive, (run_queue pair htimely hs).1⟩

/-- One producer has read the cursor and checked its slot at the start; since
then `k` values went through the ring. -/
structure Stalled (s : RingSystem Bool Bool) (k : Nat) : Prop where
  stands : s.ring.Stands pair { claimed := k, taken := k } s.claims
  opened : s.ring.closed = false
  late : s.producers true = .checked true 0
  free : (s.producers false).isFree = true
  idle : s.consumer = .idle
  leases : s.leases = []
  acquired : s.acquired.length = k

theorem stalled_start :
    ∃ actions s, run (step pair) {} actions = some s ∧ Stalled s 0 :=
  ⟨_, _, run_check (p := true) true rfl rfl rfl,
    { stands := stands_start
      opened := rfl
      late := rfl
      free := rfl
      idle := rfl
      leases := rfl
      acquired := rfl }⟩

theorem live_of_room {t : Tickets} (hleased : t.leased = ∅)
    (hroom : t.claimed < t.taken + 2) : Tickets.Live 2 t t.claimed := by
  refine .inr ⟨Nat.le_refl _, by omega, ?_⟩
  rintro m hm (⟨hle, -⟩ | hmem)
  · omega
  · rw [hleased] at hmem
    exact hmem

variable {s : RingSystem Bool Bool}

theorem stalled_publish {t : Tickets} (hstands : s.ring.Stands pair t s.claims)
    (hopened : s.ring.closed = false) (hfree : (s.producers false).isFree = true)
    (hleased : t.leased = ∅) (hroom : t.claimed < t.taken + 2) :
    ∃ actions u, run (step pair) s actions = some u ∧
      u.ring.Stands pair { t with claimed := t.claimed + 1 } u.claims ∧
      u.ring.closed = false ∧ (u.producers false).isFree = true ∧
      u.producers true = s.producers true ∧ u.consumer = s.consumer ∧
      u.leases = s.leases ∧ u.acquired = s.acquired := by
  have hlive := live_of_room hleased hroom
  have hrun := run_publish (p := false) false hfree hopened (hstands.word_cursor hlive)
  obtain ⟨-, hopen, hst⟩ := hstands.tryPublish_live hopened hlive false
  refine ⟨_, _, hrun, hst, hopen, ?_, ?_, rfl, rfl, rfl⟩
  · change (update s.producers false _ false).isFree = true
    rw [update_self]
    rfl
  · exact update_of_ne Bool.false_ne_true.symm
      (.returned (s.ring.tryPublish pair false).2) s.producers

theorem stalled_read {k : Nat}
    (hstands : s.ring.Stands pair { claimed := k + 1, taken := k } s.claims)
    (hidle : s.consumer = .idle) (hleases : s.leases = []) (hlength : s.acquired.length = k) :
    ∃ actions u, run (step pair) s actions = some u ∧
      u.ring.Stands pair { claimed := k + 1, taken := k + 1 } u.claims ∧
      u.ring.closed = s.ring.closed ∧ u.producers = s.producers ∧
      u.consumer = .idle ∧ u.leases = [] ∧ u.acquired.length = k + 1 := by
  have hlt : k < k + 1 := Nat.lt_succ_self k
  have hread := run_acquire hidle (hstands.word_mirror hlt)
  rw [hstands.tryAcquire_waiting hlt, hleases, hlength, hstands.mirror] at hread
  have hleased : k ∈ (Tickets.take { claimed := k + 1, taken := k }).leased :=
    Set.mem_insert k ∅
  have hdone := (hstands.take hlt).release hleased
  have hbook : (Tickets.take { claimed := k + 1, taken := k }).release k =
      { claimed := k + 1, taken := k + 1 } := by
    ext n
    · rfl
    · rfl
    · rfl
    · simp [Tickets.take, Tickets.release]
  refine ⟨.tryAcquire :: replicate 3 .acquire ++ [.release ⟨ofNat k, k⟩], { s with
      ring := releaseSlot pair { s.ring with
        consumerMirror := ofNat (k + 1) } (ofNat k)
      leases := []
      acquired := s.acquired ++ [(s.ring.slotAt pair (ofNat k)).value] }, ?_, ?_, rfl, rfl,
    hidle, rfl, ?_⟩
  · rw [run_append, hread, bind_some, run_cons, step, if_pos]
    · simp [run_nil]
    · exact ⟨hidle, mem_singleton_self _⟩
  · exact hbook ▸ hdone
  · rw [length_append, hlength]
    rfl

theorem stalled_lap {k : Nat} (hs : Stalled s k) :
    ∃ actions u, run (step pair) s actions = some u ∧ Stalled u (k + 1) := by
  obtain ⟨first, a, hfirst, hst, hopen, hfree, hlate, hidle, hleases,
    hacquired⟩ := stalled_publish hs.stands hs.opened hs.free rfl
      (Nat.lt_succ_of_lt (Nat.lt_succ_self k))
  obtain ⟨rest, b, hrest, hst', hopen', hproducers, hidle', hleases',
    hlength⟩ := stalled_read hst (hidle.trans hs.idle)
      (hleases.trans hs.leases) (by rw [hacquired, hs.acquired])
  refine ⟨first ++ rest, b, ?_, ?_⟩
  · rw [run_append, hfirst]
    exact hrest
  · exact
      { stands := hst'
        opened := hopen'.trans hopen
        late := by rw [hproducers, hlate, hs.late]
        free := by rw [hproducers, hfree]
        idle := hidle'
        leases := hleases'
        acquired := hlength }

theorem stalled_reached (k : Nat) :
    ∃ actions s, run (step pair) {} actions = some s ∧ Stalled s k := by
  induction k with
  | zero => exact stalled_start
  | succ k ih =>
    obtain ⟨actions, s, hrun, hs⟩ := ih
    obtain ⟨lap, u, hlap, hu⟩ := stalled_lap hs
    refine ⟨actions ++ lap, u, ?_, hu⟩
    rw [run_append, hrun]
    exact hlap

/-- The late exchange succeeds when the cursor has come round, and the producer
begins to write over a value that is not read. -/
theorem stalled_overwrites {k : Nat} (hs : Stalled s k) (hround : k + 2 = 2 ^ 64) :
    ∃ actions u, run (step pair) s actions = some u ∧ u.Unread k ∧
      ¬ u.InProgress k ∧ (u.ring.slotAt pair (ofNat k)).value = none := by
  obtain ⟨first, a, hfirst, hst, hopen, hfree, hlate, hidle, hleases,
    hacquired⟩ := stalled_publish hs.stands hs.opened hs.free rfl
      (Nat.lt_succ_of_lt (Nat.lt_succ_self k))
  obtain ⟨second, b, hsecond, hst', hopen', hfree', hlate', hidle', hleases',
    hacquired'⟩ := stalled_publish hst hopen hfree rfl (Nat.lt_succ_self _)
  have hphase : b.producers true = .checked true 0 := by
    rw [hlate', hlate, hs.late]
  have hcursor : b.ring.claimCursor = ofNat 0 := by
    rw [hst'.cursor]
    change ofNat (k + 2) = ofNat 0
    rw [hround]
    rfl
  have hclaim : b.publishStep pair true false = some
      (((b.noteTicket true).claimNext true (ofNat 0)).goto true
        (.claimed true (ofNat 0))) := by
    rw [publishStep, hphase]
    exact if_pos ⟨rfl, hcursor⟩
  have hlength : b.claims.length = k + 2 := hst'.length
  have hread : b.acquired.length = k := by
    rw [hacquired', hacquired, hs.acquired]
  refine ⟨first ++ (second ++ replicate 2 (.publish true false)),
    ((((b.noteTicket true).claimNext true (ofNat 0)).goto true
      (.claimed true (ofNat 0))).setRing (setValue pair
        (((b.noteTicket true).claimNext true (ofNat 0)).goto true
          (.claimed true (ofNat 0))).ring (ofNat 0) none)).goto
            true (.writing true (ofNat 0)), ?_, ?_, ?_, ?_⟩
  · rw [run_append, hfirst, bind_some, run_append, hsecond, bind_some]
    refine run_cons_eq_some.mpr ⟨_, hclaim, ?_⟩
    refine run_cons_eq_some.mpr ⟨_, ?_, rfl⟩
    simp only [step, publishStep, goto, update_self]
  · refine ⟨hread.le, ?_⟩
    change k < (b.claims ++ [true]).length
    rw [length_append, hlength]
    omega
  · rintro ⟨p, hholds, hticket⟩
    cases p with
    | true =>
      change update b.tickets true b.claims.length true = k at hticket
      rw [update_self, hlength] at hticket
      omega
    | false =>
      have hbefore : (b.producers false).holds = true := hholds
      rw [PublishPc.holds_of_isFree hfree'] at hbefore
      cases hbefore
  · have heven : k % pair.size = 0 % pair.size := by
      change k % 2 = 0 % 2
      omega
    rw [slotAt_ofNat, heven]
    exact (congrFun (values_setValue pair _ 0 none) _).trans (update_self _ _ _)

/-- Some interleaving puts a value over one that is not read. -/
theorem not_queue_when_late :
    ¬ ∀ (actions : List (RingSystem.Action Bool Bool)) (s : RingSystem Bool Bool),
      Runs.run (step pair) {} actions = some s → ∀ n, s.Unread n → ¬ s.InProgress n →
          (s.ring.slotAt pair (UInt64.ofNat n)).value = s.claims[n]? := by
  intro hqueue
  obtain ⟨actions, s, hrun, hs⟩ := stalled_reached (2 ^ 64 - 2)
  obtain ⟨more, u, hmore, hunread, hdone, hnone⟩ :=
    stalled_overwrites hs (by omega)
  have hall : Runs.run (step pair) {} (actions ++ more) = some u := by
    rw [run_append, hrun]
    exact hmore
  have hvalue := hqueue _ u hall _ hunread hdone
  rw [hnone, getElem?_eq_getElem hunread.2] at hvalue
  cases hvalue

end RingRunsWitness

end HPActor
