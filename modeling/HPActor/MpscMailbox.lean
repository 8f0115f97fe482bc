/-
The intrusive queue behind every lane: many producers, one consumer, each
atomic operation one step.  `tail_` is stored by the constructor only, so the
consumer always starts at the stub.
-/
import HPActor.Runs
import HPActor.PendingChain

namespace HPActor.Mpsc

open Function List

open Runs PendingChain

universe u

variable {N : Type u}

/-- A node pointer: the queue's own stub or a node a producer brought. -/
inductive Ref (N : Type u) where
  | stub
  | node (n : N)
deriving Repr, DecidableEq

/-- Where a producer is in `enqueue` of its node. -/
inductive ProducerPc (N : Type u) where
  | idle
  | cleared
  | swapped (prev : Ref N)
  | linked
  | done
deriving Repr, DecidableEq

/-- Where the consumer is in `dequeue`; the arguments are its locals, with
`none` for a null `next_next`. -/
inductive ConsumerPc (N : Type u) where
  | idle
  | entered
  | sawNoNext
  | gotNext (next : Ref N)
  | sawNoNextNext (next : Ref N)
  | relink (next : Ref N) (nextNext : Option (Ref N))
  | recheckHead (next : Ref N)
  | clearSelf (next : Ref N) (nextNext : Ref N)
  | loadHead (next : Ref N) (nextNext : Option (Ref N))
  | casHead (next : Ref N) (nextNext : Option (Ref N))
  | reload (next : Ref N) (nextNext : Option (Ref N))
  | walk (tail updated next : Ref N)
  | linkTail (tail updated next : Ref N)
  | relinkStub (updated next : Ref N)
  | finish (next : Ref N)

/-- The shared words, the position of every thread, and two ghost logs: the
nodes in the order of their exchanges and what the consumer got. -/
structure State (N : Type u) where
  mpscNext : Ref N → Option (Ref N) := fun _ => none
  head : Ref N := .stub
  count : Int := 0
  producer : N → ProducerPc N := fun _ => .idle
  consumer : ConsumerPc N := .idle
  exchanged : List N := []
  returned : List (Ref N) := []

/-- One atomic step, of the producer of a node or of the consumer. -/
inductive Act (N : Type u) where
  | enqueue (n : N)
  | dequeue

variable [DecidableEq N] (s : State N)

def enqueueStep (n : N) : Option (State N) :=
  match s.producer n with
  | .idle => some
      { s with
        mpscNext := update s.mpscNext (.node n) none
        producer := update s.producer n .cleared }
  | .cleared => some
      { s with
        head := .node n
        producer := update s.producer n (.swapped s.head)
        exchanged := s.exchanged ++ [n] }
  | .swapped prev => some
      { s with
        mpscNext := update s.mpscNext prev (some (.node n))
        producer := update s.producer n .linked }
  | .linked => some
      { s with
        count := s.count + 1
        producer := update s.producer n .done }
  | .done => none

def State.goto (pc : ConsumerPc N) : State N :=
  { s with consumer := pc }

def State.storeNext (ref : Ref N) (value : Option (Ref N)) : State N :=
  { s with mpscNext := update s.mpscNext ref value }

def dequeueStep : State N :=
  match s.consumer with
  | .idle => s.goto .entered
  | .entered =>
    match s.mpscNext .stub with
    | none => s.goto .sawNoNext
    | some next => s.goto (.gotNext next)
  | .sawNoNext => s.goto .idle
  | .gotNext next =>
    match s.mpscNext next with
    | none => s.goto (.sawNoNextNext next)
    | some nextNext => s.goto (.relink next (some nextNext))
  | .sawNoNextNext next =>
    if s.head = next then s.goto (.relink next none) else s.goto .idle
  | .relink next none => (s.storeNext .stub none).goto (.recheckHead next)
  | .relink next (some nextNext) =>
    (s.storeNext .stub (some nextNext)).goto
      (if nextNext = .stub then .clearSelf next nextNext
        else .loadHead next (some nextNext))
  | .recheckHead next =>
    if s.head = next then s.goto (.loadHead next none) else s.goto .idle
  | .clearSelf next nextNext =>
    (s.storeNext .stub none).goto (.loadHead next (some nextNext))
  | .loadHead next nextNext =>
    if s.head = next then s.goto (.casHead next nextNext)
    else s.goto (.finish next)
  | .casHead next nextNext =>
    if s.head = next then { s with head := .stub, consumer := .finish next }
    -- a failed exchange overwrites the local `next` with the current head
    else s.goto (.reload s.head nextNext)
  | .reload next nextNext =>
    match s.mpscNext next with
    | none => s.goto (.finish next)
    | some updated =>
      if some updated = nextNext then s.goto (.finish next)
      else
        match nextNext with
        | some tail => s.goto (.walk tail updated next)
        | none => s.goto (.relinkStub updated next)
  | .walk tail updated next =>
    match s.mpscNext tail with
    | some after => s.goto (.walk after updated next)
    | none => s.goto (.linkTail tail updated next)
  | .linkTail tail updated next =>
    (s.storeNext tail (some updated)).goto (.finish next)
  | .relinkStub updated next =>
    (s.storeNext .stub (some updated)).goto (.finish next)
  | .finish next =>
    { s with
      count := s.count - 1
      returned := s.returned ++ [next]
      consumer := .idle }

def step : Act N → Option (State N)
  | .enqueue n => enqueueStep s n
  | .dequeue => some (dequeueStep s)

/-- The consumer has found `next` to be the last node and has not yet tried to
move `head_` back to the stub. -/
def ConsumerPc.inTailWindow : ConsumerPc N → Bool
  | .relink _ none | .recheckHead _ | .loadHead _ none | .casHead _ none => true
  | _ => false

/-- No producer exchanges `head_` inside the consumer's tail window. -/
def KeepsWindow : Act N → Prop
  | .enqueue n => s.producer n = .cleared → s.consumer.inTailWindow = false
  | .dequeue => True

instance (s : State N) : ∀ act, Decidable (KeepsWindow s act) := by
  intro act
  unfold KeepsWindow
  split <;> infer_instance

/-- The cell a producer is about to link its node behind. -/
def pendingOn (producer : N → ProducerPc N) : Ref N → Option (Ref N)
  | .stub => none
  | .node n =>
    match producer n with
    | .swapped prev => some prev
    | _ => none

/-- The node a call in progress has unlinked and will return. -/
def ConsumerPc.held : ConsumerPc N → Option (Ref N)
  | .recheckHead next | .clearSelf next _ | .loadHead next _ | .casHead next _
  | .reload next _ | .walk _ _ next | .linkTail _ _ next | .relinkStub _ next
  | .finish next => some next
  | _ => none

open Ref

omit [DecidableEq N] in
theorem pendingOn_eq_some {producer : N → ProducerPc N} {ref prev : Ref N} :
    pendingOn producer ref = some prev ↔ ∃ n, ref = .node n ∧ producer n = .swapped prev := by
  cases ref with
  | stub => simp [pendingOn]
  | node n =>
    simp only [pendingOn, node.injEq, exists_eq_left']
    cases producer n <;> simp

theorem pendingOn_update (producer : N → ProducerPc N) (n : N) (pc : ProducerPc N) :
    pendingOn (update producer n pc) =
      update (pendingOn producer) (.node n) (pendingOn (fun _ => pc) (.node n)) := by
  funext ref
  cases ref with
  | stub => simp [pendingOn]
  | node m =>
    by_cases hm : m = n
    · subst hm
      simp [pendingOn]
    · simp [pendingOn, hm]

/-- What the consumer knows of the nodes behind the stub at each of its
positions. -/
def ConsumerPc.Sees (mpscNext : Ref N → Option (Ref N)) (head : Ref N) (waiting : List N) :
    ConsumerPc N → Prop
  | .idle | .entered | .sawNoNext | .finish _ => True
  | .gotNext next | .sawNoNextNext next =>
    ∃ n rest, next = .node n ∧ waiting = n :: rest ∧ mpscNext .stub = some (.node n)
  | .relink next (some nextNext) =>
    ∃ n m rest, next = .node n ∧ nextNext = .node m ∧ waiting = n :: m :: rest ∧
      mpscNext .stub = some (.node n) ∧ mpscNext (.node n) = some (.node m)
  | .relink next none =>
    ∃ n, next = .node n ∧ waiting = [n] ∧ head = .node n ∧ mpscNext .stub = some (.node n)
  | .recheckHead next | .loadHead next none | .casHead next none => waiting = [] ∧ head = next
  | .loadHead _ (some _) => waiting ≠ []
  | _ => False

/-- `held` is the node the consumer has unlinked, `waiting` the nodes behind the
stub. -/
structure ConsumerOk (mpscNext : Ref N → Option (Ref N)) (head : Ref N) (held waiting : List N)
    (pc : ConsumerPc N) : Prop where
  held_eq : held.map .node = pc.held.toList
  head_eq : pc.inTailWindow = false → head = lastFrom .stub (waiting.map .node)
  sees : pc.Sees mpscNext head waiting

/-- What the position of a producer says about its node. -/
def ProducerOk (mpscNext : Ref N → Option (Ref N)) (exchanged waiting : List N)
    (n : N) : ProducerPc N → Prop
  | .idle => n ∉ exchanged
  | .cleared => n ∉ exchanged ∧ mpscNext (.node n) = none
  | .swapped _ => n ∈ exchanged ∧ n ∈ waiting
  | .linked | .done => n ∈ exchanged

/-- The queue invariant: exchanged nodes have been given to the consumer, are
held by it, or wait in the chain behind the stub, in exchange order. -/
structure Layout (s : State N) (given held waiting : List N) : Prop where
  returned_eq : s.returned = given.map .node
  exchanged_eq : s.exchanged = given ++ held ++ waiting
  nodup : s.exchanged.Nodup
  producers : ∀ n, ProducerOk s.mpscNext s.exchanged waiting n (s.producer n)
  chain : Linked s.mpscNext (pendingOn s.producer) .stub (waiting.map .node)
  consumer : ConsumerOk s.mpscNext s.head held waiting s.consumer

variable {pc : ConsumerPc N} {head next : Ref N} {mpscNext : Ref N → Option (Ref N)}

omit [DecidableEq N] in
/-- The consumer's knowledge survives as long as stored links stay. -/
theorem ConsumerOk.mono {mpscNext' : Ref N → Option (Ref N)}
    {held waiting : List N} (hok : ConsumerOk mpscNext head held waiting pc)
    (hnext : ∀ ref ∈ .stub :: waiting.map .node, ∀ value,
      mpscNext ref = some value → mpscNext' ref = some value) :
    ConsumerOk mpscNext' head held waiting pc := by
  have hstub := hnext .stub mem_cons_self
  refine ⟨hok.held_eq, hok.head_eq, ?_⟩
  have hsees := hok.sees
  cases pc with
  | gotNext next | sawNoNextNext next =>
    obtain ⟨n, rest, hn, hwaiting, hfirst⟩ := hsees
    exact ⟨n, rest, hn, hwaiting, hstub _ hfirst⟩
  | relink next nextNext =>
    cases nextNext with
    | none =>
      obtain ⟨n, hn, hwaiting, hhead, hfirst⟩ := hsees
      exact ⟨n, hn, hwaiting, hhead, hstub _ hfirst⟩
    | some nextNext =>
      obtain ⟨n, m, rest, hn, hm, hwaiting, hfirst, hsecond⟩ := hsees
      exact ⟨n, m, rest, hn, hm, hwaiting, hstub _ hfirst,
        hnext _ (by simp [hwaiting]) _ hsecond⟩
  | loadHead next nextNext | casHead next nextNext => cases nextNext <;> exact hsees
  | _ => exact hsees

omit [DecidableEq N] in
/-- Outside the tail window a producer may take the place behind the last
waiting node. -/
theorem ConsumerOk.extend {held waiting : List N} (hok : ConsumerOk mpscNext head held waiting pc)
    (hwindow : pc.inTailWindow = false) (n : N) :
    ConsumerOk mpscNext (.node n) held (waiting ++ [n]) pc := by
  refine ⟨hok.held_eq, fun _ => by simp, ?_⟩
  have hsees := hok.sees
  cases pc with
  | gotNext next | sawNoNextNext next =>
    obtain ⟨m, rest, hm, hwaiting, hfirst⟩ := hsees
    exact ⟨m, rest ++ [n], hm, by simp [hwaiting], hfirst⟩
  | relink next nextNext =>
    cases nextNext with
    | none => cases hwindow
    | some nextNext =>
      obtain ⟨m, k, rest, hm, hk, hwaiting, hfirst⟩ := hsees
      exact ⟨m, k, rest ++ [n], hm, hk, by simp [hwaiting], hfirst⟩
  | recheckHead next => cases hwindow
  | loadHead next nextNext | casHead next nextNext =>
    cases nextNext with
    | none => cases hwindow
    | some nextNext => simp_all [ConsumerPc.Sees]
  | _ => exact hsees

variable {s t : State N} {given held waiting : List N} {n : N}

omit [DecidableEq N] in
theorem Layout.waiting_nodup (h : Layout s given held waiting) :
    (stub :: waiting.map .node).Nodup := by
  have hwaiting : waiting.Nodup :=
    (nodup_append.mp (h.exchanged_eq ▸ h.nodup)).2.1
  refine nodup_cons.mpr ⟨by simp, hwaiting.map ?_⟩
  intro a b hab
  exact node.inj hab

omit [DecidableEq N] in
theorem Layout.not_mem_waiting (h : Layout s given held waiting)
    (hfresh : n ∉ s.exchanged) : node n ∉ stub :: waiting.map .node := by
  rw [h.exchanged_eq] at hfresh
  simp only [mem_append, not_or] at hfresh
  simp [hfresh.2]

omit [DecidableEq N] in
theorem ProducerOk.mono {mpscNext' : Ref N → Option (Ref N)}
    {exchanged exchanged' waiting waiting' : List N} {pc : ProducerPc N}
    (hok : ProducerOk mpscNext exchanged waiting n pc) (hexchanged : n ∈ exchanged' ↔ n ∈ exchanged)
    (hwaiting : n ∈ waiting → n ∈ waiting')
    (hnext : n ∉ exchanged → mpscNext (.node n) = none → mpscNext' (.node n) = none) :
    ProducerOk mpscNext' exchanged' waiting' n pc := by
  cases pc with
  | idle => exact fun hmem => hok (hexchanged.mp hmem)
  | cleared =>
    exact ⟨fun hmem => hok.1 (hexchanged.mp hmem), hnext hok.1 hok.2⟩
  | swapped prev => exact ⟨hexchanged.mpr hok.1, hwaiting hok.2⟩
  | linked | done => exact hexchanged.mpr hok

theorem forall_producerOk_update {exchanged waiting : List N} {producer : N → ProducerPc N}
    {pc : ProducerPc N} (hself : ProducerOk mpscNext exchanged waiting n pc)
    (hother : ∀ m, m ≠ n → ProducerOk mpscNext exchanged waiting m (producer m)) (m : N) :
    ProducerOk mpscNext exchanged waiting m (update producer n pc m) := by
  by_cases hm : m = n
  · subst hm
    simpa using hself
  · simpa [hm] using hother m hm

section

variable (h : Layout s given held waiting)
include h

theorem Layout.clear (hpc : s.producer n = .idle) :
    Layout
      { s with
        mpscNext := update s.mpscNext (.node n) none
        producer := update s.producer n .cleared }
      given held waiting := by
  have hfresh : n ∉ s.exchanged := by
    simpa [hpc, ProducerOk] using h.producers n
  have hout := h.not_mem_waiting hfresh
  exact { h with
    producers := by
      refine forall_producerOk_update ⟨hfresh, by simp⟩ fun m hm => ?_
      refine (h.producers m).mono Iff.rfl id fun _ hnone => ?_
      simpa [hm] using hnone
    chain := by
      refine h.chain.congr ?_ ?_
      · intro ref href
        exact update_of_ne (ne_of_mem_of_not_mem href hout) _ _
      · intro ref href
        rw [pendingOn_update]
        exact update_of_ne (ne_of_mem_of_not_mem (mem_cons_of_mem _ href) hout) _ _
    consumer := h.consumer.mono fun ref href value hvalue =>
      (update_of_ne (ne_of_mem_of_not_mem href hout) _ _).trans hvalue }

theorem Layout.exchange (hpc : s.producer n = .cleared)
    (hwindow : s.consumer.inTailWindow = false) :
    Layout
      { s with
        head := .node n
        producer := update s.producer n (.swapped s.head)
        exchanged := s.exchanged ++ [n] }
      given held (waiting ++ [n]) := by
  have hproducer := h.producers n
  rw [hpc] at hproducer
  obtain ⟨hfresh, hnext⟩ := hproducer
  have hout := h.not_mem_waiting hfresh
  exact {
    returned_eq := h.returned_eq
    exchanged_eq := by simp [h.exchanged_eq]
    nodup := by
      refine nodup_append.mpr ⟨h.nodup, nodup_singleton n, ?_⟩
      intro a ha b hb
      rw [mem_singleton.mp hb]
      exact ne_of_mem_of_not_mem ha hfresh
    producers := by
      refine forall_producerOk_update ⟨by simp, by simp⟩ fun m hm => ?_
      refine (h.producers m).mono (by simp [hm]) ?_ fun _ => id
      exact mem_append_left [n]
    chain := by
      rw [h.consumer.head_eq hwindow, pendingOn_update, map_append]
      exact h.chain.extend (fun hmem => hout (mem_cons_of_mem _ hmem)) hnext
    consumer := h.consumer.extend hwindow n }

theorem Layout.publish {prev : Ref N} (hpc : s.producer n = .swapped prev) :
    Layout
      { s with
        mpscNext := update s.mpscNext prev (some (.node n))
        producer := update s.producer n .linked }
      given held waiting := by
  have hproducer := h.producers n
  rw [hpc] at hproducer
  obtain ⟨hplaced, hwaiting⟩ := hproducer
  have hmem : node n ∈ waiting.map .node :=
    mem_map_of_mem hwaiting
  have hpending : pendingOn s.producer (.node n) = some prev :=
    pendingOn_eq_some.mpr ⟨n, rfl, hpc⟩
  obtain ⟨hprev, hmissing⟩ := h.chain.pending_prev hmem hpending
  exact { h with
    producers := by
      refine forall_producerOk_update hplaced fun m hm => ?_
      refine (h.producers m).mono Iff.rfl id fun hfresh hnone => ?_
      have hne : node m ≠ prev :=
        (ne_of_mem_of_not_mem hprev (h.not_mem_waiting hfresh)).symm
      simpa [hne] using hnone
    chain := by
      rw [pendingOn_update]
      exact h.chain.publish h.waiting_nodup hmem hpending
    consumer := by
      refine h.consumer.mono fun ref href value hvalue => ?_
      have hne : ref ≠ prev := by
        rintro rfl
        rw [hmissing] at hvalue
        cases hvalue
      exact (update_of_ne hne _ _).trans hvalue }

theorem Layout.complete (hpc : s.producer n = .linked) :
    Layout
      { s with
        count := s.count + 1
        producer := update s.producer n .done }
      given held waiting := by
  have hplaced := h.producers n
  rw [hpc] at hplaced
  exact { h with
    producers := forall_producerOk_update hplaced fun m _ => h.producers m
    chain := by
      rw [pendingOn_update]
      refine h.chain.congr (fun _ _ => rfl) fun ref _ => ?_
      by_cases href : ref = .node n
      · subst href
        simp [pendingOn, hpc]
      · simp [href] }

theorem enqueueStep_layout (hwindow : s.producer n = .cleared → s.consumer.inTailWindow = false)
    (hstep : enqueueStep s n = some t) :
    ∃ waiting', Layout t given held waiting' := by
  unfold enqueueStep at hstep
  split at hstep <;> cases hstep
  · exact ⟨waiting, h.clear ‹_›⟩
  · exact ⟨waiting ++ [n], h.exchange ‹_› (hwindow ‹_›)⟩
  · exact ⟨waiting, h.publish ‹_›⟩
  · exact ⟨waiting, h.complete ‹_›⟩

end

omit [DecidableEq N] in
theorem Layout.goto (h : Layout s given held waiting)
    (hok : ConsumerOk s.mpscNext s.head held waiting pc) :
    Layout (s.goto pc) given held waiting :=
  { h with consumer := hok }

/-- The consumer takes the first waiting node out of the chain. -/
theorem Layout.unlink {rest : List N} (h : Layout s given [] (n :: rest))
    (hfirst : s.mpscNext .stub = some (.node n)) {value : Option (Ref N)}
    (hvalue : s.mpscNext (.node n) = value)
    (hstored : ∀ m ∈ rest.head?, value = some (.node m))
    (hok : ConsumerOk (update s.mpscNext .stub value) s.head [n] rest
      pc) : Layout ((s.storeNext .stub value).goto pc) given [n] rest := by
  obtain ⟨-, hnotPending⟩ := h.chain.next_head hfirst
  exact {
    returned_eq := h.returned_eq
    exchanged_eq := by simp [State.goto, State.storeNext, h.exchanged_eq]
    nodup := h.nodup
    producers := by
      intro m
      have hm := h.producers m
      cases hpc : s.producer m with
      | swapped prev =>
        rw [hpc] at hm
        obtain ⟨hplaced, hwaiting⟩ := hm
        rcases mem_cons.mp hwaiting with rfl | hrest
        · have hpending : pendingOn s.producer (.node m) = some prev :=
            pendingOn_eq_some.mpr ⟨m, rfl, hpc⟩
          rw [hnotPending] at hpending
          cases hpending
        · simpa [State.goto, State.storeNext, hpc, ProducerOk] using ⟨hplaced, hrest⟩
      | idle | cleared | linked | done =>
        rw [hpc] at hm
        simpa [State.goto, State.storeNext, hpc, ProducerOk] using hm
    chain := by
      subst hvalue
      refine h.chain.unlink h.waiting_nodup ?_
      intro ref href
      rw [head?_map] at href
      obtain ⟨m, hm, rfl⟩ := Option.map_eq_some_iff.mp href
      exact hstored m hm
    consumer := hok }

omit [DecidableEq N] in
/-- A stored link out of the stub or a waiting node leads to the node that
waits next. -/
theorem Layout.next_of_load (h : Layout s given held waiting) {x : Ref N} {front rest : List N}
    (hwaiting : waiting = front ++ rest) (hx : x = lastFrom .stub (front.map .node))
    (hload : s.mpscNext x = some next) :
    ∃ n rest', rest = n :: rest' ∧ next = .node n := by
  have hchain := h.chain
  rw [hwaiting, map_append] at hchain
  have hrest := hchain.drop
  rw [← hx] at hrest
  cases rest with
  | nil =>
    rw [show s.mpscNext x = none from hrest] at hload
    cases hload
  | cons n rest' => exact ⟨n, rest', rfl, (hrest.next_head hload).1⟩

section

variable (h : Layout s given held waiting)
include h

theorem dequeueStep_entered (hpc : s.consumer = .entered) :
    Layout (dequeueStep s) given held waiting := by
  have hok := h.consumer
  rw [hpc] at hok
  simp only [dequeueStep, hpc]
  split
  · exact h.goto ⟨hok.held_eq, hok.head_eq, trivial⟩
  · rename_i next hnext
    obtain ⟨n, rest, hwaiting, rfl⟩ :=
      h.next_of_load (nil_append waiting).symm rfl hnext
    exact h.goto ⟨hok.held_eq, hok.head_eq, n, rest, rfl, hwaiting, hnext⟩

theorem dequeueStep_gotNext (hpc : s.consumer = .gotNext next) :
    Layout (dequeueStep s) given held waiting := by
  have hok := h.consumer
  rw [hpc] at hok
  obtain ⟨hheld, hhead, n, rest, rfl, hwaiting, hfirst⟩ := hok
  simp only [dequeueStep, hpc]
  split
  · exact h.goto ⟨hheld, hhead, n, rest, rfl, hwaiting, hfirst⟩
  · rename_i nextNext hnext
    obtain ⟨m, rest', hrest, rfl⟩ :=
      h.next_of_load (hwaiting.trans (singleton_append).symm) rfl hnext
    rw [hrest] at hwaiting
    exact h.goto ⟨hheld, hhead, n, m, rest', rfl, rfl, hwaiting, hfirst, hnext⟩

theorem dequeueStep_sawNoNextNext (hpc : s.consumer = .sawNoNextNext next) :
    Layout (dequeueStep s) given held waiting := by
  have hok := h.consumer
  have hnodup := h.waiting_nodup
  rw [hpc] at hok
  obtain ⟨hheld, hhead, n, rest, rfl, hwaiting, hfirst⟩ := hok
  simp only [dequeueStep, hpc]
  split
  · rename_i hhead'
    have hlast := (hhead rfl).symm.trans hhead'
    rw [hwaiting] at hlast hnodup
    have hrest : rest.map node = [] := eq_nil_of_lastFrom_eq (nodup_cons.mp hnodup).2 hlast
    rw [map_eq_nil_iff] at hrest
    subst hrest
    exact h.goto ⟨hheld, nofun, n, rfl, hwaiting, hhead', hfirst⟩
  · exact h.goto ⟨hheld, hhead, trivial⟩

theorem dequeueStep_relink {nextNext : Option (Ref N)} (hpc : s.consumer = .relink next nextNext) :
    ∃ held' waiting', Layout (dequeueStep s) given held' waiting' := by
  have hok := h.consumer
  rw [hpc] at hok
  obtain rfl := map_eq_nil_iff.mp hok.held_eq
  cases nextNext with
  | none =>
    obtain ⟨n, rfl, rfl, hhead, hfirst⟩ := hok.sees
    have hlast : s.mpscNext (.node n) = none := h.chain.2
    simp only [dequeueStep, hpc]
    exact ⟨[n], [], h.unlink hfirst hlast (by simp) ⟨rfl, nofun, rfl, hhead⟩⟩
  | some nextNext =>
    obtain ⟨n, m, rest, rfl, rfl, rfl, hfirst, hsecond⟩ := hok.sees
    simp only [dequeueStep, hpc, reduceCtorEq, ↓reduceIte]
    exact ⟨[n], m :: rest,
      h.unlink hfirst hsecond (by simp) ⟨rfl, hok.head_eq, cons_ne_nil _ _⟩⟩

theorem dequeueStep_loadHead {nextNext : Option (Ref N)}
    (hpc : s.consumer = .loadHead next nextNext) :
    Layout (dequeueStep s) given held waiting := by
  have hok := h.consumer
  rw [hpc] at hok
  simp only [dequeueStep, hpc]
  cases nextNext with
  | none =>
    rw [if_pos hok.sees.2]
    exact h.goto ⟨hok.held_eq, nofun, hok.sees⟩
  | some nextNext =>
    obtain ⟨n, rfl, rfl⟩ := map_eq_singleton_iff.mp hok.held_eq
    have hmem : s.head ∈ waiting.map .node := by
      rw [hok.head_eq rfl]
      exact lastFrom_mem_of_ne_nil (by simpa [ConsumerPc.Sees] using hok.sees)
    obtain ⟨m, hm, hmhead⟩ := mem_map.mp hmem
    have hall := h.exchanged_eq ▸ h.nodup
    rw [append_assoc, nodup_append] at hall
    have hnm : m ≠ n :=
      ne_of_mem_of_not_mem hm (nodup_cons.mp hall.2.1).1
    rw [if_neg (by simpa [← hmhead] using hnm)]
    exact h.goto ⟨rfl, hok.head_eq, trivial⟩

/-- Every consumer step keeps the layout; the branches that repair a failed
exchange are not reached. -/
theorem dequeueStep_layout :
    ∃ given' held' waiting', Layout (dequeueStep s) given' held' waiting' := by
  have hok := h.consumer
  cases hpc : s.consumer with
  | idle | sawNoNext =>
    rw [hpc] at hok
    simp only [dequeueStep, hpc]
    exact ⟨given, held, waiting, h.goto ⟨hok.held_eq, hok.head_eq, trivial⟩⟩
  | entered => exact ⟨given, held, waiting, dequeueStep_entered h hpc⟩
  | gotNext next => exact ⟨given, held, waiting, dequeueStep_gotNext h hpc⟩
  | sawNoNextNext next =>
    exact ⟨given, held, waiting, dequeueStep_sawNoNextNext h hpc⟩
  | relink next nextNext => exact ⟨given, dequeueStep_relink h hpc⟩
  | loadHead next nextNext =>
    exact ⟨given, held, waiting, dequeueStep_loadHead h hpc⟩
  | recheckHead next =>
    rw [hpc] at hok
    simp only [dequeueStep, hpc, hok.sees.2, ↓reduceIte]
    exact ⟨given, held, waiting, h.goto ⟨hok.held_eq, nofun, hok.sees⟩⟩
  | casHead next nextNext =>
    rw [hpc] at hok
    cases nextNext with
    | some nextNext => exact hok.sees.elim
    | none =>
      obtain ⟨rfl, hhead⟩ := hok.sees
      simp only [dequeueStep, hpc, hhead, ↓reduceIte]
      exact ⟨given, held, [], { h with consumer := ⟨hok.held_eq, fun _ => rfl, trivial⟩ }⟩
  | finish next =>
    rw [hpc] at hok
    obtain ⟨n, rfl, rfl⟩ := map_eq_singleton_iff.mp hok.held_eq
    simp only [dequeueStep, hpc]
    exact ⟨given ++ [n], [], waiting, { h with
      returned_eq := by simp [h.returned_eq]
      exchanged_eq := by simp [h.exchanged_eq]
      consumer := ⟨rfl, hok.head_eq, trivial⟩ }⟩
  | clearSelf next nextNext | reload next nextNext | walk tail updated next
  | linkTail tail updated next | relinkStub updated next =>
    rw [hpc] at hok
    exact hok.sees.elim

end

/-- Some division of the exchanged nodes is a layout of the state. -/
def Arranged (s : State N) : Prop :=
  ∃ given held waiting, Layout s given held waiting

omit [DecidableEq N] in
theorem arranged_init : Arranged ({} : State N) :=
  ⟨[], [], [], {
    returned_eq := rfl
    exchanged_eq := rfl
    nodup := nodup_nil
    producers := fun _ => not_mem_nil
    chain := rfl
    consumer := ⟨rfl, fun _ => rfl, trivial⟩ }⟩

theorem step_arranged {act : Act N} (h : Arranged s)
    (hkeeps : KeepsWindow s act) (hstep : step s act = some t) :
    Arranged t := by
  obtain ⟨given, held, waiting, h⟩ := h
  cases act with
  | enqueue n =>
    obtain ⟨waiting', ht⟩ := enqueueStep_layout h hkeeps hstep
    exact ⟨given, held, waiting', ht⟩
  | dequeue =>
    cases hstep
    exact dequeueStep_layout h

omit [DecidableEq N] in
theorem ConsumerOk.head_mem {held waiting : List N}
    (hok : ConsumerOk mpscNext head held waiting pc) :
    head = .stub ∨ head ∈ (held ++ waiting).map node := by
  rw [map_append, hok.held_eq]
  cases hwindow : pc.inTailWindow with
  | false =>
    have hmem := lastFrom_mem .stub (waiting.map node)
    rw [← hok.head_eq hwindow] at hmem
    exact (mem_cons.mp hmem).imp id (mem_append_right _)
  | true =>
    right
    have hsees := hok.sees
    cases pc with
    | relink next nextNext =>
      cases nextNext with
      | none =>
        obtain ⟨n, -, rfl, rfl, -⟩ := hsees
        exact mem_append_right _ mem_cons_self
      | some nextNext => cases hwindow
    | recheckHead next =>
      rw [hsees.2]
      exact mem_cons_self
    | loadHead next nextNext | casHead next nextNext =>
      cases nextNext with
      | none =>
        rw [hsees.2]
        exact mem_cons_self
      | some nextNext => cases hwindow
    | _ => cases hwindow

/-- In every run that keeps producers out of the tail window, the consumer
gets the nodes in exchange order and none twice, `head_` never designates a
node it already got, and every node whose enqueue completed has been returned,
is held by the call in progress, or can be reached from the stub over stored
links and links producers are about to store. -/
theorem mpsc_run_loses_nothing {acts : List (Act N)}
    (hkeeps : EachStep step KeepsWindow ({} : State N) acts) (hrun : run step {} acts = some s) :
    s.returned.Nodup ∧ s.head ∉ s.returned ∧ s.returned <+: s.exchanged.map .node ∧
      ∀ n, s.producer n = .done → .node n ∈ s.returned ∨ s.consumer.held = some (.node n) ∨
          Reaches s.mpscNext (pendingOn s.producer) .stub (.node n) := by
  obtain ⟨given, held, waiting, h⟩ : Arranged s :=
    run_invariant (fun _ _ _ => step_arranged) arranged_init hkeeps hrun
  have hnodup : (given ++ (held ++ waiting)).Nodup := by
    rw [← append_assoc, ← h.exchanged_eq]
    exact h.nodup
  obtain ⟨hgiven, -, hdisjoint⟩ := nodup_append.mp hnodup
  rw [h.returned_eq]
  refine ⟨hgiven.map fun _ _ => Ref.node.inj, ?_, ?_, ?_⟩
  · intro hmem
    obtain ⟨n, hn, hhead⟩ := mem_map.mp hmem
    rcases h.consumer.head_mem with hstub | hhead'
    · rw [hstub] at hhead
      cases hhead
    · obtain ⟨m, hm, hm'⟩ := mem_map.mp hhead'
      exact hdisjoint n hn m hm (Ref.node.inj (hhead.trans hm'.symm))
  · rw [h.exchanged_eq, append_assoc, map_append]
    exact prefix_append _ _
  · intro n hdone
    have hplaced := h.producers n
    rw [hdone] at hplaced
    change n ∈ s.exchanged at hplaced
    rw [h.exchanged_eq, append_assoc, mem_append, mem_append] at hplaced
    rcases hplaced with hn | hn | hn
    · exact .inl (mem_map_of_mem hn)
    · have hheld : node n ∈ held.map node := mem_map_of_mem hn
      rw [h.consumer.held_eq, Option.mem_toList] at hheld
      exact .inr (.inl hheld)
    · exact .inr (.inr (h.chain.reaches (mem_map_of_mem hn)))

namespace MpscWitness

/-- All steps of one `enqueue`. -/
def enqueueAll (n : Nat) : List (Act Nat) := List.replicate 4 (.enqueue n)

/-- The first `k` steps the consumer takes. -/
def consume (k : Nat) : List (Act Nat) := List.replicate k .dequeue

/-- Reachable from the stub over stored links alone. -/
def Linked (s : State Nat) (ref : Ref Nat) : Prop :=
  Relation.ReflTransGen (fun x y => s.mpscNext x = some y) .stub ref

theorem not_linked_of_no_next {s : State Nat}
    (hnext : s.mpscNext .stub = none) (n : Nat) : ¬ Linked s (.node n) := by
  intro hlinked
  rcases hlinked.cases_head with heq | ⟨ref, hstep, -⟩
  · cases heq
  · rw [hnext] at hstep
    cases hstep

/-- Four ways out of the naive reading.  While node 0 is exchanged and not yet
linked, node 1, whose enqueue completed, is not linked to the stub; a node a
`dequeue` in progress holds is not linked either.  With an exchange between
the consumer's first head check and its store, both nodes are lost although
every call has ended; with an exchange right before the consumer's
compare-exchange, node 1 is returned in place of node 0 and stays in
`head_`. -/
theorem tail_window_exchange_loses_nodes :
    (∃ s, run step {} ([.enqueue 0, .enqueue 0] ++ enqueueAll 1) = some s ∧
      s.producer 1 = .done ∧ s.returned = [] ∧ ¬ Linked s (.node 1)) ∧
    (∃ s, run step {} (enqueueAll 0 ++ consume 5) = some s ∧
      s.producer 0 = .done ∧ s.returned = [] ∧ ¬ Linked s (.node 0)) ∧
    (∃ s, run step {} (enqueueAll 0 ++ consume 4 ++ [.enqueue 1, .enqueue 1] ++ consume 2 ++
        [.enqueue 1, .enqueue 1]) = some s ∧
      s.producer 0 = .done ∧ s.producer 1 = .done ∧ s.consumer = .idle ∧
      s.returned = [] ∧ ¬ Linked s (.node 0) ∧ ¬ Linked s (.node 1)) ∧
    ∃ s, run step {} (enqueueAll 0 ++ consume 7 ++ [.enqueue 1, .enqueue 1] ++ consume 3) = some s ∧
      s.exchanged = [0, 1] ∧ s.returned = [.node 1] ∧ s.head = .node 1 :=
  ⟨⟨_, rfl, rfl, rfl, not_linked_of_no_next rfl 1⟩, ⟨_, rfl, rfl, rfl, not_linked_of_no_next rfl 0⟩,
    ⟨_, rfl, rfl, rfl, rfl, rfl, not_linked_of_no_next rfl 0, not_linked_of_no_next rfl 1⟩,
    ⟨_, rfl, rfl, rfl, rfl⟩⟩

/-- The run theorem on a run in which one node has been returned and the
consumer has met a producer between its exchange and its link. -/
theorem overlapping_run_kept :
    ∃ s, run step ({} : State Nat) (enqueueAll 0 ++ enqueueAll 1 ++ consume 7 ++
        [.enqueue 2, .enqueue 2] ++ consume 3) = some s ∧
      s.returned.Nodup ∧ s.head ∉ s.returned := by
  have hkeeps : EachStep step KeepsWindow ({} : State Nat)
      (enqueueAll 0 ++ enqueueAll 1 ++ consume 7 ++ [.enqueue 2, .enqueue 2] ++ consume 3) := by
    decide
  have hkept := mpsc_run_loses_nothing hkeeps rfl
  exact ⟨_, rfl, hkept.1, hkept.2.1⟩

end MpscWitness

end HPActor.Mpsc
