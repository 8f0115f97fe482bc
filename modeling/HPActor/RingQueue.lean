/-
What the ring does as a queue.  The slots keep the books of a ring of tickets:
a claim, a publication, a lease and its release are the four operations on
them, and every other step leaves them as they are.
-/
import HPActor.RingBooks

namespace HPActor.RingSystem

open TicketRing DisruptorMpscRing Function List UInt64 Tickets

universe u v

variable {P : Type v} {V : Type u}

/-- A producer has claimed the ticket and not published it. -/
def InProgress (s : RingSystem P V) (n : Nat) : Prop :=
  ∃ p, (s.producers p).holds = true ∧ s.tickets p = n

/-- The books of the ring. -/
def book (s : RingSystem P V) : Tickets where
  claimed := s.claims.length
  taken := s.acquired.length
  writing := { n | s.InProgress n }
  leased := { n | ∃ lease ∈ s.leases, lease.ticket = n }

/-- What a producer knows in a phase of `try_publish`. -/
def PublishOk (cap : RingCapacity) (s : RingSystem P V) (p : P) : PublishPc V → Prop
  | .claiming _ sequence | .retrying _ sequence =>
    sequence = UInt64.ofNat (s.tickets p) ∧ s.tickets p ≤ s.claims.length
  | .checked _ sequence =>
    sequence = UInt64.ofNat (s.tickets p) ∧ s.tickets p ≤ s.claims.length ∧
      (s.tickets p = s.claims.length → s.ring.words (s.claims.length % cap.size) =
          UInt64.ofNat s.claims.length)
  | .claimed value sequence | .writing value sequence =>
    sequence = UInt64.ofNat (s.tickets p) ∧ s.claims[s.tickets p]? = some value
  | .written value sequence =>
    sequence = UInt64.ofNat (s.tickets p) ∧ s.claims[s.tickets p]? = some value ∧
      s.ring.values (s.tickets p % cap.size) = some value
  | .idle | .entered _ | .opened _ | .stored _ | .measuring _ | .measured ..
  | .raising .. | .returned _ => True

/-- What the consumer knows in a phase of `try_acquire`. -/
def AcquireOk (s : RingSystem P V) : AcquirePc → Prop
  | .looking c | .waiting c => c = UInt64.ofNat s.acquired.length
  | .ready c => c = UInt64.ofNat s.acquired.length ∧
      s.acquired.length < s.claims.length ∧ ¬ s.InProgress s.acquired.length
  | .idle | .entered | .counting => True

structure Safe (cap : RingCapacity) (s : RingSystem P V) : Prop where
  cursor : s.ring.claimCursor = UInt64.ofNat s.claims.length
  mirror : s.ring.consumerMirror = UInt64.ofNat s.acquired.length
  sound : s.book.Sound cap.size
  marks : s.book.Marks cap.size s.ring.words
  keeps : s.book.Keeps cap.size s.claims s.ring.values
  producers : ∀ p, s.PublishOk cap p (s.producers p)
  unique : ∀ p q, (s.producers p).holds = true →
    (s.producers q).holds = true → s.tickets p = s.tickets q → p = q
  sequences : ∀ lease ∈ s.leases, lease.sequence = UInt64.ofNat lease.ticket
  nodup : (s.leases.map ReadLease.ticket).Nodup
  consumer : s.AcquireOk s.consumer
  contents : s.acquired = (s.claims.take s.acquired.length).map some

variable {cap : RingCapacity} {s s' : RingSystem P V} {p : P}

theorem safe_start : Safe cap ({} : RingSystem P V) := by
  have hbook : (book ({} : RingSystem P V)) = {} := by
    ext n
    · rfl
    · rfl
    · exact iff_of_false (fun ⟨_, hholds, _⟩ => by cases hholds) id
    · exact iff_of_false (fun ⟨_, hlease, _⟩ => by cases hlease) id
  exact
    { cursor := rfl
      mirror := rfl
      sound := by rw [hbook]; exact sound_empty
      marks := by rw [hbook]; exact marks_empty fun _ _ => rfl
      keeps := by
        rw [hbook]
        exact fun n hbusy => absurd hbusy (not_busy_empty n)
      producers := fun _ => trivial
      unique := fun _ _ hholds => by cases hholds
      sequences := fun _ hlease => by cases hlease
      nodup := nodup_nil
      consumer := trivial
      contents := rfl }

variable {pc : PublishPc V} {sequence : UInt64} {value : V}

/-- What a producer knows stays true as long as its ticket, its slot and the
claims so far do. -/
theorem PublishOk.keep (hok : s.PublishOk cap p pc)
    (hticket : s'.tickets p = s.tickets p) (hclaims : s.claims <+: s'.claims)
    (hword : s'.claims.length = s.claims.length →
      s.ring.words (s.claims.length % cap.size) = ofNat s.claims.length →
      s'.ring.words (s.claims.length % cap.size) = ofNat s.claims.length)
    (hvalue : pc.holds = true → s'.ring.values (s.tickets p % cap.size) =
        s.ring.values (s.tickets p % cap.size)) : s'.PublishOk cap p pc := by
  have hget : ∀ {value : V}, s.claims[s.tickets p]? = some value →
      s'.claims[s.tickets p]? = some value := by
    intro value hsome
    obtain ⟨rest, hrest⟩ := hclaims
    rw [← hrest, getElem?_append_left (List.getElem?_eq_some_iff.mp hsome).1]
    exact hsome
  cases pc with
  | claiming value sequence | retrying value sequence =>
    rw [PublishOk, hticket]
    exact ⟨hok.1, hok.2.trans hclaims.length_le⟩
  | checked value sequence =>
    obtain ⟨hsequence, hle, hshows⟩ := hok
    rw [PublishOk, hticket]
    refine ⟨hsequence, hle.trans hclaims.length_le, ?_⟩
    intro hlast
    have hsame : s'.claims.length = s.claims.length :=
      le_antisymm (hlast ▸ hle) hclaims.length_le
    rw [hsame]
    exact hword hsame (hshows (hlast.trans hsame))
  | claimed value sequence | writing value sequence =>
    rw [PublishOk, hticket]
    exact ⟨hok.1, hget hok.2⟩
  | written value sequence =>
    rw [PublishOk, hticket, hvalue rfl]
    exact ⟨hok.1, hget hok.2.1, hok.2.2⟩
  | idle | entered | opened | stored | measuring | measured | raising
  | returned => trivial

/-- What the consumer knows stays true while producers claim and publish. -/
theorem AcquireOk.keep {pc : AcquirePc} (hok : s.AcquireOk pc)
    (hacquired : s'.acquired = s.acquired) (hclaims : s.claims.length ≤ s'.claims.length)
    (hprogress : ∀ n < s.claims.length, s'.InProgress n → s.InProgress n) :
    s'.AcquireOk pc := by
  cases pc with
  | idle | entered | counting => trivial
  | looking c | waiting c =>
    rw [AcquireOk, hacquired]
    exact hok
  | ready c =>
    obtain ⟨hc, hlt, hnot⟩ := hok
    rw [AcquireOk, hacquired]
    exact ⟨hc, hlt.trans_le hclaims, fun hnow => hnot (hprogress _ hlt hnow)⟩

/-- The parts of the ring that the books depend on. -/
structure SameRing (s s' : RingSystem P V) : Prop where
  slots : s'.ring.slots = s.ring.slots
  cursor : s'.ring.claimCursor = s.ring.claimCursor
  mirror : s'.ring.consumerMirror = s.ring.consumerMirror
  leases : s'.leases = s.leases
  claims : s'.claims = s.claims
  acquired : s'.acquired = s.acquired

theorem SameRing.words (hsame : SameRing s s') : s'.ring.words = s.ring.words := by
  funext i
  simp only [DisruptorMpscRing.words, hsame.slots]

theorem SameRing.values (hsame : SameRing s s') : s'.ring.values = s.ring.values := by
  funext i
  simp only [DisruptorMpscRing.values, hsame.slots]

theorem SameRing.book (hsame : SameRing s s') (hprogress : ∀ n, s'.InProgress n ↔ s.InProgress n) :
    s'.book = s.book := by
  ext n
  · exact congrArg List.length hsame.claims
  · exact congrArg List.length hsame.acquired
  · exact hprogress n
  · simp only [RingSystem.book, hsame.leases]

theorem Safe.same (hs : Safe cap s) (hsame : SameRing s s')
    (hprogress : ∀ n, s'.InProgress n ↔ s.InProgress n)
    (hproducers : ∀ p, s'.PublishOk cap p (s'.producers p))
    (hunique : ∀ p q, (s'.producers p).holds = true →
      (s'.producers q).holds = true → s'.tickets p = s'.tickets q → p = q)
    (hconsumer : s'.AcquireOk s'.consumer) : Safe cap s' where
  cursor := by rw [hsame.cursor, hsame.claims, hs.cursor]
  mirror := by rw [hsame.mirror, hsame.acquired, hs.mirror]
  sound := by rw [hsame.book hprogress]; exact hs.sound
  marks := by rw [hsame.book hprogress, hsame.words]; exact hs.marks
  keeps := by
    rw [hsame.book hprogress, hsame.values, hsame.claims]
    exact hs.keeps
  producers := hproducers
  unique := hunique
  sequences := by rw [hsame.leases]; exact hs.sequences
  nodup := by rw [hsame.leases]; exact hs.nodup
  consumer := hconsumer
  contents := by rw [hsame.acquired, hsame.claims, ← hs.contents]

theorem PublishOk.same (hsame : SameRing s s')
    (hticket : s'.tickets p = s.tickets p) (hok : s.PublishOk cap p pc) :
    s'.PublishOk cap p pc := by
  refine hok.keep hticket (by rw [hsame.claims]) ?_ ?_
  · intro _ hword
    rwa [hsame.words]
  · intro _
    rw [hsame.values]

/-- The consumer moves, or an outsider changes nothing that matters. -/
theorem Safe.consumes (hs : Safe cap s) (hsame : SameRing s s')
    (hproducers : s'.producers = s.producers) (htickets : s'.tickets = s.tickets)
    (hconsumer : s'.AcquireOk s'.consumer) : Safe cap s' := by
  have hprogress : ∀ n, s'.InProgress n ↔ s.InProgress n := by
    intro n
    rw [InProgress, hproducers, htickets]
    rfl
  refine hs.same hsame hprogress ?_ ?_ hconsumer
  · intro p
    rw [hproducers]
    exact (hs.producers p).same hsame (by rw [htickets])
  · rw [hproducers, htickets]
    exact hs.unique

theorem Safe.lt_claims (hs : Safe cap s) {q : P}
    (hq : (s.producers q).holds = true) : s.tickets q < s.claims.length :=
  (hs.sound.writing _ ⟨q, hq, rfl⟩).2

/-- The exchange on the cursor is on the ticket that the producer read. -/
theorem Safe.ticket_claims (hs : Safe cap s) (hphase : s.producers p = .checked value sequence)
    (hcursor : s.ring.claimCursor = sequence) (htimely : s.claims.length < s.tickets p + 2 ^ 64) :
    s.tickets p = s.claims.length := by
  have hok := hs.producers p
  rw [hphase] at hok
  apply ofNat_inj_near hok.2.1 htimely
  rw [← hok.1, ← hcursor, hs.cursor]

/-- A word stored for a ticket in use is not the one that a claim waits for. -/
theorem Safe.word_kept (hs : Safe cap s) {n : Nat} (hbusy : s.book.Busy n) (next : UInt64)
    (hword : s.ring.words (s.claims.length % cap.size) = ofNat s.claims.length) :
    (s.ring.setSequence cap (ofNat n) next).words
      (s.claims.length % cap.size) = ofNat s.claims.length := by
  have hlive := Tickets.Sound.live_of_word hs.marks cap.two_le
    (Nat.lt_of_succ_lt cap.size_lt_word) hword
  have hne : s.claims.length ≠ n := ne_of_gt (hs.sound.busy_lt hbusy)
  rw [words_setSequence]
  exact (hs.sound.update_of_live (.inl hbusy) hlive hne next).trans hword

/-- What producers know stays true when a ticket in use gets its next word. -/
theorem Safe.producers_setSequence (hs : Safe cap s) {n : Nat} (hbusy : s.book.Busy n)
    (next : UInt64) (hring : s'.ring.slots = (s.ring.setSequence cap (ofNat n) next).slots)
    (hclaims : s'.claims = s.claims) {q : P} (hticket : s'.tickets q = s.tickets q) :
    s'.PublishOk cap q (s.producers q) := by
  refine (hs.producers q).keep hticket (by rw [hclaims]) ?_ ?_
  · intro _ hword
    have hkept := hs.word_kept hbusy next hword
    simp only [words, hring] at hkept ⊢
    exact hkept
  · intro _
    have hvalues := s.ring.values_setSequence cap n next
    have hsame := congrFun hvalues (s.tickets q % cap.size)
    simp only [values, hring] at hsame ⊢
    exact hsame

/-- The consumer takes the next ticket. -/
theorem Safe.takes (hs : Safe cap s) {c : UInt64} (hphase : s.consumer = .ready c) :
    Safe cap { s with
      ring := { s.ring with consumerMirror := c + 1 }
      consumer := .idle
      leases := s.leases ++ [{ sequence := c, ticket := s.acquired.length }]
      acquired := s.acquired ++ [(s.ring.slotAt cap c).value] } := by
  have hok := hs.consumer
  rw [hphase] at hok
  obtain ⟨rfl, hlt, hnot⟩ := hok
  have hvalue : (s.ring.slotAt cap (ofNat s.acquired.length)).value =
      s.claims[s.acquired.length]? := by
    rw [slotAt_ofNat]
    exact hs.keeps _ (.inl ⟨le_rfl, hlt⟩) hnot
  have hbook : book { s with
      ring := { s.ring with
        consumerMirror := ofNat s.acquired.length + 1 }
      consumer := .idle
      leases := s.leases ++ [⟨ofNat s.acquired.length, s.acquired.length⟩]
      acquired := s.acquired ++ [(s.ring.slotAt cap
        (ofNat s.acquired.length)).value] } = s.book.take := by
    ext n
    · rfl
    · exact length_append
    · rfl
    · simp only [book, Tickets.take, Set.mem_ofPred_eq, Set.mem_insert_iff, mem_append,
        mem_singleton, or_and_right, exists_or, exists_eq_left]
      exact or_comm.trans (or_congr_left eq_comm)
  exact
    { hs with
      mirror := by
        rw [length_append]
        exact ofNat_next _
      sound := by rw [hbook]; exact hs.sound.take hlt hnot
      marks := by rw [hbook]; exact Tickets.Sound.marks_take hs.marks hlt
      keeps := by rw [hbook]; exact Tickets.Sound.keeps_take hs.keeps hlt
      sequences := by
        intro lease hlease
        rcases mem_append.mp hlease with hold | hnew
        · exact hs.sequences lease hold
        · rw [mem_singleton.mp hnew]
      nodup := by
        simp only [map_append, map_cons, map_nil, nodup_append, nodup_singleton, mem_singleton]
        refine ⟨hs.nodup, trivial, ?_⟩
        rintro n hn m rfl rfl
        obtain ⟨lease, hlease, hn⟩ := mem_map.mp hn
        exact ne_of_lt (hs.sound.leased _ ⟨lease, hlease, rfl⟩) hn
      consumer := trivial
      contents := by
        simp only [length_append, length_singleton, hvalue, take_add_one, map_append]
        rw [← hs.contents, getElem?_eq_getElem hlt]
        rfl }

/-- The consumer gives a slot back. -/
theorem Safe.releases (hs : Safe cap s) {lease : ReadLease} (hmem : lease ∈ s.leases) :
    Safe cap { s with
      ring := s.ring.releaseSlot cap lease.sequence
      leases := s.leases.erase lease } := by
  have hleased : lease.ticket ∈ s.book.leased := ⟨lease, hmem, rfl⟩
  have hbusy : s.book.Busy lease.ticket := .inr hleased
  have hring : s.ring.releaseSlot cap lease.sequence = s.ring.setSequence cap (ofNat lease.ticket)
        (ofNat (lease.ticket + cap.size)) := by
    rw [releaseSlot, hs.sequences lease hmem, ofNat_add]
  rw [hring]
  have hnodup : s.leases.Nodup := List.Nodup.of_map _ hs.nodup
  have hbook : book { s with
      ring := s.ring.setSequence cap (ofNat lease.ticket)
        (ofNat (lease.ticket + cap.size))
      leases := s.leases.erase lease } = s.book.release lease.ticket := by
    ext n
    · rfl
    · rfl
    · rfl
    · simp only [book, release, Set.mem_ofPred_eq, Set.mem_sdiff,
        Set.mem_singleton_iff, hnodup.mem_erase_iff]
      constructor
      · rintro ⟨other, ⟨hne, hother⟩, rfl⟩
        refine ⟨⟨other, hother, rfl⟩, fun heq => hne ?_⟩
        exact inj_on_of_nodup_map hs.nodup hother hmem heq
      · rintro ⟨⟨other, hother, rfl⟩, hne⟩
        exact ⟨other, ⟨fun heq => hne (heq ▸ rfl), hother⟩, rfl⟩
  exact
    { hs with
      sound := by rw [hbook]; exact hs.sound.release hleased
      marks := by
        rw [hbook]
        exact (s.ring.words_setSequence cap _ _) ▸ hs.sound.marks_release hs.marks hleased
      keeps := by
        rw [hbook]
        exact (s.ring.values_setSequence cap _ _) ▸ hs.sound.keeps_release hs.keeps hleased
      producers := by
        intro q
        apply hs.producers_setSequence hbusy (ofNat (lease.ticket + cap.size))
        · rfl
        · rfl
        · rfl
      sequences := fun other hother =>
        hs.sequences other (mem_of_mem_erase hother)
      nodup := hs.nodup.sublist (erase_sublist.map _)
      consumer := hs.consumer.keep rfl le_rfl fun _ _ hnow => hnow }

theorem acquireStep_safe (hs : Safe cap s) (hstep : s.acquireStep cap = some s') : Safe cap s' := by
  have hok := hs.consumer
  rw [acquireStep] at hstep
  generalize hphase : s.consumer = phase at hok hstep
  cases phase with
  | idle =>
    cases hstep
  | entered =>
    cases hstep
    exact hs.consumes ⟨rfl, rfl, rfl, rfl, rfl, rfl⟩ rfl rfl hs.mirror
  | looking c =>
    cases hstep
    by_cases hword : (s.ring.slotAt cap c).sequence ≠ c + 1
    · rw [if_pos hword]
      exact hs.consumes ⟨rfl, rfl, rfl, rfl, rfl, rfl⟩ rfl rfl hok
    · rw [if_neg hword]
      have hc : c = ofNat s.acquired.length := hok
      have hshows := not_not.mp hword
      rw [hc, slotAt_ofNat, ofNat_next] at hshows
      have hready := hs.sound.published_of_word hs.marks cap.two_le cap.size_lt_word hshows
      exact hs.consumes ⟨rfl, rfl, rfl, rfl, rfl, rfl⟩ rfl rfl ⟨hc, hready⟩
  | waiting c =>
    cases hstep
    split_ifs <;> exact hs.consumes ⟨rfl, rfl, rfl, rfl, rfl, rfl⟩ rfl rfl trivial
  | counting =>
    cases hstep
    exact hs.consumes ⟨rfl, rfl, rfl, rfl, rfl, rfl⟩ rfl rfl trivial
  | ready c =>
    cases hstep
    exact hs.takes hphase

variable [DecidableEq P]

/-- A producer that holds no slot moves and comes to hold none. -/
theorem Safe.moves (hs : Safe cap s) (hsame : SameRing s s') (hconsumer : s'.consumer = s.consumer)
    (hproducers : s'.producers = update s.producers p pc)
    (htickets : ∀ q, q ≠ p → s'.tickets q = s.tickets q)
    (hbefore : (s.producers p).holds = false) (hafter : pc.holds = false)
    (hok : s'.PublishOk cap p pc) : Safe cap s' := by
  have hholds : ∀ q, (s'.producers q).holds = true ↔ (s.producers q).holds = true ∧ q ≠ p := by
    intro q
    rw [hproducers]
    by_cases hq : q = p
    · subst hq
      rw [update_self, hafter, hbefore]
      simp
    · rw [update_of_ne hq]
      exact (and_iff_left hq).symm
  have hprogress : ∀ n, s'.InProgress n ↔ s.InProgress n := by
    intro n
    constructor
    · rintro ⟨q, hq, hn⟩
      obtain ⟨hold, hne⟩ := (hholds q).mp hq
      exact ⟨q, hold, (htickets q hne).symm.trans hn⟩
    · rintro ⟨q, hq, hn⟩
      have hne : q ≠ p := by
        rintro rfl
        rw [hbefore] at hq
        cases hq
      exact ⟨q, (hholds q).mpr ⟨hq, hne⟩, (htickets q hne).trans hn⟩
  refine hs.same hsame hprogress ?_ ?_ ?_
  · rw [hproducers]
    refine (forall_update_iff _ _).mpr ⟨hok, fun q hq => ?_⟩
    exact (hs.producers q).same hsame (htickets q hq)
  · intro q r hq hr heq
    obtain ⟨hq, hqp⟩ := (hholds q).mp hq
    obtain ⟨hr, hrp⟩ := (hholds r).mp hr
    rw [htickets q hqp, htickets r hrp] at heq
    exact hs.unique q r hq hr heq
  · rw [hconsumer]
    exact hs.consumer.keep hsame.acquired (by rw [hsame.claims]) fun n _ => (hprogress n).mp

theorem Safe.goes (hs : Safe cap s) {ring : DisruptorMpscRing V}
    (hslots : ring.slots = s.ring.slots) (hcursor : ring.claimCursor = s.ring.claimCursor)
    (hmirror : ring.consumerMirror = s.ring.consumerMirror)
    (hbefore : (s.producers p).holds = false) (hafter : pc.holds = false)
    (hok : PublishOk cap ((s.setRing ring).goto p pc) p pc) :
    Safe cap ((s.setRing ring).goto p pc) :=
  hs.moves ⟨hslots, hcursor, hmirror, rfl, rfl, rfl⟩ rfl rfl (fun _ _ => rfl) hbefore hafter hok

/-- A producer reads the cursor. -/
theorem Safe.notes (hs : Safe cap s) (hbefore : (s.producers p).holds = false)
    (hafter : pc.holds = false)
    (hok : s.ring.claimCursor = ofNat (((s.noteTicket p).goto p pc).tickets p) ∧
      ((s.noteTicket p).goto p pc).tickets p ≤ s.claims.length →
        PublishOk cap ((s.noteTicket p).goto p pc) p pc) :
    Safe cap ((s.noteTicket p).goto p pc) := by
  have hticket : ((s.noteTicket p).goto p pc).tickets p = s.claims.length :=
    update_self _ _ _
  refine hs.moves ⟨rfl, rfl, rfl, rfl, rfl, rfl⟩ rfl rfl
    (fun q hq => update_of_ne hq _ _) hbefore hafter (hok ?_)
  rw [hticket]
  exact ⟨hs.cursor, le_rfl⟩

theorem holds_update_iff (q : P) :
    (update s.producers p pc q).holds = true ↔
      q = p ∧ pc.holds = true ∨ q ≠ p ∧ (s.producers q).holds = true := by
  by_cases hq : q = p
  · subst hq
    rw [update_self]
    simp
  · rw [update_of_ne hq]
    simp [hq]

section

variable (hticket : s.tickets p = s.claims.length) (hbefore : (s.producers p).holds = false)
include hticket hbefore

/-- The producer that takes the next ticket is the only one to hold it. -/
theorem inProgress_claims (n : Nat) :
    InProgress (((s.noteTicket p).claimNext value sequence).goto p
      (.claimed value sequence)) n ↔ n = s.claims.length ∨ s.InProgress n := by
  have htickets : update s.tickets p s.claims.length = s.tickets := by
    rw [← hticket, update_eq_self]
  simp only [InProgress, goto, claimNext, noteTicket, holds_update_iff, htickets]
  constructor
  · rintro ⟨q, ⟨rfl, -⟩ | ⟨-, hholds⟩, rfl⟩
    · exact .inl hticket
    · exact .inr ⟨q, hholds, rfl⟩
  · rintro (rfl | ⟨q, hholds, hn⟩)
    · exact ⟨p, .inl ⟨rfl, rfl⟩, hticket⟩
    · refine ⟨q, .inr ⟨?_, hholds⟩, hn⟩
      rintro rfl
      rw [hbefore] at hholds
      cases hholds

theorem book_claims :
    (((s.noteTicket p).claimNext value sequence).goto p
      (.claimed value sequence)).book = s.book.claim := by
  ext n
  · exact length_append
  · rfl
  · exact inProgress_claims hticket hbefore n
  · rfl

end

/-- Tickets stay apart when a producer takes the next one. -/
theorem Safe.unique_claims (hs : Safe cap s) (hticket : s.tickets p = s.claims.length) {q r : P}
    (hq : (update s.producers p pc q).holds = true)
    (hr : (update s.producers p pc r).holds = true)
    (heq : s.tickets q = s.tickets r) : q = r := by
  rcases (holds_update_iff q).mp hq with ⟨rfl, -⟩ | ⟨-, hold⟩ <;>
    rcases (holds_update_iff r).mp hr with ⟨rfl, -⟩ | ⟨-, hold'⟩
  · rfl
  · exact absurd (heq.symm.trans hticket) (ne_of_lt (hs.lt_claims hold'))
  · exact absurd (heq.trans hticket) (ne_of_lt (hs.lt_claims hold))
  · exact hs.unique q r hold hold' heq

/-- A producer gets the next ticket. -/
theorem Safe.claims (hs : Safe cap s) (hphase : s.producers p = .checked value sequence)
    (hcursor : s.ring.claimCursor = sequence) (htimely : s.claims.length < s.tickets p + 2 ^ 64) :
    Safe cap (((s.noteTicket p).claimNext value sequence).goto p (.claimed value sequence)) := by
  have hlast := hs.ticket_claims hphase hcursor htimely
  have hbefore : (s.producers p).holds = false := by rw [hphase]; rfl
  have hok := hs.producers p
  rw [hphase] at hok
  obtain ⟨hsequence, -, hshows⟩ := hok
  have hword := hshows hlast
  have hlive := Tickets.Sound.live_of_word hs.marks cap.two_le
    (Nat.lt_of_succ_lt cap.size_lt_word) hword
  have htickets : update s.tickets p s.claims.length = s.tickets := by
    rw [← hlast, update_eq_self]
  have hbook : (((s.noteTicket p).claimNext value sequence).goto p
      (.claimed value sequence)).book = s.book.claim :=
    book_claims hlast hbefore
  have hle : s.acquired.length ≤ s.claims.length := hs.sound.le
  exact
    { hs with
      cursor := by
        change sequence + 1 = ofNat (s.claims ++ [value]).length
        rw [length_append, ← hcursor, hs.cursor]
        exact ofNat_next _
      sound := by rw [hbook]; exact hs.sound.claim hlive
      marks := by rw [hbook]; exact hs.sound.marks_claim hs.marks hword
      keeps := by rw [hbook]; exact hs.sound.keeps_claim hs.keeps rfl value
      producers := by
        refine (forall_update_iff _ _).mpr ⟨?_, fun q hq => ?_⟩
        · refine ⟨hsequence.trans (congrArg _ (congrFun htickets p).symm), ?_⟩
          change (s.claims ++ [value])[update s.tickets p s.claims.length p]? = some value
          rw [update_self]
          exact getElem?_concat_length
        · exact (hs.producers q).keep (congrFun htickets q)
            (prefix_append s.claims [value]) (fun _ hsame => hsame)
            fun _ => rfl
      unique := by
        intro q r hq hr heq
        change update s.tickets p _ q = update s.tickets p _ r
          at heq
        rw [htickets] at heq
        exact hs.unique_claims hlast hq hr heq
      consumer := by
        refine hs.consumer.keep rfl (prefix_append _ _).length_le ?_
        intro n hlt hnow
        exact ((inProgress_claims hlast hbefore n).mp hnow).resolve_left (ne_of_lt hlt)
      contents := by
        change s.acquired = ((s.claims ++ [value]).take s.acquired.length).map some
        rw [take_append_of_le_length hle]
        exact hs.contents }

/-- A producer writes to the slot it holds. -/
theorem Safe.writes (hs : Safe cap s) {content : Option V}
    (hbefore : (s.producers p).holds = true) (hafter : pc.holds = true)
    (hok : PublishOk cap ((s.setRing (s.ring.setValue cap
      (ofNat (s.tickets p)) content)).goto p pc) p pc) :
    Safe cap ((s.setRing (s.ring.setValue cap (ofNat (s.tickets p))
      content)).goto p pc) := by
  have hholds : ∀ q, (update s.producers p pc q).holds = true ↔ (s.producers q).holds = true := by
    intro q
    rw [holds_update_iff]
    by_cases hq : q = p
    · subst hq
      simp [hafter, hbefore]
    · simp [hq]
  have hprogress : ∀ n, InProgress ((s.setRing (s.ring.setValue cap
      (ofNat (s.tickets p)) content)).goto p pc) n ↔ s.InProgress n := by
    intro n
    simp only [InProgress, goto, setRing, hholds]
  have hbook : book ((s.setRing (s.ring.setValue cap
      (ofNat (s.tickets p)) content)).goto p pc) = s.book := by
    ext n
    · rfl
    · rfl
    · exact hprogress n
    · rfl
  have hwriting : s.tickets p ∈ s.book.writing := ⟨p, hbefore, rfl⟩
  have hwords := s.ring.words_setValue cap (s.tickets p) content
  have hvalues := s.ring.values_setValue cap (s.tickets p) content
  exact
    { hs with
      sound := by rw [hbook]; exact hs.sound
      marks := by rw [hbook]; exact hwords ▸ hs.marks
      keeps := by
        rw [hbook]
        exact hvalues ▸ hs.sound.keeps_write hs.keeps hwriting content
      producers := by
        refine (forall_update_iff _ _).mpr ⟨hok, fun q hq => ?_⟩
        refine (hs.producers q).keep rfl (prefix_refl _) ?_ ?_
        · intro _ hword
          exact (congrFun hwords _).trans hword
        · intro hq'
          have hother : s.tickets q ∈ s.book.writing := ⟨q, hq', rfl⟩
          refine (congrFun hvalues _).trans (hs.sound.update_of_live
            (.inl (hs.sound.busy_of_writing hwriting))
            (.inl (hs.sound.busy_of_writing hother)) ?_ content)
          exact fun heq => hq (hs.unique q p hq' hbefore heq)
      unique := fun q r hq hr heq =>
        hs.unique q r ((hholds q).mp hq) ((hholds r).mp hr) heq
      consumer := hs.consumer.keep rfl le_rfl
        fun n _ => (hprogress n).mp }

theorem holds_stored_iff (q : P) :
    (update s.producers p (.stored sequence) q).holds = true ↔
      q ≠ p ∧ (s.producers q).holds = true := by
  rw [holds_update_iff]
  simp [PublishPc.holds]

section

variable (hs : Safe cap s)
include hs

/-- A slot whose sequence is stored is in progress no more. -/
theorem Safe.inProgress_stored (hbefore : (s.producers p).holds = true)
    (ring : DisruptorMpscRing V) (sequence : UInt64) (n : Nat) :
    InProgress ((s.setRing ring).goto p (.stored sequence)) n ↔
      s.InProgress n ∧ n ≠ s.tickets p := by
  simp only [InProgress, goto, setRing, holds_stored_iff]
  constructor
  · rintro ⟨q, ⟨hq, hold⟩, rfl⟩
    exact ⟨⟨q, hold, rfl⟩, fun heq => hq (hs.unique q p hold hbefore heq)⟩
  · rintro ⟨⟨q, hold, rfl⟩, hne⟩
    exact ⟨q, ⟨fun heq => hne (heq ▸ rfl), hold⟩, rfl⟩

theorem Safe.book_stored (hbefore : (s.producers p).holds = true)
    (ring : DisruptorMpscRing V) (sequence : UInt64) :
    book ((s.setRing ring).goto p (.stored sequence)) = s.book.publish (s.tickets p) := by
  ext n
  · rfl
  · rfl
  · exact hs.inProgress_stored hbefore ring sequence n
  · rfl

/-- A producer stores the word that publishes its slot. -/
theorem Safe.publishes (hphase : s.producers p = .written value sequence) :
    Safe cap ((s.setRing (s.ring.setSequence cap sequence (sequence + 1))).goto
      p (.stored sequence)) := by
  have hok := hs.producers p
  rw [hphase] at hok
  obtain ⟨rfl, hclaim, hvalue⟩ := hok
  have hbefore : (s.producers p).holds = true := by rw [hphase]; rfl
  have hwriting : s.tickets p ∈ s.book.writing := ⟨p, hbefore, rfl⟩
  have hbusy := hs.sound.busy_of_writing hwriting
  rw [ofNat_next]
  exact
    { hs with
      sound := by
        rw [hs.book_stored hbefore]
        exact hs.sound.publish _
      marks := by
        rw [hs.book_stored hbefore]
        exact (s.ring.words_setSequence cap _ _) ▸ hs.sound.marks_publish hs.marks hwriting
      keeps := by
        rw [hs.book_stored hbefore]
        exact (s.ring.values_setSequence cap _ _) ▸
          Tickets.Sound.keeps_publish hs.keeps (hvalue.trans hclaim.symm)
      producers := by
        refine (forall_update_iff _ _).mpr ⟨trivial, fun q _ => ?_⟩
        apply hs.producers_setSequence hbusy (ofNat (s.tickets p + 1))
        · rfl
        · rfl
        · rfl
      unique := fun q r hq hr heq =>
        hs.unique q r ((holds_stored_iff q).mp hq).2 ((holds_stored_iff r).mp hr).2 heq
      consumer := hs.consumer.keep rfl le_rfl
        fun n _ hnow => ((hs.inProgress_stored hbefore _ _ n).mp hnow).1 }

theorem publishStep_safe {weakFails : Bool} (htimely : s.TimelyIn p (s.producers p))
    (hstep : s.publishStep cap p weakFails = some s') : Safe cap s' := by
  have hok := hs.producers p
  rw [publishStep] at hstep
  generalize hphase : s.producers p = phase at hok hstep htimely
  cases phase with
  | idle | returned result =>
    cases hstep
  | entered value =>
    cases hstep
    split_ifs <;> exact hs.goes rfl rfl rfl (by rw [hphase]; rfl) rfl trivial
  | opened value =>
    cases hstep
    exact hs.notes (by rw [hphase]; rfl) rfl id
  | claiming value sequence =>
    cases hstep
    by_cases hword : (s.ring.slotAt cap sequence).sequence ≠ sequence
    · rw [if_pos hword]
      exact hs.goes rfl rfl rfl (by rw [hphase]; rfl) rfl trivial
    · rw [if_neg hword]
      refine hs.goes rfl rfl rfl (by rw [hphase]; rfl) rfl ⟨hok.1, hok.2, ?_⟩
      intro hlast
      have hshows := not_not.mp hword
      rw [hok.1, slotAt_ofNat] at hshows
      exact hlast ▸ hshows
  | checked value sequence =>
    by_cases hexchange : weakFails = false ∧ s.ring.claimCursor = sequence
    · simp only [if_pos hexchange] at hstep
      cases hstep
      exact hs.claims hphase hexchange.2 htimely
    · simp only [if_neg hexchange] at hstep
      cases hstep
      exact hs.notes (by rw [hphase]; rfl) rfl id
  | retrying value sequence =>
    cases hstep
    exact hs.goes rfl rfl rfl (by rw [hphase]; rfl) rfl hok
  | claimed value sequence =>
    cases hstep
    obtain ⟨rfl, hclaim⟩ := hok
    exact hs.writes (by rw [hphase]; rfl) rfl ⟨rfl, hclaim⟩
  | writing value sequence =>
    cases hstep
    obtain ⟨rfl, hclaim⟩ := hok
    refine hs.writes (by rw [hphase]; rfl) rfl ⟨rfl, hclaim, ?_⟩
    exact (congrFun (s.ring.values_setValue cap _ _) _).trans (update_self _ _ _)
  | written value sequence =>
    cases hstep
    exact hs.publishes hphase
  | stored sequence | measuring sequence | measured sequence depth =>
    cases hstep
    exact hs.goes rfl rfl rfl (by rw [hphase]; rfl) rfl trivial
  | raising sequence depth current =>
    dsimp only at hstep
    split_ifs at hstep
    all_goals
      cases hstep
      exact hs.goes rfl rfl rfl (by rw [hphase]; rfl) rfl trivial

theorem step_safe {action : Action P V} (htimely : s.Timely action)
    (hstep : s.step cap action = some s') : Safe cap s' := by
  cases action with
  | tryPublish p value =>
    simp only [step, Option.ite_none_right_eq_some] at hstep
    obtain ⟨hfree, hstep⟩ := hstep
    cases hstep
    exact hs.goes rfl rfl rfl (PublishPc.holds_of_isFree hfree) rfl trivial
  | publish p weakFails => exact publishStep_safe hs htimely hstep
  | tryAcquire =>
    simp only [step, Option.ite_none_right_eq_some] at hstep
    obtain ⟨-, hstep⟩ := hstep
    cases hstep
    exact hs.consumes ⟨rfl, rfl, rfl, rfl, rfl, rfl⟩ rfl rfl trivial
  | acquire => exact acquireStep_safe hs hstep
  | release lease =>
    simp only [step, Option.ite_none_right_eq_some] at hstep
    obtain ⟨⟨-, hmem⟩, hstep⟩ := hstep
    cases hstep
    exact hs.releases hmem
  | close =>
    cases hstep
    exact hs.consumes ⟨rfl, rfl, rfl, rfl, rfl, rfl⟩ rfl rfl hs.consumer

end

theorem run_safe {actions : List (Action P V)}
    (htimely : Runs.EachStep (step cap) Timely {} actions)
    (hrun : Runs.run (step cap) {} actions = some s) : Safe cap s :=
  Runs.run_invariant (fun _ _ _ hs htimely hstep => step_safe hs htimely hstep)
    safe_start htimely hrun

end HPActor.RingSystem
