/-
The books of a ring that one caller at a time works on: which tickets are handed
out, taken and leased, and that the words and values of the slots agree.
-/
import HPActor.DisruptorRing
import HPActor.TicketRing

namespace HPActor

open TicketRing Tickets Function UInt64

universe u

theorem RingCapacity.size_lt_word (cap : RingCapacity) : cap.size + 1 < 2 ^ 64 := by
  have hle := cap.size_le
  omega

theorem ofNat_next (n : Nat) : ofNat n + 1 = ofNat (n + 1) :=
  (ofNat_add n 1).symm

namespace DisruptorMpscRing

variable {V : Type u} (cap : RingCapacity) (ring : DisruptorMpscRing V)

/-- What the slots show. -/
def words : Nat → UInt64 := fun i => (ring.slots i).sequence

def values : Nat → Option V := fun i => (ring.slots i).value

theorem slotAt_ofNat (n : Nat) : ring.slotAt cap (ofNat n) = ring.slots (n % cap.size) := by
  rw [slotAt, cap.index_ofNat]

theorem words_setSequence (n : Nat) (next : UInt64) :
    (ring.setSequence cap (ofNat n) next).words = update ring.words (n % cap.size) next := by
  funext i
  simp only [words, setSequence, setSlot, cap.index_ofNat]
  by_cases hi : i = n % cap.size
  · subst hi
    simp only [update_self]
  · simp only [update_of_ne hi]
    rfl

theorem values_setSequence (n : Nat) (next : UInt64) :
    (ring.setSequence cap (ofNat n) next).values = ring.values := by
  funext i
  simp only [values, setSequence, setSlot, cap.index_ofNat, slotAt_ofNat]
  by_cases hi : i = n % cap.size
  · subst hi
    simp only [update_self]
  · simp only [update_of_ne hi]

theorem words_setValue (n : Nat) (value : Option V) :
    (ring.setValue cap (ofNat n) value).words = ring.words := by
  funext i
  simp only [words, setValue, setSlot, cap.index_ofNat, slotAt_ofNat]
  by_cases hi : i = n % cap.size
  · subst hi
    simp only [update_self]
  · simp only [update_of_ne hi]

theorem values_setValue (n : Nat) (value : Option V) :
    (ring.setValue cap (ofNat n) value).values =
      update ring.values (n % cap.size) value := by
  funext i
  simp only [values, setValue, setSlot, cap.index_ofNat]
  by_cases hi : i = n % cap.size
  · subst hi
    simp only [update_self]
  · simp only [update_of_ne hi]
    rfl

/-- What the depth mark leaves alone. -/
theorem updateMaxDepth_keeps (published : UInt64) :
    ring.updateMaxDepth published =
      { ring with maxDepth := (ring.updateMaxDepth published).maxDepth } := by
  rw [updateMaxDepth]
  split <;> rfl

theorem tryPublish_of_word (value : V) (hopen : ring.closed = false)
    (hword : (ring.slotAt cap ring.claimCursor).sequence = ring.claimCursor) :
    ring.tryPublish cap value =
      (updateMaxDepth { (setSequence cap (setValue cap { ring with
          claimCursor := ring.claimCursor + 1 } ring.claimCursor (some value))
            ring.claimCursor (ring.claimCursor + 1)) with
          publishedCursor := ring.claimCursor + 1 } (ring.claimCursor + 1),
        { code := .published, sequence := ring.claimCursor }) := by
  rw [tryPublish, if_neg (by rw [hopen]; exact Bool.false_ne_true)]
  exact if_neg (not_not.mpr hword)

/-- The ring agrees with the books, and no publication is half done. -/
structure Stands (cap : RingCapacity) (ring : DisruptorMpscRing V)
    (t : Tickets) (contents : List V) : Prop where
  cursor : ring.claimCursor = UInt64.ofNat t.claimed
  mirror : ring.consumerMirror = UInt64.ofNat t.taken
  cursorPublished : ring.publishedCursor = UInt64.ofNat t.claimed
  length : contents.length = t.claimed
  written : t.writing = ∅
  sound : t.Sound cap.size
  marks : t.Marks cap.size ring.words
  keeps : t.Keeps cap.size contents ring.values

variable {cap ring} {t : Tickets} {contents : List V}

theorem stands_start : Stands cap ({} : DisruptorMpscRing V) {} [] where
  cursor := rfl
  mirror := rfl
  cursorPublished := rfl
  length := rfl
  written := rfl
  sound := sound_empty
  marks := marks_empty fun _ _ => rfl
  keeps := fun n hbusy => absurd hbusy (not_busy_empty n)

namespace Stands

section

variable (hst : Stands cap ring t contents)
include hst

theorem not_writing (n : Nat) : n ∉ t.writing := by
  rw [hst.written]
  exact id

/-- The next slot shows its own number exactly if it is free. -/
theorem word_iff :
    ring.words (t.claimed % cap.size) = ofNat t.claimed ↔ Live cap.size t t.claimed := by
  constructor
  · exact Sound.live_of_word hst.marks cap.two_le (Nat.lt_of_succ_lt cap.size_lt_word)
  · intro hlive
    rcases hst.marks _ hlive with ⟨-, hshows⟩ | ⟨⟨hlt, -⟩, -⟩
    · exact hshows
    · exact absurd hlt (lt_irrefl _)

/-- The next slot to be read shows that it is published exactly if a value is
waiting. -/
theorem word_taken_iff :
    ring.words (t.taken % cap.size) = ofNat (t.taken + 1) ↔ t.taken < t.claimed := by
  constructor
  · intro hword
    exact (hst.sound.published_of_word hst.marks cap.two_le cap.size_lt_word hword).1
  · intro hlt
    have hlive : Live cap.size t t.taken :=
      .inl (.inl ⟨le_rfl, hlt⟩)
    rcases hst.marks _ hlive with ⟨hle | hwriting, -⟩ | ⟨-, hshows⟩
    · exact absurd hlt (Nat.not_lt_of_le hle)
    · exact absurd hwriting (hst.not_writing _)
    · exact hshows

theorem word_cursor (hlive : Live cap.size t t.claimed) :
    (ring.slotAt cap ring.claimCursor).sequence = ring.claimCursor := by
  rw [hst.cursor, slotAt_ofNat]
  exact hst.word_iff.mpr hlive

theorem word_mirror (hlt : t.taken < t.claimed) :
    (ring.slotAt cap ring.consumerMirror).sequence = ring.consumerMirror + 1 := by
  rw [hst.mirror, slotAt_ofNat, ofNat_next]
  exact hst.word_taken_iff.mpr hlt

/-- The slots after a publication, whatever else it changes. -/
theorem published (value : V) (hlive : Live cap.size t t.claimed)
    {next : DisruptorMpscRing V}
    (hslots : next.slots = ((ring.setValue cap (ofNat t.claimed) (some
      value)).setSequence cap (ofNat t.claimed) (ofNat (t.claimed
      + 1))).slots) (hcursor : next.claimCursor = ofNat (t.claimed + 1))
    (hmirror : next.consumerMirror = ring.consumerMirror)
    (hpublished : next.publishedCursor = ofNat (t.claimed + 1)) :
    Stands cap next { t with claimed := t.claimed + 1 } (contents ++ [value]) := by
  have hwords : next.words = update ring.words
      (t.claimed % cap.size) (ofNat (t.claimed + 1)) := by
    rw [← ring.words_setValue cap t.claimed (some value), ← words_setSequence]
    funext i
    simp only [words, hslots]
  have hvalues : next.values = update ring.values (t.claimed % cap.size) (some value) := by
    rw [← values_setValue, ← values_setSequence cap (ring.setValue cap
      (ofNat t.claimed) (some value)) t.claimed (ofNat (t.claimed + 1))]
    funext i
    simp only [values, hslots]
  have hbook : { t with claimed := t.claimed + 1 } = t.claim.publish t.claimed := by
    ext n
    · rfl
    · rfl
    · simp [claim, Tickets.publish, hst.written]
    · rfl
  have hnew : t.claimed ∈ t.claim.writing := Set.mem_insert _ _
  have hsound := hst.sound.claim hlive
  have hmarks := hst.sound.marks_claim hst.marks (hst.word_iff.mpr hlive)
  have hkeeps := hst.sound.keeps_claim hst.keeps hst.length value
  exact
    { cursor := hcursor
      mirror := hmirror.trans hst.mirror
      cursorPublished := hpublished
      length := by rw [List.length_append, hst.length]; rfl
      written := hst.written
      sound := by rw [hbook]; exact hsound.publish _
      marks := by
        rw [hbook, hwords]
        exact hsound.marks_publish hmarks hnew
      keeps := by
        rw [hbook, hvalues]
        apply Sound.keeps_publish (hsound.keeps_write hkeeps hnew (some value))
        rw [update_self, ← hst.length]
        exact List.getElem?_concat_length.symm }

theorem tryPublish_live (hopen : ring.closed = false)
    (hlive : Live cap.size t t.claimed) (value : V) :
    (ring.tryPublish cap value).2.code = .published ∧ (ring.tryPublish cap value).1.closed = false ∧
      Stands cap (ring.tryPublish cap value).1
        { t with claimed := t.claimed + 1 } (contents ++ [value]) := by
  rw [tryPublish_of_word cap ring value hopen (hst.word_cursor hlive), updateMaxDepth_keeps]
  refine ⟨rfl, hopen, hst.published value hlive ?_ ?_ rfl ?_⟩
  · rw [← ofNat_next, ← hst.cursor]
    rfl
  · rw [← ofNat_next, ← hst.cursor]
    rfl
  · rw [← ofNat_next, ← hst.cursor]

theorem tryPublish_full (hopen : ring.closed = false)
    (hfull : ¬ Live cap.size t t.claimed) (value : V) :
    ring.tryPublish cap value = (ring, { code := .full, sequence := ring.claimCursor }) := by
  have hword : (ring.slotAt cap ring.claimCursor).sequence ≠ ring.claimCursor := by
    rw [hst.cursor, slotAt_ofNat]
    exact fun hword => hfull (hst.word_iff.mp hword)
  rw [tryPublish, if_neg (by rw [hopen]; exact Bool.false_ne_true)]
  exact if_pos hword

theorem tryAcquire_waiting (hlt : t.taken < t.claimed) :
    ring.tryAcquire cap = ({ ring with
      consumerMirror := ofNat (t.taken + 1) }, some (ofNat t.taken)) := by
  rw [tryAcquire, if_neg (not_not.mpr (hst.word_mirror hlt)), hst.mirror, ofNat_next]

end

section

variable (hst : Stands cap ring t contents)
include hst

/-- The lease is on the oldest value that is not read. -/
theorem take (hlt : t.taken < t.claimed) :
    Stands cap { ring with consumerMirror := ofNat (t.taken + 1) } t.take contents :=
  { hst with
    mirror := rfl
    sound := hst.sound.take hlt (hst.not_writing _)
    marks := Sound.marks_take hst.marks hlt
    keeps := Sound.keeps_take hst.keeps hlt }

theorem tryAcquire_drained (hall : t.taken = t.claimed) :
    (ring.tryAcquire cap).2 = none ∧ (ring.tryAcquire cap).1.closed = ring.closed ∧
      Stands cap (ring.tryAcquire cap).1 t contents := by
  have hword : (ring.slotAt cap ring.consumerMirror).sequence ≠ ring.consumerMirror + 1 := by
    rw [hst.mirror, slotAt_ofNat, ofNat_next]
    exact fun hword => ne_of_lt (hst.word_taken_iff.mp hword) hall
  rw [tryAcquire, if_pos hword]
  split
  · exact ⟨rfl, rfl, { hst with }⟩
  · exact ⟨rfl, rfl, hst⟩

theorem release {n : Nat} (hleased : n ∈ t.leased) :
    Stands cap (ring.releaseSlot cap (ofNat n)) (t.release n) contents := by
  rw [releaseSlot, ← ofNat_add]
  exact
    { hst with
      sound := hst.sound.release hleased
      marks := by
        rw [words_setSequence]
        exact hst.sound.marks_release hst.marks hleased
      keeps := by
        rw [values_setSequence]
        exact hst.sound.keeps_release hst.keeps hleased }

end

end Stands

/-- The ring is open, `n` of its values are not read, and the given tickets are
leased. -/
def Holds (cap : RingCapacity) (ring : DisruptorMpscRing V) (n : Nat) (leased : Set Nat) : Prop :=
  ring.closed = false ∧ ∃ t contents, Stands cap ring t contents ∧
    t.leased = leased ∧ t.claimed = t.taken + n

theorem holds_start (cap : RingCapacity) : Holds cap ({} : DisruptorMpscRing V) 0 ∅ :=
  ⟨rfl, {}, [], stands_start, rfl, rfl⟩

namespace Holds

variable {n : Nat} {leased : Set Nat}

section

variable (hh : Holds cap ring n leased)
include hh

theorem le_size : n ≤ cap.size := by
  obtain ⟨-, t, contents, hst, -, hn⟩ := hh
  by_cases hzero : n = 0
  · omega
  · have hroom := hst.sound.room t.taken (.inl ⟨le_rfl, by omega⟩)
    omega

theorem publishedDepth_eq : ring.publishedDepth.toNat = n := by
  have hle := hh.le_size
  obtain ⟨-, t, contents, hst, -, hn⟩ := hh
  have hlarge := cap.size_lt_word
  rw [publishedDepth, hst.cursorPublished, hst.mirror, hn, UInt64.toNat_sub,
    UInt64.toNat_ofNat', UInt64.toNat_ofNat']
  omega

theorem publish (value : V) :
    (ring.tryPublish cap value).2.code = .published ∧
        Holds cap (ring.tryPublish cap value).1 (n + 1) leased ∨
      (ring.tryPublish cap value).2.code = .full ∧ (ring.tryPublish cap value).1 = ring := by
  obtain ⟨hopen, t, contents, hst, hleased, hn⟩ := hh
  by_cases hlive : Live cap.size t t.claimed
  · obtain ⟨hcode, hopen', hst'⟩ := hst.tryPublish_live hopen hlive value
    refine .inl ⟨hcode, hopen', _, _, hst', hleased, ?_⟩
    change t.claimed + 1 = t.taken + (n + 1)
    omega
  · rw [hst.tryPublish_full hopen hlive value]
    exact .inr ⟨rfl, rfl⟩

end

/-- There is room as long as the values that are not read do not fill the ring
and nothing is leased. -/
theorem publish_room (hh : Holds cap ring n ∅) (hroom : n < cap.size)
    (value : V) : (ring.tryPublish cap value).2.code = .published := by
  obtain ⟨hopen, t, contents, hst, hleased, hn⟩ := hh
  refine (hst.tryPublish_live hopen (.inr ⟨le_rfl, ?_, ?_⟩) value).1
  · have hcap := cap.two_le
    omega
  · rintro m hm (⟨hle, -⟩ | hmem)
    · omega
    · rw [hleased] at hmem
      exact hmem

theorem acquire_none (hh : Holds cap ring 0 leased) :
    (ring.tryAcquire cap).2 = none ∧ Holds cap (ring.tryAcquire cap).1 0 leased := by
  obtain ⟨hopen, t, contents, hst, hleased, hn⟩ := hh
  obtain ⟨hnone, hclosed, hst'⟩ := hst.tryAcquire_drained hn.symm
  exact ⟨hnone, hclosed.trans hopen, t, contents, hst', hleased, hn⟩

theorem acquire_some (hh : Holds cap ring (n + 1) ∅) :
    ∃ k, (ring.tryAcquire cap).2 = some (ofNat k) ∧
      Holds cap (ring.tryAcquire cap).1 n {k} := by
  obtain ⟨hopen, t, contents, hst, hleased, hn⟩ := hh
  have hlt : t.taken < t.claimed := by omega
  rw [hst.tryAcquire_waiting hlt]
  refine ⟨t.taken, rfl, hopen, t.take, contents, hst.take hlt, ?_, ?_⟩
  · rw [Tickets.take, hleased, insert_empty_eq]
  · change t.claimed = t.taken + 1 + n
    omega

theorem release {k : Nat} (hh : Holds cap ring n {k}) :
    Holds cap (ring.releaseSlot cap (ofNat k)) n ∅ := by
  obtain ⟨hopen, t, contents, hst, hleased, hn⟩ := hh
  have hmem : k ∈ t.leased := by
    rw [hleased]
    exact Set.mem_singleton k
  refine ⟨hopen, t.release k, contents, hst.release hmem, ?_, hn⟩
  rw [Tickets.release, hleased, sdiff_self]
  rfl

end Holds

end DisruptorMpscRing

end HPActor
