/-
Rings whose slots carry sequence words.  Tickets are natural numbers and are
served by the slots in turn; a slot shows a word of 64 bits that says which
ticket it waits for, or that the ticket's value is there.  The rules say how
claiming, publishing, taking and releasing a ticket change the bookkeeping, and
that the slot of a ticket in use is touched on behalf of that ticket only.
-/
import Mathlib.Tactic

namespace TicketRing

open Function UInt64

universe u

/-- Words agree on tickets that are less than `2 ^ 64` apart only if the
tickets do. -/
theorem ofNat_inj_near {m n : Nat} (hle : m ≤ n) (hnear : n < m + 2 ^ 64)
    (heq : ofNat m = ofNat n) : m = n := by
  have hnat := congrArg toNat heq
  rw [toNat_ofNat', toNat_ofNat'] at hnat
  omega

/-- Tickets less than one turn apart are served by different slots. -/
theorem mod_inj_near {cap m n : Nat} (hle : m ≤ n) (hnear : n < m + cap)
    (heq : m % cap = n % cap) : m = n := by
  have hdvd : cap ∣ n - m := (Nat.modEq_iff_dvd' hle).mp heq
  have hzero : n - m = 0 := Nat.eq_zero_of_dvd_of_lt hdvd (by omega)
  omega

/-- The tickets below `claimed` are handed out, those below `taken` are taken
out again; some tickets are still being written, some are leased. -/
@[ext] structure Tickets where
  claimed : Nat := 0
  taken : Nat := 0
  writing : Set Nat := ∅
  leased : Set Nat := ∅

namespace Tickets

variable (t : Tickets) (n : Nat)

/-- A ticket whose value is not read, or is leased. -/
def Busy : Prop :=
  (t.taken ≤ n ∧ n < t.claimed) ∨ n ∈ t.leased

/-- The ticket that a slot is there for at present. -/
def Live (cap : Nat) (t : Tickets) (n : Nat) : Prop :=
  t.Busy n ∨ (t.claimed ≤ n ∧ n < t.claimed + cap ∧ ∀ m, m + cap = n → ¬ t.Busy m)

structure Sound (cap : Nat) (t : Tickets) : Prop where
  le : t.taken ≤ t.claimed
  leased : ∀ n ∈ t.leased, n < t.taken
  writing : ∀ n ∈ t.writing, t.taken ≤ n ∧ n < t.claimed
  room : ∀ n, t.Busy n → t.claimed ≤ n + cap

/-- The word that the slot of a live ticket shows: the ticket itself before its
value is published, and the next number from then on. -/
def Shows (word : UInt64) : Prop :=
  (t.claimed ≤ n ∨ n ∈ t.writing) ∧ word = UInt64.ofNat n ∨
    (n < t.claimed ∧ n ∉ t.writing) ∧ word = UInt64.ofNat (n + 1)

/-- The words of the slots are those of their live tickets. -/
def Marks (cap : Nat) (t : Tickets) (words : Nat → UInt64) : Prop :=
  ∀ n, Live cap t n → t.Shows n (words (n % cap))

/-- The slots hold the values of the tickets in use. -/
def Keeps {V : Type u} (cap : Nat) (t : Tickets) (contents : List V)
    (values : Nat → Option V) : Prop :=
  ∀ n, t.Busy n → n ∉ t.writing → values (n % cap) = contents[n]?

def claim : Tickets :=
  { t with claimed := t.claimed + 1, writing := insert t.claimed t.writing }

def publish : Tickets :=
  { t with writing := t.writing \ {n} }

def take : Tickets :=
  { t with taken := t.taken + 1, leased := insert t.taken t.leased }

def release : Tickets :=
  { t with leased := t.leased \ {n} }

variable {cap : Nat} {t : Tickets} {words : Nat → UInt64}

theorem sound_empty : Sound cap {} where
  le := Nat.le_refl 0
  leased := fun _ hn => hn.elim
  writing := fun _ hn => hn.elim
  room := by
    rintro n (⟨-, hlt⟩ | hn)
    · exact absurd hlt (Nat.not_lt_zero n)
    · exact hn.elim

theorem not_busy_empty (n : Nat) : ¬ Busy {} n := by
  rintro (⟨-, hlt⟩ | hn)
  · exact Nat.not_lt_zero n hlt
  · exact hn

/-- Every slot starts with its own number. -/
theorem marks_empty (hwords : ∀ n < cap, words n = ofNat n) : Marks cap {} words := by
  rintro n (hbusy | ⟨-, hlt, -⟩)
  · exact absurd hbusy (not_busy_empty n)
  · have hn : n < cap := by simpa using hlt
    refine .inl ⟨.inl (Nat.zero_le n), ?_⟩
    rw [Nat.mod_eq_of_lt hn, hwords n hn]

namespace Sound

variable {n m : Nat} {V : Type u}

theorem busy_lt (hs : t.Sound cap) (hbusy : t.Busy n) : n < t.claimed := by
  rcases hbusy with ⟨-, hlt⟩ | hleased
  · exact hlt
  · exact (hs.leased n hleased).trans_le hs.le

theorem busy_of_writing (hs : t.Sound cap) (hn : n ∈ t.writing) :
    t.Busy n := .inl (hs.writing n hn)

/-- Two live tickets have different slots. -/
theorem live_inj (hs : t.Sound cap) (hm : Live cap t m) (hn : Live cap t n)
    (hslot : m % cap = n % cap) : m = n := by
  wlog hle : m ≤ n generalizing m n
  · exact (this hn hm hslot.symm (Nat.le_of_not_le hle)).symm
  rcases hn with hbusy | ⟨hlow, hhigh, hfree⟩
  · -- both tickets lie within the last turn
    have hlt := hs.busy_lt hbusy
    have hroom : t.claimed ≤ m + cap := by
      rcases hm with hbusy' | ⟨hlow, -⟩
      · exact hs.room m hbusy'
      · exact hlow.trans (Nat.le_add_right m cap)
    exact mod_inj_near hle (hlt.trans_le hroom) hslot
  · rcases hm with hbusy | ⟨hlow', -⟩
    · by_contra hne
      have hroom := hs.room m hbusy
      have hnext : m + cap = n := by
        apply mod_inj_near _ (by omega : n < m + cap + cap)
        · rw [Nat.add_mod_right, hslot]
        · by_contra hnear
          exact hne (mod_inj_near hle (Nat.lt_of_not_le hnear) hslot)
      exact hfree m hnext hbusy
    · exact mod_inj_near hle (by omega) hslot

/-- A word stored for a live ticket leaves the words of the others alone. -/
theorem update_of_live {α : Type u} {f : Nat → α} (hs : t.Sound cap)
    (hm : Live cap t m) (hn : Live cap t n) (hne : n ≠ m) (value : α) :
    update f (m % cap) value (n % cap) = f (n % cap) :=
  update_of_ne (fun hslot => hne (hs.live_inj hn hm hslot)) value f

/-- A slot in use shows its own ticket or the number after it. -/
theorem word_of_busy (hmarks : Marks cap t words) (hm : m + cap = t.claimed) (hbusy : t.Busy m) :
    ∃ k, m ≤ k ∧ k ≤ m + 1 ∧ words (t.claimed % cap) = ofNat k := by
  rw [← hm, Nat.add_mod_right]
  rcases hmarks m (.inl hbusy) with ⟨-, hshows⟩ | ⟨-, hshows⟩
  · exact ⟨m, Nat.le_refl m, Nat.le_succ m, hshows⟩
  · exact ⟨m + 1, Nat.le_succ m, Nat.le_refl _, hshows⟩

/-- A slot that shows the next number to be claimed is not in use. -/
theorem live_of_word (hmarks : Marks cap t words) (hcap : 2 ≤ cap) (hsmall : cap < 2 ^ 64)
    (hword : words (t.claimed % cap) = ofNat t.claimed) :
    Live cap t t.claimed := by
  refine .inr ⟨Nat.le_refl _, by omega, ?_⟩
  intro m hm hbusy
  obtain ⟨k, hlow, hhigh, hk⟩ := word_of_busy hmarks hm hbusy
  have heq := ofNat_inj_near (by omega) (by omega) (hk.symm.trans hword)
  omega

/-- A slot that shows that the next ticket is there has that ticket's value. -/
theorem published_of_word (hs : t.Sound cap) (hmarks : Marks cap t words) (hcap : 2 ≤ cap)
    (hsmall : cap + 1 < 2 ^ 64) (hword : words (t.taken % cap) = ofNat (t.taken + 1)) :
    t.taken < t.claimed ∧ t.taken ∉ t.writing := by
  by_cases hlt : t.taken < t.claimed
  · refine ⟨hlt, fun hwriting => ?_⟩
    have hlive : Live cap t t.taken := .inl (.inl ⟨Nat.le_refl _, hlt⟩)
    rcases hmarks _ hlive with ⟨-, hshows⟩ | ⟨⟨-, hnot⟩, -⟩
    · have heq := ofNat_inj_near (by omega) (by omega) (hshows.symm.trans hword)
      omega
    · exact hnot hwriting
  · -- everything is taken: the slot waits, or it serves the turn before
    exfalso
    have hend : t.taken = t.claimed :=
      Nat.le_antisymm hs.le (Nat.le_of_not_lt hlt)
    rw [hend] at hword
    by_cases hused : ∃ m, m + cap = t.claimed ∧ t.Busy m
    · obtain ⟨m, hm, hbusy⟩ := hused
      obtain ⟨k, hlow, hhigh, hk⟩ := word_of_busy hmarks hm hbusy
      have heq := ofNat_inj_near (by omega) (by omega) (hk.symm.trans hword)
      omega
    · have hlive : Live cap t t.claimed := .inr ⟨Nat.le_refl _, by omega,
        fun m hm hbusy => hused ⟨m, hm, hbusy⟩⟩
      rcases hmarks _ hlive with ⟨-, hshows⟩ | ⟨⟨hclaimed, -⟩, -⟩
      · have heq := ofNat_inj_near (by omega) (by omega) (hshows.symm.trans hword)
        omega
      · exact Nat.lt_irrefl _ hclaimed

theorem busy_claim : t.claim.Busy n ↔ t.Busy n ∨ (t.taken ≤ n ∧ n = t.claimed) := by
  simp only [Busy, claim]
  constructor
  · rintro (⟨hlow, hhigh⟩ | hleased)
    · rcases Nat.lt_succ_iff_lt_or_eq.mp hhigh with hlt | heq
      · exact .inl (.inl ⟨hlow, hlt⟩)
      · exact .inr ⟨hlow, heq⟩
    · exact .inl (.inr hleased)
  · rintro ((⟨hlow, hhigh⟩ | hleased) | ⟨hlow, rfl⟩)
    · exact .inl ⟨hlow, Nat.lt_succ_of_lt hhigh⟩
    · exact .inr hleased
    · exact .inl ⟨hlow, Nat.lt_succ_self _⟩

theorem claim (hs : t.Sound cap) (hlive : Live cap t t.claimed) : t.claim.Sound cap where
  le := Nat.le_succ_of_le hs.le
  leased := hs.leased
  writing := by
    rintro n (rfl | hn)
    · exact ⟨hs.le, Nat.lt_succ_self _⟩
    · exact ⟨(hs.writing n hn).1, Nat.lt_succ_of_lt (hs.writing n hn).2⟩
  room := by
    intro n hbusy
    rcases busy_claim.mp hbusy with hold | ⟨-, rfl⟩
    · rcases hlive with hclaimed | ⟨-, -, hfree⟩
      · exact absurd (hs.busy_lt hclaimed) (Nat.lt_irrefl _)
      · have hroom := hs.room n hold
        have hne : n + cap ≠ t.claimed := fun heq => hfree n heq hold
        change t.claimed + 1 ≤ n + cap
        omega
    · have hcap : 0 < cap := by
        rcases hlive with hclaimed | ⟨-, hlt, -⟩
        · exact absurd (hs.busy_lt hclaimed) (Nat.lt_irrefl _)
        · omega
      change t.claimed + 1 ≤ t.claimed + cap
      omega

/-- Claiming a ticket makes no slot live for another one. -/
theorem live_claim (hs : t.Sound cap) (hn : Live cap t.claim n) :
    Live cap t n ∧ n ≠ t.claimed ∨ n = t.claimed := by
  by_cases heq : n = t.claimed
  · exact .inr heq
  · refine .inl ⟨?_, heq⟩
    rcases hn with hbusy | ⟨hlow, hhigh, hfree⟩
    · rcases busy_claim.mp hbusy with hold | ⟨-, hnew⟩
      · exact .inl hold
      · exact absurd hnew heq
    · refine .inr ⟨Nat.le_of_succ_le hlow, ?_, ?_⟩
      · have hne : t.claimed + cap ≠ n := by
          intro hlast
          exact hfree t.claimed hlast (busy_claim.mpr (.inr ⟨hs.le, rfl⟩))
        change n < t.claimed + 1 + cap at hhigh
        omega
      · intro m hm hbusy
        exact hfree m hm (busy_claim.mpr (.inl hbusy))

theorem marks_claim (hs : t.Sound cap) (hmarks : Marks cap t words)
    (hword : words (t.claimed % cap) = ofNat t.claimed) :
    Marks cap t.claim words := by
  intro n hn
  rcases hs.live_claim hn with ⟨hold, hne⟩ | rfl
  · rcases hmarks n hold with ⟨hwaits, hshows⟩ | ⟨⟨hlt, hnot⟩, hshows⟩
    · refine .inl ⟨?_, hshows⟩
      rcases hwaits with hle | hwriting
      · exact .inl (Nat.lt_of_le_of_ne hle (Ne.symm hne))
      · exact .inr (.inr hwriting)
    · refine .inr ⟨⟨Nat.lt_succ_of_lt hlt, ?_⟩, hshows⟩
      rintro (heq | hwriting)
      · exact hne heq
      · exact hnot hwriting
  · exact .inl ⟨.inr (.inl rfl), hword⟩

variable {contents : List V} {values : Nat → Option V}

theorem keeps_claim (hs : t.Sound cap) (hkeeps : Keeps cap t contents values)
    (hlength : contents.length = t.claimed) (v : V) :
    Keeps cap t.claim (contents ++ [v]) values := by
  intro n hbusy hnot
  rcases busy_claim.mp hbusy with hold | ⟨-, rfl⟩
  · rw [List.getElem?_append_left (by rw [hlength]; exact hs.busy_lt hold)]
    exact hkeeps n hold fun hwriting => hnot (.inr hwriting)
  · exact absurd (.inl rfl) hnot

/-- The value of a ticket that is being written may change. -/
theorem keeps_write (hs : t.Sound cap) (hkeeps : Keeps cap t contents values)
    (hn : n ∈ t.writing) (value : Option V) :
    Keeps cap t contents (update values (n % cap) value) := by
  intro m hbusy hnot
  rw [hs.update_of_live (.inl (hs.busy_of_writing hn)) (.inl hbusy) (fun heq => hnot (heq ▸ hn))]
  exact hkeeps m hbusy hnot

theorem publish (hs : t.Sound cap) (n : Nat) : (t.publish n).Sound cap where
  le := hs.le
  leased := hs.leased
  writing := fun m hm => hs.writing m hm.1
  room := hs.room

theorem marks_publish (hs : t.Sound cap) (hmarks : Marks cap t words) (hn : n ∈ t.writing) :
    Marks cap (t.publish n) (update words (n % cap) (ofNat (n + 1))) := by
  intro m hm
  have hlive : Live cap t m := hm
  by_cases heq : m = n
  · subst heq
    rw [update_self]
    exact .inr ⟨⟨(hs.writing m hn).2, fun hmem => hmem.2 rfl⟩, rfl⟩
  · rw [hs.update_of_live (.inl (hs.busy_of_writing hn)) hlive heq]
    rcases hmarks m hlive with ⟨hwaits, hshows⟩ | ⟨⟨hlt, hnot⟩, hshows⟩
    · exact .inl ⟨hwaits.imp_right fun hwriting => ⟨hwriting, heq⟩, hshows⟩
    · exact .inr ⟨⟨hlt, fun hmem => hnot hmem.1⟩, hshows⟩

theorem keeps_publish (hkeeps : Keeps cap t contents values)
    (hvalue : values (n % cap) = contents[n]?) :
    Keeps cap (t.publish n) contents values := by
  intro m hbusy hnot
  by_cases heq : m = n
  · subst heq
    exact hvalue
  · exact hkeeps m hbusy fun hwriting => hnot ⟨hwriting, heq⟩

theorem busy_take (hlt : t.taken < t.claimed) : t.take.Busy n ↔ t.Busy n := by
  simp only [Busy, Tickets.take]
  constructor
  · rintro (⟨hlow, hhigh⟩ | (rfl | hleased))
    · exact .inl ⟨Nat.le_of_succ_le hlow, hhigh⟩
    · exact .inl ⟨Nat.le_refl _, hlt⟩
    · exact .inr hleased
  · rintro (⟨hlow, hhigh⟩ | hleased)
    · by_cases heq : n = t.taken
      · exact .inr (.inl heq)
      · exact .inl ⟨Nat.lt_of_le_of_ne hlow (Ne.symm heq), hhigh⟩
    · exact .inr (.inr hleased)

theorem take (hs : t.Sound cap) (hlt : t.taken < t.claimed)
    (hnot : t.taken ∉ t.writing) : t.take.Sound cap where
  le := hlt
  leased := by
    rintro n (rfl | hn)
    · exact Nat.lt_succ_self _
    · exact Nat.lt_succ_of_lt (hs.leased n hn)
  writing := by
    intro n hn
    have hold := hs.writing n hn
    exact ⟨Nat.lt_of_le_of_ne hold.1 fun heq => hnot (heq ▸ hn), hold.2⟩
  room := fun n hbusy => hs.room n ((busy_take hlt).mp hbusy)

theorem live_take (hlt : t.taken < t.claimed) : Live cap t.take n ↔ Live cap t n := by
  simp only [Live, busy_take hlt]
  rfl

theorem marks_take (hmarks : Marks cap t words) (hlt : t.taken < t.claimed) :
    Marks cap t.take words :=
  fun n hn => hmarks n ((live_take hlt).mp hn)

theorem keeps_take (hkeeps : Keeps cap t contents values)
    (hlt : t.taken < t.claimed) : Keeps cap t.take contents values :=
  fun n hbusy hnot => hkeeps n ((busy_take hlt).mp hbusy) hnot

section

variable (hs : t.Sound cap)
include hs

theorem busy_release (hn : n ∈ t.leased) : (t.release n).Busy m ↔ t.Busy m ∧ m ≠ n := by
  have hlt := hs.leased n hn
  simp only [Busy, Tickets.release]
  constructor
  · rintro (⟨hlow, hhigh⟩ | ⟨hleased, hne⟩)
    · exact ⟨.inl ⟨hlow, hhigh⟩, by omega⟩
    · exact ⟨.inr hleased, hne⟩
  · rintro ⟨hrange | hleased, hne⟩
    · exact .inl hrange
    · exact .inr ⟨hleased, hne⟩

theorem release (hn : n ∈ t.leased) : (t.release n).Sound cap where
  le := hs.le
  leased := fun m hm => hs.leased m hm.1
  writing := hs.writing
  room := fun m hbusy => hs.room m ((hs.busy_release hn).mp hbusy).1

/-- The slot of a released ticket is there for the ticket one turn later. -/
theorem live_release (hn : n ∈ t.leased)
    (hm : Live cap (t.release n) m) : Live cap t m ∧ m ≠ n ∨ m = n + cap := by
  rcases hm with hbusy | ⟨hlow, hhigh, hfree⟩
  · obtain ⟨hold, hne⟩ := (hs.busy_release hn).mp hbusy
    exact .inl ⟨.inl hold, hne⟩
  · by_cases heq : m = n + cap
    · exact .inr heq
    · have hlt := hs.busy_lt (.inr hn)
      change t.claimed ≤ m at hlow
      refine .inl ⟨.inr ⟨hlow, hhigh, ?_⟩, by omega⟩
      intro k hk hbusy
      exact hfree k hk ((hs.busy_release hn).mpr ⟨hbusy, by omega⟩)

theorem marks_release (hmarks : Marks cap t words) (hn : n ∈ t.leased) :
    Marks cap (t.release n) (update words (n % cap) (ofNat (n + cap))) := by
  intro m hm
  rcases hs.live_release hn hm with ⟨hold, hne⟩ | rfl
  · rw [hs.update_of_live (.inl (.inr hn)) hold hne]
    exact hmarks m hold
  · rw [Nat.add_mod_right, update_self]
    exact .inl ⟨.inl (hs.room n (.inr hn)), rfl⟩

theorem keeps_release (hkeeps : Keeps cap t contents values)
    (hn : n ∈ t.leased) : Keeps cap (t.release n) contents values :=
  fun m hbusy hnot => hkeeps m ((hs.busy_release hn).mp hbusy).1 hnot

end

end Sound

end Tickets

end TicketRing
