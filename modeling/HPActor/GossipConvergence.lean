/-
Updates about one member, applied in any order and any number of times,
through `merge_member` or `apply_piggyback`.  The entry ends at the highest
incarnation.  It ends with the status that came with it unless the status is
`Alive`, comes through `merge_member` only and first finds the member
suspected: `merge_member` takes over the incarnation and leaves the suspicion.
-/
import HPActor.GossipEntries

namespace HPActor.Gossip

open Option

/-- The status an entry says; metadata says none. -/
def PiggybackType.status : PiggybackType → Option MemberStatus
  | .alive => some .alive
  | .suspicious => some .suspicious
  | .dead => some .dead
  | _ => none

/-- The statuses that are spread. -/
def MemberStatus.Spread (s : MemberStatus) : Prop :=
  s = .alive ∨ s = .suspicious ∨ s = .dead

instance (s : MemberStatus) : Decidable s.Spread :=
  inferInstanceAs (Decidable (_ ∨ _))

namespace Update

def status : Update → Option MemberStatus
  | .merge remote => some remote.status
  | .piggyback entry => entry.type.status

/-- The update carries one of the statuses that are spread. -/
def Spreads (u : Update) : Prop := ∃ t ∈ u.status, t.Spread

instance (u : Update) : Decidable u.Spreads :=
  inferInstanceAs (Decidable (∃ t ∈ u.status, t.Spread))

def isPiggyback : Update → Bool
  | .merge _ => false
  | .piggyback _ => true

end Update

section

variable {now : Nat} {m : Member} {s : MemberStatus} {e : PiggybackEntry}

theorem piggybackedMember_status (hstatus : e.type.status = some s)
    (hm : m.status.Spread) : (piggybackedMember now m e).status = s := by
  simp only [PiggybackType.status] at hstatus
  rcases hm with hm | hm | hm <;>
    simp only [piggybackedMember] <;>
    cases htype : e.type <;> simp_all

theorem introducedMember_status (hstatus : e.type.status = some s) :
    (introducedMember now e).status = s := by
  simp only [PiggybackType.status] at hstatus
  simp only [introducedMember]
  cases htype : e.type <;> simp_all

/-- `merge_member` takes over the status, except that it leaves a suspicion
alone when the news is `Alive`. -/
theorem mergedMember_status {remote : Member} (hremote : remote.status.Spread)
    (hm : m.status.Spread) :
    (mergedMember now m remote).status = remote.status ∨
      remote.status = .alive ∧ m.status = .suspicious ∧
        (mergedMember now m remote).status = .suspicious := by
  simp only [mergedMember]
  rcases hremote with hr | hr | hr <;> rcases hm with hm | hm | hm <;>
    simp [hr, hm]

theorem introducedMember_incarnation (e : PiggybackEntry) :
    (introducedMember now e).incarnation = e.incarnation := by
  simp only [introducedMember]
  split <;> rfl

/-- What an update with the status `s` can do to an entry. -/
inductive EntryCase (u : Update) (s : MemberStatus) (old : Option Member)
    (new : Member) : Prop where
  | ignored (m : Member) (hold : old = some m)
      (hle : u.incarnation ≤ m.incarnation) (hnew : new = m)
  | taken (hle : ∀ m ∈ old, m.incarnation ≤ u.incarnation)
      (hinc : new.incarnation = u.incarnation) (hstatus : new.status = s)
  | stuck (remote m : Member) (hu : u = .merge remote) (hold : old = some m)
      (hlt : m.incarnation < u.incarnation)
      (hsuspicious : m.status = .suspicious) (halive : s = .alive)
      (hinc : new.incarnation = u.incarnation)
      (hstatus : new.status = .suspicious)

theorem entry_case {u : Update} {old : Option Member} (hstatus : u.status = some s) (hs : s.Spread)
    (hold : ∀ m ∈ old, m.status.Spread) :
    EntryCase u s old (u.entry now old) := by
  cases u with
  | merge remote =>
    obtain rfl : remote.status = s := some.inj hstatus
    cases old with
    | none => exact .taken (fun m hm => by cases hm) rfl rfl
    | some m =>
      by_cases hle : remote.incarnation ≤ m.incarnation
      · exact .ignored m rfl hle (if_pos hle)
      · have hlt := UInt64.not_le.mp hle
        have hentry : (Update.merge remote).entry now (some m) =
            mergedMember now m remote := if_neg hle
        rw [hentry]
        rcases mergedMember_status hs (hold m rfl) with
          htaken | ⟨halive, hsuspicious, hleft⟩
        · refine .taken (fun m' hm' => ?_) rfl htaken
          cases hm'
          exact UInt64.le_of_lt hlt
        · exact .stuck remote m rfl rfl hlt hsuspicious halive rfl hleft
  | piggyback e =>
    cases old with
    | none =>
      exact .taken (fun m hm => by cases hm) (introducedMember_incarnation e)
        (introducedMember_status hstatus)
    | some m =>
      by_cases hlt : e.incarnation < m.incarnation
      · exact .ignored m rfl (UInt64.le_of_lt hlt) (if_pos hlt)
      · have hentry : (Update.piggyback e).entry now (some m) =
            piggybackedMember now m e := if_neg hlt
        rw [hentry]
        refine .taken (fun m' hm' => ?_) (piggybackedMember_incarnation now m e)
          (piggybackedMember_status hstatus (hold m rfl))
        cases hm'
        exact UInt64.not_lt.mp hlt

end

/-- The entry, if there is one, is older than `top`. -/
def Older (top : UInt64) (old : Option Member) : Prop :=
  ∀ m ∈ old, m.incarnation < top ∧ m.status.Spread

/-- The entry says what the highest update said. -/
def Settled (top : UInt64) (s : MemberStatus) (old : Option Member) : Prop :=
  ∃ m, old = some m ∧ m.incarnation = top ∧ m.status = s

/-- The entry has the highest incarnation, perhaps with a suspicion that is
left over. -/
def Reached (top : UInt64) (s : MemberStatus) (old : Option Member) : Prop :=
  ∃ m, old = some m ∧ m.incarnation = top ∧ (m.status = s ∨ s = .alive ∧ m.status = .suspicious)

/-- An `Alive` that comes through `merge_member` and finds a suspicion. -/
def Stuck (top : UInt64) (old : Option Member) : Update → Prop
  | .merge remote =>
    remote.incarnation = top ∧ remote.status = .alive ∧ ∃ m ∈ old, m.status = .suspicious
  | .piggyback _ => False

/-- What is said about the member: nothing above `top`, and `s` at `top`. -/
structure Fits (top : UInt64) (s : MemberStatus) (u : Update) : Prop where
  spread : u.Spreads
  le : u.incarnation ≤ top
  same : u.incarnation = top → u.status = some s

section

variable {now : Nat} {s : MemberStatus} {top : UInt64} {u : Update} {old : Option Member}

theorem older_entry (holder : Older top old) (hu : Fits top s u)
    (hlower : u.incarnation ≠ top) : Older top (some (u.entry now old)) := by
  obtain ⟨t, hstatus, ht⟩ := hu.spread
  have hlt := UInt64.lt_of_le_of_ne hu.le hlower
  intro new hmem
  obtain rfl := mem_some.mp hmem
  rcases @entry_case now t u old hstatus ht fun m hm => (holder m hm).2 with
    ⟨m, hold, -, hnew⟩ | ⟨-, hinc, hnew⟩ |
    ⟨remote, m, -, hold, -, hsuspicious, -, hinc, hnew⟩
  · rw [hnew]
    exact holder m hold
  · rw [hinc, hnew]
    exact ⟨hlt, ht⟩
  · rw [hinc, hnew]
    exact ⟨hlt, .inr (.inl rfl)⟩

theorem Fits.at_top (hu : Fits top s u) (htop : u.incarnation = top) :
    u.status = some s ∧ s.Spread := by
  obtain ⟨t, hstatus, ht⟩ := hu.spread
  have hsame := hu.same htop
  rw [hstatus, some.injEq] at hsame
  exact ⟨hu.same htop, hsame ▸ ht⟩

theorem settled_or_stuck (holder : Older top old) (hu : Fits top s u) (htop : u.incarnation = top) :
    Settled top s (some (u.entry now old)) ∨
      Stuck top old u ∧ Reached top s (some (u.entry now old)) := by
  obtain ⟨hstatus, hs⟩ := hu.at_top htop
  rcases @entry_case now s u old hstatus hs fun m hm => (holder m hm).2 with
    ⟨m, hold, hle, -⟩ | ⟨-, hinc, hnew⟩ |
    ⟨remote, m, rfl, hold, -, hsuspicious, halive, hinc, hnew⟩
  · have hlt := (holder m hold).1
    rw [← htop] at hlt
    exact absurd hle (UInt64.not_le.mpr hlt)
  · exact .inl ⟨_, rfl, hinc.trans htop, hnew⟩
  · have hremote : remote.status = .alive :=
      (some.inj hstatus).trans halive
    exact .inr ⟨⟨htop, hremote, m, hold, hsuspicious⟩, _, rfl, hinc.trans htop, .inr ⟨halive, hnew⟩⟩

/-- At the highest incarnation only the highest update changes anything. -/
theorem entry_at_top {m : Member} (hinc : m.incarnation = top)
    (hm : m.status.Spread) (hu : Fits top s u) :
    u.entry now (some m) = m ∨ Settled top s (some (u.entry now (some m))) := by
  obtain ⟨t, hstatus, ht⟩ := hu.spread
  rcases @entry_case now t u (some m) hstatus ht (fun m' hm' => mem_some.mp hm' ▸ hm) with
    ⟨m', hold, -, hnew⟩ | ⟨hle, hnewInc, hnew⟩ |
    ⟨remote, m', -, hold, hlt, -⟩
  · cases hold
    exact .inl hnew
  · have htop : u.incarnation = top := by
      apply UInt64.le_antisymm hu.le
      rw [← hinc]
      exact hle m rfl
    have hsame := (hu.at_top htop).1
    rw [hstatus, some.injEq] at hsame
    exact .inr ⟨_, rfl, hnewInc.trans htop, hnew.trans hsame⟩
  · cases hold
    rw [hinc] at hlt
    exact absurd hu.le (UInt64.not_le.mpr hlt)

theorem settled_entry (hsettled : Settled top s old) (hs : s.Spread)
    (hu : Fits top s u) : Settled top s (some (u.entry now old)) := by
  obtain ⟨m, rfl, hinc, hstatus⟩ := hsettled
  rcases @entry_at_top now s top u m hinc (hstatus ▸ hs) hu with hsame | hnew
  · rw [hsame]
    exact ⟨m, rfl, hinc, hstatus⟩
  · exact hnew

theorem Settled.reached (hsettled : Settled top s old) : Reached top s old := by
  obtain ⟨m, hold, hinc, hstatus⟩ := hsettled
  exact ⟨m, hold, hinc, .inl hstatus⟩

theorem reached_spread {m : Member} (hs : s.Spread)
    (hstatus : m.status = s ∨ s = .alive ∧ m.status = .suspicious) :
    m.status.Spread := by
  rcases hstatus with hsame | ⟨-, hsuspicious⟩
  · exact hsame ▸ hs
  · exact .inr (.inl hsuspicious)

theorem reached_entry (hreached : Reached top s old) (hs : s.Spread)
    (hu : Fits top s u) : Reached top s (some (u.entry now old)) := by
  obtain ⟨m, rfl, hinc, hstatus⟩ := hreached
  rcases @entry_at_top now s top u m hinc (reached_spread hs hstatus) hu with
    hsame | hnew
  · rw [hsame]
    exact ⟨m, rfl, hinc, hstatus⟩
  · exact hnew.reached

/-- `apply_piggyback` also repairs an entry of the same incarnation. -/
theorem settled_piggyback {e : PiggybackEntry} (hreached : Reached top s old)
    (hu : Fits top s (.piggyback e)) (htop : e.incarnation = top) :
    Settled top s (some ((Update.piggyback e).entry now old)) := by
  obtain ⟨m, rfl, hinc, hstatus⟩ := hreached
  obtain ⟨htype, hs⟩ := hu.at_top htop
  have hentry : (Update.piggyback e).entry now (some m) = piggybackedMember now m e := by
    apply if_neg
    rw [htop, hinc]
    exact UInt64.lt_irrefl top
  rw [hentry]
  exact ⟨_, rfl, (piggybackedMember_incarnation now m e).trans htop,
    piggybackedMember_status htype (reached_spread hs hstatus)⟩

end

/-- Apply an update at a time. -/
def hear (members : Table Member) (u : Nat × Update) : Option (Table Member) :=
  some (u.2.apply u.1 members)

theorem run_hear (members : Table Member) (us : List (Nat × Update)) :
    ∃ final, Runs.run hear members us = some final := by
  induction us generalizing members with
  | nil => exact ⟨members, rfl⟩
  | cons u rest ih => exact ih (u.2.apply u.1 members)

section

variable {s : MemberStatus} {top : UInt64} {ep : EndPoint}
  {members final : Table Member} {us : List (Nat × Update)}

theorem lookup_hear {u : Nat × Update} {members' : Table Member}
    (hep : u.2.endpoint = ep) (hhear : hear members u = some members') :
    members'.lookup ep = some (u.2.entry u.1 (members.lookup ep)) := by
  cases hhear
  rw [← hep]
  exact u.2.lookup_apply u.1 members

section

variable (hs : s.Spread) (hfits : ∀ u ∈ us, u.2.endpoint = ep ∧ Fits top s u.2)
  (holder : Older top (members.lookup ep))
include hs hfits holder

/-- Without a suspicion in the way the entry settles. -/
theorem settles_unhindered (htop : ∃ u ∈ us, u.2.incarnation = top)
    (hfree : Runs.EachStep hear (fun t u => ¬ Stuck top (t.lookup ep) u.2) members us)
    (hrun : Runs.run hear members us = some final) :
    Settled top s (final.lookup ep) := by
  refine @Runs.run_reaches _ _ hear _ (fun t => Older top (t.lookup ep))
    (fun t => Settled top s (t.lookup ep))
    (fun u => u.2.incarnation = top) ?_ ?_ ?_ members final us holder htop
    (hfree.and_mem hfits) hrun
  · intro t u t' ht hlower hu hhear
    rw [lookup_hear hu.1.1 hhear]
    exact older_entry ht hu.1.2 hlower
  · intro t u t' ht hmark hu hhear
    rw [lookup_hear hu.1.1 hhear]
    rcases settled_or_stuck ht hu.1.2 hmark with hsettled | ⟨hstuck, -⟩
    · exact hsettled
    · exact absurd hstuck hu.2
  · intro t u t' ht hu hhear
    rw [lookup_hear hu.1.1 hhear]
    exact settled_entry ht hs hu.1.2

/-- Once the highest update is piggybacked the entry settles. -/
theorem settles_piggybacked (htop : ∃ u ∈ us, u.2.isPiggyback ∧ u.2.incarnation = top)
    (hrun : Runs.run hear members us = some final) :
    Settled top s (final.lookup ep) := by
  refine @Runs.run_reaches _ _ hear _
    (fun t => Older top (t.lookup ep) ∨ Reached top s (t.lookup ep))
    (fun t => Settled top s (t.lookup ep))
    (fun u => u.2.isPiggyback ∧ u.2.incarnation = top) ?_ ?_ ?_ members final
    us (.inl holder) htop
    ((Runs.EachStep.of_forall (fun _ _ => trivial : ∀ _ _, True) members us).and_mem hfits) hrun
  · intro t u t' ht _ hu hhear
    rw [lookup_hear hu.1.1 hhear]
    rcases ht with holder | hreached
    · by_cases hmark : u.2.incarnation = top
      · rcases settled_or_stuck holder hu.1.2 hmark with hsettled | ⟨-, h⟩
        · exact .inr hsettled.reached
        · exact .inr h
      · exact .inl (older_entry holder hu.1.2 hmark)
    · exact .inr (reached_entry hreached hs hu.1.2)
  · rintro t ⟨now, u⟩ t' ht ⟨hpiggyback, hmark⟩ hu hhear
    rw [lookup_hear hu.1.1 hhear]
    cases u with
    | merge remote => cases hpiggyback
    | piggyback e =>
      rcases ht with holder | hreached
      · rcases settled_or_stuck holder hu.1.2 hmark with hsettled | ⟨h, -⟩
        · exact hsettled
        · exact h.elim
      · exact settled_piggyback hreached hu.1.2 hmark
  · intro t u t' ht hu hhear
    rw [lookup_hear hu.1.1 hhear]
    exact settled_entry ht hs hu.1.2

end

end

/-- Updates about one member, with repetitions; those of one incarnation say
the same. -/
structure Rumours (ep : EndPoint) (us : List (Nat × Update)) : Prop where
  about : ∀ u ∈ us, u.2.endpoint = ep
  spread : ∀ u ∈ us, u.2.Spreads
  distinct : ∀ u ∈ us, ∀ v ∈ us, u.2.incarnation = v.2.incarnation → u.2.status = v.2.status

/-- The update of incarnation `top` is piggybacked at least once, or no
suspicion is in its way when it is merged. -/
def Heard (ep : EndPoint) (top : UInt64) (members : Table Member)
    (us : List (Nat × Update)) : Prop :=
  (∃ u ∈ us, u.2.isPiggyback ∧ u.2.incarnation = top) ∨
    Runs.EachStep hear (fun t u => ¬ Stuck top (t.lookup ep) u.2) members us

/-- The entry ends at the highest incarnation with the status that came with
it. -/
theorem highest_update_wins {ep : EndPoint} {members : Table Member} {us : List (Nat × Update)}
    {top : Nat × Update} (hrumours : Rumours ep us) (htop : top ∈ us)
    (hhighest : ∀ u ∈ us, u.2.incarnation ≤ top.2.incarnation)
    (holder : Older top.2.incarnation (members.lookup ep))
    (hheard : Heard ep top.2.incarnation members us) :
    ∃ final m, Runs.run hear members us = some final ∧
      final.lookup ep = some m ∧ m.incarnation = top.2.incarnation ∧
      some m.status = top.2.status := by
  obtain ⟨final, hrun⟩ := run_hear members us
  obtain ⟨s, hstatus, hs⟩ := hrumours.spread top htop
  have hfits : ∀ u ∈ us, u.2.endpoint = ep ∧ Fits top.2.incarnation s u.2 := fun u hu =>
    ⟨hrumours.about u hu,
      { spread := hrumours.spread u hu
        le := hhighest u hu
        same := fun hinc =>
          (hrumours.distinct u hu top htop hinc).trans hstatus }⟩
  have hsettled : Settled top.2.incarnation s (final.lookup ep) := by
    rcases hheard with hpiggybacked | hfree
    · exact settles_piggybacked hs hfits holder hpiggybacked hrun
    · exact settles_unhindered hs hfits holder ⟨top, htop, rfl⟩ hfree hrun
  obtain ⟨m, hm, hinc, hsame⟩ := hsettled
  exact ⟨final, m, hrun, hm, hinc, hsame ▸ hstatus.symm⟩

namespace ConvergenceWitness

def peer : EndPoint := .ipv4 0x7F000002 0

def merged (status : MemberStatus) (incarnation : UInt64) : Update :=
  .merge { identity := { endpoint := peer }, status, incarnation }

def piggybacked (type : PiggybackType) (incarnation : UInt64) : Update :=
  .piggyback { type, identity := { endpoint := peer }, incarnation }

/-- A member is suspected, merged as alive while it is, and piggybacked as
alive after that. -/
def repaired : List (Nat × Update) :=
  [(0, piggybacked .suspicious 1), (1, merged .alive 3), (2, merged .dead 2),
    (3, piggybacked .alive 3)]

theorem repaired_alive :
    ∃ final m, Runs.run hear ∅ repaired = some final ∧
      final.lookup peer = some m ∧ m.incarnation = 3 ∧
      some m.status = some .alive :=
  @highest_update_wins peer ∅ repaired (3, piggybacked .alive 3)
    { about := by decide
      spread := by decide
      distinct := by decide }
    (by decide) (by decide) (fun m hm => by cases hm) (.inl (by decide))

/-- A member is suspected and then merged as alive, a higher incarnation. -/
def hindered : List (Nat × Update) :=
  [(0, piggybacked .suspicious 1), (1, merged .alive 2)]

theorem suspicion_stays :
    Rumours peer hindered ∧ (1, merged .alive 2) ∈ hindered ∧
      (∀ u ∈ hindered, u.2.incarnation ≤ 2) ∧
      ∃ final m, Runs.run hear ∅ hindered = some final ∧
        final.lookup peer = some m ∧ m.incarnation = 2 ∧
        m.status = .suspicious := by
  refine ⟨{ about := by decide, spread := by decide, distinct := by decide },
    by decide, by decide, ?_⟩
  have hview : (Runs.run hear ∅ hindered).map (fun final =>
      (final.lookup peer).map fun m => (m.incarnation, m.status)) =
      some (some (2, .suspicious)) := by
    decide +kernel
  obtain ⟨final, hfinal, hm⟩ := map_eq_some_iff.mp hview
  obtain ⟨m, hlookup, hpair⟩ := map_eq_some_iff.mp hm
  exact ⟨final, m, hfinal, hlookup, congrArg Prod.fst hpair, congrArg Prod.snd hpair⟩

end ConvergenceWitness

end HPActor.Gossip
