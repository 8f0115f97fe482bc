/-
Carved ranges stay apart as long as no subtraction reaches below a range in
use.  The offset of a region is its start plus what was granted of it plus what
unfinished calls have added, so a subtraction never wraps; a new range starts
where the offset was, above every range in use.
-/
import Mathlib
import HPActor.Interleaving
import HPActor.SuperCarrier

namespace HPActor.SuperCarrier

open Function Option Interleaving CarrierLayout List

variable {T : Type}

/-- What a thread has added to a region's offset and not taken back. -/
def pendingIn (region : CarveRegion) : CarveThread → Nat
  | .checking r size _ _ => if r = region then size else 0
  | .undoing r size _ => if r = region then size else 0
  | .idle | .adding .. => 0

/-- What has been granted of a region. -/
def grantedIn (s : SuperCarrier T) (region : CarveRegion) : Nat :=
  (s.granted.map fun range =>
    if range.region = region then range.size else 0).sum

/-- Granted, or about to be. -/
def InUse (s : SuperCarrier T) (range : CarvedRange) : Prop :=
  range ∈ s.granted ∨ ∃ t, claimOf s.layout (s.threads t) = some range

/-- Two ranges of one region do not overlap. -/
def Apart (a b : CarvedRange) : Prop :=
  a.region = b.region → a.off + a.size ≤ b.off ∨ b.off + b.size ≤ a.off

theorem Apart.symm {a b : CarvedRange} (hab : Apart a b) : Apart b a :=
  fun hregion => (hab hregion.symm).symm

/-- Thread states that make sense: the region exists, and the range that is
checked did not wrap. -/
def Proper (layout : CarrierLayout) : CarveThread → Prop
  | .idle => True
  | .adding region _ _ => layout.HasRegion region
  | .checking region size _ off => layout.HasRegion region ∧
      layout.regionBase region + off + size < 2 ^ 64
  | .undoing region _ _ => layout.HasRegion region

/-- The range lies in a region that exists. -/
structure Lies (layout : CarrierLayout) (range : CarvedRange) : Prop where
  has : layout.HasRegion range.region
  above : layout.startOffset range.region ≤ range.off
  within : layout.regionBase range.region + range.off + range.size ≤ layout.regionEnd range.region

structure Carved [Fintype T] (s : SuperCarrier T) : Prop where
  proper : ∀ t, Proper s.layout (s.threads t)
  account : ∀ region, s.offsets region = s.layout.startOffset region + s.grantedIn region +
      ∑ t, pendingIn region (s.threads t)
  small : ∀ region, s.offsets region < 2 ^ 64
  lies : ∀ range, s.InUse range → Lies s.layout range
  below : ∀ range, s.InUse range → range.off + range.size ≤ s.offsets range.region
  granted : s.granted.Pairwise Apart
  claimed : ∀ range ∈ s.granted, ∀ t, ∀ claim ∈ claimOf s.layout (s.threads t), Apart range claim
  claims : ∀ t u, t ≠ u → ∀ a ∈ claimOf s.layout (s.threads t),
    ∀ b ∈ claimOf s.layout (s.threads u), Apart a b

variable {layout : CarrierLayout}

theorem node_end_le_base {n m : Nat} (hnm : n < m) :
    layout.regionEnd (.node n) ≤ layout.regionBase (.node m) := by
  calc n * layout.numaNodeSize + layout.numaNodeSize
      = (n + 1) * layout.numaNodeSize := (Nat.succ_mul _ _).symm
    _ ≤ m * layout.numaNodeSize := Nat.mul_le_mul_right _ hnm

/-- Regions that exist lie in the carrier, one after the other. -/
theorem regionEnd_le {region : CarveRegion} (hregion : layout.HasRegion region) :
    layout.regionEnd region ≤ layout.carrierSize := by
  cases region with
  | whole => exact Nat.le_refl _
  | node n => exact (node_end_le_base hregion.2).trans (Nat.mul_div_le _ _)

/-- The rest of the carrier begins after the last node. -/
theorem node_end_le_start {n : Nat} (hregion : layout.HasRegion (.node n)) :
    layout.regionEnd (.node n) ≤ layout.startOffset .whole := by
  rw [startOffset, if_pos hregion.1]
  exact (node_end_le_base hregion.2).trans_eq (Nat.mul_comm _ _)

theorem Carved.disjoint [Fintype T] {s : SuperCarrier T} (hs : Carved s) : s.Disjoint := by
  constructor
  · intro range hrange
    have hlies := hs.lies range (.inl hrange)
    exact hlies.within.trans (regionEnd_le hlies.has)
  · refine hs.granted.imp_of_mem ?_
    intro a b ha hb hapart
    obtain ⟨hra, hsa, hwa⟩ := hs.lies a (.inl ha)
    obtain ⟨hrb, hsb, hwb⟩ := hs.lies b (.inl hb)
    obtain ⟨ra, offa, sizea⟩ := a
    obtain ⟨rb, offb, sizeb⟩ := b
    simp only [CarvedRange.first, CarvedRange.last] at *
    by_cases hregion : ra = rb
    · subst hregion
      rcases hapart rfl with h | h
      · exact .inl (by simp only at h; omega)
      · exact .inr (by simp only at h; omega)
    · cases ra with
      | whole =>
        cases rb with
        | whole => exact absurd rfl hregion
        | node m =>
          have hend := node_end_le_start hrb
          simp only [regionBase] at *
          omega
      | node n =>
        cases rb with
        | whole =>
          have hend := node_end_le_start hra
          simp only [regionBase] at *
          omega
        | node m =>
          have hne : n ≠ m := fun h => hregion (congrArg _ h)
          rcases Nat.lt_or_gt_of_ne hne with h | h
          · have hend := @node_end_le_base s.layout n m h
            omega
          · have hend := @node_end_le_base s.layout m n h
            omega

section

variable [DecidableEq T] {thread : CarveThread} {layout : CarrierLayout} {threads : T → CarveThread}
  {range : CarvedRange}

/-- A claim after a thread moved is an old claim of another thread or the
claim of the thread that moved. -/
theorem claimOf_update {t u : T}
    (hclaim : claimOf layout (update threads t thread u) = some range) :
    (u = t ∧ claimOf layout thread = some range) ∨
      (u ≠ t ∧ claimOf layout (threads u) = some range) := by
  by_cases hu : u = t
  · subst hu
    rw [update_self] at hclaim
    exact .inl ⟨rfl, hclaim⟩
  · rw [update_of_ne hu] at hclaim
    exact .inr ⟨hu, hclaim⟩

theorem InUse.of_setThread {s : SuperCarrier T} {t : T}
    (huse : (s.setThread t thread).InUse range) :
    s.InUse range ∨ claimOf s.layout thread = some range := by
  rcases huse with hgranted | ⟨u, hclaim⟩
  · exact .inl (.inl hgranted)
  · rcases claimOf_update hclaim with ⟨-, hnew⟩ | ⟨-, hold⟩
    · exact .inr hnew
    · exact .inl (.inr ⟨u, hold⟩)

/-- The claims stay apart when the moving thread's new claim is apart from
the claims of the others. -/
theorem claims_update {t : T}
    (hclaims : ∀ u v, u ≠ v → ∀ a ∈ claimOf layout (threads u),
      ∀ b ∈ claimOf layout (threads v), Apart a b)
    (hnew : ∀ a ∈ claimOf layout thread, ∀ u, u ≠ t → ∀ b ∈ claimOf layout (threads u), Apart a b) :
    ∀ u v, u ≠ v → ∀ a ∈ claimOf layout (update threads t thread u),
        ∀ b ∈ claimOf layout (update threads t thread v), Apart a b := by
  intro u v huv a ha b hb
  rcases claimOf_update ha with ⟨hu, ha⟩ | ⟨hu, ha⟩ <;>
    rcases claimOf_update hb with ⟨hv, hb⟩ | ⟨hv, hb⟩
  · exact absurd (hu.trans hv.symm) huv
  · exact hnew a ha v hv b hb
  · exact (hnew b hb u hu a ha).symm
  · exact hclaims u v huv a ha b hb

end

section

variable [DecidableEq T] [Fintype T] {s : SuperCarrier T} {t : T} {thread : CarveThread}
  {fallback : Bool} {region : CarveRegion} {off size : Nat}

/-- A thread that moves and claims nothing: the offsets may fall by what the
thread gives back, as long as they stay above every range in use. -/
theorem Carved.move (hs : Carved s) {offsets : CarveRegion → Nat}
    (hproper : Proper s.layout thread) (hclaim : claimOf s.layout thread = none)
    (hback : ∀ region, offsets region + pendingIn region (s.threads t) =
      s.offsets region + pendingIn region thread)
    (hle : ∀ region, offsets region ≤ s.offsets region)
    (hbelow : ∀ range, s.InUse range → range.off + range.size ≤ offsets range.region) :
    Carved ({ s with offsets := offsets }.setThread t thread) := by
  have huse : ∀ range, ({ s with offsets := offsets }.setThread t thread).InUse range →
        s.InUse range := by
    intro range hrange
    rcases hrange.of_setThread with hold | hnew
    · exact hold
    · cases hclaim.symm.trans hnew
  exact
    { proper := forall_update hs.proper hproper fun _ h => h
      account := by
        intro region
        have hsum := sum_update (pendingIn region) s.threads t thread
        have haccount := hs.account region
        have hregion := hback region
        change offsets region = s.layout.startOffset region + s.grantedIn region +
            ∑ u, pendingIn region (update s.threads t thread u)
        omega
      small := fun region => (hle region).trans_lt (hs.small region)
      lies := fun range hrange => hs.lies range (huse range hrange)
      below := fun range hrange => hbelow range (huse range hrange)
      granted := hs.granted
      claimed := by
        intro range hrange u claim hu
        rcases claimOf_update hu with ⟨-, hnew⟩ | ⟨-, hold⟩
        · cases hclaim.symm.trans hnew
        · exact hs.claimed range hrange u claim hold
      claims := by
        apply claims_update hs.claims
        intro a ha
        cases hclaim.symm.trans ha }

/-- A thread that moves without a claim and without touching an offset. -/
theorem Carved.quiet (hs : Carved s) (hproper : Proper s.layout thread)
    (hclaim : claimOf s.layout thread = none)
    (hpending : ∀ region, pendingIn region thread = pendingIn region (s.threads t)) :
    Carved (s.setThread t thread) := by
  refine hs.move hproper hclaim (fun region => ?_) (fun _ => Nat.le_refl _) hs.below
  rw [hpending region]

/-- A claim is the range that the thread checks, and it ends in the region. -/
theorem claimOf_checking {range : CarvedRange}
    (hclaim : claimOf layout (.checking region size fallback off) = some range) :
    range = ⟨region, off, size⟩ ∧
      layout.regionBase region + off + size ≤ layout.regionEnd region := by
  rw [claimOf] at hclaim
  by_cases hend : layout.regionBase region + off + size ≤ layout.regionEnd region
  · rw [if_pos hend] at hclaim
    exact ⟨(some.inj hclaim).symm, hend⟩
  · rw [if_neg hend] at hclaim
    cases hclaim

omit [DecidableEq T] in
/-- Every range in use has ended at the offset. -/
theorem Carved.apart_next (hs : Carved s) (region : CarveRegion) (size : Nat)
    {range : CarvedRange} (hrange : s.InUse range) :
    Apart ⟨region, s.offsets region, size⟩ range := by
  intro hsame
  right
  have hbelow := hs.below range hrange
  rw [← hsame] at hbelow
  exact hbelow

omit [DecidableEq T] in
theorem Carved.start_le (hs : Carved s) (region : CarveRegion) :
    s.layout.startOffset region ≤ s.offsets region := by
  rw [hs.account region, Nat.add_assoc]
  exact Nat.le_add_right _ _

theorem le_update_add (offsets : CarveRegion → Nat) (region : CarveRegion)
    (size : Nat) (r : CarveRegion) :
    offsets r ≤ update offsets region (offsets region + size) r := by
  by_cases hr : r = region
  · subst hr
    rw [update_self]
    exact Nat.le_add_right _ _
  · rw [update_of_ne hr]

section

variable (hs : Carved s) (hthread : s.threads t = .adding region size fallback)
include hs hthread

/-- What a `fetch_add` adds to the offset is pending afterwards. -/
theorem Carved.account_add (r : CarveRegion) :
    update s.offsets region (s.offsets region + size) r = s.layout.startOffset r + s.grantedIn r +
        ∑ u, pendingIn r (update s.threads t
          (.checking region size fallback (s.offsets region)) u) := by
  have hsum := sum_update (pendingIn r) s.threads t
    (.checking region size fallback (s.offsets region))
  have haccount := hs.account r
  rw [hthread, pendingIn, pendingIn] at hsum
  by_cases hr : r = region
  · subst hr
    rw [if_pos rfl] at hsum
    rw [update_self]
    omega
  · rw [if_neg (Ne.symm hr)] at hsum
    rw [update_of_ne hr]
    omega

/-- The range a `fetch_add` reserves starts at the old offset, where every
range in use has ended. -/
theorem Carved.add (hfits : s.layout.regionBase region + s.offsets region + size < 2 ^ 64) :
    Carved ((s.setOffset region (s.offsets region + size)).setThread t
      (.checking region size fallback (s.offsets region))) := by
  have hregion : s.layout.HasRegion region := by
    have hproper := hs.proper t
    rw [hthread] at hproper
    exact hproper
  have huse : ∀ range, ((s.setOffset region (s.offsets region + size)).setThread t
        (.checking region size fallback (s.offsets region))).InUse range →
      s.InUse range ∨ (range = ⟨region, s.offsets region, size⟩ ∧
        s.layout.regionBase region + s.offsets region + size ≤ s.layout.regionEnd region) := by
    intro range hrange
    rcases hrange.of_setThread with hold | hnew
    · exact .inl hold
    · exact .inr (claimOf_checking hnew)
  exact
    { proper := forall_update hs.proper ⟨hregion, hfits⟩ fun _ h => h
      account := hs.account_add hthread
      small := by
        intro r
        change update s.offsets region (s.offsets region + size) r < 2 ^ 64
        by_cases hr : r = region
        · subst hr
          rw [update_self]
          omega
        · rw [update_of_ne hr]
          exact hs.small r
      lies := by
        intro range hrange
        rcases huse range hrange with hold | ⟨rfl, hend⟩
        · exact hs.lies range hold
        · exact ⟨hregion, hs.start_le region, hend⟩
      below := by
        intro range hrange
        rcases huse range hrange with hold | ⟨rfl, -⟩
        · exact (hs.below range hold).trans (le_update_add s.offsets region size range.region)
        · change _ ≤ update s.offsets region _ region
          rw [update_self]
      granted := hs.granted
      claimed := by
        intro range hrange u claim hclaim
        rcases claimOf_update hclaim with ⟨-, hnew⟩ | ⟨-, hold⟩
        · obtain ⟨rfl, -⟩ := claimOf_checking hnew
          exact (hs.apart_next region size (.inl hrange)).symm
        · exact hs.claimed range hrange u claim hold
      claims := by
        apply claims_update hs.claims
        intro a ha u _ b hb
        obtain ⟨rfl, -⟩ := claimOf_checking ha
        exact hs.apart_next region size (.inr ⟨u, hb⟩) }

end

/-- A claim that becomes a grant keeps its bytes. -/
theorem Carved.grantClaim (hs : Carved s)
    (hthread : s.threads t = .checking region size fallback off)
    (hend : s.layout.regionBase region + off + size ≤ s.layout.regionEnd region) :
    Carved ((s.grant ⟨region, off, size⟩).setThread t .idle) := by
  have hmine : claimOf s.layout (s.threads t) = some ⟨region, off, size⟩ := by
    rw [hthread, claimOf, if_pos hend]
  have huse : ∀ range, ((s.grant ⟨region, off, size⟩).setThread t
      .idle).InUse range → s.InUse range := by
    intro range hrange
    rcases hrange.of_setThread with (hgranted | hclaim) | hnew
    · rcases mem_append.mp hgranted with hold | hnew
      · exact .inl hold
      · rw [mem_singleton.mp hnew]
        exact .inr ⟨t, hmine⟩
    · exact .inr hclaim
    · cases hnew
  exact
    { proper := forall_update hs.proper trivial fun _ h => h
      account := by
        intro r
        have hsum := sum_update (pendingIn r) s.threads t .idle
        have haccount := hs.account r
        have hgranted : (s.grant ⟨region, off, size⟩).grantedIn r =
            s.grantedIn r + if region = r then size else 0 := by
          simp [grantedIn, grant]
        rw [hthread, pendingIn, pendingIn] at hsum
        change s.offsets r = s.layout.startOffset r + (s.grant ⟨region, off, size⟩).grantedIn r +
            ∑ u, pendingIn r (update s.threads t .idle u)
        omega
      small := hs.small
      lies := fun range hrange => hs.lies range (huse range hrange)
      below := fun range hrange => hs.below range (huse range hrange)
      granted := by
        apply pairwise_append.mpr
        refine ⟨hs.granted, pairwise_singleton _ _, ?_⟩
        intro range hrange new hnew
        rw [mem_singleton.mp hnew]
        exact hs.claimed range hrange t _ hmine
      claimed := by
        intro range hrange u claim hclaim
        rcases claimOf_update hclaim with ⟨-, hnew⟩ | ⟨hu, hold⟩
        · cases hnew
        · rcases mem_append.mp hrange with hgranted | hnew
          · exact hs.claimed range hgranted u claim hold
          · rw [mem_singleton.mp hnew]
            exact hs.claims t u (Ne.symm hu) _ hmine claim hold
      claims := by
        apply claims_update hs.claims
        intro a ha
        cases ha }

omit [DecidableEq T] in
/-- What a call takes back is still part of the offset. -/
theorem Carved.size_le (hs : Carved s) (hthread : s.threads t = .undoing region size fallback) :
    size ≤ s.offsets region := by
  have hle := Finset.single_le_sum (fun u _ => Nat.zero_le (pendingIn region (s.threads u)))
    (Finset.mem_univ t)
  have haccount := hs.account region
  rw [hthread, pendingIn, if_pos rfl] at hle
  omega

/-- A subtraction that leaves every range in use below the offset. -/
theorem Carved.sub (hs : Carved s) (hthread : s.threads t = .undoing region size fallback)
    (hroom : s.RoomBelow region size) (hproper : Proper s.layout thread)
    (hclaim : claimOf s.layout thread = none) (hpending : ∀ r, pendingIn r thread = 0) :
    Carved ((s.setOffset region (s.offsets region - size)).setThread t thread) := by
  have hsize := hs.size_le hthread
  refine hs.move hproper hclaim (fun r => ?_) (fun r => ?_) (fun range hrange => ?_)
  · rw [hthread, pendingIn, hpending r]
    by_cases hr : r = region
    · subst hr
      rw [update_self, if_pos rfl]
      exact Nat.sub_add_cancel hsize
    · rw [update_of_ne hr, if_neg (Ne.symm hr)]
  · by_cases hr : r = region
    · subst hr
      rw [update_self]
      exact Nat.sub_le _ _
    · rw [update_of_ne hr]
  · by_cases hr : range.region = region
    · rw [hr, update_self]
      apply Nat.le_sub_of_add_le
      rcases hrange with hgranted | ⟨u, hu⟩
      · exact hroom.1 range hgranted hr
      · exact hroom.2 u range hu hr
    · rw [update_of_ne hr]
      exact hs.below range hrange

theorem sub_mod_eq {offset : Nat} (hoffset : offset < 2 ^ 64) (hsize : size ≤ offset) :
    (offset + (2 ^ 64 - size)) % 2 ^ 64 = offset - size := by
  have hwrap : offset + (2 ^ 64 - size) = offset - size + 2 ^ 64 := by omega
  rw [hwrap, Nat.add_mod_right]
  exact Nat.mod_eq_of_lt ((Nat.sub_le _ _).trans_lt hoffset)

theorem firstRegion_has (layout : CarrierLayout) (numaNode : Nat) :
    layout.HasRegion (firstRegion layout numaNode) := by
  rw [firstRegion]
  split
  next hnode => exact hnode
  next => trivial

/-- A thread begins to carve. -/
theorem Carved.begins (hs : Carved s) (hidle : s.threads t = .idle)
    (hregion : s.layout.HasRegion region) (size : Nat) (fallback : Bool) :
    Carved (s.setThread t (.adding region size fallback)) := by
  refine hs.quiet hregion rfl fun r => ?_
  rw [hidle]
  rfl

/-- A thread whose range is out of bounds or not protected goes back. -/
theorem Carved.givesUp (hs : Carved s)
    (hthread : s.threads t = .checking region size fallback off) :
    Carved (s.setThread t (.undoing region size fallback)) := by
  have hproper := hs.proper t
  rw [hthread] at hproper
  refine hs.quiet hproper.1 rfl fun r => ?_
  rw [hthread]
  rfl

theorem Carved.step (hs : Carved s) {action : Action T}
    {next : SuperCarrier T} (hcareful : s.Careful action)
    (hstep : s.step action = some next) : Carved next := by
  cases action with
  | carve t size =>
    simp only [SuperCarrier.step, ite_none_right_eq_some] at hstep
    obtain ⟨hidle, hstep⟩ := hstep
    cases hstep
    have hwhole : s.layout.HasRegion .whole := trivial
    exact hs.begins hidle.1 hwhole size false
  | carveNuma t size numaNode =>
    simp only [SuperCarrier.step, ite_none_right_eq_some] at hstep
    obtain ⟨hidle, hstep⟩ := hstep
    cases hstep
    exact hs.begins hidle.1 (firstRegion_has _ _) size _
  | fetchAdd t =>
    rw [SuperCarrier.step] at hstep
    cases hthread : s.threads t with
    | adding region size fallback =>
      rw [Careful, hthread] at hcareful
      have hfits : s.layout.regionBase region + s.offsets region + size < 2 ^ 64 := hcareful
      rw [hthread] at hstep
      cases hstep
      rw [Nat.mod_eq_of_lt (by omega)]
      exact hs.add hthread hfits
    | idle | checking | undoing =>
      rw [hthread] at hstep
      cases hstep
  | protect t succeeds =>
    rw [SuperCarrier.step] at hstep
    cases hthread : s.threads t with
    | checking region size fallback off =>
      have hproper := hs.proper t
      rw [hthread] at hproper hstep
      simp only [rangeEnd, Nat.mod_eq_of_lt hproper.2] at hstep
      split at hstep
      next =>
        cases hstep
        exact hs.givesUp hthread
      next hend =>
        split at hstep
        next =>
          cases hstep
          exact hs.grantClaim hthread (Nat.le_of_not_lt hend)
        next =>
          cases hstep
          exact hs.givesUp hthread
    | idle | adding | undoing =>
      rw [hthread] at hstep
      cases hstep
  | fetchSub t =>
    rw [SuperCarrier.step] at hstep
    cases hthread : s.threads t with
    | undoing region size fallback =>
      rw [Careful, hthread] at hcareful
      rw [hthread] at hstep
      cases hstep
      rw [sub_mod_eq (hs.small region) (hs.size_le hthread)]
      cases fallback with
      | false | true => exact hs.sub hthread hcareful trivial rfl fun _ => rfl
    | idle | adding | checking =>
      rw [hthread] at hstep
      cases hstep

end

theorem carved_init [Fintype T] (layout : CarrierLayout)
    (hstart : ∀ region, layout.startOffset region < 2 ^ 64) :
    Carved (init T layout) := by
  have hnone : ∀ range, ¬ (init T layout).InUse range := by
    rintro range (hgranted | ⟨t, hclaim⟩)
    · cases hgranted
    · cases hclaim
  exact
    { proper := fun _ => trivial
      account := by
        intro region
        change layout.startOffset region = layout.startOffset region + 0 + ∑ _t : T, 0
        rw [Finset.sum_const_zero, Nat.add_zero, Nat.add_zero]
      small := hstart
      lies := fun range hrange => absurd hrange (hnone range)
      below := fun range hrange => absurd hrange (hnone range)
      granted := List.Pairwise.nil
      claimed := by
        intro range hrange
        cases hrange
      claims := by
        intro t u _ a ha
        cases ha }

theorem startOffset_lt (layout : CarrierLayout) (region : CarveRegion) :
    layout.startOffset region < 2 ^ 64 := by
  cases region with
  | whole =>
    have hle : layout.startOffset .whole ≤ layout.carrierSize := by
      rw [startOffset]
      split
      · exact Nat.div_mul_le_self _ _
      · exact Nat.zero_le _
    exact hle.trans_lt layout.carrierSize_lt
  | node => exact Nat.two_pow_pos 64

/-- As long as no addition overflows and no subtraction takes the offset below
a range in use, the granted ranges lie in the reservation, apart from each
other. -/
theorem carves_disjoint [DecidableEq T] [Fintype T] (layout : CarrierLayout)
    (actions : List (Action T)) (s : SuperCarrier T)
    (hcareful : Runs.EachStep step Careful (init T layout) actions)
    (hrun : Runs.run step (init T layout) actions = some s) :
    s.Disjoint := by
  have hcarved : Carved s :=
    Runs.run_invariant (fun _ _ _ hs hcond hstep => hs.step hcond hstep)
      (carved_init layout (startOffset_lt layout)) hcareful hrun
  exact hcarved.disjoint

namespace CarveWitness

def nodes : CarrierLayout := ⟨101, 2, by decide⟩

/-- A node's region, the fallback after a failed `mprotect`, and a request
that the rest of the carrier has no room for. -/
def careful : List (Action (Fin 2)) :=
  [.carveNuma 0 30 1, .fetchAdd 0, .carveNuma 1 1 0, .fetchAdd 1,
    .protect 0 true, .protect 1 false, .fetchSub 1, .fetchAdd 1,
    .protect 1 true, .carve 1 5, .fetchAdd 1, .protect 1 true, .fetchSub 1]

theorem careful_disjoint :
    ∃ s, Runs.run step (init (Fin 2) nodes) careful = some s ∧
      s.granted = [⟨.node 1, 0, 30⟩, ⟨.whole, 100, 1⟩] ∧ s.Disjoint := by
  have hview : (Runs.run step (init (Fin 2) nodes) careful).map granted =
      some [⟨.node 1, 0, 30⟩, ⟨.whole, 100, 1⟩] := by decide +kernel
  obtain ⟨s, hrun, hgranted⟩ := map_eq_some_iff.mp hview
  exact ⟨s, hrun, hgranted, carves_disjoint nodes careful s (by decide +kernel) hrun⟩

def single : CarrierLayout := ⟨100, 1, by decide⟩

/-- The first call's `mprotect` fails after the second call was granted the
bytes above; the third call is granted those bytes again. -/
def lateUndo : List (Action (Fin 2)) :=
  [.carve 0 10, .fetchAdd 0, .carve 1 10, .fetchAdd 1, .protect 1 true,
    .protect 0 false, .fetchSub 0, .carve 0 10, .fetchAdd 0, .protect 0 true]

theorem lateUndo_overlaps :
    ∃ s, Runs.run step (init (Fin 2) single) lateUndo = some s ∧
      s.granted = [⟨.whole, 10, 10⟩, ⟨.whole, 10, 10⟩] ∧ ¬ s.Disjoint := by
  have hview : (Runs.run step (init (Fin 2) single) lateUndo).map
      (fun s => (s.granted, decide s.Disjoint)) =
        some ([⟨.whole, 10, 10⟩, ⟨.whole, 10, 10⟩], false) := by
    decide +kernel
  obtain ⟨s, hrun, hpair⟩ := map_eq_some_iff.mp hview
  exact ⟨s, hrun, congrArg Prod.fst hpair, of_decide_eq_false (congrArg Prod.snd hpair)⟩

end CarveWitness

end HPActor.SuperCarrier
