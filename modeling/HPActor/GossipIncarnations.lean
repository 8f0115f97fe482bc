/-
Incarnations in the table of members only grow.  Every handler writes entries
one at a time, and no write puts an incarnation below the one it overwrites;
entries go only when they are purged or the component stops.
-/
import HPActor.GossipEntries

namespace HPActor.Gossip

open Option

open VersionedTable

/-- No entry goes and no incarnation falls. -/
abbrev Ahead : Table Member → Table Member → Prop :=
  Grows fun m => m.incarnation.toNat

variable {now : Nat}

open Grows

theorem ahead_mergeMember (members : Table Member) (remote : Member) :
    Ahead members (mergeMember now members remote) := by
  rw [mergeMember]
  split
  · next hnone => exact insert_new hnone
  · next existing hsome =>
      split
      · exact refl members
      · next hnewer =>
          have hlt := UInt64.lt_iff_toNat_lt.mp (UInt64.not_le.mp hnewer)
          exact insert_over hsome hlt.le

theorem ahead_applyEntry (members : Table Member) (entry : PiggybackEntry) :
    Ahead members (applyEntry now members entry) := by
  rw [applyEntry]
  split
  · next hnone => exact insert_new hnone
  · next existing hsome =>
      split
      · exact refl members
      · next hstale =>
          apply insert_over hsome
          rw [piggybackedMember_incarnation]
          exact UInt64.le_iff_toNat_le.mp (UInt64.not_lt.mp hstale)

theorem ahead_markMember (status : MemberStatus) (members : Table Member)
    (ep : EndPoint) : Ahead members (markMember now status members ep) := by
  rw [markMember]
  split
  · exact refl members
  · next m hsome => exact insert_over hsome (le_refl _)

theorem ahead_apply (members : Table Member) (u : Update) :
    Ahead members (u.apply now members) := by
  cases u with
  | merge remote => exact ahead_mergeMember members remote
  | piggyback entry => exact ahead_applyEntry members entry

namespace GossipMembership

variable (g : GossipMembership)

theorem ahead_ensureSelf : Ahead g.members (g.ensureSelf now).members := by
  rw [ensureSelf]
  split
  · exact refl g.members
  · next hnone => exact insert_new hnone

theorem ahead_handleLeave (sender : EndPoint) (inc : UInt64) :
    Ahead g.members (g.handleLeave now sender inc).members := by
  rw [handleLeave]
  split
  · exact refl g.members
  · next m hsome =>
      split
      · rw [(fire_frame _ _ _).1]
        exact insert_over hsome (le_refl _)
      · exact refl g.members

theorem ahead_handlePacket (data : List UInt8) :
    Ahead g.members (g.handlePacket now data).members := by
  rw [handlePacket]
  split
  · exact refl g.members
  · next call _ =>
      have htold := foldl (@ahead_apply now) (call.news now) g.members
      cases call with
      | handleSyncRsp members =>
        rw [HandlerCall.news, List.foldl_map] at htold
        exact htold.trans (ahead_ensureSelf { g with members := _, joinRetry := false })
      | handleLeave sender inc => exact ahead_handleLeave g sender inc
      | _ =>
        rw [handle_members g now (by simp) (by simp)]
        exact htold

theorem handlePacket_frame (data : List UInt8) : (g.handlePacket now data).frame = g.frame := by
  rw [handlePacket]
  split
  · rfl
  · exact handle_frame g now _

/-- Up to the purge a round only marks. -/
theorem ahead_checkSuspects (shuffle : Option EndPoint → List EndPoint → List EndPoint) :
    Ahead g.members
      (((g.checkPings now shuffle).pingPeers now shuffle).checkSuspects now).members := by
  rw [checkSuspects_members, (pingPeers_same _ now shuffle).1, checkPings_members]
  exact (foldl (ahead_markMember .suspicious) _ g.members).trans
    (foldl (ahead_markMember .dead) _ _)

/-- A component that does not run has an empty table. -/
def IdleEmpty : Prop :=
  g.running = false → g.members = ∅

variable {g g' : GossipMembership} {action : Action}

theorem start_idleEmpty {bound : Bool} {wallClock : UInt64} {now : Nat}
    (hidle : g.IdleEmpty) : (g.start bound wallClock now).IdleEmpty := by
  rw [start]
  split
  · intro hrunning
    split at hrunning
    · cases hrunning
    · cases hrunning
  · exact hidle

/-- The retry timer does not touch the table. -/
theorem retryJoin_same (g : GossipMembership) :
    g.retryJoin.members = g.members ∧ g.retryJoin.running = g.running := by
  simp only [retryJoin]
  split
  · exact ⟨rfl, rfl⟩
  · split
    · exact ⟨rfl, rfl⟩
    · exact ⟨rfl, rfl⟩

/-- Entries that are there before and after a step keep their incarnation or
get a higher one. -/
theorem step_keeps (hidle : g.IdleEmpty) (hstep : g.step action = some g') :
    Keeps (fun m : Member => m.incarnation.toNat) g.members g'.members := by
  cases action with
  | start bound wallClock now =>
    simp only [step, ite_none_left_eq_some] at hstep
    intro ep m m' hm
    rw [hidle (by simpa using hstep.1)] at hm
    cases hm
  | stop =>
    cases hstep
    intro ep m m' _ hm'
    cases hm'
  | announce now localState | onMemberChange =>
    cases hstep
    exact (Grows.refl g.members).keeps
  | packet now data =>
    simp only [step, ite_none_right_eq_some] at hstep
    cases hstep.2
    exact (ahead_handlePacket g data).keeps
  | round now shuffle =>
    simp only [step, ite_none_right_eq_some] at hstep
    cases hstep.2
    exact (ahead_checkSuspects g shuffle).keeps_filter
  | retry =>
    simp only [step, ite_none_right_eq_some] at hstep
    cases hstep.2
    rw [(retryJoin_same g).1]
    exact (Grows.refl g.members).keeps

theorem step_idleEmpty (hidle : g.IdleEmpty) (hstep : g.step action = some g') : g'.IdleEmpty := by
  cases action with
  | start bound wallClock now =>
    simp only [step, ite_none_left_eq_some] at hstep
    cases hstep.2
    exact start_idleEmpty hidle
  | stop =>
    cases hstep
    exact fun _ => rfl
  | announce now localState | onMemberChange =>
    cases hstep
    exact hidle
  | packet now data =>
    simp only [step, ite_none_right_eq_some] at hstep
    obtain ⟨hrunning, hstep⟩ := hstep
    cases hstep
    intro hidle'
    cases (hrunning.symm.trans (congrArg Prod.fst (handlePacket_frame g data)).symm).trans hidle'
  | round now shuffle =>
    simp only [step, ite_none_right_eq_some] at hstep
    obtain ⟨hrunning, hstep⟩ := hstep
    cases hstep
    intro hidle'
    cases (hrunning.symm.trans (congrArg Prod.fst (protocolRound_frame g now shuffle)).symm).trans
      hidle'
  | retry =>
    simp only [step, ite_none_right_eq_some] at hstep
    cases hstep.2
    rw [IdleEmpty, (retryJoin_same g).1, (retryJoin_same g).2]
    exact hidle

/-- The entry of an endpoint is in the table after an action. -/
def Stays (ep : EndPoint) (g : GossipMembership) (action : Action) : Prop :=
  ∀ g', g.step action = some g' → ep ∈ g'.members

instance (ep : EndPoint) (g : GossipMembership) (action : Action) : Decidable (Stays ep g action) :=
  inferInstanceAs (Decidable (∀ g' ∈ g.step action, _))

/-- The entry of an endpoint with an incarnation not below `floor`. -/
def AtLeast (ep : EndPoint) (floor : UInt64) (g : GossipMembership) : Prop :=
  ∃ m, g.members.lookup ep = some m ∧ floor ≤ m.incarnation

theorem step_atLeast {ep : EndPoint} {floor : UInt64} (hidle : g.IdleEmpty)
    (hfloor : g.AtLeast ep floor) (hstays : Stays ep g action)
    (hstep : g.step action = some g') : g'.AtLeast ep floor := by
  obtain ⟨m, hm, hle⟩ := hfloor
  obtain ⟨m', hm'⟩ :=
    isSome_iff_exists.mp (AList.lookup_isSome.mpr (hstays g' hstep))
  have hkept := UInt64.le_iff_toNat_le.mpr (step_keeps hidle hstep ep m m' hm hm')
  exact ⟨m', hm', UInt64.le_trans hle hkept⟩

/-- From any state the component can reach, and through any packets, rounds
and calls that leave the entry of an endpoint in the table, its incarnation
does not fall. -/
theorem incarnations_do_not_fall (protobuf : GossipProtobuf) (config : GossipConfig)
    {history actions : List Action} {g g' : GossipMembership} {ep : EndPoint} {m : Member}
    (hreach : Runs.run step { protobuf, config } history = some g)
    (hentry : g.members.lookup ep = some m)
    (hstays : Runs.EachStep step (Stays ep) g actions) (hrun : Runs.run step g actions = some g') :
    ∃ m', g'.members.lookup ep = some m' ∧ m.incarnation ≤ m'.incarnation := by
  have hidle : g.IdleEmpty := Runs.run_invariant'
    (fun _ _ _ hidle hstep => step_idleEmpty hidle hstep)
    (fun _ => rfl) hreach
  have hfloor : g.AtLeast ep m.incarnation :=
    ⟨m, hentry, UInt64.le_refl _⟩
  have hinv := @Runs.run_invariant _ _ step (Stays ep)
    (fun s => s.IdleEmpty ∧ s.AtLeast ep m.incarnation)
    (fun s action t hs hstay hstep =>
      ⟨step_idleEmpty hs.1 hstep, step_atLeast hs.1 hs.2 hstay hstep⟩)
    g g' actions ⟨hidle, hfloor⟩ hstays hrun
  exact hinv.2

namespace IncarnationWitness

def peer : EndPoint := .ipv4 0x7F000002 0

def pingOf (inc : UInt64) : PbGossipEnvelope :=
  messageEnvelope { identity := { endpoint := peer } } .ping inc 0 peer []

/-- The bytes of a ping of the peer. -/
def bytesOf (inc : UInt8) : List UInt8 :=
  [13, 67, 71, 80, 72, 16, 1, 24, 1, 82, 11, 10, 7, 10, 5, 13, 2, 0, 0, 127, 16, inc]

def library : GossipProtobuf :=
  .ofTable [(pingOf 5, bytesOf 5), (pingOf 9, bytesOf 9), (pingOf 3, bytesOf 3)]

def history : List Action := [.start true 100 0, .packet 1 (bytesOf 5)]

/-- News, an old message and a round. -/
def later : List Action :=
  [.packet 2 (bytesOf 9), .packet 3 (bytesOf 3), .round 4 fun _ eps => eps]

theorem newer_stays :
    ∃ g g' m', Runs.run step { protobuf := library, config := {} } history = some g ∧
      Runs.run step g later = some g' ∧
      g'.members.lookup peer = some m' ∧ 5 ≤ m'.incarnation := by
  have hview : (Runs.run step { protobuf := library, config := {} } history).map (fun g =>
      decide ((g.members.lookup peer).map (fun m => m.incarnation) = some 5 ∧
        Runs.EachStep step (Stays peer) g later ∧
        (Runs.run step g later).isSome)) = some true := by
    decide +kernel
  obtain ⟨g, hreach, hg⟩ := map_eq_some_iff.mp hview
  obtain ⟨hfive, hstays, hlater⟩ := of_decide_eq_true hg
  obtain ⟨m, hentry, hinc⟩ := map_eq_some_iff.mp hfive
  obtain ⟨g', hrun⟩ := isSome_iff_exists.mp hlater
  obtain ⟨m', hm', hle⟩ :=
    incarnations_do_not_fall library {} hreach hentry hstays hrun
  exact ⟨g, g', m', hreach, hrun, hm', hinc ▸ hle⟩

end IncarnationWitness

end GossipMembership

end HPActor.Gossip
