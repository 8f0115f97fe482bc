/-
How long a suspected member stays.  A round declares a suspected member dead,
and purges a dead one, when enough time has passed since `last_seen`, and a
piggybacked rumour writes `last_seen` anew.  The entry of one member is
followed through a run and compared with what the rounds of the run would make
of it without the rumours.
-/
import HPActor.GossipConvergence
import HPActor.GossipIncarnations

namespace HPActor.Gossip

open Option List

/-- What happens to the entry of a member: an update about it arrives, or a
round runs, in which a ping of the member may turn out to have expired. -/
inductive EntryEvent where
  | hears (now : Nat) (u : Update)
  | round (now : Nat) (suspected : Bool)
deriving DecidableEq

def EntryEvent.time : EntryEvent → Nat
  | .hears now _ => now
  | .round now _ => now

def roundEntry (config : GossipConfig) (now : Nat) (suspected : Bool) (old : Option Member) :
    Option Member :=
  let probed := if suspected then old.map (marked now .suspicious) else old
  let checked := probed.map fun m =>
    if m.status = .suspicious ∧ m.lastSeen + config.suspicionTimeout < now then marked now .dead m
    else m
  checked.filter fun m => !purgeable config now m

def entryStep (config : GossipConfig) (old : Option Member) : EntryEvent → Option Member
  | .hears now u => some (u.entry now old)
  | .round now suspected => roundEntry config now suspected old

/-- The entry after events. -/
def told (config : GossipConfig) (old : Option Member) (events : List EntryEvent) : Option Member :=
  events.foldl (entryStep config) old

/-- The entry is there before every event and after the last one. -/
def Present (step : Option Member → EntryEvent → Option Member) :
    Option Member → List EntryEvent → Prop
  | old, [] => old.isSome
  | old, e :: rest => old.isSome ∧ Present step (step old e) rest

namespace GossipMembership

/-- What an action is to the entry of an endpoint. -/
def events (ep : EndPoint) (g : GossipMembership) : Action → List EntryEvent
  | .packet now data =>
    ((dispatch g.protobuf now data).elim [] fun call =>
      (call.news now).filter fun u => u.endpoint = ep).map (.hears now)
  | .round now shuffle => [.round now (decide (ep ∈ (g.expired now shuffle).suspects))]
  | _ => []

def history (ep : EndPoint) : GossipMembership → List Action → List EntryEvent
  | _, [] => []
  | g, action :: rest =>
    g.events ep action ++ (g.step action).elim [] fun g' => history ep g' rest

/-- The component goes on, and the endpoint does not say that it leaves. -/
def Unleft (ep : EndPoint) (g : GossipMembership) : Action → Prop
  | .start _ _ _ | .stop => False
  | .packet now data =>
    match dispatch g.protobuf now data with
    | some (.handleLeave sender _) => sender ≠ ep
    | _ => True
  | _ => True

instance (ep : EndPoint) (g : GossipMembership) (action : Action) :
    Decidable (Unleft ep g action) := by
  unfold Unleft
  split
  · infer_instance
  · infer_instance
  · split <;> infer_instance
  · infer_instance

variable {g g' : GossipMembership} {now : Nat} {ep : EndPoint} {action : Action}

theorem ensureSelf_lookup (hpresent : ep ∈ g.members) :
    (g.ensureSelf now).members.lookup ep = g.members.lookup ep := by
  rw [ensureSelf]
  split
  · rfl
  · next hnone =>
    apply AList.lookup_insert_ne
    rintro rfl
    exact AList.lookup_eq_none.mp hnone hpresent

theorem handle_lookup {call : HandlerCall} (hpresent : ep ∈ g.members)
    (hleave : ∀ inc, call ≠ .handleLeave ep inc) :
    (g.handle now call).members.lookup ep =
      entryAfter now (g.members.lookup ep) ((call.news now).filter fun u => u.endpoint = ep) := by
  rw [← lookup_foldl_apply]
  cases call with
  | handleSyncRsp members =>
    obtain ⟨m, hm⟩ := isSome_iff_exists.mp (AList.lookup_isSome.mpr hpresent)
    obtain ⟨m', hm', -⟩ := VersionedTable.Grows.foldl (@ahead_apply now) (members.map .merge)
      g.members ep m hm
    rw [HandlerCall.news]
    rw [foldl_map] at hm' ⊢
    apply ensureSelf_lookup (g := { g with members := _, joinRetry := false })
    rw [← AList.lookup_isSome]
    exact isSome_iff_exists.mpr ⟨m', hm'⟩
  | handleLeave sender inc =>
    have hne : ep ≠ sender := fun heq => hleave inc (heq ▸ rfl)
    simp only [handle, handleLeave, HandlerCall.news, foldl_nil]
    split
    · rfl
    · split
      · rw [(fire_frame _ _ _).1, AList.lookup_insert_ne hne]
      · rfl
  | _ => rw [handle_members g now (by simp) (by simp)]

theorem overdue_iff {m : Member} (hm : g.members.lookup ep = some m) :
    ep ∈ g.overdue now ↔
      m.status = .suspicious ∧ m.lastSeen + g.config.suspicionTimeout < now := by
  simp only [overdue, List.mem_map, mem_filter, decide_eq_true_eq]
  constructor
  · rintro ⟨⟨k, m'⟩, ⟨hmem, hlate⟩, rfl⟩
    have hm' := AList.mem_lookup_iff.mpr hmem
    rw [Option.mem_def, hm, some.injEq] at hm'
    exact hm' ▸ hlate
  · intro hlate
    exact ⟨⟨ep, m⟩, ⟨AList.mem_lookup_iff.mp hm, hlate⟩, rfl⟩

theorem protocolRound_lookup (shuffle : Option EndPoint → List EndPoint → List EndPoint) :
    (g.protocolRound now shuffle).members.lookup ep =
      roundEntry g.config now (decide (ep ∈ (g.expired now shuffle).suspects))
        (g.members.lookup ep) := by
  have hframe := (pingPeers_same _ now shuffle).2.trans (checkPings_frame g now shuffle)
  have hconfig : (((g.checkPings now shuffle).pingPeers now shuffle).checkSuspects now).config =
      g.config := congrArg Prod.snd (protocolRound_frame g now shuffle)
  have hprobed : ((g.checkPings now shuffle).pingPeers now shuffle).members.lookup ep =
      if ep ∈ (g.expired now shuffle).suspects then
        (g.members.lookup ep).map (marked now .suspicious) else g.members.lookup ep := by
    rw [(pingPeers_same _ now shuffle).1, checkPings_members, lookup_foldl_markMember]
  rw [protocolRound, purgeDeadTombstones, VersionedTable.lookup_filter, hconfig,
    checkSuspects_members, lookup_foldl_markMember]
  simp only [roundEntry, decide_eq_true_eq, ← hprobed]
  congr 1
  cases hm : ((g.checkPings now shuffle).pingPeers now shuffle).members.lookup ep with
  | none => simp
  | some m =>
    have hsame : ((g.checkPings now shuffle).pingPeers now shuffle).config = g.config :=
      congrArg Prod.snd hframe
    simp only [overdue_iff hm, hsame]
    split <;> simp [*]

theorem foldl_hears (config : GossipConfig) (now : Nat) (old : Option Member) (us : List Update) :
    told config old (us.map (.hears now)) = entryAfter now old us := by
  rw [told, foldl_map]
  rfl

/-- A step does to the entry what its events say, with the same timeouts. -/
theorem step_entry (hpresent : ep ∈ g.members) (hunleft : Unleft ep g action)
    (hstep : g.step action = some g') :
    g'.members.lookup ep = told g.config (g.members.lookup ep) (g.events ep action) ∧
      entryStep g'.config = entryStep g.config := by
  cases action with
  | start bound wallClock now => cases hunleft
  | stop => cases hunleft
  | announce now localState | onMemberChange =>
    cases hstep
    exact ⟨rfl, rfl⟩
  | packet now data =>
    simp only [step, ite_none_right_eq_some] at hstep
    cases hstep.2
    have hconfig : (g.handlePacket now data).config = g.config :=
      congrArg Prod.snd (handlePacket_frame g data)
    refine ⟨?_, by rw [hconfig]⟩
    simp only [Unleft] at hunleft
    rw [events, foldl_hears, handlePacket]
    cases hcall : dispatch g.protobuf now data with
    | none => rfl
    | some call =>
      rw [hcall] at hunleft
      apply handle_lookup hpresent
      rintro inc rfl
      exact hunleft rfl
  | round now shuffle =>
    simp only [step, ite_none_right_eq_some] at hstep
    cases hstep.2
    have hconfig : (g.protocolRound now shuffle).config = g.config :=
      congrArg Prod.snd (protocolRound_frame g now shuffle)
    exact ⟨protocolRound_lookup shuffle, by rw [hconfig]⟩
  | retry =>
    simp only [step, ite_none_right_eq_some] at hstep
    cases hstep.2
    rw [(retryJoin_same g).1]
    refine ⟨rfl, ?_⟩
    simp only [retryJoin]
    split
    · rfl
    · split <;> rfl

theorem present_hears (config : GossipConfig) (now : Nat) (us : List Update) {old : Option Member}
    (hold : old.isSome) : Present (entryStep config) old (us.map (.hears now)) := by
  induction us generalizing old with
  | nil => exact hold
  | cons u rest ih => exact ⟨hold, ih rfl⟩

theorem present_append {step : Option Member → EntryEvent → Option Member} {old : Option Member}
    {front later : List EntryEvent} (hfront : Present step old front)
    (hlater : Present step (front.foldl step old) later) : Present step old (front ++ later) := by
  induction front generalizing old with
  | nil => exact hlater
  | cons e rest ih => exact ⟨hfront.1, ih hfront.2 hlater⟩

/-- The entry after a run, as long as it stays in the table. -/
theorem run_told {actions : List Action} (hpresent : ep ∈ g.members)
    (heach : Runs.EachStep step (fun g action => Stays ep g action ∧ Unleft ep g action) g actions)
    (hrun : Runs.run step g actions = some g') :
    g'.members.lookup ep = told g.config (g.members.lookup ep) (history ep g actions) ∧
      Present (entryStep g.config) (g.members.lookup ep) (history ep g actions) := by
  have hold := AList.lookup_isSome.mpr hpresent
  induction actions generalizing g with
  | nil =>
    cases hrun
    exact ⟨rfl, hold⟩
  | cons action rest ih =>
    obtain ⟨mid, hstep, hrest⟩ := Runs.run_cons_eq_some.mp hrun
    obtain ⟨hstays, hunleft⟩ := heach.head
    obtain ⟨hentry, hsame⟩ := step_entry hpresent hunleft hstep
    have hmid := AList.lookup_isSome.mpr (hstays mid hstep)
    obtain ⟨hlast, hlater⟩ := ih (hstays mid hstep) (heach.tail hstep) hrest hmid
    rw [told, hsame, hentry] at hlast
    rw [hsame, hentry] at hlater
    rw [hentry] at hmid
    simp only [history, hstep, elim_some]
    refine ⟨by rw [hlast, told, told, foldl_append], present_append ?_ hlater⟩
    -- a packet takes no entry away, and a round is one event
    cases action with
    | packet now data => exact present_hears g.config now _ hold
    | round now shuffle => exact ⟨hold, hmid⟩
    | _ => exact hold

end GossipMembership

/-- How far an entry has come: suspected, dead, purged. -/
def stage : Option Member → Nat
  | none => 2
  | some m => if m.status = .dead then 1 else 0

def Timed (now : Nat) (events : List EntryEvent) : Prop :=
  (now :: events.map EntryEvent.time).Pairwise (· ≤ ·)

def afterRounds (config : GossipConfig) (old : Option Member) (rounds : List (Nat × Bool)) :
    Option Member :=
  rounds.foldl (fun m round => roundEntry config round.1 round.2 m) old

/-- Rounds bring the entry `old` as far as `other`, at whatever times from `now`
on they run. -/
def Overtakes (config : GossipConfig) (now : Nat) (old other : Option Member) : Prop :=
  ∀ rounds, (now :: rounds.map Prod.fst).Pairwise (· ≤ ·) →
    stage (afterRounds config other rounds) ≤ stage (afterRounds config old rounds)

/-- Wherever the events are broken off, further rounds bring the entry `old` as far
as they would have brought `other` without the rumours. -/
def NeverLater (config : GossipConfig) :
    Nat → Option Member → Option Member → List EntryEvent → Prop
  | now, old, other, [] => Overtakes config now old other
  | now, old, other, .hears later u :: rest =>
    Overtakes config now old other ∧ NeverLater config later (some (u.entry later old)) other rest
  | now, old, other, .round later suspected :: rest =>
    Overtakes config now old other ∧ NeverLater config later
      (roundEntry config later suspected old) (roundEntry config later suspected other) rest

/-- An update that does not prove the member alive: it is not newer, and one that
is piggybacked at the known incarnation says suspicious or dead. -/
def EntryEvent.Rumour (inc : UInt64) : EntryEvent → Prop
  | .hears _ u => u.incarnation ≤ inc ∧ (u.isPiggyback = true → u.incarnation = inc →
      u.status = some .suspicious ∨ u.status = some .dead)
  | .round _ _ => True

/-- The rumour says dead of a member that is suspected, or it says what is known
at the very time from which this is counted. -/
def Harmless (now : Nat) (u : Update) (old : Option Member) : Prop :=
  ∃ m ∈ old, u.status = some .dead ∧ m.status = .suspicious ∨
    u.status = some m.status ∧ now ≤ m.lastSeen

/-- Every piggybacked rumour is harmless to what the rounds alone leave of the
entry. -/
def Spares (config : GossipConfig) (inc : UInt64) : Option Member → List EntryEvent → Prop
  | _, [] => True
  | old, .hears now u :: rest =>
    (u.isPiggyback = true → u.incarnation = inc → Harmless now u old) ∧ Spares config inc old rest
  | old, .round now suspected :: rest =>
    Spares config inc (roundEntry config now suspected old) rest

/-- A suspected or dead member, last seen by `now`. -/
structure Condemned (inc : UInt64) (now : Nat) (m : Member) : Prop where
  status : m.status = .suspicious ∨ m.status = .dead
  seen : m.lastSeen ≤ now
  incarnation : m.incarnation = inc

/-- The first entry has come as far as the second, and its time runs from no
later. -/
def NotBehind : Option Member → Option Member → Prop
  | none, _ => True
  | some _, none => False
  | some m, some other =>
    m.status = .dead ∧ other.status = .suspicious ∨
      m.status = other.status ∧ m.lastSeen ≤ other.lastSeen

/-- The entry of a run and the one that only the rounds have changed. -/
structure Abreast (inc : UInt64) (now : Nat) (old other : Option Member) : Prop where
  notBehind : NotBehind old other
  condemned : ∀ m ∈ old, Condemned inc now m
  other_condemned : ∀ m ∈ other, Condemned inc now m

section

variable {config : GossipConfig} {inc : UInt64} {now later : Nat} {old other : Option Member}
  {m : Member} {u : Update}

theorem Condemned.mono (hm : Condemned inc now m) (hlater : now ≤ later) :
    Condemned inc later m :=
  ⟨hm.status, hm.seen.trans hlater, hm.incarnation⟩

/-- A suspected member is declared dead, a dead one is purged; a suspicion counts
anew. -/
theorem roundEntry_some (suspected : Bool)
    (hm : m.status = .suspicious ∨ m.status = .dead) :
    roundEntry config now suspected (some m) =
      if suspected then some (marked now .suspicious m)
      else if m.status = .suspicious then
        some (if m.lastSeen + config.suspicionTimeout < now then marked now .dead m else m)
      else if m.lastSeen + config.deadTimeout < now then none else some m := by
  cases suspected with
  | true => simp [roundEntry, purgeable, marked, Option.filter]
  | false =>
    rcases hm with hm | hm
    · by_cases hlate : m.lastSeen + config.suspicionTimeout < now <;>
        simp [roundEntry, purgeable, marked, Option.filter, hm, hlate]
    · by_cases hlate : m.lastSeen + config.deadTimeout < now <;>
        simp [roundEntry, purgeable, Option.filter, hm, hlate]

theorem condemned_round (hold : ∀ m ∈ old, Condemned inc now m) (hlater : now ≤ later)
    (suspected : Bool) : ∀ m ∈ roundEntry config later suspected old, Condemned inc later m := by
  cases old with
  | none => cases suspected <;> exact fun m hm => by cases hm
  | some x =>
    have hx := (hold x rfl).mono hlater
    rw [roundEntry_some suspected hx.status]
    have hmarked (status : MemberStatus) (h : status = .suspicious ∨ status = .dead) :
        Condemned inc later (marked later status x) := ⟨h, le_rfl, hx.incarnation⟩
    split_ifs <;> simp [hx, hmarked]

theorem Abreast.round (h : Abreast inc now old other) (hlater : now ≤ later) (suspected : Bool) :
    Abreast inc later (roundEntry config later suspected old)
      (roundEntry config later suspected other) := by
  refine ⟨?_, condemned_round h.condemned hlater suspected,
    condemned_round h.other_condemned hlater suspected⟩
  have hbehind := h.notBehind
  cases old with
  | none => cases suspected <;> trivial
  | some x =>
    cases other with
    | none => cases hbehind
    | some y =>
      have hx := h.condemned x rfl
      have hy := h.other_condemned y rfl
      have hxseen := hx.seen
      rw [roundEntry_some suspected hx.status, roundEntry_some suspected hy.status]
      rcases hbehind with ⟨hdead, hsuspicious⟩ | ⟨hsame, hle⟩
      · split_ifs <;> simp_all [NotBehind, marked]
        omega
      · rw [hsame]
        split_ifs <;> simp_all [NotBehind, marked] <;> omega

theorem Abreast.stage_le (h : Abreast inc now old other) : stage other ≤ stage old := by
  have hbehind := h.notBehind
  cases old with
  | none => cases other <;> simp [stage]; split <;> omega
  | some x =>
    cases other with
    | none => cases hbehind
    | some y =>
      rcases hbehind with ⟨hdead, hsuspicious⟩ | ⟨hsame, -⟩
      · simp [stage, hdead, hsuspicious]
      · simp [stage, hsame]

/-- A rumour that is merged, or older, changes nothing; one that is piggybacked
is written down with the time. -/
theorem rumour_entry (hm : Condemned inc now m) (hu : (EntryEvent.hears later u).Rumour inc) :
    u.entry later (some m) = m ∧ ¬ (u.isPiggyback = true ∧ u.incarnation = inc) ∨
      (u.isPiggyback = true ∧ u.incarnation = inc) ∧
        u.status = some (u.entry later (some m)).status ∧
        (u.entry later (some m)).lastSeen = later ∧
        Condemned inc later (u.entry later (some m)) := by
  obtain ⟨hle, hstatus⟩ := hu
  cases u with
  | merge remote =>
    refine .inl ⟨if_pos (hle.trans_eq hm.incarnation.symm), ?_⟩
    rintro ⟨hpiggyback, -⟩
    cases hpiggyback
  | piggyback e =>
    by_cases hinc : e.incarnation = inc
    · right
      have hfresh : (Update.piggyback e).entry later (some m) = piggybackedMember later m e := by
        apply if_neg
        rw [hinc, hm.incarnation]
        exact UInt64.lt_irrefl inc
      rw [hfresh]
      have htype : e.type = .suspicious ∨ e.type = .dead := by
        have htold := hstatus rfl hinc
        simp only [Update.status, PiggybackType.status] at htold
        split at htold <;> simp_all
      have hinc' : e.incarnation = inc := hinc
      rcases htype with htype | htype <;>
        refine ⟨⟨rfl, hinc⟩, ?_, ?_, ?_, ?_, ?_⟩ <;>
          simp [piggybackedMember, Update.status, PiggybackType.status, htype, hinc']
    · left
      have hlt : e.incarnation < m.incarnation := by
        rw [hm.incarnation]
        exact UInt64.lt_of_le_of_ne hle hinc
      exact ⟨if_pos hlt, fun hboth => hinc hboth.2⟩

theorem Abreast.hears (h : Abreast inc now (some m) other) (hlater : now ≤ later)
    (hu : (EntryEvent.hears later u).Rumour inc)
    (hharmless : u.isPiggyback = true → u.incarnation = inc → Harmless later u other) :
    Abreast inc later (some (u.entry later (some m))) other := by
  have hm := h.condemned m rfl
  have hother (x : Member) (hx : x ∈ other) := (h.other_condemned x hx).mono hlater
  rcases rumour_entry hm hu with ⟨hsame, -⟩ | ⟨⟨hpiggyback, hinc⟩, htold, hseen, hnew⟩
  · rw [hsame]
    exact ⟨h.notBehind, fun x hx => (h.condemned x hx).mono hlater, hother⟩
  · refine ⟨?_, fun x hx => mem_some.mp hx ▸ hnew, hother⟩
    obtain ⟨y, rfl, hy⟩ := hharmless hpiggyback hinc
    rw [htold, some.injEq, some.injEq] at hy
    rw [NotBehind, hseen]
    exact hy

theorem Abreast.overtakes (h : Abreast inc now old other) : Overtakes config now old other := by
  intro rounds htimed
  induction rounds generalizing now old other with
  | nil => exact h.stage_le
  | cons round rest ih =>
    obtain ⟨hfirst, hrest⟩ := pairwise_cons.mp htimed
    exact ih (h.round (hfirst round.1 mem_cons_self) round.2) hrest

theorem NeverLater.overtakes {events : List EntryEvent}
    (hnever : NeverLater config now old other events) : Overtakes config now old other := by
  cases events with
  | nil => exact hnever
  | cons e rest => cases e <;> exact hnever.1

/-- An entry written at `now` comes as far as another in any rounds only if it is
dead or the other one's time does not run from before. -/
theorem harmless_of_overtakes (hm : Condemned inc now m) (hseen : m.lastSeen = now)
    (htold : u.status = some m.status) (hother : ∀ x ∈ other, Condemned inc now x)
    (hfar : Overtakes config now (some m) other) : Harmless now u other := by
  have hnow : stage other ≤ stage (some m) := hfar [] (by simp)
  cases other with
  | none =>
    simp only [stage] at hnow
    split at hnow <;> omega
  | some x =>
    have hx := hother x rfl
    refine ⟨x, rfl, ?_⟩
    rw [htold, some.injEq, some.injEq]
    have hround (timeout : Nat) :
        stage (roundEntry config (max now (x.lastSeen + timeout + 1)) false (some x)) ≤
          stage (roundEntry config (max now (x.lastSeen + timeout + 1)) false (some m)) :=
      hfar [(max now (x.lastSeen + timeout + 1), false)] (by simp)
    simp only [roundEntry_some false hx.status, roundEntry_some false hm.status, hseen,
      Bool.false_eq_true, if_false] at hround
    rcases hm.status with hstatus | hstatus <;> rcases hx.status with hxstatus | hxstatus
    · refine .inr ⟨hstatus.trans hxstatus.symm, ?_⟩
      by_contra hbefore
      have hlate := hround config.suspicionTimeout
      rw [if_pos hxstatus, if_pos hstatus, if_pos (by omega), if_neg (by omega)] at hlate
      simp [stage, marked, hstatus] at hlate
    · simp [stage, hstatus, hxstatus] at hnow
    · exact .inl ⟨hstatus, hxstatus⟩
    · refine .inr ⟨hstatus.trans hxstatus.symm, ?_⟩
      by_contra hbefore
      have hlate := hround config.deadTimeout
      simp only [hxstatus, hstatus, reduceCtorEq, if_false] at hlate
      rw [if_pos (by omega), if_neg (by omega)] at hlate
      simp [stage, hstatus] at hlate

/-- Rumours postpone nothing exactly if they are harmless. -/
theorem neverLater_iff {events : List EntryEvent} (hrumours : ∀ e ∈ events, e.Rumour inc)
    (htimed : Timed now events) (hpresent : Present (entryStep config) old events)
    (h : Abreast inc now old other) :
    NeverLater config now old other events ↔ Spares config inc other events := by
  induction events generalizing now old other with
  | nil => exact iff_of_true h.overtakes trivial
  | cons e rest ih =>
    obtain ⟨hrumour, hothers⟩ := forall_mem_cons.mp hrumours
    obtain ⟨hfirst, hrest⟩ := pairwise_cons.mp htimed
    have hlater := hfirst e.time mem_cons_self
    cases e with
    | hears later u =>
      obtain ⟨m, rfl⟩ := isSome_iff_exists.mp hpresent.1
      have hnext
          (hharmless : u.isPiggyback = true → u.incarnation = inc → Harmless later u other) :=
        ih hothers hrest hpresent.2 (h.hears hlater hrumour hharmless)
      rw [NeverLater, Spares, and_iff_right h.overtakes]
      constructor
      · intro hnever
        have hharmless (hpiggyback : u.isPiggyback = true) (hinc : u.incarnation = inc) :
            Harmless later u other := by
          rcases rumour_entry (h.condemned m rfl) hrumour with ⟨-, hnot⟩ | ⟨-, htold, hseen, hnew⟩
          · exact absurd ⟨hpiggyback, hinc⟩ hnot
          · exact harmless_of_overtakes hnew hseen htold
              (fun x hx => (h.other_condemned x hx).mono hlater) hnever.overtakes
        exact ⟨hharmless, (hnext hharmless).mp hnever⟩
      · rintro ⟨hharmless, hspares⟩
        exact (hnext hharmless).mpr hspares
    | round later suspected =>
      rw [NeverLater, Spares, and_iff_right h.overtakes]
      exact ih hothers hrest hpresent.2 (h.round hlater suspected)

end

open GossipMembership in
/-- The entry after a run without news of the member; and the rumours of the run
postpone no later round's verdict on it exactly if every piggybacked one is
harmless. -/
theorem rumours_postpone_nothing_iff {g g' : GossipMembership} {ep : EndPoint} {m : Member}
    {actions : List Action} (hentry : g.members.lookup ep = some m)
    (hstatus : m.status = .suspicious ∨ m.status = .dead)
    (heach : Runs.EachStep step (fun g action => Stays ep g action ∧ Unleft ep g action) g actions)
    (hrun : Runs.run step g actions = some g') (htimed : Timed m.lastSeen (history ep g actions))
    (hrumours : ∀ e ∈ history ep g actions, e.Rumour m.incarnation) :
    g'.members.lookup ep = told g.config (some m) (history ep g actions) ∧
      (NeverLater g.config m.lastSeen (some m) (some m) (history ep g actions) ↔
        Spares g.config m.incarnation (some m) (history ep g actions)) := by
  have hpresent : ep ∈ g.members :=
    AList.lookup_isSome.mp (isSome_iff_exists.mpr ⟨m, hentry⟩)
  obtain ⟨hlast, hstays⟩ := run_told hpresent heach hrun
  rw [hentry] at hlast hstays
  have hcondemned : ∀ x ∈ some m, Condemned m.incarnation m.lastSeen x := by
    rintro x ⟨⟩
    exact ⟨hstatus, le_rfl, rfl⟩
  exact ⟨hlast, neverLater_iff hrumours htimed hstays
    ⟨.inr ⟨rfl, le_rfl⟩, hcondemned, hcondemned⟩⟩

namespace TimeoutWitness

open GossipMembership

def peer : EndPoint := .ipv4 0x7F000002 0

/-- A ping of another node that passes a rumour about the peer on. -/
def rumourPing (type : PiggybackType) : PbGossipEnvelope :=
  messageEnvelope { identity := { endpoint := .ipv4 0x7F000003 0 } } .ping 1 0 peer
    [{ type, identity := { endpoint := peer }, incarnation := 5 }]

def bytesOf (type : UInt8) : List UInt8 :=
  [13, 67, 71, 80, 72, 16, 1, 24, 1, 82, 26, 10, 7, 10, 5, 13, 3, 0, 0, 127, 16, 1, 34, 13, 8, type,
    18, 7, 10, 5, 13, 2, 0, 0, 127, 24, 5]

/-- The peer is suspected since the clock started. -/
def suspecting : GossipMembership where
  protobuf := .ofTable [(rumourPing .suspicious, bytesOf 2), (rumourPing .dead, bytesOf 3)]
  config := {}
  running := true
  members := AList.singleton peer { status := .suspicious, incarnation := 5 }

def roundAt (now : Nat) : Action := .round now fun _ eps => eps

/-- After a rumour that the peer is suspected the round after three seconds does
not declare it dead. -/
theorem rumour_postpones :
    let last (actions : List Action) := (Runs.run step suspecting actions).bind fun g =>
      (g.members.lookup peer).map Member.status
    last [roundAt 3001] = some .dead ∧
      last [.packet 2500 (bytesOf 2), roundAt 3001] = some .suspicious := by
  decide +kernel

def deadRumour : List Action := [roundAt 1000, .packet 2500 (bytesOf 3)]

theorem history_deadRumour : history peer suspecting deadRumour =
    [.round 1000 false, .hears 2500 (.piggyback
      { type := .dead, identity := { endpoint := peer }, incarnation := 5 })] := by
  decide +kernel

/-- A rumour that the peer is dead postpones nothing. -/
theorem dead_rumour_harmless :
    NeverLater {} 0 (some { status := .suspicious, incarnation := 5 })
      (some { status := .suspicious, incarnation := 5 }) (history peer suspecting deadRumour) := by
  have hlast := Option.some_get (by decide +kernel : (Runs.run step suspecting deadRumour).isSome)
  refine (@rumours_postpone_nothing_iff suspecting _ peer
    { status := .suspicious, incarnation := 5 } deadRumour rfl (.inl rfl)
    (by decide +kernel) hlast.symm ?_ ?_).2.mpr ?_
  · rw [history_deadRumour]
    exact (by decide : [0, 1000, 2500].Pairwise (· ≤ ·))
  · rw [history_deadRumour]
    exact forall_mem_cons.mpr ⟨trivial, forall_mem_singleton.mpr ⟨by decide, fun _ _ => .inr rfl⟩⟩
  · rw [history_deadRumour]
    exact ⟨fun _ _ => ⟨_, rfl, .inl ⟨rfl, rfl⟩⟩, trivial⟩

end TimeoutWitness

end HPActor.Gossip
