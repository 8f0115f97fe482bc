/-
What packets and rounds do to the table of members, entry by entry.  Every
handler applies updates, one after the other, through `merge_member` or
`apply_piggyback`; a round marks members and purges them.
-/
import HPActor.GossipMembership

namespace HPActor.Gossip

/-- An update and the routine it goes through. -/
inductive Update where
  | merge (remote : Member)
  | piggyback (entry : PiggybackEntry)
deriving Repr, DecidableEq

namespace Update

def endpoint : Update → EndPoint
  | .merge remote => remote.identity.endpoint
  | .piggyback entry => entry.identity.endpoint

def incarnation : Update → UInt64
  | .merge remote => remote.incarnation
  | .piggyback entry => entry.incarnation

def apply (now : Nat) (members : Table Member) : Update → Table Member
  | .merge remote => mergeMember now members remote
  | .piggyback entry => applyPiggyback now members [entry]

/-- What an update makes of the entry it is about. -/
def entry (now : Nat) (old : Option Member) : Update → Member
  | .merge remote =>
    match old with
    | none => { remote with lastSeen := now }
    | some existing =>
      if remote.incarnation ≤ existing.incarnation then existing
      else mergedMember now existing remote
  | .piggyback e =>
    match old with
    | none => introducedMember now e
    | some existing =>
      if e.incarnation < existing.incarnation then existing
      else piggybackedMember now existing e

theorem lookup_apply (now : Nat) (members : Table Member) (u : Update) :
    (u.apply now members).lookup u.endpoint = some (u.entry now (members.lookup u.endpoint)) := by
  obtain row | row := u
  all_goals
    simp only [apply, entry, endpoint, mergeMember, applyPiggyback, List.foldl_cons, List.foldl_nil,
      applyEntry]
    cases hold : members.lookup row.identity.endpoint with
    | none => exact AList.lookup_insert members
    | some existing =>
      dsimp only
      split
      · exact hold
      · exact AList.lookup_insert members

theorem lookup_apply_ne {ep : EndPoint} {u : Update} (hne : u.endpoint ≠ ep) (now : Nat)
    (members : Table Member) : (u.apply now members).lookup ep = members.lookup ep := by
  obtain row | row := u
  all_goals
    simp only [apply, mergeMember, applyPiggyback, List.foldl_cons, List.foldl_nil, applyEntry]
    split
    · exact AList.lookup_insert_ne (Ne.symm hne)
    · split
      · rfl
      · exact AList.lookup_insert_ne (Ne.symm hne)

end Update

/-- The entry of an endpoint after updates about it. -/
def entryAfter (now : Nat) (old : Option Member) (us : List Update) : Option Member :=
  us.foldl (fun old u => some (u.entry now old)) old

theorem lookup_foldl_apply (now : Nat) (ep : EndPoint) (us : List Update)
    (members : Table Member) :
    (us.foldl (fun members u => u.apply now members) members).lookup ep =
      entryAfter now (members.lookup ep) (us.filter fun u => u.endpoint = ep) := by
  induction us generalizing members with
  | nil => rfl
  | cons u rest ih =>
    rw [List.foldl_cons, ih]
    by_cases hep : u.endpoint = ep
    · subst hep
      rw [List.filter_cons_of_pos (by simp), u.lookup_apply]
      rfl
    · rw [List.filter_cons_of_neg (by simpa using hep), Update.lookup_apply_ne hep]

/-- The updates a message brings; a leave writes the entry of its sender
itself. -/
def HandlerCall.news (now : Nat) : HandlerCall → List Update
  | .handlePing sender inc _ pb | .handleAck sender inc pb | .handleJoin sender inc pb =>
    .merge { identity := { endpoint := sender }, incarnation := inc, lastSeen := now } ::
      pb.map .piggyback
  | .handlePingReq sender _ | .handleIndirectAck sender _ =>
    [.merge { identity := { endpoint := sender }, incarnation := 0, lastSeen := now }]
  | .handleSyncRsp members => members.map .merge
  | .handleLeave _ _ => []

/-- What `mark_suspicious` and `mark_dead` make of an entry. -/
def marked (now : Nat) (status : MemberStatus) (m : Member) : Member :=
  { m with status, lastSeen := now }

theorem lookup_markMember (now : Nat) (ep : EndPoint) (status : MemberStatus)
    (members : Table Member) (target : EndPoint) :
    (markMember now status members target).lookup ep =
      if target = ep then (members.lookup ep).map (marked now status) else members.lookup ep := by
  rw [markMember]
  split_ifs with heq
  · subst heq
    split
    · next hnone =>
      rw [hnone]
      rfl
    · next m hm =>
      rw [AList.lookup_insert, hm]
      rfl
  · split
    · rfl
    · exact AList.lookup_insert_ne (Ne.symm heq)

theorem lookup_foldl_markMember (now : Nat) (ep : EndPoint) (status : MemberStatus)
    (targets : List EndPoint) (members : Table Member) :
    (targets.foldl (markMember now status) members).lookup ep =
      if ep ∈ targets then (members.lookup ep).map (marked now status) else members.lookup ep := by
  induction targets generalizing members with
  | nil => simp
  | cons target rest ih =>
    rw [List.foldl_cons, ih, lookup_markMember]
    by_cases hep : target = ep
    · subst hep
      cases members.lookup target <;> simp [marked]
    · simp [hep, Ne.symm hep]

namespace GossipMembership

variable (g : GossipMembership) (now : Nat)

/-- A loop that leaves a part of the component alone. -/
theorem foldl_same {A B : Type} (part : GossipMembership → B)
    (f : GossipMembership → A → GossipMembership) (hf : ∀ g a, part (f g a) = part g) (l : List A) :
    part (l.foldl f g) = part g := by
  induction l generalizing g with
  | nil => rfl
  | cons a rest ih => exact (ih (f g a)).trans (hf g a)

/-- The part of the component that packets and timers leave alone. -/
def frame : Bool × GossipConfig :=
  (g.running, g.config)

theorem fire_frame (m : Member) (joined : Bool) :
    (g.fire m joined).members = g.members ∧ (g.fire m joined).frame = g.frame := by
  rw [fire]
  split <;> exact ⟨rfl, rfl⟩

/-- Messages other than a sync response and a leave only bring news. -/
theorem handle_members {call : HandlerCall} (hsync : ∀ members, call ≠ .handleSyncRsp members)
    (hleave : ∀ sender inc, call ≠ .handleLeave sender inc) :
    (g.handle now call).members =
      (call.news now).foldl (fun members u => u.apply now members) g.members := by
  cases call with
  | handlePing sender inc seq pb =>
    simp only [handle, handlePing, HandlerCall.news, List.foldl_cons, List.foldl_map]
    split <;> rfl
  | handleAck sender inc pb =>
    simp only [handle, handleAck, reportForwarded, HandlerCall.news, List.foldl_cons,
      List.foldl_map]
    split <;> rfl
  | handlePingReq sender target => rfl
  | handleIndirectAck sender target =>
    simp only [handle, handleIndirectAck]
    split
    · rfl
    · split <;> rfl
  | handleJoin sender inc pb =>
    simp only [HandlerCall.news, List.foldl_cons, List.foldl_map]
    rfl
  | handleSyncRsp members => exact absurd rfl (hsync members)
  | handleLeave sender inc => exact absurd rfl (hleave sender inc)

theorem handle_frame (call : HandlerCall) : (g.handle now call).frame = g.frame := by
  cases call with
  | handlePing sender inc seq pb =>
    simp only [handle, handlePing]
    split <;> rfl
  | handleAck sender inc pb =>
    simp only [handle, handleAck, reportForwarded]
    split <;> rfl
  | handlePingReq sender target | handleJoin sender inc pb => rfl
  | handleIndirectAck sender target =>
    simp only [handle, handleIndirectAck]
    split
    · rfl
    · split <;> rfl
  | handleSyncRsp members =>
    simp only [handle, handleSyncRsp, ensureSelf]
    split <;> rfl
  | handleLeave sender inc =>
    simp only [handle, handleLeave]
    split
    · rfl
    · split
      · exact (fire_frame _ _ _).2
      · rfl

section

variable (shuffle : Option EndPoint → List EndPoint → List EndPoint)

/-- The pings that have expired by a round. -/
def expired : Expired :=
  ((g.pendingPings.entries.filter fun e => decide (e.2.expiresAt ≤ now)).map fun e => e.1).foldl
    (expirePing now shuffle) { node := g }

theorem expirePings_same (late : List EndPoint) (e : Expired) :
    (late.foldl (expirePing now shuffle) e).node.members = e.node.members ∧
      (late.foldl (expirePing now shuffle) e).node.frame = e.node.frame := by
  induction late generalizing e with
  | nil => exact ⟨rfl, rfl⟩
  | cons target rest ih =>
    rw [List.foldl_cons, (ih _).1, (ih _).2]
    simp only [expirePing]
    split
    · exact ⟨rfl, rfl⟩
    · split
      · exact ⟨rfl, rfl⟩
      · split <;> exact ⟨rfl, rfl⟩

theorem checkPings_members : (g.checkPings now shuffle).members =
    (g.expired now shuffle).suspects.foldl (markMember now .suspicious) g.members := by
  have hfold (targets : List EndPoint) (node : GossipMembership) :
      (targets.foldl (fun node target => node.markSuspicious now target) node).members =
        targets.foldl (markMember now .suspicious) node.members := by
    induction targets generalizing node with
    | nil => rfl
    | cons target rest ih => exact ih _
  have hexpired : (g.expired now shuffle).node.members = g.members :=
    (expirePings_same now shuffle _ { node := g }).1
  have hasked := foldl_same (g.expired now shuffle).node (·.members)
    (fun node (req : EndPoint × EndPoint) => node.sendPingReq req.1 req.2) (fun _ _ => rfl)
    (g.expired now shuffle).pingReqs
  rw [← hexpired, ← hasked, ← hfold]
  rfl

theorem checkPings_frame : (g.checkPings now shuffle).frame = g.frame :=
  ((foldl_same _ frame (fun node target => node.markSuspicious now target) (fun _ _ => rfl) _).trans
    (foldl_same _ frame (fun node (req : EndPoint × EndPoint) => node.sendPingReq req.1 req.2)
      (fun _ _ => rfl) _)).trans (expirePings_same now shuffle _ _).2

theorem pingPeers_same : (g.pingPeers now shuffle).members = g.members ∧
    (g.pingPeers now shuffle).frame = g.frame := by
  have hping (pb : List PiggybackEntry) (targets : List EndPoint) :
      (targets.foldl (pingPeer now pb) g).members = g.members ∧
        (targets.foldl (pingPeer now pb) g).frame = g.frame :=
    ⟨foldl_same g (·.members) (pingPeer now pb) (fun _ _ => rfl) targets,
      foldl_same g frame (pingPeer now pb) (fun _ _ => rfl) targets⟩
  simp only [pingPeers]
  split
  · exact ⟨rfl, rfl⟩
  · split <;> exact hping _ _

/-- The members a round declares dead. -/
def overdue : List EndPoint :=
  (g.members.entries.filter fun e => decide (e.2.status = .suspicious ∧
    e.2.lastSeen + g.config.suspicionTimeout < now)).map fun e => e.1

theorem markDead_same (ep : EndPoint) :
    (g.markDead now ep).members = markMember now .dead g.members ep ∧
      (g.markDead now ep).frame = g.frame := by
  rw [markDead]
  split
  · next hnone =>
    exact ⟨by simp only [markMember, hnone], rfl⟩
  · exact fire_frame _ _ _

theorem checkSuspects_members : (g.checkSuspects now).members =
    (g.overdue now).foldl (markMember now .dead) g.members := by
  have hfold (targets : List EndPoint) (node : GossipMembership) :
      (targets.foldl (fun node target => node.markDead now target) node).members =
        targets.foldl (markMember now .dead) node.members := by
    induction targets generalizing node with
    | nil => rfl
    | cons target rest ih => rw [List.foldl_cons, List.foldl_cons, ih, (markDead_same _ _ _).1]
  exact hfold _ g

theorem protocolRound_frame : (g.protocolRound now shuffle).frame = g.frame :=
  ((foldl_same _ frame _ (fun node ep => (markDead_same node now ep).2) _).trans
    (pingPeers_same _ now shuffle).2).trans (checkPings_frame g now shuffle)

end

end GossipMembership

end HPActor.Gossip
