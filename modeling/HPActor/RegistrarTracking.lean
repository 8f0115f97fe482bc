/-
The registry of the registrar server follows the open connections, in every run
in which nodes register under the endpoint their connection comes from.
-/
import HPActor.RegistrarServer

namespace HPActor.RegistrarServer

open Option NodeRegistry List

variable {inet : InetLibrary} {s t : RegistrarServer}

/-- Descriptors and peers are used once, a registered node has its entry under
its own endpoint with the time it was last heard of, and no other entry is
dynamic. -/
structure Tracked (s : RegistrarServer) : Prop where
  same : ∀ p ∈ s.connections, ∀ q ∈ s.connections,
    p.fd = q.fd ∨ p.remoteEndpoint = q.remoteEndpoint → p = q
  own : ∀ p ∈ s.connections, ∀ ep ∈ p.registered,
    ep = p.remoteEndpoint ∧ ep.isUnspecified = false ∧ ∃ node,
      s.registry.endpoints ep = some node ∧ node.isStaticRoute = false ∧ node.lastSeen = p.lastBeat
  only : ∀ ep, s.Dynamic ep → ∃ p ∈ s.connections, p.registered = some ep

theorem Tracked.tracks (hs : Tracked s) : s.Tracks := by
  intro ep
  constructor
  · exact hs.only ep
  · rintro ⟨p, hp, hregistered⟩
    obtain ⟨-, -, node, hnode, hstatic, -⟩ := hs.own p hp ep hregistered
    exact ⟨node, hnode, hstatic⟩

variable {fd : Nat} {conn : RegistrarPeer} {change : RegistrarPeer → RegistrarPeer}

theorem peerAt_some (hconn : s.peerAt fd = some conn) : conn ∈ s.connections ∧ conn.fd = fd := by
  refine ⟨mem_of_find?_eq_some hconn, ?_⟩
  simpa using find?_some hconn

theorem mem_note {q : RegistrarPeer} :
    q ∈ (s.note fd change).connections ↔
      ∃ p ∈ s.connections, (if p.fd = fd then change p else p) = q := by
  simp only [note, List.mem_map]

theorem handleAccept_tracked {remote : EndPoint} (hs : Tracked s)
    (hfree : ∀ p ∈ s.connections, p.fd ≠ fd ∧ p.remoteEndpoint ≠ remote) :
    Tracked (s.handleAccept fd remote) := by
  have hmem : ∀ p ∈ (s.handleAccept fd remote).connections, p ∈ s.connections ∨
        p = { fd, remoteEndpoint := remote, lastBeat := s.clock } := by
    intro p hp
    simpa [handleAccept] using hp
  refine ⟨?_, ?_, ?_⟩
  · intro p hp q hq hsame
    rcases hmem p hp with hp | rfl <;> rcases hmem q hq with hq | rfl
    · exact hs.same p hp q hq hsame
    · exact absurd hsame (not_or.mpr (hfree p hp))
    · exact absurd (hsame.imp .symm .symm) (not_or.mpr (hfree q hq))
    · rfl
  · intro p hp ep hep
    rcases hmem p hp with hp | rfl
    · exact hs.own p hp ep hep
    · cases hep
  · intro ep hdynamic
    obtain ⟨p, hp, hregistered⟩ := hs.only ep hdynamic
    exact ⟨p, mem_append_left _ hp, hregistered⟩

/-- A registration under the endpoint of the connection itself. -/
theorem handleRegister_own {payload : RegisterPayload} (hipv4 : conn.remoteEndpoint.isIpv4 = true)
    (hspecified : conn.remoteEndpoint.isUnspecified = false)
    (htext : payload.endpoint = conn.remoteEndpoint.toString inet) :
    (s.handleRegister inet conn payload).registry =
        s.registry.upsertEndpoint s.clock (nodeOf conn.remoteEndpoint payload) ∧
      (s.handleRegister inet conn payload).connections = s.connections := by
  have hparse : EndPoint.parseEndpoint inet payload.endpoint = conn.remoteEndpoint := by
    rw [htext]
    cases hremote : conn.remoteEndpoint with
    | ipv4 addr port =>
      exact EndPoint.parseEndpoint_toString_ipv4 inet addr port
    | ipv6 addr port =>
      rw [hremote] at hipv4
      cases hipv4
  simp only [handleRegister, hparse, hspecified, broadcastNodeJoined,
    Bool.false_eq_true, ↓reduceIte, and_self]

section

variable (hs : Tracked s)
include hs

/-- A step that looks at one connection and changes at most the entry of its
peer endpoint. -/
theorem note_tracked {mid : RegistrarServer} (hconn : conn ∈ s.connections)
    (hmid : mid.connections = s.connections) (hfd : ∀ p, (change p).fd = p.fd)
    (hremote : ∀ p, (change p).remoteEndpoint = p.remoteEndpoint)
    (hother : ∀ ep, ep ≠ conn.remoteEndpoint → mid.registry.endpoints ep = s.registry.endpoints ep)
    (hown : ∀ ep ∈ (change conn).registered, ep = conn.remoteEndpoint ∧
      ep.isUnspecified = false ∧ ∃ node, mid.registry.endpoints ep = some node ∧
      node.isStaticRoute = false ∧ node.lastSeen = (change conn).lastBeat)
    (honly : mid.Dynamic conn.remoteEndpoint →
      (change conn).registered = some conn.remoteEndpoint) : Tracked (mid.note conn.fd change) := by
  -- a peer after the step is `conn`, changed, or another one, as it was
  have hcases : ∀ q ∈ (mid.note conn.fd change).connections,
      q = change conn ∨ (q ∈ s.connections ∧ q.fd ≠ conn.fd) := by
    intro q hq
    obtain ⟨p, hp, rfl⟩ := mem_note.mp hq
    rw [hmid] at hp
    by_cases hsame : p.fd = conn.fd
    · rw [if_pos hsame, hs.same p hp conn hconn (.inl hsame)]
      exact .inl rfl
    · rw [if_neg hsame]
      exact .inr ⟨hp, hsame⟩
  have hapart : ∀ q ∈ s.connections, q.fd ≠ conn.fd →
      ¬ (q.fd = conn.fd ∨ q.remoteEndpoint = conn.remoteEndpoint) := by
    intro q hq hne hsame
    exact hne (congrArg RegistrarPeer.fd (hs.same q hq conn hconn hsame))
  refine ⟨?_, ?_, ?_⟩
  · intro p hp q hq hsame
    rcases hcases p hp with rfl | ⟨hp, hpne⟩ <;> rcases hcases q hq with rfl | ⟨hq, hqne⟩
    · rfl
    · rw [hfd, hremote] at hsame
      exact absurd (hsame.imp .symm .symm) (hapart q hq hqne)
    · rw [hfd, hremote] at hsame
      exact absurd hsame (hapart p hp hpne)
    · exact hs.same p hp q hq hsame
  · intro q hq ep hep
    rcases hcases q hq with rfl | ⟨hq, hne⟩
    · rw [hremote]
      exact hown ep hep
    · obtain ⟨rfl, hspecified, node, hnode⟩ := hs.own q hq ep hep
      have hsame := hother _ fun heq => hapart q hq hne (.inr heq)
      exact ⟨rfl, hspecified, node, hsame.trans hnode.1, hnode.2⟩
  · intro ep hdynamic
    by_cases hep : ep = conn.remoteEndpoint
    · subst hep
      refine ⟨change conn, mem_note.mpr ⟨conn, ?_, if_pos rfl⟩, honly hdynamic⟩
      rw [hmid]
      exact hconn
    · obtain ⟨node, hnode, hstatic⟩ := hdynamic
      obtain ⟨p, hp, hregistered⟩ :=
        hs.only ep ⟨node, (hother ep hep).symm.trans hnode, hstatic⟩
      have hne : p.fd ≠ conn.fd := by
        intro hsame
        obtain rfl := hs.same p hp conn hconn (.inl hsame)
        exact hep (hs.own p hp ep hregistered).1
      refine ⟨p, mem_note.mpr ⟨p, ?_, if_neg hne⟩, hregistered⟩
      rw [hmid]
      exact hp

theorem register_tracked {announced : EndPoint} {payload : RegisterPayload}
    (hown : s.OwnEndpoint fd announced)
    (hstep : step inet s (.register fd announced payload) = some t) :
    Tracked t := by
  obtain ⟨conn, hconn, rfl⟩ := map_eq_some_iff.mp hstep
  obtain ⟨hmem, rfl⟩ := peerAt_some hconn
  obtain ⟨hipv4, hspecified, hremote⟩ := hown
  obtain rfl := hremote conn hconn
  obtain ⟨hregistry, hconnections⟩ := @handleRegister_own inet s conn
    { payload with endpoint := conn.remoteEndpoint.toString inet } hipv4
    hspecified rfl
  apply note_tracked hs hmem hconnections
  · intro p
    rfl
  · intro p
    rfl
  · intro ep hep
    rw [hregistry]
    exact if_neg hep
  · intro ep hep
    obtain rfl := some.inj hep
    have hentry := congrArg (fun registry : NodeRegistry => registry.endpoints conn.remoteEndpoint)
      hregistry
    exact ⟨rfl, hspecified, _, hentry.trans (if_pos rfl), rfl, rfl⟩
  · intro _
    rfl

theorem heartbeat_tracked (hstep : step inet s (.heartbeat fd) = some t) :
    Tracked t := by
  obtain ⟨conn, hconn, rfl⟩ := map_eq_some_iff.mp hstep
  obtain ⟨hmem, rfl⟩ := peerAt_some hconn
  have hconnections : (s.handleHeartbeat conn).connections = s.connections := by
    rw [handleHeartbeat]
    split_ifs <;> rfl
  apply note_tracked hs hmem hconnections
  · intro p
    rfl
  · intro p
    rfl
  · intro ep hep
    rw [handleHeartbeat]
    split_ifs
    · rfl
    · exact if_neg hep
  · intro ep hep
    obtain ⟨rfl, hspecified, node, hnode, hstatic, -⟩ := hs.own conn hmem ep hep
    refine ⟨rfl, hspecified, { node with lastSeen := s.clock }, ?_, hstatic,
      rfl⟩
    rw [handleHeartbeat, if_neg (by rw [hspecified]; decide)]
    simp only [touch, ↓reduceIte, hnode, map_some]
  · rintro ⟨node, hnode, hstatic⟩
    have hbefore : s.Dynamic conn.remoteEndpoint := by
      rw [handleHeartbeat] at hnode
      split_ifs at hnode with hunspecified
      · exact ⟨node, hnode, hstatic⟩
      · simp only [touch, ↓reduceIte, map_eq_some_iff] at hnode
        obtain ⟨old, hold, rfl⟩ := hnode
        exact ⟨old, hold, hstatic⟩
    obtain ⟨p, hp, hregistered⟩ := hs.only _ hbefore
    have hsame := (hs.own p hp _ hregistered).1
    rw [hs.same conn hmem p hp (.inr hsame)] at hregistered ⊢
    exact hregistered

theorem handleDisconnect_tracked (hconn : conn ∈ s.connections) :
    Tracked (s.handleDisconnect conn) := by
  have hmem : ∀ q ∈ (s.handleDisconnect conn).connections, q ∈ s.connections ∧ q.fd ≠ conn.fd := by
    intro q hq
    simpa [handleDisconnect, broadcastNodeLeft] using hq
  refine ⟨?_, ?_, ?_⟩
  · intro p hp q hq
    exact hs.same p (hmem p hp).1 q (hmem q hq).1
  · intro p hp ep hep
    obtain ⟨hp, hne⟩ := hmem p hp
    obtain ⟨rfl, hspecified, node, hnode⟩ := hs.own p hp ep hep
    refine ⟨rfl, hspecified, node, Eq.trans (if_neg fun hsame => ?_) hnode.1, hnode.2⟩
    exact hne (congrArg RegistrarPeer.fd (hs.same p hp conn hconn (.inr hsame)))
  · rintro ep ⟨node, hnode, hstatic⟩
    simp only [handleDisconnect, broadcastNodeLeft, removeEndpoint, ite_none_left_eq_some] at hnode
    obtain ⟨hep, hnode⟩ := hnode
    obtain ⟨p, hp, hregistered⟩ := hs.only ep ⟨node, hnode, hstatic⟩
    have hne : p.fd ≠ conn.fd := by
      intro hsame
      obtain rfl := hs.same p hp conn hconn (.inl hsame)
      exact hep (hs.own p hp ep hregistered).1
    refine ⟨p, ?_, hregistered⟩
    simp [handleDisconnect, broadcastNodeLeft, hp, hne]

theorem removeExpired_tracked (hbeating : s.Beating) : Tracked s.removeExpired := by
  refine ⟨hs.same, ?_, ?_⟩
  · intro p hp ep hep
    obtain ⟨hremote, hspecified, node, hnode, hstatic, hseen⟩ := hs.own p hp ep hep
    refine ⟨hremote, hspecified, node, ?_, hstatic, hseen⟩
    have hfresh := hbeating p hp (isSome_of_mem hep)
    have hkeep : NodeRegistry.expired s.expirationTimeout s.clock node = false := by
      rw [NodeRegistry.expired, hseen, Bool.and_eq_false_iff, decide_eq_false_iff_not]
      exact .inr (Nat.not_lt.mpr hfresh)
    simp only [removeExpired, NodeRegistry.removeExpired, hnode,
      filter_some, hkeep, Bool.not_false, ↓reduceIte]
  · rintro ep ⟨node, hnode, hstatic⟩
    simp only [removeExpired, NodeRegistry.removeExpired, filter_eq_some_iff] at hnode
    exact hs.only ep ⟨node, hnode.1, hstatic⟩

theorem step_tracked {action : Action} (horderly : s.Orderly action)
    (hstep : step inet s action = some t) : Tracked t := by
  cases action with
  | accept fd remote =>
    rw [step] at hstep
    split_ifs at hstep with hused
    obtain rfl := some.inj hstep
    apply handleAccept_tracked hs
    intro p hp
    simp only [Bool.not_eq_true, List.any_eq_false, Bool.or_eq_false_iff,
      beq_eq_false_iff_ne] at hused
    exact hused p hp
  | register fd announced payload => exact register_tracked hs horderly hstep
  | heartbeat fd => exact heartbeat_tracked hs hstep
  | disconnect fd =>
    obtain ⟨conn, hconn, rfl⟩ := map_eq_some_iff.mp hstep
    exact handleDisconnect_tracked hs (peerAt_some hconn).1
  | removeExpired =>
    obtain rfl := some.inj hstep
    exact removeExpired_tracked hs horderly
  | wait duration =>
    obtain rfl := some.inj hstep
    exact { hs with }

end

/-- A server before the first connection, with static routes only. -/
def Initial (s : RegistrarServer) : Prop :=
  s.connections = [] ∧ ∀ ep node, s.registry.endpoints ep = some node → node.isStaticRoute = true

theorem Initial.tracked (hs : Initial s) : Tracked s where
  same := by simp [hs.1]
  own := by simp [hs.1]
  only := by
    rintro ep ⟨node, hnode, hstatic⟩
    rw [hs.2 ep node hnode] at hstatic
    cases hstatic

/-- A disconnect removes the endpoint registered on that connection, and no
other. -/
theorem disconnect_removes (hs : Tracked s) (hconn : conn ∈ s.connections) (ep : EndPoint) :
    (s.handleDisconnect conn).Dynamic ep ↔ s.Dynamic ep ∧ conn.registered ≠ some ep := by
  have hafter : (s.handleDisconnect conn).Dynamic ep ↔ s.Dynamic ep ∧ ep ≠ conn.remoteEndpoint := by
    simp only [Dynamic, handleDisconnect, broadcastNodeLeft, removeEndpoint, ite_none_left_eq_some]
    constructor
    · rintro ⟨node, ⟨hep, hnode⟩, hstatic⟩
      exact ⟨⟨node, hnode, hstatic⟩, hep⟩
    · rintro ⟨⟨node, hnode, hstatic⟩, hep⟩
      exact ⟨node, ⟨hep, hnode⟩, hstatic⟩
  rw [hafter]
  constructor
  · rintro ⟨hdynamic, hep⟩
    exact ⟨hdynamic, fun hregistered =>
      hep (hs.own conn hconn ep hregistered).1⟩
  · rintro ⟨hdynamic, hregistered⟩
    refine ⟨hdynamic, ?_⟩
    rintro rfl
    obtain ⟨p, hp, hpregistered⟩ := hs.only _ hdynamic
    have hsame := (hs.own p hp _ hpregistered).1
    rw [hs.same conn hconn p hp (.inr hsame)] at hregistered
    rw [hs.same conn hconn p hp (.inr hsame)] at hpregistered
    exact hregistered hpregistered

/-- In every state of an orderly run the dynamic entries are the endpoints
registered over open connections; a disconnect takes away its own endpoint
only, and a sweep none that is beating. -/
theorem registry_tracks_connections {start : RegistrarServer} (hstart : Initial start)
    {actions : List Action} (horderly : Runs.EachStep (step inet) Orderly start actions)
    (hrun : Runs.run (step inet) start actions = some s) :
    s.Tracks ∧
      (∀ conn ∈ s.connections, ∀ ep, (s.handleDisconnect conn).Dynamic ep ↔
        s.Dynamic ep ∧ conn.registered ≠ some ep) ∧
      (s.Beating → ∀ ep, s.removeExpired.Dynamic ep ↔ s.Dynamic ep) := by
  have htracked : Tracked s :=
    Runs.run_invariant (fun _ _ _ hs hcond hstep => step_tracked hs hcond hstep)
      hstart.tracked horderly hrun
  refine ⟨htracked.tracks, fun conn hconn => disconnect_removes htracked hconn,
    fun hbeating ep => ?_⟩
  exact ((removeExpired_tracked htracked hbeating).tracks ep).trans (htracked.tracks ep).symm

namespace TrackingWitness

open EndPoint.EndpointWitness (plain)

/-- `10.0.0.1:40000`, where a connection comes from. -/
def peer : EndPoint := .ipv4 0x0A000001 (htons 40000)

/-- `10.0.0.1:7000`, where the node listens. -/
def listening : EndPoint := .ipv4 0x0A000001 (htons 7000)

/-- Register, beat every ten seconds, and be swept. -/
def session (announced : EndPoint) : List Action :=
  [.accept 3 peer, .register 3 announced { endpoint := [] }, .wait 10000,
    .heartbeat 3, .wait 10000, .removeExpired]

theorem initial : Initial ({} : RegistrarServer) := by
  refine ⟨rfl, ?_⟩
  intro ep node hnode
  cases hnode

theorem own_endpoint_tracked :
    ∃ s, Runs.run (step plain) {} (session peer) = some s ∧ s.Dynamic peer ∧ s.Tracks := by
  have hview : (Runs.run (step plain) {} (session peer)).map (fun s =>
      s.connections.map RegistrarPeer.registered) = some [some peer] := by
    decide +kernel
  obtain ⟨s, hrun, hregistered⟩ := map_eq_some_iff.mp hview
  have htracks := (registry_tracks_connections initial (by decide +kernel) hrun).1
  obtain ⟨conn, hconn, hpeer⟩ := List.mem_map.mp
    (show some peer ∈ s.connections.map RegistrarPeer.registered by
      rw [hregistered]; exact List.mem_singleton.mpr rfl)
  exact ⟨s, hrun, (htracks peer).mpr ⟨conn, hconn, hpeer⟩, htracks⟩

/-- The node beats in time, and its entry expires. -/
theorem beating_node_expires :
    ∃ s, Runs.run (step plain) {} (session listening) = some s ∧
      s.Beating ∧ (∃ conn ∈ s.connections, conn.registered = some listening) ∧
      ¬ s.Dynamic listening ∧ ¬ s.Tracks := by
  have hview : (Runs.run (step plain) {} (session listening)).map (fun s =>
      (s.connections.map RegistrarPeer.registered,
        s.registry.endpoints listening, decide s.Beating)) =
      some ([some listening], none, true) := by
    decide +kernel
  obtain ⟨s, hrun, hstate⟩ := map_eq_some_iff.mp hview
  simp only [Prod.mk.injEq, decide_eq_true_eq] at hstate
  obtain ⟨hregistered, hentry, hbeating⟩ := hstate
  have hopen : ∃ conn ∈ s.connections, conn.registered = some listening :=
    List.mem_map.mp (by rw [hregistered]; exact List.mem_singleton.mpr rfl)
  have habsent : ¬ s.Dynamic listening := by
    rintro ⟨node, hnode, -⟩
    rw [hentry] at hnode
    cases hnode
  exact ⟨s, hrun, hbeating, hopen, habsent,
    fun htracks => habsent ((htracks listening).mpr hopen)⟩

end TrackingWitness

end HPActor.RegistrarServer
