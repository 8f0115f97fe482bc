/-
The gossip membership component: a table of members, the handlers of the seven
messages, the protocol round with its timeouts, joining and leaving.  Handlers
and timers run on the event loop, one after the other; the loop is started
after `start` and joined before `stop`.

Time is a number that every event brings along.  The tables stand for hash
maps, whose order of iteration is of no concern; the random choice of peers is
given with the round.
-/
import HPActor.GossipCodec
import HPActor.VersionedTable

namespace HPActor.Gossip

structure GossipConfig where
  pingTimeout : Nat := 200
  suspicionTimeout : Nat := 3000
  deadTimeout : Nat := 30000
  fanout : Nat := 3
  indirectProbes : Nat := 3
  seeds : List EndPoint := []
  localState : Member := {}

structure PendingPing where
  expiresAt : Nat
  indirectRequested : Bool := false
  indirectExpiresAt : Nat := 0

abbrev Table (V : Type) := AList fun _ : EndPoint => V

structure GossipMembership where
  /-- The library the component is linked with. -/
  protobuf : GossipProtobuf
  config : GossipConfig
  incarnation : UInt64 := 1
  seqNo : UInt32 := 0
  members : Table Member := ∅
  pendingPings : Table PendingPing := ∅
  forwardedPings : Table EndPoint := ∅
  hasCallback : Bool := false
  joinRetry : Bool := false
  joinSeedIndex : Nat := 0
  needsDissemination : Bool := false
  /-- The socket is bound and the protocol timer runs. -/
  running : Bool := false
  /-- Packets handed to the transport. -/
  sent : List (List UInt8 × EndPoint) := []
  /-- Calls of the membership callback. -/
  fired : List (Member × Bool) := []

variable (now : Nat)

/-- What a higher incarnation brings.  A status other than `Alive` is taken
over; `Alive` only wakes the dead. -/
def mergedMember (existing remote : Member) : Member :=
  let woken :=
    if existing.status = .dead then .alive else existing.status
  let status :=
    if remote.status = .suspicious ∨ remote.status = .dead ∨
        remote.status = .left then remote.status
    else woken
  { identity :=
      { existing.identity with
        host :=
          if remote.identity.host = [] then existing.identity.host
          else remote.identity.host
        acceptors :=
          if remote.identity.acceptors = [] then existing.identity.acceptors
          else remote.identity.acceptors }
    actorTypes :=
      if remote.actorTypes = [] then existing.actorTypes
      else remote.actorTypes
    status := status
    incarnation := remote.incarnation
    lastSeen := if status = .alive then now else existing.lastSeen }

def mergeMember (members : Table Member) (remote : Member) : Table Member :=
  match members.lookup remote.identity.endpoint with
  | none =>
    members.insert remote.identity.endpoint { remote with lastSeen := now }
  | some existing =>
    if remote.incarnation ≤ existing.incarnation then members
    else
      members.insert remote.identity.endpoint (mergedMember now existing remote)

/-- The member a piggybacked entry introduces. -/
def introducedMember (entry : PiggybackEntry) : Member :=
  let m : Member :=
    { identity := { endpoint := entry.identity.endpoint }
      incarnation := entry.incarnation
      lastSeen := now }
  match entry.type with
  | .alive => { m with status := .alive }
  | .suspicious => { m with status := .suspicious }
  | .dead => { m with status := .dead }
  | .metadata =>
    { m with
      status := .alive
      actorTypes := entry.actorTypes
      identity := { m.identity with acceptors := entry.identity.acceptors } }
  | .unnamed _ => m

/-- The member after an entry that is not stale. -/
def piggybackedMember (existing : Member) (entry : PiggybackEntry) : Member :=
  let m := { existing with incarnation := entry.incarnation, lastSeen := now }
  match entry.type with
  | .alive =>
    if existing.status = .suspicious ∨ existing.status = .dead then
      { m with status := .alive }
    else m
  | .suspicious => { m with status := .suspicious }
  | .dead => { m with status := .dead }
  | .metadata =>
    { m with
      actorTypes :=
        if entry.actorTypes = [] then existing.actorTypes
        else entry.actorTypes
      identity :=
        { existing.identity with
          acceptors :=
            if entry.identity.acceptors = [] then
              existing.identity.acceptors
            else entry.identity.acceptors } }
  | .unnamed _ => m

theorem piggybackedMember_incarnation (existing : Member) (entry : PiggybackEntry) :
    (piggybackedMember now existing entry).incarnation = entry.incarnation := by
  rw [piggybackedMember]
  split
  · split <;> rfl
  all_goals rfl

/-- One round of the loop of `apply_piggyback`. -/
def applyEntry (members : Table Member) (entry : PiggybackEntry) : Table Member :=
  match members.lookup entry.identity.endpoint with
  | none =>
    members.insert entry.identity.endpoint (introducedMember now entry)
  | some existing =>
    if entry.incarnation < existing.incarnation then members
    else
      members.insert entry.identity.endpoint (piggybackedMember now existing entry)

def applyPiggyback (members : Table Member) (entries : List PiggybackEntry) : Table Member :=
  entries.foldl (applyEntry now) members

/-- `mark_suspicious` and `mark_dead` write a status into an entry. -/
def markMember (status : MemberStatus) (members : Table Member) (ep : EndPoint) : Table Member :=
  match members.lookup ep with
  | none => members
  | some m => members.insert ep { m with status, lastSeen := now }

def purgeable (config : GossipConfig) (now : Nat) (m : Member) : Bool :=
  decide ((m.status = .dead ∨ m.status = .left) ∧ m.lastSeen + config.deadTimeout < now)

namespace GossipMembership

variable (g : GossipMembership) (now : Nat)

def localEndpoint : EndPoint :=
  g.config.localState.identity.endpoint

/-- The local node as an entry of the table. -/
def self : Member :=
  { g.config.localState with
    incarnation := g.incarnation, status := .alive, lastSeen := now }

def merge (remote : Member) : GossipMembership :=
  { g with members := mergeMember now g.members remote }

/-- A message from `sender` shows that it is alive. -/
def mergeSender (sender : EndPoint) (inc : UInt64) : GossipMembership :=
  g.merge now
    { identity := { endpoint := sender }, incarnation := inc
      status := .alive, lastSeen := now }

def apply (pb : List PiggybackEntry) : GossipMembership :=
  { g with members := applyPiggyback now g.members pb }

def send (data : List UInt8) (dest : EndPoint) : GossipMembership :=
  { g with sent := g.sent ++ [(data, dest)] }

/-- Encode a message under the next sequence number and send it. -/
def sendMessage (type : GossipMessageType)
    (pingTarget : EndPoint) (pb : List PiggybackEntry) (dest : EndPoint) :
    GossipMembership :=
  { g with seqNo := g.seqNo + 1 }.send
    (encodeMessage g.protobuf g.config.localState type g.incarnation g.seqNo pingTarget pb) dest

def selfMetadata : PiggybackEntry where
  type := .metadata
  identity :=
    { endpoint := g.localEndpoint
      acceptors := g.config.localState.identity.acceptors }
  incarnation := g.incarnation
  actorTypes := g.config.localState.actorTypes

/-- Suspicious and dead members are passed on. -/
def rumour (ep : EndPoint) (m : Member) : Option PiggybackEntry :=
  match m.status with
  | .suspicious =>
    some { type := .suspicious, identity := { endpoint := ep }
           incarnation := m.incarnation }
  | .dead =>
    some { type := .dead, identity := { endpoint := ep }
           incarnation := m.incarnation }
  | _ => none

def buildPiggyback : List PiggybackEntry :=
  (if g.needsDissemination then [g.selfMetadata] else []) ++
    g.members.entries.filterMap fun e => rumour e.1 e.2

def sendJoin (seed : EndPoint) : GossipMembership :=
  g.sendMessage .join g.localEndpoint [g.selfMetadata] seed

def sendPingReq (proxy target : EndPoint) : GossipMembership :=
  g.sendMessage .pingReq target g.buildPiggyback proxy

def sendIndirectAck (target origTarget : EndPoint) : GossipMembership :=
  g.sendMessage .indirectAck origTarget [] target

def sendLeave (target : EndPoint) : GossipMembership :=
  g.sendMessage .leave g.localEndpoint [] target

/-- The table without the dead and those who left. -/
def sendSyncRsp (target : EndPoint) : GossipMembership :=
  g.send
    (encodeSyncRsp g.protobuf g.config.localState g.incarnation
      ((g.members.entries.map fun e => e.2).filter fun m =>
        decide (m.status ≠ .dead ∧ m.status ≠ .left)))
    target

def fire (m : Member) (joined : Bool) : GossipMembership :=
  if g.hasCallback then { g with fired := g.fired ++ [(m, joined)] } else g

/-- The sequence number is passed and not read. -/
def handlePing (sender : EndPoint) (inc : UInt64) (_seq : UInt32) (pb : List PiggybackEntry) :
    GossipMembership :=
  let merged := (g.mergeSender now sender inc).apply now pb
  let cleared :=
    { merged with pendingPings := merged.pendingPings.erase sender }
  let ackPb := cleared.buildPiggyback
  let told :=
    if ackPb = [] then cleared
    else { cleared with needsDissemination := false }
  told.sendMessage .ack told.localEndpoint ackPb sender

/-- An answer to a ping that was sent for another node is reported to it. -/
def reportForwarded (sender : EndPoint) : GossipMembership :=
  match g.forwardedPings.lookup sender with
  | none => g
  | some requester =>
    let told := g.sendIndirectAck requester sender
    { told with forwardedPings := told.forwardedPings.erase sender }

def handleAck (sender : EndPoint) (inc : UInt64) (pb : List PiggybackEntry) : GossipMembership :=
  let told := (g.mergeSender now sender inc).reportForwarded sender
  { told with pendingPings := told.pendingPings.erase sender }.apply now pb

/-- The requester is merged with the incarnation a member starts with. -/
def handlePingReq (sender target : EndPoint) : GossipMembership :=
  let merged := g.mergeSender now sender 0
  let forwarded :=
    { merged with
      forwardedPings := merged.forwardedPings.insert target sender }
  forwarded.sendMessage .ping forwarded.localEndpoint forwarded.buildPiggyback target

def handleIndirectAck (sender target : EndPoint) : GossipMembership :=
  let merged := g.mergeSender now sender 0
  match merged.pendingPings.lookup target with
  | none => merged
  | some pp =>
    if pp.indirectRequested then
      { merged with pendingPings := merged.pendingPings.erase target }
    else merged

def handleJoin (sender : EndPoint) (inc : UInt64) (pb : List PiggybackEntry) : GossipMembership :=
  ((g.mergeSender now sender inc).apply now pb).sendSyncRsp sender

/-- Put the local node back into the table if it is not there. -/
def ensureSelf : GossipMembership :=
  match g.members.lookup g.localEndpoint with
  | some _ => g
  | none =>
    { g with members := g.members.insert g.localEndpoint (g.self now) }

def handleSyncRsp (members : List Member) : GossipMembership :=
  { g with
    members := members.foldl (mergeMember now) g.members
    joinRetry := false }.ensureSelf now

def handleLeave (sender : EndPoint) (inc : UInt64) : GossipMembership :=
  match g.members.lookup sender with
  | none => g
  | some m =>
    if m.incarnation ≤ inc then
      let gone := { m with status := .left, lastSeen := now }
      { g with members := g.members.insert sender gone }.fire gone false
    else g

def handle : HandlerCall → GossipMembership
  | .handlePing sender inc seq pb => g.handlePing now sender inc seq pb
  | .handleAck sender inc pb => g.handleAck now sender inc pb
  | .handlePingReq sender target => g.handlePingReq now sender target
  | .handleIndirectAck sender target => g.handleIndirectAck now sender target
  | .handleJoin sender inc pb => g.handleJoin now sender inc pb
  | .handleSyncRsp members => g.handleSyncRsp now members
  | .handleLeave sender inc => g.handleLeave now sender inc

def handlePacket (data : List UInt8) : GossipMembership :=
  match dispatch g.protobuf now data with
  | none => g
  | some call => g.handle now call

def markSuspicious (ep : EndPoint) : GossipMembership :=
  { g with members := markMember now .suspicious g.members ep }

def markDead (ep : EndPoint) : GossipMembership :=
  match g.members.lookup ep with
  | none => g
  | some m =>
    { g with members := markMember now .dead g.members ep }.fire
      { m with status := .dead, lastSeen := now } false

/-- Alive peers, `count` of them at most. -/
def pickRandomPeers (shuffle : List EndPoint → List EndPoint) (count : Nat)
    (exclude : List EndPoint) : List EndPoint :=
  let candidates := (g.members.entries.filter fun e =>
    decide (e.2.status = .alive ∧ e.1 ≠ g.localEndpoint ∧ e.1 ∉ exclude)).map fun e => e.1
  if candidates.length ≤ count then candidates
  else (shuffle candidates).take count

/-- What the first part of a round collects. -/
structure Expired where
  node : GossipMembership
  suspects : List EndPoint := []
  pingReqs : List (EndPoint × EndPoint) := []

/-- A ping that has expired: the first time other peers are asked to probe,
the second time, or without such peers, the target is suspected. -/
def expirePing (shuffle : Option EndPoint → List EndPoint → List EndPoint)
    (e : Expired) (target : EndPoint) : Expired :=
  let g := e.node
  match g.pendingPings.lookup target with
  | none => e
  | some pp =>
    let given :=
      { e with
        node := { g with pendingPings := g.pendingPings.erase target }
        suspects := e.suspects ++ [target] }
    if pp.indirectRequested then given
    else
      let probes := g.pickRandomPeers (shuffle (some target))
        g.config.indirectProbes [target, g.localEndpoint]
      if probes = [] then given
      else
        { e with
          node :=
            { g with
              pendingPings := g.pendingPings.insert target
                { pp with
                  indirectRequested := true
                  indirectExpiresAt := now + g.config.pingTimeout } }
          pingReqs := e.pingReqs ++ probes.map fun proxy =>
            (proxy, target) }

def checkPings (shuffle : Option EndPoint → List EndPoint → List EndPoint) : GossipMembership :=
  let late := (g.pendingPings.entries.filter fun e =>
    decide (e.2.expiresAt ≤ now)).map fun e => e.1
  let e := late.foldl (expirePing now shuffle) { node := g }
  let asked := e.pingReqs.foldl (fun node req => node.sendPingReq req.1 req.2) e.node
  e.suspects.foldl (fun node target => node.markSuspicious now target) asked

def pingPeer (pb : List PiggybackEntry) (g : GossipMembership)
    (target : EndPoint) : GossipMembership :=
  let pinged := g.sendMessage .ping g.localEndpoint pb target
  let expiresAt := now + g.config.pingTimeout
  { pinged with
    pendingPings := pinged.pendingPings.insert target
      (match pinged.pendingPings.lookup target with
      | some pp => { pp with expiresAt }
      | none => { expiresAt }) }

def pingPeers (shuffle : Option EndPoint → List EndPoint → List EndPoint) : GossipMembership :=
  let targets := g.pickRandomPeers (shuffle none) g.config.fanout []
  if g.members.entries.all fun e =>
      decide (e.2.status ≠ .alive ∨ e.1 = g.localEndpoint) then g
  else
    let pb := g.buildPiggyback
    let pinged := targets.foldl (pingPeer now pb) g
    if pinged.needsDissemination ∧ pb ≠ [] then
      { pinged with needsDissemination := false }
    else pinged

def checkSuspects : GossipMembership :=
  let late := (g.members.entries.filter fun e =>
    decide (e.2.status = .suspicious ∧
      e.2.lastSeen + g.config.suspicionTimeout < now)).map fun e => e.1
  late.foldl (fun node ep => node.markDead now ep) g

def purgeDeadTombstones : GossipMembership :=
  { g with
    members := VersionedTable.filter g.members fun m =>
      !purgeable g.config now m }

def protocolRound (shuffle : Option EndPoint → List EndPoint → List EndPoint) : GossipMembership :=
  (((g.checkPings now shuffle).pingPeers now shuffle).checkSuspects now).purgeDeadTombstones now

/-- The next seed is tried unless another member is known by then. -/
def retryJoin : GossipMembership :=
  let next := { g with joinSeedIndex := g.joinSeedIndex + 1 }
  match g.config.seeds[next.joinSeedIndex]? with
  | none => { next with joinRetry := false }
  | some seed =>
    if 1 < g.members.entries.length then { next with joinRetry := false }
    else next.sendJoin seed

inductive Action where
  | start (bound : Bool) (wallClock : UInt64) (now : Nat)
  | stop
  | announce (now : Nat) (localState : Member)
  | onMemberChange
  | packet (now : Nat) (data : List UInt8)
  | round (now : Nat) (shuffle : Option EndPoint → List EndPoint → List EndPoint)
  | retry

/-- The incarnation is a reading of the clock. -/
def start (bound : Bool) (wallClock : UInt64) (now : Nat) : GossipMembership :=
  let timed := { g with incarnation := wallClock }
  if bound then
    let entered :=
      { timed with
        running := true
        members := timed.members.insert timed.localEndpoint (timed.self now) }
    match g.config.seeds with
    | [] => entered
    | seed :: _ =>
      { entered with joinSeedIndex := 0, joinRetry := true }.sendJoin seed
  else timed

def stop : GossipMembership :=
  let peers := (g.members.entries.filter fun e =>
    decide (e.2.status = .alive ∨ e.2.status = .suspicious)).map fun e => e.1
  let told := peers.foldl (fun node ep => node.sendLeave ep) g
  { told with
    running := false
    joinRetry := false
    members := ∅
    pendingPings := ∅
    forwardedPings := ∅ }

def announce (localState : Member) : GossipMembership :=
  { g with
    incarnation := g.incarnation + 1
    config :=
      { g.config with
        localState :=
          { localState with
            incarnation := g.incarnation + 1, lastSeen := now } }
    needsDissemination := true }

/-- The component is started when it does not run; packets and timers come
while it runs. -/
def step : Action → Option GossipMembership
  | .start bound wallClock now =>
    if g.running then none else some (g.start bound wallClock now)
  | .stop => some g.stop
  | .announce now localState => some (g.announce now localState)
  | .onMemberChange => some { g with hasCallback := true }
  | .packet now data =>
    if g.running then some (g.handlePacket now data) else none
  | .round now shuffle =>
    if g.running then some (g.protocolRound now shuffle) else none
  | .retry => if g.joinRetry then some g.retryJoin else none

end GossipMembership

end HPActor.Gossip
