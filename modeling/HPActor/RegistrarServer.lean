/-
The registrar server: connections that are accepted, register a node, send
heartbeats and disconnect, and a registry that drops the nodes it has not heard
of.  A node has two endpoints, the one it announces and the one its connection
comes from; `Register` files it under the first, heartbeats and disconnects
look under the second.
-/
import HPActor.EndpointText
import HPActor.RegistrarConnection
import HPActor.Runs

namespace HPActor

structure AcceptorInfo where
  port : UInt16 := 0
  handshakeVersion : UInt8 := 0
  protocolVersion : UInt8 := 0
  tlsRequired : Bool := false
deriving Repr, DecidableEq

structure NodeIdentity where
  endpoint : EndPoint
  host : String := ""
  acceptors : List AcceptorInfo := []
deriving Repr, DecidableEq

structure NodeEndpoint where
  identity : NodeIdentity
  tcpPort : UInt16 := 0
  isStaticRoute : Bool := false
  lastSeen : Nat := 0
deriving Repr, DecidableEq

structure NodeRegistry where
  endpoints : EndPoint → Option NodeEndpoint

namespace NodeRegistry

variable (r : NodeRegistry)

def upsertEndpoint (now : Nat) (node : NodeEndpoint) : NodeRegistry where
  endpoints ep :=
    if ep = node.identity.endpoint then some { node with lastSeen := now }
    else r.endpoints ep

def removeEndpoint (endpoint : EndPoint) : NodeRegistry where
  endpoints ep := if ep = endpoint then none else r.endpoints ep

/-- Set `last_seen` through the pointer that `get` returns. -/
def touch (now : Nat) (endpoint : EndPoint) : NodeRegistry where
  endpoints ep :=
    if ep = endpoint then
      (r.endpoints ep).map fun node => { node with lastSeen := now }
    else r.endpoints ep

def expired (expirationTimeout now : Nat) (node : NodeEndpoint) : Bool :=
  !node.isStaticRoute && decide (expirationTimeout < now - node.lastSeen)

def removeExpired (expirationTimeout now : Nat) : NodeRegistry where
  endpoints ep :=
    (r.endpoints ep).filter fun node => !expired expirationTimeout now node

end NodeRegistry

/-- The fields of a `Register` message, as wide as the wire has them. -/
structure RegisterPayload where
  endpoint : List Char
  host : String := ""
  tcpPort : Nat := 0
  acceptors : List (Nat × Nat × Nat × Bool) := []

/-- What the server sends. -/
inductive RegistrarReply where
  | accept (status : Nat)
  | nodeJoin (node : NodeEndpoint)
  | nodeLeave (endpoint : EndPoint)

/-- An open connection.  `registered` and `lastBeat` are ghost fields: the
endpoint last announced over it, and when it was last heard of. -/
structure RegistrarPeer where
  fd : Nat
  remoteEndpoint : EndPoint
  registered : Option EndPoint := none
  lastBeat : Nat := 0

structure RegistrarServer where
  expirationTimeout : Nat := 15000
  clock : Nat := 0
  registry : NodeRegistry := ⟨fun _ => none⟩
  clients : List (EndPoint × Nat) := []
  connections : List RegistrarPeer := []
  sent : List (Nat × RegistrarReply) := []

/-- An IPv4 endpoint without an address. -/
def EndPoint.isUnspecified : EndPoint → Bool
  | .ipv4 addr _ => addr == 0
  | .ipv6 .. => false

namespace RegistrarServer

def eraseClient (clients : List (EndPoint × Nat)) (endpoint : EndPoint) : List (EndPoint × Nat) :=
  clients.filter fun entry => entry.1 != endpoint

def setClient (clients : List (EndPoint × Nat)) (endpoint : EndPoint)
    (fd : Nat) : List (EndPoint × Nat) :=
  eraseClient clients endpoint ++ [(endpoint, fd)]

variable (s : RegistrarServer) (fd : Nat)

def handleAccept (remoteEndpoint : EndPoint) : RegistrarServer :=
  { s with
    clients := setClient s.clients remoteEndpoint fd
    connections := s.connections ++ [{ fd, remoteEndpoint, lastBeat := s.clock }] }

def broadcastNodeJoined (endpoint : EndPoint) (node : NodeEndpoint) : RegistrarServer :=
  { s with
    sent := s.sent ++ (s.clients.filter fun entry => entry.1 != endpoint).map
      fun entry => (entry.2, .nodeJoin node) }

def broadcastNodeLeft (endpoint : EndPoint) : RegistrarServer :=
  { s with
    sent := s.sent ++ s.clients.map
      fun entry => (entry.2, .nodeLeave endpoint) }

/-- The record a `Register` message is turned into. -/
def nodeOf (nodeEndpoint : EndPoint) (payload : RegisterPayload) : NodeEndpoint where
  identity :=
    { endpoint := nodeEndpoint, host := payload.host
      acceptors := payload.acceptors.map fun a =>
        { port := .ofNat a.1, handshakeVersion := .ofNat a.2.1
          protocolVersion := .ofNat a.2.2.1, tlsRequired := a.2.2.2 } }
  tcpPort := .ofNat payload.tcpPort

def handleRegister (inet : InetLibrary) (s : RegistrarServer)
    (conn : RegistrarPeer) (payload : RegisterPayload) : RegistrarServer :=
  let nodeEndpoint := EndPoint.parseEndpoint inet payload.endpoint
  if nodeEndpoint.isUnspecified then s
  else
    let node := nodeOf nodeEndpoint payload
    broadcastNodeJoined
      { s with
        clients := setClient (eraseClient s.clients conn.remoteEndpoint) nodeEndpoint conn.fd
        registry := s.registry.upsertEndpoint s.clock node
        sent := s.sent ++ [(conn.fd, .accept 0)] }
      nodeEndpoint { node with lastSeen := s.clock }

/-- The entry that is refreshed is the one of the TCP peer. -/
def handleHeartbeat (conn : RegistrarPeer) : RegistrarServer :=
  if conn.remoteEndpoint.isUnspecified then s
  else { s with registry := s.registry.touch s.clock conn.remoteEndpoint }

/-- And so is the one that is removed. -/
def handleDisconnect (conn : RegistrarPeer) : RegistrarServer :=
  let left := broadcastNodeLeft
    { s with
      clients := eraseClient s.clients conn.remoteEndpoint
      connections := s.connections.filter fun peer => peer.fd != conn.fd }
    conn.remoteEndpoint
  { left with registry := left.registry.removeEndpoint conn.remoteEndpoint }

def removeExpired (s : RegistrarServer) : RegistrarServer :=
  { s with registry := s.registry.removeExpired s.expirationTimeout s.clock }

/-- Note on the open connection `fd` what has come over it. -/
def note (change : RegistrarPeer → RegistrarPeer) : RegistrarServer :=
  { s with
    connections := s.connections.map fun peer =>
      if peer.fd = fd then change peer else peer }

inductive Action where
  | accept (fd : Nat) (remoteEndpoint : EndPoint)
  | register (fd : Nat) (announced : EndPoint) (payload : RegisterPayload)
  | heartbeat (fd : Nat)
  | disconnect (fd : Nat)
  | removeExpired
  | wait (duration : Nat)

def peerAt : Option RegistrarPeer :=
  s.connections.find? fun peer => peer.fd == fd

/-- The kernel gives a new connection a free descriptor, and no two open
connections come from one endpoint.  A node announces its listening endpoint
as text. -/
def step (inet : InetLibrary) (s : RegistrarServer) : Action → Option RegistrarServer
  | .accept fd remoteEndpoint =>
    if s.connections.any fun peer =>
        peer.fd == fd || peer.remoteEndpoint == remoteEndpoint then none
    else some (s.handleAccept fd remoteEndpoint)
  | .register fd announced payload =>
    (s.peerAt fd).map fun conn =>
      (s.handleRegister inet conn
          { payload with endpoint := announced.toString inet }).note fd
        fun peer =>
          { peer with registered := some announced, lastBeat := s.clock }
  | .heartbeat fd =>
    (s.peerAt fd).map fun conn =>
      (s.handleHeartbeat conn).note fd
        fun peer => { peer with lastBeat := s.clock }
  | .disconnect fd => (s.peerAt fd).map s.handleDisconnect
  | .removeExpired => some s.removeExpired
  | .wait duration => some { s with clock := s.clock + duration }

/-- An endpoint in the registry that is no static route. -/
def Dynamic (ep : EndPoint) : Prop :=
  ∃ node, s.registry.endpoints ep = some node ∧ node.isStaticRoute = false

/-- The registry and the open connections tell the same story. -/
def Tracks : Prop :=
  ∀ ep, s.Dynamic ep ↔ ∃ peer ∈ s.connections, peer.registered = some ep

/-- Every registered node was heard of within the expiry time. -/
def Beating : Prop :=
  ∀ peer ∈ s.connections, peer.registered.isSome = true →
    s.clock - peer.lastBeat ≤ s.expirationTimeout

instance (s : RegistrarServer) : Decidable s.Beating :=
  inferInstanceAs (Decidable (∀ peer ∈ s.connections, _))

/-- Nodes register under the endpoint their connection comes from, an IPv4
endpoint with an address. -/
def OwnEndpoint (announced : EndPoint) : Prop :=
  announced.isIpv4 = true ∧ announced.isUnspecified = false ∧
    ∀ peer ∈ s.peerAt fd, peer.remoteEndpoint = announced

instance (s : RegistrarServer) (fd : Nat) (announced : EndPoint) :
    Decidable (s.OwnEndpoint fd announced) :=
  inferInstanceAs (Decidable (_ ∧ _ ∧ ∀ peer ∈ s.peerAt fd, _))

/-- What is asked of a run: nodes register under their own endpoint, and have
been heard of whenever the registry is swept. -/
def Orderly : Action → Prop
  | .register fd announced _ => s.OwnEndpoint fd announced
  | .removeExpired => s.Beating
  | _ => True

instance (s : RegistrarServer) (action : Action) : Decidable (s.Orderly action) := by
  unfold Orderly
  split <;> infer_instance

end RegistrarServer

end HPActor
