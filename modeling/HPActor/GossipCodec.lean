/-
What the gossip component says and understands.  `encode_message` and
`decode_message` go through the envelope, `encode_sync_rsp` and
`decode_sync_rsp` have a format of their own; `handle_packet` tries the first
and then the second.
-/
import HPActor.GossipMessages
import HPActor.RegistrarServer

namespace HPActor.Gossip

/-! A value read from the wire is cast to the enumeration, so that any of the 256
values of a byte can turn up. -/

inductive MemberStatus where
  | alive
  | suspicious
  | dead
  | left
  | unnamed (above : Fin 252)
deriving Repr, DecidableEq

namespace MemberStatus

def code : MemberStatus → Nat
  | .alive => 0
  | .suspicious => 1
  | .dead => 2
  | .left => 3
  | .unnamed above => above.val + 4

def ofCode (code : Nat) : MemberStatus :=
  match code % 256 with
  | 0 => .alive
  | 1 => .suspicious
  | 2 => .dead
  | 3 => .left
  | above + 4 => .unnamed (Fin.ofNat 252 above)

theorem code_lt (s : MemberStatus) : s.code < 256 := by
  cases s with
  | unnamed above =>
    have := above.isLt
    simp only [code]
    omega
  | _ => simp [code]

theorem ofCode_code (s : MemberStatus) : ofCode s.code = s := by
  cases s with
  | unnamed above =>
    have hcode : (above.val + 4) % 256 = above.val + 4 := by omega
    simp only [code, ofCode, hcode, Fin.ofNat_val_eq_self]
  | _ => rfl

end MemberStatus

inductive PiggybackType where
  | alive
  | suspicious
  | dead
  | metadata
  | unnamed (index : Fin 252)
deriving Repr, DecidableEq

namespace PiggybackType

/-- The values without a name are 0 and those above 4. -/
def code : PiggybackType → Nat
  | .alive => 1
  | .suspicious => 2
  | .dead => 3
  | .metadata => 4
  | .unnamed index => if index.val = 0 then 0 else index.val + 4

def ofCode (code : Nat) : PiggybackType :=
  match code % 256 with
  | 0 => .unnamed (Fin.ofNat 252 0)
  | 1 => .alive
  | 2 => .suspicious
  | 3 => .dead
  | 4 => .metadata
  | above + 5 => .unnamed (Fin.ofNat 252 (above + 1))

theorem code_lt (t : PiggybackType) : t.code < 256 := by
  cases t with
  | unnamed index =>
    have := index.isLt
    simp only [code]
    split <;> omega
  | _ => simp [code]

theorem ofCode_code (t : PiggybackType) : ofCode t.code = t := by
  cases t with
  | unnamed index =>
    obtain ⟨index, hindex⟩ := index
    cases index with
    | zero => rfl
    | succ k =>
      have hcode : (k + 5) % 256 = k + 5 := by omega
      simp [code, ofCode, hcode, Fin.ofNat, Nat.mod_eq_of_lt hindex]
  | _ => rfl

end PiggybackType

inductive GossipMessageType where
  | ping
  | ack
  | pingReq
  | indirectAck
  | join
  | syncRsp
  | leave
  | unnamed (index : Fin 249)
deriving Repr, DecidableEq

namespace GossipMessageType

def code : GossipMessageType → Nat
  | .ping => 1
  | .ack => 2
  | .pingReq => 3
  | .indirectAck => 4
  | .join => 5
  | .syncRsp => 6
  | .leave => 7
  | .unnamed index => if index.val = 0 then 0 else index.val + 7

def ofCode (code : Nat) : GossipMessageType :=
  match code % 256 with
  | 0 => .unnamed (Fin.ofNat 249 0)
  | 1 => .ping
  | 2 => .ack
  | 3 => .pingReq
  | 4 => .indirectAck
  | 5 => .join
  | 6 => .syncRsp
  | 7 => .leave
  | above + 8 => .unnamed (Fin.ofNat 249 (above + 1))

end GossipMessageType

/-- Who a node is, with the texts as bytes. -/
structure NodeIdentity where
  endpoint : EndPoint := .unspecified
  host : Text := []
  udsPath : Text := []
  acceptors : List AcceptorInfo := []
deriving Repr, DecidableEq

structure Member where
  identity : NodeIdentity := {}
  actorTypes : List Text := []
  status : MemberStatus := .alive
  incarnation : UInt64 := 0
  lastSeen : Nat := 0
deriving Repr, DecidableEq

structure PiggybackEntry where
  type : PiggybackType
  identity : NodeIdentity := {}
  incarnation : UInt64
  actorTypes : List Text := []
  load : UInt32 := 0
deriving Repr, DecidableEq

def epToPbEndpoint : EndPoint → PbEndpoint
  | .ipv4 addr portNw => .ipv4 { addr, port := (htons portNw).toUInt32 }
  | .ipv6 addr portNw => .ipv6 { addr, port := (htons portNw).toUInt32 }

def pbEndpointToEp : PbEndpoint → EndPoint
  | .ipv4 pb => .ipv4 pb.addr (htons pb.port.toUInt16)
  | .ipv6 pb =>
    .ipv6 (if pb.addr.length = 16 then pb.addr else List.replicate 16 0) (htons pb.port.toUInt16)
  | .notSet => .ipv4 0 0

theorem pbEndpointToEp_epToPbEndpoint {ep : EndPoint} (hvalid : ep.Valid) :
    pbEndpointToEp (epToPbEndpoint ep) = ep := by
  cases ep with
  | ipv4 addr portNw =>
    rw [epToPbEndpoint, pbEndpointToEp, UInt16.toUInt16_toUInt32, htons_htons]
  | ipv6 addr portNw =>
    have hlength : addr.length = 16 := hvalid
    rw [epToPbEndpoint, pbEndpointToEp, UInt16.toUInt16_toUInt32, htons_htons, if_pos hlength]

/-- Every acceptor is written by the same four assignments. -/
def toPbAcceptor (acc : AcceptorInfo) : PbAcceptorInfo where
  port := acc.port.toUInt32
  handshakeVersion := acc.handshakeVersion.toUInt32
  protocolVersion := acc.protocolVersion.toUInt32
  tlsRequired := acc.tlsRequired

def fromPbAcceptor (a : PbAcceptorInfo) : AcceptorInfo where
  port := a.port.toUInt16
  handshakeVersion := a.handshakeVersion.toUInt8
  protocolVersion := a.protocolVersion.toUInt8
  tlsRequired := a.tlsRequired

theorem fromPbAcceptor_toPbAcceptor (acc : AcceptorInfo) :
    fromPbAcceptor (toPbAcceptor acc) = acc := by
  rw [toPbAcceptor, fromPbAcceptor, UInt16.toUInt16_toUInt32,
    UInt8.toUInt8_toUInt32, UInt8.toUInt8_toUInt32]

theorem map_fromPbAcceptor (acceptors : List AcceptorInfo) :
    (acceptors.map toPbAcceptor).map fromPbAcceptor = acceptors := by
  rw [List.map_map]
  exact List.map_id'' fromPbAcceptor_toPbAcceptor acceptors

def toPbPiggyback (entry : PiggybackEntry) : PbPiggybackEntry where
  type := UInt32.ofNat entry.type.code
  endpoint := epToPbEndpoint entry.identity.endpoint
  incarnation := entry.incarnation
  actorTypes := entry.actorTypes
  load := entry.load
  acceptors := entry.identity.acceptors.map toPbAcceptor

def fromPbPiggyback (pb : PbPiggybackEntry) : PiggybackEntry where
  type := PiggybackType.ofCode pb.type.toNat
  identity :=
    { endpoint := pbEndpointToEp pb.endpoint
      acceptors := pb.acceptors.map fromPbAcceptor }
  incarnation := pb.incarnation
  actorTypes := pb.actorTypes
  load := pb.load

/-- An entry as it is piggybacked, without host and path. -/
def PiggybackEntry.carried (entry : PiggybackEntry) : PiggybackEntry :=
  { entry with identity := { entry.identity with host := [], udsPath := [] } }

theorem toNat_ofNat_code {code : Nat} (hcode : code < 256) : (UInt32.ofNat code).toNat = code := by
  rw [UInt32.toNat_ofNat']
  omega

theorem fromPbPiggyback_toPbPiggyback {entry : PiggybackEntry}
    (hvalid : entry.identity.endpoint.Valid) :
    fromPbPiggyback (toPbPiggyback entry) = entry.carried := by
  simp only [toPbPiggyback, fromPbPiggyback, PiggybackEntry.carried,
    toNat_ofNat_code entry.type.code_lt, PiggybackType.ofCode_code,
    pbEndpointToEp_epToPbEndpoint hvalid, map_fromPbAcceptor]

def toPbMember (m : Member) : PbGossipMember where
  endpoint := epToPbEndpoint m.identity.endpoint
  host := m.identity.host
  udsPath := m.identity.udsPath
  incarnation := m.incarnation
  status := UInt32.ofNat m.status.code
  actorTypes := m.actorTypes
  acceptors := m.identity.acceptors.map toPbAcceptor

def fromPbMember (pb : PbGossipMember) : Member where
  identity :=
    { endpoint := pbEndpointToEp pb.endpoint
      host := pb.host
      udsPath := pb.udsPath
      acceptors := pb.acceptors.map fromPbAcceptor }
  incarnation := pb.incarnation
  status := MemberStatus.ofCode pb.status.toNat
  actorTypes := pb.actorTypes

theorem fromPbMember_toPbMember {m : Member} (hvalid : m.identity.endpoint.Valid) :
    fromPbMember (toPbMember m) = { m with lastSeen := 0 } := by
  simp only [toPbMember, fromPbMember, toNat_ofNat_code m.status.code_lt, MemberStatus.ofCode_code,
    pbEndpointToEp_epToPbEndpoint hvalid, map_fromPbAcceptor]

/-- `"HPGC"`. -/
def gossipMagic : UInt32 := 0x48504743

def gossipVersion : UInt32 := 1

variable (protobuf : GossipProtobuf) (localState : Member)

/-- The payload of `encode_message`; the sender is the local node. -/
def messagePayload (type : GossipMessageType) (inc : UInt64) (seq : UInt32) (pingTarget : EndPoint)
    (pb : List PiggybackEntry) : PbGossipPayload :=
  let senderEndpoint := epToPbEndpoint localState.identity.endpoint
  match type with
  | .ping =>
    .ping { senderEndpoint, incarnation := inc, seqNo := seq
            piggyback := pb.map toPbPiggyback }
  | .ack =>
    .ack { senderEndpoint, incarnation := inc
           piggyback := pb.map toPbPiggyback }
  | .pingReq =>
    .pingReq { senderEndpoint, targetEndpoint := epToPbEndpoint pingTarget
               incarnation := inc }
  | .indirectAck =>
    .indirectAck { senderEndpoint
                   originalRequester := epToPbEndpoint pingTarget
                   incarnation := inc }
  | .join =>
    .join { senderEndpoint, incarnation := inc
            host := localState.identity.host
            udsPath := localState.identity.udsPath
            actorTypes := localState.actorTypes
            acceptors := localState.identity.acceptors.map toPbAcceptor }
  | .leave => .leave { senderEndpoint, incarnation := inc }
  | _ => .notSet

def messageEnvelope (type : GossipMessageType) (inc : UInt64) (seq : UInt32) (pingTarget : EndPoint)
    (pb : List PiggybackEntry) : PbGossipEnvelope where
  magic := gossipMagic
  version := gossipVersion
  type := UInt32.ofNat type.code
  flags := 0
  payload := messagePayload localState type inc seq pingTarget pb

def encodeMessage (type : GossipMessageType) (inc : UInt64) (seq : UInt32) (pingTarget : EndPoint)
    (pb : List PiggybackEntry) : List UInt8 :=
  protobuf.envelope.serializeAsString (messageEnvelope localState type inc seq pingTarget pb)

/-- What `decode_message` fills in; what it leaves alone is not read. -/
structure GossipMessage where
  type : GossipMessageType
  sender : EndPoint := .unspecified
  inc : UInt64 := 0
  seq : UInt32 := 0
  pingTarget : EndPoint := .unspecified
  pb : List PiggybackEntry := []

/-- The message in an envelope of the right magic and version. -/
def ofEnvelope (env : PbGossipEnvelope) : Option GossipMessage :=
  match GossipMessageType.ofCode env.type.toNat with
  | .ping =>
    match env.payload with
    | .ping m =>
      some { type := .ping, sender := pbEndpointToEp m.senderEndpoint
             inc := m.incarnation, seq := m.seqNo
             pb := m.piggyback.map fromPbPiggyback }
    | _ => none
  | .ack =>
    match env.payload with
    | .ack m =>
      some { type := .ack, sender := pbEndpointToEp m.senderEndpoint
             inc := m.incarnation
             pb := m.piggyback.map fromPbPiggyback }
    | _ => none
  | .pingReq =>
    match env.payload with
    | .pingReq m =>
      some { type := .pingReq, sender := pbEndpointToEp m.senderEndpoint
             pingTarget := pbEndpointToEp m.targetEndpoint
             inc := m.incarnation }
    | _ => none
  | .indirectAck =>
    match env.payload with
    | .indirectAck m =>
      some { type := .indirectAck
             sender := pbEndpointToEp m.senderEndpoint
             pingTarget := pbEndpointToEp m.originalRequester
             inc := m.incarnation }
    | _ => none
  | .join =>
    match env.payload with
    | .join m =>
      some { type := .join, sender := pbEndpointToEp m.senderEndpoint
             inc := m.incarnation }
    | _ => none
  -- sync responses have their own decoder
  | .syncRsp => none
  | .leave =>
    match env.payload with
    | .leave m =>
      some { type := .leave, sender := pbEndpointToEp m.senderEndpoint
             inc := m.incarnation }
    | _ => none
  -- the switch has no case for other values and falls through
  | .unnamed index => some { type := .unnamed index }

def decodeMessage (data : List UInt8) : Option GossipMessage :=
  (protobuf.envelope.parseFromString data).bind fun env =>
    if env.magic = gossipMagic ∧ env.version = gossipVersion then
      ofEnvelope env
    else none

/-- The message of `encode_sync_rsp`. -/
def syncRspMessage (incarnation : UInt64) (members : List Member) : PbGossipSyncRsp where
  senderEndpoint := epToPbEndpoint localState.identity.endpoint
  incarnation := incarnation
  members := members.map toPbMember

def encodeSyncRsp (incarnation : UInt64) (members : List Member) : List UInt8 :=
  protobuf.syncRsp.serializeAsString (syncRspMessage localState incarnation members)

def decodeSyncRsp (now : Nat) (data : List UInt8) : Option (List Member) :=
  (protobuf.syncRsp.parseFromString data).map fun rsp =>
    rsp.members.map fun pb => { fromPbMember pb with lastSeen := now }

/-- What `handle_packet` calls. -/
inductive HandlerCall where
  | handlePing (sender : EndPoint) (inc : UInt64) (seq : UInt32) (pb : List PiggybackEntry)
  | handleAck (sender : EndPoint) (inc : UInt64) (pb : List PiggybackEntry)
  | handlePingReq (sender target : EndPoint)
  | handleIndirectAck (sender target : EndPoint)
  | handleJoin (sender : EndPoint) (inc : UInt64) (pb : List PiggybackEntry)
  | handleSyncRsp (members : List Member)
  | handleLeave (sender : EndPoint) (inc : UInt64)
deriving Repr, DecidableEq

def GossipMessage.call (m : GossipMessage) : Option HandlerCall :=
  match m.type with
  | .ping => some (.handlePing m.sender m.inc m.seq m.pb)
  | .ack => some (.handleAck m.sender m.inc m.pb)
  | .pingReq => some (.handlePingReq m.sender m.pingTarget)
  | .indirectAck => some (.handleIndirectAck m.sender m.pingTarget)
  | .join => some (.handleJoin m.sender m.inc m.pb)
  | .leave => some (.handleLeave m.sender m.inc)
  | _ => none

def dispatch (now : Nat) (data : List UInt8) : Option HandlerCall :=
  match decodeMessage protobuf data with
  | some m => m.call
  | none => (decodeSyncRsp protobuf now data).map .handleSyncRsp

end HPActor.Gossip
