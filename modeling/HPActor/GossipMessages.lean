/-
The messages of the gossip protocol, as `gossip.proto` declares them.  Writing
and reading them is the work of the protocol buffer library, which is a
parameter here.
-/
import HPActor.FrameDecoding

namespace HPActor.Gossip

/-- `std::string`. -/
abbrev Text := List UInt8

structure PbIpv4Endpoint where
  addr : UInt32 := 0
  port : UInt32 := 0
deriving DecidableEq

structure PbIpv6Endpoint where
  addr : List UInt8 := []
  port : UInt32 := 0
deriving DecidableEq

inductive PbEndpoint where
  | notSet
  | ipv4 (e : PbIpv4Endpoint)
  | ipv6 (e : PbIpv6Endpoint)
deriving DecidableEq

structure PbAcceptorInfo where
  port : UInt32 := 0
  handshakeVersion : UInt32 := 0
  protocolVersion : UInt32 := 0
  tlsRequired : Bool := false
deriving DecidableEq

structure PbPiggybackEntry where
  type : UInt32 := 0
  endpoint : PbEndpoint := .notSet
  incarnation : UInt64 := 0
  actorTypes : List Text := []
  load : UInt32 := 0
  acceptors : List PbAcceptorInfo := []
deriving DecidableEq

structure PbGossipMember where
  endpoint : PbEndpoint := .notSet
  host : Text := []
  udsPath : Text := []
  incarnation : UInt64 := 0
  status : UInt32 := 0
  actorTypes : List Text := []
  acceptors : List PbAcceptorInfo := []

structure PbGossipPing where
  senderEndpoint : PbEndpoint := .notSet
  incarnation : UInt64 := 0
  seqNo : UInt32 := 0
  piggyback : List PbPiggybackEntry := []
deriving DecidableEq

structure PbGossipAck where
  senderEndpoint : PbEndpoint := .notSet
  incarnation : UInt64 := 0
  piggyback : List PbPiggybackEntry := []
deriving DecidableEq

structure PbGossipPingReq where
  senderEndpoint : PbEndpoint := .notSet
  targetEndpoint : PbEndpoint := .notSet
  incarnation : UInt64 := 0
deriving DecidableEq

structure PbGossipIndirectAck where
  senderEndpoint : PbEndpoint := .notSet
  originalRequester : PbEndpoint := .notSet
  incarnation : UInt64 := 0
deriving DecidableEq

structure PbGossipJoin where
  senderEndpoint : PbEndpoint := .notSet
  incarnation : UInt64 := 0
  host : Text := []
  udsPath : Text := []
  actorTypes : List Text := []
  acceptors : List PbAcceptorInfo := []
deriving DecidableEq

structure PbGossipSyncRsp where
  senderEndpoint : PbEndpoint := .notSet
  incarnation : UInt64 := 0
  members : List PbGossipMember := []

structure PbGossipLeave where
  senderEndpoint : PbEndpoint := .notSet
  incarnation : UInt64 := 0
deriving DecidableEq

/-- The oneof of the envelope.  Nothing sets or reads its sync response. -/
inductive PbGossipPayload where
  | notSet
  | ping (m : PbGossipPing)
  | ack (m : PbGossipAck)
  | pingReq (m : PbGossipPingReq)
  | indirectAck (m : PbGossipIndirectAck)
  | join (m : PbGossipJoin)
  | syncRsp
  | leave (m : PbGossipLeave)
deriving DecidableEq

structure PbGossipEnvelope where
  magic : UInt32 := 0
  version : UInt32 := 0
  type : UInt32 := 0
  flags : UInt32 := 0
  payload : PbGossipPayload := .notSet
deriving DecidableEq

/-- The generated code of the two messages that are sent as packets. -/
structure GossipProtobuf where
  envelope : WireFrame.Protobuf PbGossipEnvelope
  syncRsp : WireFrame.Protobuf PbGossipSyncRsp

/-- The magic number of an envelope is a fixed-width field 1.  The field 1 of a
sync response is of another wire type, so that its bytes set no magic number. -/
def GossipProtobuf.KeepsApart (pb : GossipProtobuf) : Prop :=
  ∀ rsp env, pb.envelope.parseFromString (pb.syncRsp.serializeAsString rsp) = some env →
    env.magic = 0

/-- A library that knows a few envelopes and no sync response. -/
def GossipProtobuf.ofTable (table : List (PbGossipEnvelope × List UInt8)) : GossipProtobuf where
  envelope :=
    { serializeAsString := fun env => (table.lookup env).getD []
      parseFromString := fun bytes => (table.find? (·.2 = bytes)).map Prod.fst }
  syncRsp := { serializeAsString := fun _ => [], parseFromString := fun _ => none }

end HPActor.Gossip
