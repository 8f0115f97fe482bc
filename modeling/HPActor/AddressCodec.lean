/-
Actor addresses in frames: `to_proto` and `from_proto` of `ActorAddress`.  An
address without a real endpoint is written in its local form, which has no
place for the endpoint; reading the local form puts 127.0.0.1 with port 0
there.
-/
import HPActor.GossipMessages
import HPActor.EndpointText

namespace HPActor.AddressCodec

open Gossip (PbEndpoint)

structure PbLocalActorAddress where
  actorType : UInt32 := 0
  actorId : UInt64 := 0
  incarnation : UInt64 := 0

structure PbGlobalActorAddress where
  endpoint : PbEndpoint := .notSet
  localAddr : PbLocalActorAddress := {}

/-- The oneof; `PbActorRef` has the same two cases and is filled and read by
the same code. -/
inductive PbActorAddress where
  | notSet
  | localAddr (addr : PbLocalActorAddress)
  | globalAddr (addr : PbGlobalActorAddress)

/-- Addresses and ports keep their byte order. -/
def endpointToProto : EndPoint → PbEndpoint
  | .ipv4 addr portNw => .ipv4 { addr, port := portNw.toUInt32 }
  | .ipv6 addr portNw => .ipv6 { addr, port := portNw.toUInt32 }

def endpointFromProto : PbEndpoint → EndPoint
  | .ipv4 pb => .ipv4 pb.addr pb.port.toUInt16
  | .ipv6 pb => .ipv6 (pb.addr.take 16) pb.port.toUInt16
  | .notSet => .ipv4 0 0

theorem endpointFromProto_toProto {ep : EndPoint} (hvalid : ep.Valid) :
    endpointFromProto (endpointToProto ep) = ep := by
  cases ep with
  | ipv4 addr portNw =>
    rw [endpointToProto, endpointFromProto, UInt16.toUInt16_toUInt32]
  | ipv6 addr portNw =>
    have hlength : addr.length = 16 := hvalid
    rw [endpointToProto, endpointFromProto, UInt16.toUInt16_toUInt32,
      List.take_of_length_le hlength.le]

def isLoopback : EndPoint → Bool
  | .ipv4 addr _ => addr >>> 24 == 0x7F
  | .ipv6 addr _ =>
    (addr.take 15).all (· == 0) && addr[15]? == some 1

/-- Reversing the bytes of a port does not change whether it is 0. -/
def isDefaultLocalEndpoint : EndPoint → Bool
  | .ipv4 addr portNw => isLoopback (.ipv4 addr portNw) && portNw == 0
  | .ipv6 addr portNw => isLoopback (.ipv6 addr portNw) && portNw == 0

variable (addr : ActorAddress)

def fillLocalAddr : PbLocalActorAddress where
  actorType := addr.type
  actorId := addr.id
  incarnation := addr.incarnation

def fillGlobalAddr : PbGlobalActorAddress where
  endpoint := endpointToProto addr.endpoint
  localAddr := fillLocalAddr addr

def toProto : PbActorAddress :=
  if isDefaultLocalEndpoint addr.endpoint || addr.id == 0 then
    .localAddr (fillLocalAddr addr)
  else .globalAddr (fillGlobalAddr addr)

def fromAddr (endpoint : EndPoint) (pb : PbLocalActorAddress) : ActorAddress where
  endpoint := endpoint
  type := pb.actorType
  id := pb.actorId
  incarnation := pb.incarnation

def fromProto : PbActorAddress → ActorAddress
  | .localAddr pb => fromAddr .localEndpoint pb
  | .globalAddr pb => fromAddr (endpointFromProto pb.endpoint) pb.localAddr
  | .notSet => {}

theorem fromAddr_fillLocalAddr (endpoint : EndPoint) (addr : ActorAddress) :
    fromAddr endpoint (fillLocalAddr addr) = { addr with endpoint } :=
  rfl

theorem setEndpoint_eq_iff (endpoint : EndPoint) :
    ({ addr with endpoint } : ActorAddress) = addr ↔ addr.endpoint = endpoint := by
  cases addr
  simp [eq_comm]

/-- An address comes back from the wire exactly if it has an actor id and an
endpoint of its own, or its endpoint is the one the local form stands for. -/
theorem fromProto_toProto_iff (addr : ActorAddress) (hvalid : addr.endpoint.Valid) :
    fromProto (toProto addr) = addr ↔ (addr.id ≠ 0 ∧ ¬ isDefaultLocalEndpoint addr.endpoint) ∨
        addr.endpoint = .localEndpoint := by
  cases hlocal : isDefaultLocalEndpoint addr.endpoint || addr.id == 0 with
  | true =>
    rw [toProto, if_pos hlocal, fromProto, fromAddr_fillLocalAddr, setEndpoint_eq_iff]
    simp only [Bool.or_eq_true, beq_iff_eq] at hlocal
    tauto
  | false =>
    -- the global form has the endpoint, and both sides hold
    rw [toProto, if_neg (by rw [hlocal]; exact Bool.false_ne_true), fromProto,
      fillGlobalAddr, fromAddr_fillLocalAddr,
      endpointFromProto_toProto hvalid]
    simp only [Bool.or_eq_false_iff, beq_eq_false_iff_ne] at hlocal
    simp [hlocal]

theorem fromProto_toProto_private :
    fromProto (toProto { endpoint := .ipv4 0x0A000001 80, id := 7 }) =
      { endpoint := .ipv4 0x0A000001 80, id := 7 } := by
  rw [fromProto_toProto_iff _ (by decide)]
  decide

/-- The IPv6 loopback with port 0 comes back as 127.0.0.1, and an address
without an id loses its endpoint. -/
theorem fromProto_toProto_loses :
    (∃ ep : EndPoint, ep.Valid ∧ fromProto (toProto { endpoint := ep, id := 7 }) ≠
        { endpoint := ep, id := 7 }) ∧
    fromProto (toProto { endpoint := .ipv4 0x0A000001 80 }) ≠
      { endpoint := .ipv4 0x0A000001 80 } := by
  constructor
  · refine ⟨.ipv6 (List.replicate 15 0 ++ [1]) 0, ?_⟩
    decide
  · decide

end HPActor.AddressCodec
