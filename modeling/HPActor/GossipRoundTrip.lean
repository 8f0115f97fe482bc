/-
What is sent is what is handled.  A packet that the library reads back is
decoded to the call its sender meant, with every field the handler reads.  The
one exception is the piggyback of a join: `send_join` puts the node's metadata
there and `handle_join` would apply it, but the encoding of a join has no place
for it.
-/
import HPActor.GossipMembership

namespace HPActor.Gossip

open Option GossipMembership List GossipMessage

/-- What a node sends. -/
inductive Packet where
  | message (type : GossipMessageType) (inc : UInt64) (seq : UInt32)
      (pingTarget : EndPoint) (pb : List PiggybackEntry)
  | syncRsp (incarnation : UInt64) (members : List Member)

/-- The types that `encode_message` is called with. -/
def messageTypes : List GossipMessageType :=
  [.ping, .ack, .pingReq, .indirectAck, .join, .leave]

namespace HandlerCall

/-- The call without the hosts and paths of piggybacked entries. -/
def carried : HandlerCall → HandlerCall
  | .handlePing sender inc seq pb =>
    .handlePing sender inc seq (pb.map PiggybackEntry.carried)
  | .handleAck sender inc pb =>
    .handleAck sender inc (pb.map PiggybackEntry.carried)
  | .handleJoin sender inc pb =>
    .handleJoin sender inc (pb.map PiggybackEntry.carried)
  | call => call

end HandlerCall

namespace Packet

variable (protobuf : GossipProtobuf) (localState : Member)

def encode : Packet → List UInt8
  | .message type inc seq pingTarget pb =>
    encodeMessage protobuf localState type inc seq pingTarget pb
  | .syncRsp incarnation members =>
    encodeSyncRsp protobuf localState incarnation members

/-- The call the sender means. -/
def call (now : Nat) : Packet → Option HandlerCall
  | .message type inc seq pingTarget pb =>
    GossipMessage.call
      { type, sender := localState.identity.endpoint, inc, seq, pingTarget
        pb }
  | .syncRsp _ members =>
    some (.handleSyncRsp (members.map fun m => { m with lastSeen := now }))

/-- The packet fits the format: its endpoints are endpoints, and the library
reads back what it has written for it. -/
def Sendable : Packet → Prop
  | .message type inc seq pingTarget pb =>
    type ∈ messageTypes ∧ localState.identity.endpoint.Valid ∧
      pingTarget.Valid ∧ (∀ e ∈ pb, e.identity.endpoint.Valid) ∧
      protobuf.envelope.parseFromString
          (encodeMessage protobuf localState type inc seq pingTarget pb) =
        some (messageEnvelope localState type inc seq pingTarget pb)
  | .syncRsp incarnation members =>
    localState.identity.endpoint.Valid ∧ (∀ m ∈ members, m.identity.endpoint.Valid) ∧
      protobuf.syncRsp.parseFromString (encodeSyncRsp protobuf localState incarnation members) =
        some (syncRspMessage localState incarnation members)

/-- The piggyback is not that of a join. -/
def Plain : Packet → Prop
  | .message type _ _ _ pb => type = .join → pb = []
  | .syncRsp .. => True

end Packet

section

variable {protobuf : GossipProtobuf} {localState : Member} {type : GossipMessageType}
  {inc : UInt64} {seq : UInt32} {pingTarget : EndPoint} {pb : List PiggybackEntry} (now : Nat)

theorem map_fromPbPiggyback (hvalid : ∀ e ∈ pb, e.identity.endpoint.Valid) :
    (pb.map toPbPiggyback).map fromPbPiggyback = pb.map PiggybackEntry.carried := by
  rw [List.map_map]
  exact List.map_congr_left fun e he =>
    fromPbPiggyback_toPbPiggyback (hvalid e he)

variable (hsend : (Packet.message type inc seq pingTarget pb).Sendable protobuf localState)
include hsend

theorem decodeMessage_encodeMessage :
    decodeMessage protobuf (encodeMessage protobuf localState type inc seq pingTarget pb) =
      ofEnvelope (messageEnvelope localState type inc seq pingTarget pb) := by
  obtain ⟨-, -, -, -, hparse⟩ := hsend
  rw [decodeMessage, hparse, bind_some]
  exact if_pos ⟨rfl, rfl⟩

/-- Each type's payload is read back into the fields of its handler; those of a
join have no piggyback. -/
theorem dispatch_message :
    dispatch protobuf now (encodeMessage protobuf localState type inc seq pingTarget pb) =
      ((Packet.message type inc seq pingTarget (if type = .join then [] else pb)).call localState
        now).map HandlerCall.carried := by
  rw [dispatch, decodeMessage_encodeMessage hsend]
  obtain ⟨htype, hsender, htarget, hentries, -⟩ := hsend
  have hsenderBack := pbEndpointToEp_epToPbEndpoint hsender
  have htargetBack := pbEndpointToEp_epToPbEndpoint htarget
  have hpb := map_fromPbPiggyback hentries
  cases type with
  | ping =>
    change some (HandlerCall.handlePing _ _ _ _) = _
    rw [hsenderBack, hpb]
    rfl
  | ack =>
    change some (HandlerCall.handleAck _ _ _) = _
    rw [hsenderBack, hpb]
    rfl
  | pingReq =>
    change some (HandlerCall.handlePingReq _ _) = _
    rw [hsenderBack, htargetBack]
    rfl
  | indirectAck =>
    change some (HandlerCall.handleIndirectAck _ _) = _
    rw [hsenderBack, htargetBack]
    rfl
  | join =>
    change some (HandlerCall.handleJoin _ _ _) = _
    rw [hsenderBack]
    rfl
  | leave =>
    change some (HandlerCall.handleLeave _ _) = _
    rw [hsenderBack]
    rfl
  | syncRsp => exact absurd htype (by decide)
  | unnamed index => exact absurd htype (by simp [messageTypes])

end

section

variable {protobuf : GossipProtobuf} {localState : Member} {incarnation : UInt64}
  {members : List Member} (now : Nat)

/-- A sync response is not taken for an envelope. -/
theorem decodeMessage_encodeSyncRsp (hapart : protobuf.KeepsApart) :
    decodeMessage protobuf (encodeSyncRsp protobuf localState incarnation members) = none := by
  rw [decodeMessage]
  cases hparse : protobuf.envelope.parseFromString
      (encodeSyncRsp protobuf localState incarnation members) with
  | none => rfl
  | some env =>
    rw [bind_some, if_neg]
    rintro ⟨hmagic, -⟩
    rw [hapart _ env hparse] at hmagic
    exact absurd hmagic (by decide)

theorem dispatch_syncRsp (hapart : protobuf.KeepsApart)
    (hsend : (Packet.syncRsp incarnation members).Sendable protobuf localState) :
    dispatch protobuf now (encodeSyncRsp protobuf localState incarnation members) =
      (Packet.syncRsp incarnation members).call localState now := by
  obtain ⟨-, hvalid, hparse⟩ := hsend
  rw [dispatch, decodeMessage_encodeSyncRsp hapart, decodeSyncRsp, hparse, map_some,
    syncRspMessage, List.map_map]
  refine congrArg (some ∘ HandlerCall.handleSyncRsp) (List.map_congr_left fun m hm => ?_)
  simp only [Function.comp_apply, fromPbMember_toPbMember (hvalid m hm)]

end

/-- `apply_piggyback` does not read what is not carried. -/
theorem applyPiggyback_carried (now : Nat) (members : Table Member) (pb : List PiggybackEntry) :
    applyPiggyback now members (pb.map PiggybackEntry.carried) = applyPiggyback now members pb := by
  rw [applyPiggyback, foldl_map]
  rfl

theorem apply_carried (g : GossipMembership) (now : Nat) (pb : List PiggybackEntry) :
    g.apply now (pb.map PiggybackEntry.carried) = g.apply now pb := by
  rw [apply, applyPiggyback_carried]
  rfl

theorem handle_carried (g : GossipMembership) (now : Nat)
    (call : HandlerCall) : g.handle now call.carried = g.handle now call := by
  cases call with
  | handlePing | handleAck | handleJoin =>
    simp only [HandlerCall.carried, handle, handlePing, handleAck, handleJoin, apply_carried]
  | _ => rfl

section

variable {protobuf : GossipProtobuf} {localState : Member} {p : Packet} (now : Nat)
  (hsend : p.Sendable protobuf localState)
include hsend

theorem Packet.exists_call : ∃ call, p.call localState now = some call := by
  cases p with
  | message type inc seq pingTarget pb =>
    have htype := hsend.1
    simp only [messageTypes, mem_cons, not_mem_nil, or_false] at htype
    rcases htype with rfl | rfl | rfl | rfl | rfl | rfl <;> exact ⟨_, rfl⟩
  | syncRsp incarnation members => exact ⟨_, rfl⟩

/-- What arrives is what was meant exactly if no piggyback goes with a join. -/
theorem dispatch_encode_iff (hapart : protobuf.KeepsApart) :
    dispatch protobuf now (p.encode protobuf localState) =
        (p.call localState now).map HandlerCall.carried ↔ p.Plain := by
  cases p with
  | message type inc seq pingTarget pb =>
    rw [Packet.encode, dispatch_message now hsend]
    by_cases hjoin : type = .join
    · subst hjoin
      simp [Packet.call, GossipMessage.call, HandlerCall.carried, Packet.Plain, eq_comm]
    · simp [hjoin, Packet.Plain]
  | syncRsp incarnation members =>
    exact iff_of_true (dispatch_syncRsp now hapart hsend) trivial

/-- A packet is decoded to the call its sender means, up to what handlers do
not read, and handling it is that call, exactly if it is no join with a
piggyback. -/
theorem packets_round_trip_iff (hapart : protobuf.KeepsApart) :
    (∃ call, p.call localState now = some call ∧
      dispatch protobuf now (p.encode protobuf localState) = some call.carried ∧
      ∀ g : GossipMembership, g.protobuf = protobuf →
        g.handlePacket now (p.encode protobuf localState) = g.handle now call) ↔ p.Plain := by
  rw [← dispatch_encode_iff now hsend hapart]
  obtain ⟨call, hcall⟩ := Packet.exists_call now hsend
  rw [hcall, map_some]
  constructor
  · rintro ⟨meant, hmeant, hdispatch, -⟩
    cases hmeant
    exact hdispatch
  · intro hdispatch
    refine ⟨call, rfl, hdispatch, fun g hg => ?_⟩
    rw [handlePacket, hg, hdispatch]
    exact handle_carried g now call

end

namespace RoundTripWitness

def endpoint : EndPoint := .ipv4 0x7F000002 0

/-- A node that hosts actors of the type `"echo"`. -/
def identity : Member :=
  { identity := { endpoint }, actorTypes := [[101, 99, 104, 111]] }

def metadata : PiggybackEntry :=
  { type := .metadata, identity := { endpoint }, incarnation := 5
    actorTypes := identity.actorTypes }

/-- The bytes of a ping with the node's metadata, and of the node's join. -/
def library : GossipProtobuf :=
  .ofTable
    [(messageEnvelope identity .ping 5 7 endpoint [metadata],
      [13, 67, 71, 80, 72, 16, 1, 24, 1, 82, 34, 10, 7, 10, 5, 13, 2, 0, 0, 127, 16, 5, 24, 7,
        34, 19, 8, 4, 18, 7, 10, 5, 13, 2, 0, 0, 127, 24, 5, 34, 4, 101, 99, 104, 111]),
      (messageEnvelope identity .join 5 0 endpoint [metadata],
      [13, 67, 71, 80, 72, 16, 1, 24, 5, 114, 17, 10, 7, 10, 5, 13, 2, 0, 0, 127, 16, 5, 42, 4,
        101, 99, 104, 111])]

theorem library_keepsApart : library.KeepsApart := by
  intro rsp env hparse
  cases hparse

def node : GossipMembership where
  protobuf := library
  config := { localState := identity }
  incarnation := 5

def announcing : Packet := .message .ping 5 7 endpoint [metadata]

theorem announcing_sendable : announcing.Sendable library identity :=
  ⟨by decide, trivial, trivial, by decide, by decide +kernel⟩

theorem announcing_arrives :
    ∃ call, announcing.call identity 3 = some call ∧
      dispatch library 3 (announcing.encode library identity) = some call.carried ∧
      ∀ g : GossipMembership, g.protobuf = library →
        g.handlePacket 3 (announcing.encode library identity) = g.handle 3 call :=
  (packets_round_trip_iff 3 announcing_sendable library_keepsApart).mpr nofun

/-- The packet of `send_join`. -/
def joining : Packet := .message .join 5 0 endpoint [metadata]

/-- The metadata of a join does not arrive, so that the seed does not learn the
actor types. -/
theorem metadata_is_lost :
    (node.sendJoin .unspecified).sent = [(joining.encode library identity, .unspecified)] ∧
      joining.Sendable library identity ∧
      joining.call identity 3 = some (.handleJoin endpoint 5 [metadata]) ∧
      dispatch library 3 (joining.encode library identity) = some (.handleJoin endpoint 5 []) :=
  ⟨rfl, ⟨by decide, trivial, trivial, by decide, by decide +kernel⟩, rfl, by decide +kernel⟩

end RoundTripWitness

end HPActor.Gossip
