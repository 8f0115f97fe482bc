/-
`WireFrame::encode` and `try_decode_wireframe`, the strict decoder of one frame
in a buffer.  The decoder checks the header, the payload bound and the length
before it hands the payload to protobuf; with the default limits it also refuses
bytes behind the frame.
-/
import HPActor.FrameReassembly

namespace HPActor.WireFrame

open StreamBuffer List

variable {E : Type*}

/-- The generated protobuf code for the envelope. -/
structure Protobuf (E : Type*) where
  serializeAsString : E → List UInt8
  parseFromString : List UInt8 → Option E

/-- Parsing undoes serialising, and protobuf keeps to its own bound of two
gigabytes for a message. -/
structure Protobuf.Lawful (pb : Protobuf E) : Prop where
  parse_serialize : ∀ e, pb.parseFromString (pb.serializeAsString e) = some e
  length_lt : ∀ e, (pb.serializeAsString e).length < 2 ^ 31

structure Frame (E : Type*) where
  magicHdr : Nat := 0x43415048
  length : Nat := 0
  pbEnvelope : E

/-- `WireFrame::encode`. -/
def Frame.encode (alloc : Nat → Nat → Nat) (pb : Protobuf E) (f : Frame E) : StreamBuffer :=
  (((reserve alloc {} (headerSize + (pb.serializeAsString f.pbEnvelope).length)).append
      magic).append
    (lengthBytes ((pb.serializeAsString f.pbEnvelope).length % 2 ^ 32))).append
    (pb.serializeAsString f.pbEnvelope)

structure FrameDecodeLimits where
  /-- Zero switches the check off. -/
  maxPayloadBytes : Nat := 16 * 1024 * 1024
  rejectTrailingBytes : Bool := true

structure FrameDecodeResult (E : Type*) where
  decoded : Except FrameDecodeError (Frame E)
  declaredPayloadBytes : Nat := 0

namespace FrameDecodeResult

def ok (r : FrameDecodeResult E) : Bool :=
  match r.decoded with
  | .ok _ => true
  | .error _ => false

/-- The bytes a caller may take off its buffer. -/
def consumed (r : FrameDecodeResult E) : Nat :=
  if r.ok then headerSize + r.declaredPayloadBytes else 0

/-- The two errors that more bytes can mend. -/
def needsMore (r : FrameDecodeResult E) : Prop :=
  r.decoded = .error .headerTooShort ∨ r.decoded = .error .lengthMismatch

end FrameDecodeResult

/-- The payload is larger than the limits allow. -/
def FrameDecodeLimits.Exceeded (limits : FrameDecodeLimits) (n : Nat) : Prop :=
  0 < limits.maxPayloadBytes ∧ limits.maxPayloadBytes < n

instance (limits : FrameDecodeLimits) (n : Nat) :
    Decidable (limits.Exceeded n) := inferInstanceAs (Decidable (_ ∧ _))

/-- Steps 4 to 6 of the decoder, once the length field is read. -/
def decodePayload (pb : Protobuf E) (limits : FrameDecodeLimits)
    (data : List UInt8) (payloadLen : Nat) :
    Except FrameDecodeError (Frame E) :=
  if limits.Exceeded payloadLen then .error .frameTooLarge
  else if data.length < headerSize + payloadLen then .error .lengthMismatch
  else if limits.rejectTrailingBytes ∧ headerSize + payloadLen < data.length then
    .error .trailingBytes
  else
    match pb.parseFromString ((data.drop headerSize).take payloadLen) with
    | none => .error .invalidProtobuf
    | some envelope => .ok { pbEnvelope := envelope }

def tryDecodeWireframe (pb : Protobuf E) (data : StreamBuffer)
    (limits : FrameDecodeLimits) : FrameDecodeResult E :=
  if data.size < headerSize then { decoded := .error .headerTooShort }
  else if data.content.take 4 = magic then
    { decoded := decodePayload pb limits data.content (parseLength data.content)
      declaredPayloadBytes := parseLength data.content }
  else { decoded := .error .invalidMagic }

theorem content_encode (alloc : Nat → Nat → Nat) (pb : Protobuf E) (f : Frame E) :
    (f.encode alloc pb).content = encode (pb.serializeAsString f.pbEnvelope) := by
  have hvalid : Valid (reserve alloc {}
      (headerSize + (pb.serializeAsString f.pbEnvelope).length)) := by
    unfold reserve
    split <;> exact Nat.zero_le _
  have hempty : content (reserve alloc {}
      (headerSize + (pb.serializeAsString f.pbEnvelope).length)) = [] := by
    unfold reserve
    split <;> rfl
  have hmagic := valid_append magic hvalid
  have hlength := valid_append
    (lengthBytes ((pb.serializeAsString f.pbEnvelope).length % 2 ^ 32)) hmagic
  rw [Frame.encode, content_append _ hlength, content_append _ hmagic, content_append _ hvalid,
    hempty]
  rfl

/-- The length field of a header is what the encoder writes for the length read
from it. -/
theorem lengthBytes_parseLength (a b c d e f g h : UInt8) (rest : List UInt8) :
    lengthBytes (parseLength (a :: b :: c :: d :: e :: f :: g :: h :: rest)) = [e, f, g, h] := by
  have he := e.toNat_lt
  have hf := f.toNat_lt
  have hg := g.toNat_lt
  have hh := h.toNat_lt
  simp only [parseLength, getD_cons_succ, getD_cons_zero]
  rw [join_bytes hf hg hh]
  simp only [lengthBytes, Nat.shiftRight_eq_div_pow, cons.injEq, and_true]
  refine ⟨?_, ?_, ?_, ?_⟩
  all_goals
    apply UInt8.toNat_inj.mp
    rw [UInt8.toNat_ofNat']
    omega

theorem header_eq {data : List UInt8} (hlong : headerSize ≤ data.length)
    (hmagic : data.take 4 = magic) :
    data.take headerSize = magic ++ lengthBytes (parseLength data) := by
  match data, hlong with
  | a :: b :: c :: d :: e :: f :: g :: h :: rest, _ =>
    rw [lengthBytes_parseLength, ← hmagic]
    rfl

variable {data : StreamBuffer} {limits : FrameDecodeLimits} {pb : Protobuf E}

theorem tryDecode_of_header (pb : Protobuf E) (limits : FrameDecodeLimits)
    (hlong : headerSize ≤ data.size) (hmagic : data.content.take 4 = magic) :
    tryDecodeWireframe pb data limits =
      { decoded :=
          decodePayload pb limits data.content (parseLength data.content)
        declaredPayloadBytes := parseLength data.content } := by
  rw [tryDecodeWireframe, if_neg (Nat.not_lt.mpr hlong), if_pos hmagic]

/-- A result that is a frame went through every check. -/
theorem decodePayload_ok {data : List UInt8} {payloadLen : Nat} {frame : Frame E}
    (hok : decodePayload pb limits data payloadLen = .ok frame) :
    headerSize + payloadLen ≤ data.length := by
  unfold decodePayload at hok
  by_cases hlarge : limits.Exceeded payloadLen
  · rw [if_pos hlarge] at hok
    cases hok
  · rw [if_neg hlarge] at hok
    by_cases hshort : data.length < headerSize + payloadLen
    · rw [if_pos hshort] at hok
      cases hok
    · exact Nat.not_lt.mp hshort

open FrameDecodeResult

/-- The header of what the decoder accepts is the encoder's. -/
theorem header_of_ok (hok : (tryDecodeWireframe pb data limits).ok = true) :
    data.content.take headerSize = magic ++ lengthBytes
        (tryDecodeWireframe pb data limits).declaredPayloadBytes ∧
      (tryDecodeWireframe pb data limits).consumed ≤ data.size := by
  by_cases hshort : data.size < headerSize
  · rw [tryDecodeWireframe, if_pos hshort] at hok
    cases hok
  · have hlong := Nat.not_lt.mp hshort
    by_cases hmagic : data.content.take 4 = magic
    · have hresult := tryDecode_of_header pb limits hlong hmagic
      rw [← content_length] at hlong
      rw [consumed, if_pos hok]
      rw [hresult] at hok ⊢
      refine ⟨header_eq hlong hmagic, ?_⟩
      rw [← content_length]
      cases hdecoded : decodePayload pb limits data.content (parseLength data.content) with
      | ok frame => exact decodePayload_ok hdecoded
      | error e =>
        rw [hdecoded] at hok
        cases hok
    · rw [tryDecodeWireframe, if_neg hshort, if_neg hmagic] at hok
      cases hok

/-- A frame within the limits, and nothing behind it that they refuse. -/
theorem tryDecode_encode (hpb : pb.Lawful) {envelope : E} {suffix : List UInt8}
    (hlimit : ¬ limits.Exceeded (pb.serializeAsString envelope).length)
    (hsuffix : limits.rejectTrailingBytes = true → suffix = [])
    (hdata : data.content = encode (pb.serializeAsString envelope) ++ suffix) :
    tryDecodeWireframe pb data limits =
      { decoded := .ok { pbEnvelope := envelope }
        declaredPayloadBytes := (pb.serializeAsString envelope).length } := by
  have hbound := hpb.length_lt envelope
  have hsize : data.content.length =
      headerSize + (pb.serializeAsString envelope).length + suffix.length := by
    rw [hdata, length_append, encode_length]
  have hlong : headerSize ≤ data.size := by
    rw [← content_length]
    omega
  have hmagic : data.content.take 4 = magic := by
    rw [hdata]
    rfl
  have hlength : parseLength data.content = (pb.serializeAsString envelope).length := by
    rw [hdata]
    exact parseLength_encode _ suffix (by omega)
  have hpayload : (data.content.drop headerSize).take (pb.serializeAsString envelope).length =
        pb.serializeAsString envelope := by
    rw [hdata]
    exact take_left
  have htrailing : ¬ (limits.rejectTrailingBytes = true ∧
      headerSize + (pb.serializeAsString envelope).length < data.content.length) := by
    rintro ⟨hreject, hmore⟩
    rw [hsuffix hreject] at hsize
    simp only [length_nil] at hsize
    omega
  rw [tryDecode_of_header pb limits hlong hmagic, hlength, decodePayload, if_neg hlimit,
    if_neg (by omega), if_neg htrailing, hpayload, hpb.parse_serialize]

/-- Before the last byte has come, the decoder asks for more. -/
theorem tryDecode_cut (hpb : pb.Lawful) {envelope : E} {later : List UInt8}
    (hlimit : ¬ limits.Exceeded (pb.serializeAsString envelope).length)
    (hcut : data.content ++ later = encode (pb.serializeAsString envelope))
    (hproper : later ≠ []) : (tryDecodeWireframe pb data limits).needsMore := by
  have hbound := hpb.length_lt envelope
  have hsize : data.content.length + later.length =
      headerSize + (pb.serializeAsString envelope).length := by
    rw [← length_append, hcut, encode_length]
  have hlater := length_pos_iff.mpr hproper
  by_cases hshort : data.size < headerSize
  · left
    rw [tryDecodeWireframe, if_pos hshort]
  · right
    have hlong := Nat.not_lt.mp hshort
    have hread : headerSize ≤ data.content.length := by
      rwa [content_length]
    have hstream : data.content ++ later = encodeAll [pb.serializeAsString envelope] := by
      rw [hcut, encodeAll_cons, encodeAll_nil, append_nil]
    obtain ⟨hmagic, hlength⟩ :=
      header_of_stream (by omega) hstream hread
    rw [tryDecode_of_header pb limits hlong hmagic, hlength, decodePayload,
      if_neg hlimit, if_pos (by omega)]

theorem FrameDecodeResult.needsMore.consumed_eq {r : FrameDecodeResult E}
    (h : r.needsMore) : r.consumed = 0 := by
  rcases h with h | h <;> simp [consumed, ok, h]

/-- Round trip, proper prefixes and header of the frame codec, for a payload
within the decoder's limits. -/
theorem frame_codec (alloc : Nat → Nat → Nat) (pb : Protobuf E)
    (hpb : pb.Lawful) (limits : FrameDecodeLimits) (f : Frame E)
    (hlimit : ¬ limits.Exceeded (pb.serializeAsString f.pbEnvelope).length) :
    (∀ (suffix : List UInt8) (data : StreamBuffer),
      (limits.rejectTrailingBytes = true → suffix = []) →
      data.content = (f.encode alloc pb).content ++ suffix →
      (tryDecodeWireframe pb data limits).decoded = .ok { pbEnvelope := f.pbEnvelope } ∧
        (tryDecodeWireframe pb data limits).consumed = (f.encode alloc pb).size) ∧
    (∀ (later : List UInt8) (data : StreamBuffer), later ≠ [] →
      data.content ++ later = (f.encode alloc pb).content →
      (tryDecodeWireframe pb data limits).needsMore ∧
        (tryDecodeWireframe pb data limits).consumed = 0) ∧
    (∀ (anyLimits : FrameDecodeLimits) (data : StreamBuffer),
      (tryDecodeWireframe pb data anyLimits).ok = true →
      data.content.take headerSize = magic ++ lengthBytes
          (tryDecodeWireframe pb data anyLimits).declaredPayloadBytes ∧
        (tryDecodeWireframe pb data anyLimits).consumed ≤ data.size) := by
  have hencode := content_encode alloc pb f
  refine ⟨?_, ?_, fun _ _ hok => header_of_ok hok⟩
  · intro suffix data hsuffix hdata
    rw [hencode] at hdata
    rw [tryDecode_encode hpb hlimit hsuffix hdata, ← content_length, hencode, encode_length]
    exact ⟨rfl, rfl⟩
  · intro later data hproper hcut
    rw [hencode] at hcut
    have hmore := tryDecode_cut hpb hlimit hcut hproper
    exact ⟨hmore, hmore.consumed_eq⟩

namespace CodecWitness

/-- An `ActorMsgFrame` without fields and one with its flags set to 1. -/
def flagged : Protobuf Bool where
  serializeAsString flag := if flag then [40, 1] else []
  parseFromString
    | [] => some false
    | [40, 1] => some true
    | _ => none

theorem flagged_lawful : flagged.Lawful :=
  ⟨by decide, by decide⟩

theorem frame_codec_flagged :
    (tryDecodeWireframe flagged
      { buf := [72, 80, 65, 67, 0, 0, 0, 2, 40, 1, 9] }
      { rejectTrailingBytes := false }).decoded = .ok { pbEnvelope := true } :=
  ((frame_codec (fun _ n => n) flagged flagged_lawful
    { rejectTrailingBytes := false } { pbEnvelope := true } (by decide)).1 [9]
    { buf := [72, 80, 65, 67, 0, 0, 0, 2, 40, 1, 9] } (by simp) rfl).1

/-- With the default limits a byte behind the frame is an error. -/
theorem trailing_refused :
    StreamBuffer.content { buf := [72, 80, 65, 67, 0, 0, 0, 2, 40, 1, 9] } =
        (Frame.encode (fun _ n => n) flagged
          { pbEnvelope := true }).content ++ [9] ∧
      (tryDecodeWireframe flagged
        { buf := [72, 80, 65, 67, 0, 0, 0, 2, 40, 1, 9] } {}).decoded = .error .trailingBytes :=
  ⟨rfl, rfl⟩

end CodecWitness

end HPActor.WireFrame
