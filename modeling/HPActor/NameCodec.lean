/-
The bytes of the name protocol.  Five messages are written field by field, and
the router reads them with one loop each: a tag, then the value of a known field
or a value to be skipped.  A loop that meets something it cannot read ends there
and keeps what it has.
-/
import HPActor.EndpointText
import HPActor.ProtoWire

namespace HPActor.NameCodec

universe u

def kVarint : UInt8 := 0
def kFixed64 : UInt8 := 1
def kLengthDelimited : UInt8 := 2
def kFixed32 : UInt8 := 5
def kFixed64Size : Nat := 8
def kFixed32Size : Nat := 4
def kTagWireTypeMask : UInt64 := 0x07
def kTagFieldNumberShift : UInt64 := 3
def kVarintContinuationBit : UInt8 := 0x80
def kVarintPayloadMask : UInt64 := 0x7F
def kVarintShiftIncrement : Nat := 7
def kVarintMaxShift : Nat := 64

def kFieldName : UInt32 := 1
def kFieldActorId : UInt32 := 2
def kFieldEndpoint : UInt32 := 3
def kFieldGeneration : UInt32 := 4
def kUnregFieldGeneration : UInt32 := 2
def kFieldResult : UInt32 := 1
def kFieldFound : UInt32 := 1

/-- The loop of `append_varint`, for numbers of at most `rounds` bytes. -/
def appendVarintLoop : Nat → UInt64 → List UInt8
  | 0, _ => []
  | rounds + 1, value =>
    if kVarintContinuationBit.toUInt64 ≤ value then
      ((value &&& kVarintPayloadMask) ||| kVarintContinuationBit.toUInt64).toUInt8 ::
        appendVarintLoop rounds (value >>> 7)
    else [(value &&& kVarintPayloadMask).toUInt8]

/-- Ten rounds of seven bits are enough for a word. -/
def appendVarint (value : UInt64) : List UInt8 := appendVarintLoop 10 value

def appendTag (fieldNumber : UInt32) (wireType : UInt8) : List UInt8 :=
  appendVarint ((fieldNumber.toUInt64 <<< kTagFieldNumberShift) ||| wireType.toUInt64)

def appendLengthDelimited (fieldNumber : UInt32) (data : List UInt8) : List UInt8 :=
  appendTag fieldNumber kLengthDelimited ++ (appendVarint (UInt64.ofNat data.length) ++ data)

def appendVarintField (fieldNumber : UInt32) (value : UInt64) : List UInt8 :=
  appendTag fieldNumber kVarint ++ appendVarint value

def encodeRegisterRequest (name : List UInt8) (actorId : UInt64)
    (endpointStr : List UInt8) (generation : UInt64) : List UInt8 :=
  appendLengthDelimited kFieldName name ++
    (appendVarintField kFieldActorId actorId ++
      (appendLengthDelimited kFieldEndpoint endpointStr ++
        appendVarintField kFieldGeneration generation))

def encodeRegisterResponse (resultCode : UInt32) : List UInt8 :=
  appendVarintField kFieldResult resultCode.toUInt64

def encodeResolveQuery (name : List UInt8) : List UInt8 :=
  appendLengthDelimited kFieldName name

def encodeResolveResponse (found : Bool) (actorId : UInt64)
    (endpointStr : List UInt8) (generation : UInt64) : List UInt8 :=
  appendVarintField kFieldFound (if found then 1 else 0) ++
    if found then
      appendVarintField kFieldActorId actorId ++
        (appendLengthDelimited kFieldEndpoint endpointStr ++
          appendVarintField kFieldGeneration generation)
    else []

def encodeUnregisterRequest (name : List UInt8) (generation : UInt64) : List UInt8 :=
  appendLengthDelimited kFieldName name ++ appendVarintField kUnregFieldGeneration generation

/-- The loop of `decode_varint`: the number as far as it was read, and what
follows it if it was read to its end. -/
def decodeVarintLoop : List UInt8 → UInt64 → Nat → UInt64 × Option (List UInt8)
  | [], out, _ => (out, none)
  | byte :: rest, out, shift =>
    let next := out ||| ((byte.toUInt64 &&& kVarintPayloadMask) <<< UInt64.ofNat shift)
    if byte &&& kVarintContinuationBit = 0 then (next, some rest)
    else if kVarintMaxShift ≤ shift + kVarintShiftIncrement then (next, none)
    else decodeVarintLoop rest next (shift + kVarintShiftIncrement)

def decodeVarint (bytes : List UInt8) : UInt64 × Option (List UInt8) :=
  decodeVarintLoop bytes 0 0

/-- A length and that many bytes, if they are there. -/
def decodeDelimited (bytes : List UInt8) : Option (List UInt8 × List UInt8) :=
  match decodeVarint bytes with
  | (_, none) => none
  | (len, some rest) =>
    if rest.length < len.toNat then none
    else some (rest.take len.toNat, rest.drop len.toNat)

/-- The value of an unknown field; a varint is skipped however long it is. -/
def skipFieldValue (wireType : UInt8) (bytes : List UInt8) : Option (List UInt8) :=
  if wireType = kVarint then
    some (bytes.dropWhile fun byte =>
      byte &&& kVarintContinuationBit ≠ 0).tail
  else if wireType = kLengthDelimited then
    (decodeDelimited bytes).map Prod.snd
  else if wireType = kFixed64 then
    if bytes.length < kFixed64Size then none
    else some (bytes.drop kFixed64Size)
  else if wireType = kFixed32 then
    if bytes.length < kFixed32Size then none
    else some (bytes.drop kFixed32Size)
  else none

/-- What a loop does with a field: the values read so far, and the bytes after
the field unless the loop ends. -/
abbrev FieldReader (σ : Type u) :=
  UInt32 → UInt8 → σ → List UInt8 → σ × Option (List UInt8)

/-- A field that is not known leaves the values alone. -/
def skipReader {σ : Type u} : FieldReader σ :=
  fun _ wireType state bytes => (state, skipFieldValue wireType bytes)

/-- One round of a decoder's loop. -/
def readField {σ : Type u} (read : FieldReader σ) (state : σ)
    (bytes : List UInt8) : σ × Option (List UInt8) :=
  match decodeVarint bytes with
  | (_, none) => (state, none)
  | (tag, some rest) =>
    read (tag >>> kTagFieldNumberShift).toUInt32 (tag &&& kTagWireTypeMask).toUInt8 state rest

/-- The loop of a decoder; every round takes a byte at least. -/
def readFields {σ : Type u} (read : FieldReader σ) : Nat → σ → List UInt8 → σ
  | _, state, [] => state
  | 0, state, _ :: _ => state
  | rounds + 1, state, byte :: bytes =>
    match readField read state (byte :: bytes) with
    | (next, none) => next
    | (next, some rest) => readFields read rounds next rest

structure RegisterRequestFields where
  name : List UInt8 := []
  actorId : UInt64 := 0
  endpointStr : List UInt8 := []
  generation : UInt64 := 0
  hasName : Bool := false
  hasActorId : Bool := false
  hasEndpoint : Bool := false
  hasGeneration : Bool := false

def readRegisterRequest : FieldReader RegisterRequestFields :=
  fun fn wt state bytes =>
    if fn = kFieldName ∧ wt = kLengthDelimited then
      match decodeDelimited bytes with
      | none => (state, none)
      | some (text, rest) =>
        ({ state with name := text, hasName := true }, some rest)
    else if fn = kFieldActorId ∧ wt = kVarint then
      match decodeVarint bytes with
      | (value, none) => ({ state with actorId := value }, none)
      | (value, some rest) =>
        ({ state with actorId := value, hasActorId := true }, some rest)
    else if fn = kFieldEndpoint ∧ wt = kLengthDelimited then
      match decodeDelimited bytes with
      | none => (state, none)
      | some (text, rest) =>
        ({ state with endpointStr := text, hasEndpoint := true }, some rest)
    else if fn = kFieldGeneration ∧ wt = kVarint then
      match decodeVarint bytes with
      | (value, none) => ({ state with generation := value }, none)
      | (value, some rest) =>
        ({ state with generation := value, hasGeneration := true }, some rest)
    else skipReader fn wt state bytes

structure NameRegisterRequest where
  name : List UInt8
  addr : ActorAddress
  generation : UInt64
deriving Repr, DecidableEq

/-- The bytes of a text, one character each. -/
def chars (text : List UInt8) : List Char := text.map Char.ofUInt8

/-- The address a request names, with the endpoint that its text is parsed to. -/
def registeredAddress (inet : InetLibrary) (actorId : UInt64)
    (endpointStr : List UInt8) : ActorAddress where
  endpoint := EndPoint.parseEndpoint inet (chars endpointStr)
  type := 0
  id := actorId
  incarnation := 0

variable (payload : List UInt8)

/-- The request handed to the port. -/
def decodeRegisterRequest (inet : InetLibrary) : Option NameRegisterRequest :=
  let fields := readFields readRegisterRequest payload.length {} payload
  if fields.hasName ∧ fields.hasActorId ∧ fields.hasEndpoint ∧ fields.hasGeneration then
    some {
      name := fields.name
      addr := registeredAddress inet fields.actorId fields.endpointStr
      generation := fields.generation }
  else none

structure ResolveQueryFields where
  name : List UInt8 := []
  hasName : Bool := false

/-- The first name ends the loop. -/
def readResolveQuery : FieldReader ResolveQueryFields :=
  fun fn wt state bytes =>
    if fn = kFieldName ∧ wt = kLengthDelimited then
      match decodeDelimited bytes with
      | none => (state, none)
      | some (text, _) => ({ state with name := text, hasName := true }, none)
    else skipReader fn wt state bytes

def decodeResolveQuery : Option (List UInt8) :=
  let fields := readFields readResolveQuery payload.length {} payload
  if fields.hasName then some fields.name else none

structure UnregisterRequestFields where
  name : List UInt8 := []
  generation : UInt64 := 0
  hasName : Bool := false
  hasGeneration : Bool := false

def readUnregisterRequest : FieldReader UnregisterRequestFields :=
  fun fn wt state bytes =>
    if fn = kFieldName ∧ wt = kLengthDelimited then
      match decodeDelimited bytes with
      | none => (state, none)
      | some (text, rest) =>
        ({ state with name := text, hasName := true }, some rest)
    else if fn = kUnregFieldGeneration ∧ wt = kVarint then
      match decodeVarint bytes with
      | (value, none) => ({ state with generation := value }, none)
      | (value, some rest) =>
        ({ state with generation := value, hasGeneration := true }, some rest)
    else skipReader fn wt state bytes

def decodeUnregisterRequest : Option (List UInt8 × UInt64) :=
  let fields := readFields readUnregisterRequest payload.length {} payload
  if fields.hasName ∧ fields.hasGeneration then
    some (fields.name, fields.generation)
  else none

structure RegisterResponseFields where
  resultCode : UInt64 := 0
  hasResult : Bool := false

def readRegisterResponse : FieldReader RegisterResponseFields :=
  fun fn wt state bytes =>
    if fn = kFieldResult ∧ wt = kVarint then
      match decodeVarint bytes with
      | (value, none) => ({ state with resultCode := value }, none)
      | (value, some rest) =>
        ({ state with resultCode := value, hasResult := true }, some rest)
    else skipReader fn wt state bytes

def decodeRegisterResponse : Option UInt32 :=
  let fields := readFields readRegisterResponse payload.length {} payload
  if fields.hasResult then some fields.resultCode.toUInt32 else none

structure ResolveResponseFields where
  found : Bool := false
  actorId : UInt64 := 0
  endpointStr : List UInt8 := []
  generation : UInt64 := 0
  hasFound : Bool := false

/-- Only the first field is required. -/
def readResolveResponse : FieldReader ResolveResponseFields :=
  fun fn wt state bytes =>
    if fn = kFieldFound ∧ wt = kVarint then
      match decodeVarint bytes with
      | (_, none) => (state, none)
      | (value, some rest) =>
        ({ state with found := decide (value ≠ 0), hasFound := true }, some rest)
    else if fn = kFieldActorId ∧ wt = kVarint then
      match decodeVarint bytes with
      | (value, after) => ({ state with actorId := value }, after)
    else if fn = kFieldEndpoint ∧ wt = kLengthDelimited then
      match decodeDelimited bytes with
      | none => (state, none)
      | some (text, rest) => ({ state with endpointStr := text }, some rest)
    else if fn = kFieldGeneration ∧ wt = kVarint then
      match decodeVarint bytes with
      | (value, after) => ({ state with generation := value }, after)
    else skipReader fn wt state bytes

structure NameResolveResponse where
  found : Bool
  actorId : UInt64
  endpointStr : List UInt8
  generation : UInt64
deriving Repr, DecidableEq

def decodeResolveResponse : Option NameResolveResponse :=
  let fields := readFields readResolveResponse payload.length {} payload
  if fields.hasFound then
    some {
      found := fields.found
      actorId := fields.actorId
      endpointStr := fields.endpointStr
      generation := fields.generation }
  else none

end HPActor.NameCodec
