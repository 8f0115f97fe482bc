/-
The decoders of the name protocol read back what the encoders write, also with
well-formed unknown fields in between.
-/
import HPActor.NameCodec
import Mathlib.Data.Nat.Bitwise

namespace HPActor.NameCodec

open List UInt64 EndPoint

universe u

open ProtoWire

variable (value : UInt64)

theorem payload_toNat : (value &&& kVarintPayloadMask).toNat = value.toNat % 128 := by
  rw [UInt64.toNat_and]
  exact Nat.and_two_pow_sub_one_eq_mod value.toNat 7

theorem payload_more :
    ((value &&& kVarintPayloadMask) ||| kVarintContinuationBit.toUInt64).toNat =
      value.toNat % 128 + 128 := by
  have hlow : value.toNat % 128 < 2 ^ 7 := Nat.mod_lt _ (by decide)
  have hhigh : kVarintContinuationBit.toUInt64.toNat = 2 ^ 7 * 1 := rfl
  rw [UInt64.toNat_or, payload_toNat, hhigh, Nat.or_comm,
    ← Nat.two_pow_add_eq_or_of_lt hlow, Nat.add_comm]

theorem appendVarintLoop_eq (rounds : Nat) (value : UInt64) :
    appendVarintLoop rounds value = putVarint rounds value.toNat := by
  induction rounds generalizing value with
  | zero => rfl
  | succ rounds ih =>
    have hlong : kVarintContinuationBit.toUInt64 ≤ value ↔ ¬ value.toNat < 128 := by
      rw [UInt64.le_iff_toNat_le, Nat.not_lt]
      rfl
    have hnext : (value >>> 7).toNat = value.toNat / 128 := by
      rw [UInt64.toNat_shiftRight, Nat.shiftRight_eq_div_pow]
      rfl
    rw [appendVarintLoop, putVarint]
    by_cases hsmall : value.toNat < 128
    · rw [if_neg (fun hle => hlong.mp hle hsmall), if_pos hsmall]
      have hbyte : (value &&& kVarintPayloadMask).toUInt8 = UInt8.ofNat value.toNat := by
        apply UInt8.toNat_inj.mp
        rw [UInt64.toNat_toUInt8, payload_toNat, UInt8.toNat_ofNat']
        omega
      rw [hbyte]
    · rw [if_pos (hlong.mpr hsmall), if_neg hsmall, ih, hnext]
      have hbyte : ((value &&& kVarintPayloadMask) ||| kVarintContinuationBit.toUInt64).toUInt8 =
            UInt8.ofNat (value.toNat % 128 + 128) := by
        apply UInt8.toNat_inj.mp
        rw [UInt64.toNat_toUInt8, payload_more, UInt8.toNat_ofNat']
      rw [hbyte]

theorem get_appendVarint (rest : List UInt8) :
    getVarint 10 (appendVarint value ++ rest) = some (value.toNat, rest) := by
  have hwidth : value.toNat < 128 ^ (9 + 1) :=
    Nat.lt_trans value.toNat_lt (by decide)
  rw [appendVarint, appendVarintLoop_eq]
  exact getVarint_putVarint rest hwidth hwidth

/-- Seven more bits above the `shift` bits read so far; what does not fit in the
word is lost. -/
theorem or_shift {out value : UInt64} {shift : Nat} (hshift : shift < 64)
    (hout : out.toNat < 2 ^ shift) :
    out ||| (value <<< UInt64.ofNat shift) =
      UInt64.ofNat (out.toNat + 2 ^ shift * value.toNat) := by
  have hword : 2 ^ 64 = 2 ^ shift * 2 ^ (64 - shift) := by
    rw [← Nat.pow_add]
    congr 1
    omega
  have hcount : (UInt64.ofNat shift).toNat % 64 = shift := by
    rw [UInt64.toNat_ofNat']
    omega
  apply UInt64.toNat_inj.mp
  rw [UInt64.toNat_or, UInt64.toNat_shiftLeft, hcount, UInt64.toNat_ofNat', Nat.shiftLeft_eq,
    Nat.mul_comm value.toNat, hword, Nat.mul_mod_mul_left, Nat.or_comm,
    ← Nat.two_pow_add_eq_or_of_lt hout, Nat.mod_mul, Nat.add_mul_mod_self_left,
    Nat.mod_eq_of_lt hout, Nat.add_mul_div_left _ _ (Nat.two_pow_pos shift), Nat.div_eq_of_lt hout,
    Nat.zero_add, Nat.add_comm]

theorem continues_iff (byte : UInt8) : byte &&& kVarintContinuationBit = 0 ↔ byte.toNat < 128 := by
  have hbyte := byte.toNat_lt
  have hbit : (byte &&& kVarintContinuationBit).toNat = byte.toNat &&& 2 ^ 7 := UInt8.toNat_and _ _
  rw [← UInt8.toNat_inj, hbit, Nat.and_two_pow, Nat.testBit_eq_decide_div_mod_eq]
  by_cases hlow : byte.toNat < 128
  · have hzero : byte.toNat / 128 % 2 = 0 := by omega
    simp [hzero, hlow]
  · have hone : byte.toNat / 128 % 2 = 1 := by omega
    simp [hone, hlow]

theorem payload_byte (byte : UInt8) :
    (byte.toUInt64 &&& kVarintPayloadMask).toNat = byte.toNat % 128 := by
  rw [payload_toNat, UInt8.toNat_toUInt64]

/-- The loop agrees with the reader of the wire format, except that it works
modulo the word. -/
theorem decodeVarintLoop_eq {limit n round : Nat} {bytes after : List UInt8} {out : UInt64}
    (hround : limit + round = 10) (hout : out.toNat < 2 ^ (7 * round))
    (hget : getVarint limit bytes = some (n, after)) :
    decodeVarintLoop bytes out (7 * round) =
      (ofNat (out.toNat + 2 ^ (7 * round) * n), some after) := by
  induction limit generalizing n round bytes out with
  | zero => cases hget
  | succ limit ih =>
    cases bytes with
    | nil => cases hget
    | cons byte rest =>
      have hnext := @or_shift out (byte.toUInt64 &&& kVarintPayloadMask) (7 * round) (by omega) hout
      rw [payload_byte] at hnext
      rw [getVarint] at hget
      rw [decodeVarintLoop, hnext]
      simp only [continues_iff]
      split at hget
      · next hlast =>
          cases hget
          rw [if_pos hlast, Nat.mod_eq_of_lt hlast]
      · next hlast =>
          obtain ⟨high, hhigh, heq⟩ := Option.map_eq_some_iff.mp hget
          cases heq
          -- another byte is read only if the shift stays below the word
          have hmore : limit ≠ 0 := by
            rintro rfl
            cases hhigh
          have hsum : out.toNat + 2 ^ (7 * round) * (byte.toNat % 128) < 2 ^ (7 * (round + 1)) := by
            have hbits : byte.toNat % 128 ≤ 127 := by omega
            have hmul := Nat.mul_le_mul_left (2 ^ (7 * round)) hbits
            rw [Nat.mul_add, Nat.pow_add]
            omega
          have hexact : (ofNat (out.toNat + 2 ^ (7 * round) * (byte.toNat % 128))).toNat =
                out.toNat + 2 ^ (7 * round) * (byte.toNat % 128) := by
            have hle : 2 ^ (7 * (round + 1)) ≤ 2 ^ 64 :=
              Nat.pow_le_pow_right (by decide) (by omega)
            rw [toNat_ofNat']
            exact Nat.mod_eq_of_lt (Nat.lt_of_lt_of_le hsum hle)
          have hlow : byte.toNat % 128 = byte.toNat - 128 := by
            have hbyte := byte.toNat_lt
            omega
          have hshift : 7 * round + kVarintShiftIncrement = 7 * (round + 1) := rfl
          rw [if_neg hlast, if_neg (by
            simp only [kVarintMaxShift, kVarintShiftIncrement]
            omega), hshift, ih (by omega) (by rwa [hexact]) hhigh, hexact,
            hlow, Nat.mul_add, Nat.mul_add, Nat.pow_add, Nat.mul_assoc,
            Nat.add_assoc]

theorem decodeVarint_of_get {n : Nat} {bytes after : List UInt8}
    (hget : getVarint 10 bytes = some (n, after)) :
    decodeVarint bytes = (ofNat n, some after) := by
  have hloop := @decodeVarintLoop_eq 10 n 0 bytes after 0 rfl Nat.one_pos hget
  rw [decodeVarint]
  simpa using hloop

theorem decodeVarint_appendVarint (rest : List UInt8) :
    decodeVarint (appendVarint value ++ rest) = (value, some rest) := by
  rw [decodeVarint_of_get (get_appendVarint value rest), UInt64.ofNat_toNat]

theorem decodeDelimited_of_get {n : Nat} {bytes data rest : List UInt8} (hn : n = data.length)
    (hsize : data.length < 2 ^ 64) (hget : getVarint 10 bytes = some (n, data ++ rest)) :
    decodeDelimited bytes = some (data, rest) := by
  have hlength : (ofNat n).toNat = data.length := by
    rw [hn, toNat_ofNat', Nat.mod_eq_of_lt hsize]
  rw [decodeDelimited, decodeVarint_of_get hget]
  simp only [hlength]
  rw [if_neg (by simp), take_left' rfl, drop_left' rfl]

/-- A varint is skipped to its last byte. -/
theorem dropWhile_of_get {limit n : Nat} {bytes after : List UInt8}
    (hget : getVarint limit bytes = some (n, after)) :
    (bytes.dropWhile fun byte =>
      byte &&& kVarintContinuationBit ≠ 0).tail = after := by
  induction limit generalizing n bytes with
  | zero => cases hget
  | succ limit ih =>
    cases bytes with
    | nil => cases hget
    | cons byte rest =>
      rw [getVarint] at hget
      split at hget
      · next hlast =>
          cases hget
          rw [dropWhile_cons_of_neg]
          · rfl
          · simpa using (continues_iff byte).mpr hlast
      · next hlast =>
          obtain ⟨high, hhigh, heq⟩ := Option.map_eq_some_iff.mp hget
          cases heq
          rw [dropWhile_cons_of_pos]
          · exact ih hhigh
          · simpa using fun hzero => hlast ((continues_iff byte).mp hzero)

theorem readField_of_get {σ : Type u} (read : FieldReader σ) (state : σ) {number wireType : Nat}
    {bytes rest : List UInt8} (hnumber : number < 2 ^ 32) (htype : wireType < 8)
    (hget : getVarint 10 bytes = some (8 * number + wireType, rest)) :
    readField read state bytes = read (UInt32.ofNat number) (UInt8.ofNat wireType) state rest := by
  have htag : (UInt64.ofNat (8 * number + wireType)).toNat = 8 * number + wireType := by
    rw [UInt64.toNat_ofNat']
    omega
  have hfn : (UInt64.ofNat (8 * number + wireType) >>>
      kTagFieldNumberShift).toUInt32 = UInt32.ofNat number := by
    apply UInt32.toNat_inj.mp
    have hshift : kTagFieldNumberShift.toNat % 64 = 3 := rfl
    rw [UInt64.toNat_toUInt32, UInt64.toNat_shiftRight, htag, hshift,
      Nat.shiftRight_eq_div_pow, UInt32.toNat_ofNat']
    omega
  have hwt : (UInt64.ofNat (8 * number + wireType) &&&
      kTagWireTypeMask).toUInt8 = UInt8.ofNat wireType := by
    apply UInt8.toNat_inj.mp
    have hmask : kTagWireTypeMask.toNat = 2 ^ 3 - 1 := rfl
    rw [UInt64.toNat_toUInt8, UInt64.toNat_and, htag, hmask,
      Nat.and_two_pow_sub_one_eq_mod, UInt8.toNat_ofNat']
    omega
  rw [readField, decodeVarint_of_get hget]
  simp only [hfn, hwt]

theorem get_appendTag (fieldNumber : UInt32) {wireType : UInt8}
    (htype : wireType.toNat < 8) (rest : List UInt8) :
    getVarint 10 (appendTag fieldNumber wireType ++ rest) =
      some (8 * fieldNumber.toNat + wireType.toNat, rest) := by
  have hnumber := fieldNumber.toNat_lt
  have hor := @or_shift wireType.toUInt64 fieldNumber.toUInt64 3 (by decide)
    (by rw [UInt8.toNat_toUInt64]; exact htype)
  have htag : (fieldNumber.toUInt64 <<< kTagFieldNumberShift) ||| wireType.toUInt64 =
        UInt64.ofNat (8 * fieldNumber.toNat + wireType.toNat) := by
    rw [UInt64.or_comm, Nat.add_comm]
    rw [UInt8.toNat_toUInt64, UInt32.toNat_toUInt64] at hor
    exact hor
  rw [appendTag, htag, get_appendVarint, UInt64.toNat_ofNat', Nat.mod_eq_of_lt (by omega)]

theorem readField_appendTag {σ : Type u} (read : FieldReader σ) (state : σ) (fieldNumber : UInt32)
    {wireType : UInt8} (htype : wireType.toNat < 8) (rest : List UInt8) :
    readField read state (appendTag fieldNumber wireType ++ rest) =
      read fieldNumber wireType state rest := by
  rw [readField_of_get read state fieldNumber.toNat_lt htype (get_appendTag fieldNumber htype rest),
    UInt32.ofNat_toNat, UInt8.ofNat_toNat]

theorem decodeDelimited_append {data : List UInt8} (rest : List UInt8)
    (hsize : data.length < 2 ^ 64) :
    decodeDelimited (appendVarint (ofNat data.length) ++ data ++ rest) =
      some (data, rest) := by
  have hlength : (ofNat data.length).toNat = data.length := by
    rw [toNat_ofNat', Nat.mod_eq_of_lt hsize]
  refine decodeDelimited_of_get hlength hsize ?_
  rw [append_assoc]
  exact get_appendVarint _ _

/-- The bytes of a value of the given wire type. -/
def IsValue (wireType : Nat) (bytes : List UInt8) : Prop :=
  match wireType with
  | 0 => ∃ n, getVarint 10 bytes = some (n, [])
  | 1 => bytes.length = kFixed64Size
  | 2 => ∃ data, data.length < 2 ^ 64 ∧ getVarint 10 bytes = some (data.length, data)
  | 5 => bytes.length = kFixed32Size
  | _ => False

/-- A field with a number that the message does not use: a tag of at most ten
bytes and a value of one of the four wire types. -/
def IsUnknown (used : List UInt32) (field : List UInt8) : Prop :=
  ∃ number wireType value, number < 2 ^ 32 ∧ UInt32.ofNat number ∉ used ∧ IsValue wireType value ∧
    getVarint 10 field = some (8 * number + wireType, value)

theorem IsValue.lt {wireType : Nat} {bytes : List UInt8}
    (hvalue : IsValue wireType bytes) : wireType < 8 := by
  unfold IsValue at hvalue
  split at hvalue <;> first | decide | exact hvalue.elim

theorem skipFieldValue_of_isValue {wireType : Nat} {bytes : List UInt8}
    (rest : List UInt8) (hvalue : IsValue wireType bytes) :
    skipFieldValue (UInt8.ofNat wireType) (bytes ++ rest) = some rest := by
  unfold IsValue at hvalue
  split at hvalue
  · obtain ⟨n, hget⟩ := hvalue
    have happend := getVarint_append rest hget
    rw [skipFieldValue, if_pos (by decide), dropWhile_of_get happend, nil_append]
  · rw [skipFieldValue, if_neg (by decide), if_neg (by decide), if_pos (by decide),
      if_neg (by simp [hvalue]), ← hvalue, drop_left]
  · obtain ⟨data, hsize, hget⟩ := hvalue
    have happend := getVarint_append rest hget
    rw [skipFieldValue, if_neg (by decide), if_pos (by decide),
      decodeDelimited_of_get rfl hsize happend]
    rfl
  · rw [skipFieldValue, if_neg (by decide), if_neg (by decide), if_neg (by decide),
      if_pos (by decide), if_neg (by simp [hvalue]), ← hvalue, drop_left]
  · exact hvalue.elim

/-- The known fields in their order, with unknown ones anywhere. -/
inductive Mixed (used : List UInt32) : List (List UInt8) → List UInt8 → Prop where
  | done : Mixed used [] []
  | known (field : List UInt8) {fields : List (List UInt8)}
      {bytes : List UInt8} (hrest : Mixed used fields bytes) :
      Mixed used (field :: fields) (field ++ bytes)
  | unknown {field : List UInt8} {fields : List (List UInt8)}
      {bytes : List UInt8} (hfield : IsUnknown used field)
      (hrest : Mixed used fields bytes) : Mixed used fields (field ++ bytes)

/-- Without unknown fields there are only the known ones. -/
theorem mixed_flatten (used : List UInt32) (fields : List (List UInt8)) :
    Mixed used fields fields.flatten := by
  induction fields with
  | nil => exact .done
  | cons field fields ih => exact .known field ih

variable {σ : Type u} {read : FieldReader σ} {used : List UInt32}

/-- The reader skips the fields with a number that is not in use. -/
def Skips (read : FieldReader σ) (used : List UInt32) : Prop :=
  ∀ fn ∉ used, ∀ wt state bytes, read fn wt state bytes = skipReader fn wt state bytes

/-- The reader takes a field to be a change of the values. -/
def Reads (read : FieldReader σ) (field : List UInt8) (change : σ → σ) : Prop :=
  ∀ state rest, readField read state (field ++ rest) = (change state, some rest)

theorem readField_unknown (hskips : Skips read used) {field : List UInt8}
    (hfield : IsUnknown used field) : Reads read field id := by
  intro state rest
  obtain ⟨number, wireType, value, hnumber, hunused, hvalue, hget⟩ := hfield
  rw [readField_of_get read state hnumber hvalue.lt (getVarint_append rest hget),
    hskips _ hunused, skipReader, skipFieldValue_of_isValue rest hvalue, id]

variable {change : σ → σ}

/-- A round of the loop reads one field. -/
theorem readFields_append {field rest : List UInt8} (hreads : Reads read field change) (state : σ)
    {rounds : Nat} (hrounds : (field ++ rest).length ≤ rounds) :
    ∃ fewer, rest.length ≤ fewer ∧ readFields read rounds state (field ++ rest) =
      readFields read fewer (change state) rest := by
  cases field with
  | nil =>
    -- nothing is read from no bytes
    cases congrArg Prod.snd (hreads state [])
  | cons byte field =>
    cases rounds with
    | zero => exact absurd hrounds (Nat.not_succ_le_zero _)
    | succ rounds =>
      refine ⟨rounds, ?_, ?_⟩
      · rw [cons_append, length_cons, length_append] at hrounds
        omega
      · have hread := hreads state rest
        rw [cons_append] at hread ⊢
        rw [readFields, hread]

theorem readFields_mixed (hskips : Skips read used) {known : List (List UInt8 × (σ → σ))}
    {bytes : List UInt8} (hreads : known.Forall fun field => Reads read field.1 field.2)
    (hmixed : Mixed used (known.map Prod.fst) bytes) (state : σ) {rounds : Nat}
    (hrounds : bytes.length ≤ rounds) :
    readFields read rounds state bytes = known.foldl (fun state field => field.2 state) state := by
  generalize hfields : known.map Prod.fst = fields at hmixed
  induction hmixed generalizing known state rounds with
  | done =>
    rw [map_eq_nil_iff.mp hfields]
    cases rounds <;> rfl
  | known field hrest ih =>
    obtain ⟨first, others, rfl, rfl, hothers⟩ :=
      map_eq_cons_iff.mp hfields
    obtain ⟨hfirst, hreads⟩ := (forall_cons _ _ _).mp hreads
    obtain ⟨fewer, hfewer, hround⟩ := readFields_append hfirst state hrounds
    rw [hround, foldl_cons]
    exact ih hreads _ hfewer hothers
  | unknown hfield hrest ih =>
    obtain ⟨fewer, hfewer, hround⟩ := readFields_append
      (readField_unknown hskips hfield) state hrounds
    rw [hround]
    exact ih hreads _ hfewer hfields

theorem reads_delimited {fn : UInt32} {data : List UInt8} (hsize : data.length < 2 ^ 64)
    (hread : ∀ state bytes rest, decodeDelimited bytes = some (data, rest) →
      read fn kLengthDelimited state bytes = (change state, some rest)) :
    Reads read (appendLengthDelimited fn data) change := by
  intro state rest
  rw [appendLengthDelimited, append_assoc, readField_appendTag read state fn (by decide)]
  exact hread state _ rest (decodeDelimited_append rest hsize)

theorem reads_varint {fn : UInt32} {value : UInt64}
    (hread : ∀ state bytes rest, decodeVarint bytes = (value, some rest) →
      read fn kVarint state bytes = (change state, some rest)) :
    Reads read (appendVarintField fn value) change := by
  intro state rest
  rw [appendVarintField, append_assoc, readField_appendTag read state fn (by decide)]
  exact hread state _ rest (decodeVarint_appendVarint value rest)

section

variable {name endpointStr bytes : List UInt8} {actorId generation : UInt64}

def registerRequestFields (name : List UInt8) (actorId : UInt64)
    (endpointStr : List UInt8) (generation : UInt64) : List (List UInt8) :=
  [appendLengthDelimited kFieldName name, appendVarintField kFieldActorId actorId,
    appendLengthDelimited kFieldEndpoint endpointStr,
    appendVarintField kFieldGeneration generation]

def registerRequestUsed : List UInt32 :=
  [kFieldName, kFieldActorId, kFieldEndpoint, kFieldGeneration]

theorem registerRequest_skips : Skips readRegisterRequest registerRequestUsed := by
  intro fn hfn wt state bytes
  simp only [registerRequestUsed, mem_cons, not_mem_nil, or_false, not_or] at hfn
  simp [readRegisterRequest, hfn]

theorem decodeRegisterRequest_mixed (inet : InetLibrary) (hname : name.length < 2 ^ 64)
    (hendpoint : endpointStr.length < 2 ^ 64)
    (hmixed : Mixed registerRequestUsed
      (registerRequestFields name actorId endpointStr generation) bytes) :
    decodeRegisterRequest bytes inet =
      some ⟨name, registeredAddress inet actorId endpointStr, generation⟩ := by
  have hfields := @readFields_mixed _ readRegisterRequest registerRequestUsed registerRequest_skips
    [(appendLengthDelimited kFieldName name,
        fun state => { state with name := name, hasName := true }),
      (appendVarintField kFieldActorId actorId,
        fun state => { state with actorId := actorId, hasActorId := true }),
      (appendLengthDelimited kFieldEndpoint endpointStr,
        fun state => { state with
          endpointStr := endpointStr, hasEndpoint := true }),
      (appendVarintField kFieldGeneration generation,
        fun state => { state with
          generation := generation, hasGeneration := true })]
    bytes ?_ hmixed {} bytes.length (Nat.le_refl _)
  · rw [decodeRegisterRequest, hfields]
    rfl
  · refine ⟨reads_delimited hname ?_, reads_varint ?_,
      reads_delimited hendpoint ?_, reads_varint ?_⟩
    all_goals
      intro state bytes rest hdecode
      simp +decide [readRegisterRequest, hdecode]

def registerResponseFields (resultCode : UInt32) : List (List UInt8) :=
  [appendVarintField kFieldResult resultCode.toUInt64]

def registerResponseUsed : List UInt32 := [kFieldResult]

theorem registerResponse_skips : Skips readRegisterResponse registerResponseUsed := by
  intro fn hfn wt state bytes
  rw [registerResponseUsed, mem_singleton] at hfn
  rw [readRegisterResponse, if_neg fun h => hfn h.1]

theorem decodeRegisterResponse_mixed {resultCode : UInt32}
    (hmixed : Mixed registerResponseUsed (registerResponseFields resultCode) bytes) :
    decodeRegisterResponse bytes = some resultCode := by
  have hfields := @readFields_mixed _ readRegisterResponse registerResponseUsed
    registerResponse_skips
    [(appendVarintField kFieldResult resultCode.toUInt64,
      fun state => { state with
        resultCode := resultCode.toUInt64, hasResult := true })]
    bytes ?_ hmixed {} bytes.length (Nat.le_refl _)
  · rw [decodeRegisterResponse, hfields]
    exact congrArg some (UInt32.toUInt32_toUInt64 resultCode)
  · refine reads_varint ?_
    intro state bytes rest hdecode
    rw [readRegisterResponse, if_pos (by decide), hdecode]

def unregisterRequestFields (name : List UInt8) (generation : UInt64) : List (List UInt8) :=
  [appendLengthDelimited kFieldName name, appendVarintField kUnregFieldGeneration generation]

def unregisterRequestUsed : List UInt32 := [kFieldName, kUnregFieldGeneration]

theorem unregisterRequest_skips : Skips readUnregisterRequest unregisterRequestUsed := by
  intro fn hfn wt state bytes
  simp only [unregisterRequestUsed, mem_cons, not_mem_nil, or_false, not_or] at hfn
  rw [readUnregisterRequest, if_neg fun h => hfn.1 h.1, if_neg fun h => hfn.2 h.1]

theorem decodeUnregisterRequest_mixed (hname : name.length < 2 ^ 64)
    (hmixed : Mixed unregisterRequestUsed (unregisterRequestFields name generation) bytes) :
    decodeUnregisterRequest bytes = some (name, generation) := by
  have hfields := @readFields_mixed _ readUnregisterRequest
    unregisterRequestUsed unregisterRequest_skips
    [(appendLengthDelimited kFieldName name,
        fun state => { state with name := name, hasName := true }),
      (appendVarintField kUnregFieldGeneration generation,
        fun state => { state with
          generation := generation, hasGeneration := true })]
    bytes ?_ hmixed {} bytes.length (Nat.le_refl _)
  · rw [decodeUnregisterRequest, hfields]
    rfl
  · refine ⟨reads_delimited hname ?_, reads_varint ?_⟩
    all_goals
      intro state bytes rest hdecode
      simp +decide [readUnregisterRequest, hdecode]

/-- The fields that are written: a name that was not found has only the first
one. -/
def resolveResponseFields (found : Bool) (actorId : UInt64)
    (endpointStr : List UInt8) (generation : UInt64) : List (List UInt8) :=
  appendVarintField kFieldFound (if found then 1 else 0) ::
    if found then
      [appendVarintField kFieldActorId actorId, appendLengthDelimited kFieldEndpoint endpointStr,
        appendVarintField kFieldGeneration generation]
    else []

def resolveResponseUsed : List UInt32 :=
  [kFieldFound, kFieldActorId, kFieldEndpoint, kFieldGeneration]

theorem resolveResponse_skips : Skips readResolveResponse resolveResponseUsed := by
  intro fn hfn wt state bytes
  simp only [resolveResponseUsed, mem_cons, not_mem_nil, or_false, not_or] at hfn
  simp [readResolveResponse, hfn]

theorem reads_found (found : Bool) :
    Reads readResolveResponse (appendVarintField kFieldFound (if found then 1 else 0))
      fun state => { state with found := found, hasFound := true } := by
  refine reads_varint ?_
  intro state bytes rest hdecode
  rw [readResolveResponse, if_pos (by decide), hdecode]
  cases found <;> rfl

theorem decodeResolveResponse_found (hendpoint : endpointStr.length < 2 ^ 64)
    (hmixed : Mixed resolveResponseUsed
      (resolveResponseFields true actorId endpointStr generation) bytes) :
    decodeResolveResponse bytes = some ⟨true, actorId, endpointStr, generation⟩ := by
  have hfields := @readFields_mixed _ readResolveResponse resolveResponseUsed resolveResponse_skips
    [(appendVarintField kFieldFound 1,
        fun state => { state with found := true, hasFound := true }),
      (appendVarintField kFieldActorId actorId,
        fun state => { state with actorId := actorId }),
      (appendLengthDelimited kFieldEndpoint endpointStr,
        fun state => { state with endpointStr := endpointStr }),
      (appendVarintField kFieldGeneration generation,
        fun state => { state with generation := generation })]
    bytes ?_ hmixed {} bytes.length (Nat.le_refl _)
  · rw [decodeResolveResponse, hfields]
    rfl
  · refine ⟨reads_found true, reads_varint ?_, reads_delimited hendpoint ?_, reads_varint ?_⟩
    all_goals
      intro state bytes rest hdecode
      simp +decide [readResolveResponse, hdecode]

theorem decodeResolveResponse_missing
    (hmixed : Mixed resolveResponseUsed
      (resolveResponseFields false actorId endpointStr generation) bytes) :
    decodeResolveResponse bytes = some ⟨false, 0, [], 0⟩ := by
  have hfields := @readFields_mixed _ readResolveResponse resolveResponseUsed resolveResponse_skips
    [(appendVarintField kFieldFound 0,
      fun state => { state with found := false, hasFound := true })]
    bytes ?_ hmixed {} bytes.length (Nat.le_refl _)
  · rw [decodeResolveResponse, hfields]
    rfl
  · exact reads_found false

def resolveQueryFields (name : List UInt8) : List (List UInt8) :=
  [appendLengthDelimited kFieldName name]

def resolveQueryUsed : List UInt32 := [kFieldName]

theorem resolveQuery_skips : Skips readResolveQuery resolveQueryUsed := by
  intro fn hfn wt state bytes
  rw [resolveQueryUsed, mem_singleton] at hfn
  rw [readResolveQuery, if_neg fun h => hfn h.1]

theorem readResolveQuery_name (hname : name.length < 2 ^ 64)
    (state : ResolveQueryFields) (rest : List UInt8) :
    readField readResolveQuery state (appendLengthDelimited kFieldName name ++ rest) =
        ({ name := name, hasName := true }, none) := by
  rw [appendLengthDelimited, append_assoc,
    readField_appendTag readResolveQuery state kFieldName (by decide),
    readResolveQuery, if_pos (by decide), decodeDelimited_append rest hname]

section

variable (hname : name.length < 2 ^ 64)
  (hmixed : Mixed resolveQueryUsed (resolveQueryFields name) bytes)
include hname hmixed

/-- Unknown fields in front of the name are skipped; what follows it is not
looked at. -/
theorem readFields_resolveQuery (state : ResolveQueryFields) {rounds : Nat}
    (hrounds : bytes.length ≤ rounds) :
    readFields readResolveQuery rounds state bytes =
      { name := name, hasName := true } := by
  generalize hfields : resolveQueryFields name = fields at hmixed
  induction hmixed generalizing state rounds with
  | done => cases hfields
  | @known field fields bytes hrest ih =>
    obtain ⟨rfl, rfl⟩ := List.cons.inj hfields
    have hread := readResolveQuery_name hname state bytes
    generalize appendLengthDelimited kFieldName name ++ bytes = text at hread hrounds ⊢
    cases text with
    | nil =>
      rw [readFields]
      exact congrArg Prod.fst hread
    | cons byte text =>
      cases rounds with
      | zero => exact absurd hrounds (Nat.not_succ_le_zero _)
      | succ rounds => rw [readFields, hread]
  | unknown hfield hrest ih =>
    obtain ⟨fewer, hfewer, hround⟩ := readFields_append
      (readField_unknown resolveQuery_skips hfield) state hrounds
    rw [hround]
    exact ih state hfewer hfields

theorem decodeResolveQuery_mixed : decodeResolveQuery bytes = some name := by
  rw [decodeResolveQuery, readFields_resolveQuery hname hmixed {} (Nat.le_refl _)]
  rfl

end

/-- A message with the given fields is read back to its values, also from bytes
with unknown fields in between. -/
structure RoundTrips {α : Type} (decode : List UInt8 → Option α)
    (used : List UInt32) (fields : List (List UInt8)) (encoded : List UInt8)
    (values : α) : Prop where
  fields_eq : fields.flatten = encoded
  decodes : decode encoded = some values
  decodesMixed : ∀ bytes, Mixed used fields bytes → decode bytes = some values

theorem RoundTrips.of_mixed {α : Type} {decode : List UInt8 → Option α} {fields : List (List UInt8)}
    {encoded : List UInt8} {values : α} (hfields : fields.flatten = encoded)
    (hmixed : ∀ bytes, Mixed used fields bytes → decode bytes = some values) :
    RoundTrips decode used fields encoded values where
  fields_eq := hfields
  decodes := hmixed encoded (hfields ▸ mixed_flatten used fields)
  decodesMixed := hmixed

/-- The endpoint of an address survives a request unless it is an IPv6 one. -/
theorem registeredAddress_eq_iff (inet : InetLibrary) (addr : ActorAddress)
    (hvalid : addr.endpoint.Valid) (htext : chars endpointStr = addr.endpoint.toString inet) :
    (registeredAddress inet addr.id endpointStr).endpoint = addr.endpoint ↔
      addr.endpoint.isIpv4 = true := by
  rw [registeredAddress, htext]
  exact EndPoint.parseEndpoint_toString_iff inet hvalid

/-- Every message of the protocol is read back, with unknown fields between its
own or without.  Of a name that was not found there is nothing to say but
that, and the text of a registered endpoint is read as an endpoint: an address
that was written comes back if it is an IPv4 one. -/
theorem nameMessages_roundTrip (inet : InetLibrary) (resultCode : UInt32) (found : Bool)
    (hname : name.length < 2 ^ 64) (hendpoint : endpointStr.length < 2 ^ 64) :
    RoundTrips (decodeRegisterRequest · inet) registerRequestUsed
        (registerRequestFields name actorId endpointStr generation)
        (encodeRegisterRequest name actorId endpointStr generation)
        ⟨name, registeredAddress inet actorId endpointStr, generation⟩ ∧
      (∀ addr : ActorAddress, addr.endpoint.Valid →
        chars endpointStr = addr.endpoint.toString inet →
        ((registeredAddress inet addr.id endpointStr).endpoint = addr.endpoint ↔
          addr.endpoint.isIpv4 = true)) ∧
      RoundTrips decodeRegisterResponse registerResponseUsed
        (registerResponseFields resultCode) (encodeRegisterResponse resultCode)
        resultCode ∧
      RoundTrips decodeResolveQuery resolveQueryUsed (resolveQueryFields name)
        (encodeResolveQuery name) name ∧
      RoundTrips decodeResolveResponse resolveResponseUsed
        (resolveResponseFields found actorId endpointStr generation)
        (encodeResolveResponse found actorId endpointStr generation)
        (if found then ⟨true, actorId, endpointStr, generation⟩
          else ⟨false, 0, [], 0⟩) ∧
      RoundTrips decodeUnregisterRequest unregisterRequestUsed
        (unregisterRequestFields name generation)
        (encodeUnregisterRequest name generation) (name, generation) := by
  refine ⟨.of_mixed (by simp [registerRequestFields, encodeRegisterRequest]) ?_,
    registeredAddress_eq_iff inet,
    .of_mixed (by simp [registerResponseFields, encodeRegisterResponse]) ?_,
    .of_mixed (by simp [resolveQueryFields, encodeResolveQuery]) ?_,
    .of_mixed ?_ ?_,
    .of_mixed (by simp [unregisterRequestFields, encodeUnregisterRequest]) ?_⟩
  · intro bytes hmixed
    exact decodeRegisterRequest_mixed inet hname hendpoint hmixed
  · intro bytes hmixed
    exact decodeRegisterResponse_mixed hmixed
  · intro bytes hmixed
    exact decodeResolveQuery_mixed hname hmixed
  · cases found <;> simp [resolveResponseFields, encodeResolveResponse]
  · intro bytes hmixed
    cases found with
    | false => exact decodeResolveResponse_missing hmixed
    | true => exact decodeResolveResponse_found hendpoint hmixed
  · intro bytes hmixed
    exact decodeUnregisterRequest_mixed hname hmixed

end

namespace RoundTripWitness

/-- Field 9 with four bytes of value. -/
def later : List UInt8 := [77, 1, 2, 3, 4]

/-- The name `n` in generation 300, with the later field in between. -/
def mixedUnregister : List UInt8 :=
  [10, 1, 110] ++ (later ++ ([16, 172, 2] ++ []))

theorem mixed_mixedUnregister :
    Mixed unregisterRequestUsed (unregisterRequestFields [110] 300) mixedUnregister := by
  have hlater : IsUnknown unregisterRequestUsed later :=
    ⟨9, 5, [1, 2, 3, 4], by decide, by decide, rfl, by decide⟩
  exact .known _ (.unknown hlater (.known _ .done))

theorem nameMessages_roundTrip_unregister :
    Mixed unregisterRequestUsed (unregisterRequestFields [110] 300) mixedUnregister ∧
      decodeUnregisterRequest mixedUnregister = some ([110], 300) :=
  ⟨mixed_mixedUnregister,
    (@nameMessages_roundTrip [110] [] 0 300 EndpointWitness.plain 0 false (by decide)
      (by decide)).2.2.2.2.2.decodesMixed _ mixed_mixedUnregister⟩

/-- The text of the IPv6 loopback address with port 80. -/
def loopback6Text : List UInt8 :=
  (EndpointWitness.loopback6.toString EndpointWitness.plain).map fun c => .ofNat c.toNat

/-- A response that says "not found" does not carry the other values, and an
IPv6 address is registered as the unspecified one. -/
theorem decodeResolveResponse_drops :
    (decodeResolveResponse (encodeResolveResponse false 7 [97] 3) = some ⟨false, 0, [], 0⟩ ∧
      decodeResolveResponse (encodeResolveResponse false 7 [97] 3) ≠
        some ⟨false, 7, [97], 3⟩) ∧
      chars loopback6Text = EndpointWitness.loopback6.toString EndpointWitness.plain ∧
      (decodeRegisterRequest (encodeRegisterRequest [110] 7 loopback6Text 3)
        EndpointWitness.plain).map (fun request => request.addr.endpoint) =
          some unspecified := by
  decide +kernel

end RoundTripWitness

end HPActor.NameCodec
