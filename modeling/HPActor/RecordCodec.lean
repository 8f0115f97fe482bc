/-
Fixed-size records in a byte buffer.  A codec knows the size of its records
and reads back what it has written, with whatever follows left over; codecs
are put together from little-endian words and padding.  A record read at an
offset is the record written there, and an array of records is read by
stepping one record size at a time.
-/
import Mathlib.Algebra.Group.Nat.Defs
import Mathlib.Data.List.Basic

namespace RecordCodec

open List Option

universe u v

/-- The lowest `width` bytes of a number, lowest first. -/
def leBytes : Nat → Nat → List UInt8
  | 0, _ => []
  | width + 1, n => UInt8.ofNat n :: leBytes width (n / 256)

def ofLeBytes : List UInt8 → Nat
  | [] => 0
  | byte :: rest => byte.toNat + 256 * ofLeBytes rest

@[simp] theorem leBytes_length (width n : Nat) : (leBytes width n).length = width := by
  induction width generalizing n with
  | zero => rfl
  | succ width ih => rw [leBytes, length_cons, ih]

theorem ofLeBytes_leBytes (width n : Nat) : ofLeBytes (leBytes width n) = n % 256 ^ width := by
  induction width generalizing n with
  | zero => rw [leBytes, ofLeBytes, Nat.pow_zero, Nat.mod_one]
  | succ width ih =>
    have hbyte : (UInt8.ofNat n).toNat = n % 256 := by
      simp [UInt8.toNat_ofNat']
    rw [leBytes, ofLeBytes, ih, hbyte, Nat.pow_succ', Nat.mod_mul]

/-- Records of one size, with their encoding. -/
structure Codec (α : Type u) where
  size : Nat
  encode : α → List UInt8
  decode : List UInt8 → Option (α × List UInt8)
  encode_length : ∀ a, (encode a).length = size
  decode_encode : ∀ a rest, decode (encode a ++ rest) = some (a, rest)

namespace Codec

variable {α : Type u} {β : Type v}

/-- Words of `width` bytes that stand for the values of a machine type. -/
def word (width : Nat) (toNat : α → Nat) (ofNat : Nat → α) (hlt : ∀ a, toNat a < 2 ^ (8 * width))
    (hround : ∀ a, ofNat (toNat a) = a) : Codec α where
  size := width
  encode a := leBytes width (toNat a)
  decode bytes :=
    if width ≤ bytes.length then
      some (ofNat (ofLeBytes (bytes.take width)), bytes.drop width)
    else none
  encode_length a := leBytes_length width (toNat a)
  decode_encode a rest := by
    have hlength := leBytes_length width (toNat a)
    have hlong : width ≤ (leBytes width (toNat a) ++ rest).length := by
      rw [length_append, hlength]
      exact Nat.le_add_right _ _
    have hvalue : toNat a < 256 ^ width := by
      have hpow := hlt a
      rwa [Nat.pow_mul] at hpow
    rw [if_pos hlong, take_left' hlength, drop_left' hlength,
      ofLeBytes_leBytes, Nat.mod_eq_of_lt hvalue, hround]

def uint8 : Codec UInt8 :=
  word 1 UInt8.toNat UInt8.ofNat UInt8.toNat_lt fun _ => UInt8.ofNat_toNat

def uint16 : Codec UInt16 :=
  word 2 UInt16.toNat UInt16.ofNat UInt16.toNat_lt fun _ =>
    UInt16.ofNat_toNat

def uint32 : Codec UInt32 :=
  word 4 UInt32.toNat UInt32.ofNat UInt32.toNat_lt fun _ =>
    UInt32.ofNat_toNat

def uint64 : Codec UInt64 :=
  word 8 UInt64.toNat UInt64.ofNat UInt64.toNat_lt fun _ =>
    UInt64.ofNat_toNat

/-- A record with bytes after it that nothing reads. -/
def padded (codec : Codec α) (count : Nat) : Codec α where
  size := codec.size + count
  encode a := codec.encode a ++ List.replicate count 0
  decode bytes :=
    (codec.decode bytes).bind fun field =>
      if count ≤ field.2.length then some (field.1, field.2.drop count)
      else none
  encode_length a := by
    rw [length_append, codec.encode_length, length_replicate]
  decode_encode a rest := by
    have hlong : count ≤ (List.replicate count (0 : UInt8) ++ rest).length := by
      rw [length_append, length_replicate]
      exact Nat.le_add_right _ _
    rw [append_assoc, codec.decode_encode, bind_some, if_pos hlong, drop_left' length_replicate]

/-- One record after the other. -/
def pair (first : Codec α) (second : Codec β) : Codec (α × β) where
  size := first.size + second.size
  encode p := first.encode p.1 ++ second.encode p.2
  decode bytes :=
    (first.decode bytes).bind fun a =>
      (second.decode a.2).map fun b => ((a.1, b.1), b.2)
  encode_length p := by
    rw [length_append, first.encode_length, second.encode_length]
  decode_encode p rest := by
    rw [append_assoc, first.decode_encode, bind_some, second.decode_encode, map_some]

/-- The same bytes for the values of another type. -/
def map (codec : Codec α) (make : α → β) (fields : β → α)
    (hmake : ∀ b, make (fields b) = b) : Codec β where
  size := codec.size
  encode b := codec.encode (fields b)
  decode bytes := (codec.decode bytes).map fun a => (make a.1, a.2)
  encode_length b := codec.encode_length (fields b)
  decode_encode b rest := by
    rw [codec.decode_encode, map_some, hmake]

/-- The record at an offset. -/
def readAt (codec : Codec α) (bytes : List UInt8) (offset : Nat) : Option α :=
  (codec.decode (bytes.drop offset)).map Prod.fst

/-- The elements of an array that starts at an offset. -/
def readArray (codec : Codec α) (bytes : List UInt8) : Nat → Nat → Option (List α)
  | _, 0 => some []
  | offset, count + 1 =>
    (codec.readAt bytes offset).bind fun a =>
      (codec.readArray bytes (offset + codec.size) count).map (a :: ·)

/-- The bytes of an array. -/
def encodeAll (codec : Codec α) (records : List α) : List UInt8 :=
  records.flatMap codec.encode

variable (codec : Codec α)

@[simp] theorem encodeAll_nil : codec.encodeAll [] = [] := rfl

theorem encodeAll_cons (a : α) (records : List α) :
    codec.encodeAll (a :: records) = codec.encode a ++ codec.encodeAll records := flatMap_cons

theorem encodeAll_append (front back : List α) :
    codec.encodeAll (front ++ back) =
      codec.encodeAll front ++ codec.encodeAll back := flatMap_append

theorem encodeAll_length (records : List α) :
    (codec.encodeAll records).length = records.length * codec.size := by
  induction records with
  | nil => rw [encodeAll_nil, length_nil, length_nil, Nat.zero_mul]
  | cons a records ih =>
    rw [encodeAll_cons, length_append, codec.encode_length, ih, length_cons, Nat.succ_mul, add_comm]

theorem readAt_append (front back : List UInt8) (a : α) :
    codec.readAt (front ++ (codec.encode a ++ back)) front.length = some a := by
  rw [readAt, drop_left, codec.decode_encode, map_some]

/-- An array is read back from where it was written. -/
theorem readArray_append (front back : List UInt8) (records : List α) :
    codec.readArray (front ++ (codec.encodeAll records ++ back))
      front.length records.length = some records := by
  induction records generalizing front with
  | nil => rfl
  | cons a records ih =>
    -- the rest of the array starts where the first record ends
    have hrest : codec.readArray ((front ++ codec.encode a) ++ (codec.encodeAll records ++ back))
          (front.length + codec.size) records.length = some records := by
      rw [← codec.encode_length a, ← length_append]
      exact ih _
    rw [encodeAll_cons, append_assoc, length_cons, readArray, readAt_append, bind_some,
      ← append_assoc, hrest, map_some]

end Codec

end RecordCodec
