/-
Numbers of variable length, as the protocol buffer wire format has them: seven
bits a byte, and a bit that says whether another byte follows.
-/
import Mathlib.Algebra.Group.Nat.Defs
import Mathlib.Data.List.Basic

namespace ProtoWire

open List UInt8

/-- The lowest bits first, in at most `width` bytes. -/
def putVarint : Nat → Nat → List UInt8
  | 0, _ => []
  | width + 1, n =>
    if n < 128 then [UInt8.ofNat n]
    else UInt8.ofNat (n % 128 + 128) :: putVarint width (n / 128)

/-- A number of at most `limit` bytes and the bytes after it. -/
def getVarint : Nat → List UInt8 → Option (Nat × List UInt8)
  | 0, _ => none
  | _ + 1, [] => none
  | limit + 1, byte :: rest =>
    if byte.toNat < 128 then some (byte.toNat, rest)
    else
      (getVarint limit rest).map fun high =>
        (byte.toNat - 128 + 128 * high.1, high.2)

variable {n limit : Nat}

theorem getVarint_byte (limit : Nat) (rest : List UInt8) (hn : n < 128) :
    getVarint (limit + 1) (ofNat n :: rest) = some (n, rest) := by
  have hbyte : (ofNat n).toNat = n := by
    rw [toNat_ofNat']
    omega
  rw [getVarint, hbyte, if_pos hn]

theorem getVarint_more (rest : List UInt8) :
    getVarint (limit + 1) (ofNat (n % 128 + 128) :: rest) =
      (getVarint limit rest).map fun high =>
        (n % 128 + 128 * high.1, high.2) := by
  have hbyte : (ofNat (n % 128 + 128)).toNat = n % 128 + 128 := by
    rw [toNat_ofNat']
    omega
  rw [getVarint, hbyte, if_neg (by omega), Nat.add_sub_cancel]

theorem div_lt_pow {k : Nat} (hn : n < 128 ^ (k + 1)) : n / 128 < 128 ^ k := by
  rw [Nat.pow_succ, Nat.mul_comm] at hn
  exact Nat.div_lt_of_lt_mul hn

theorem getVarint_putVarint {width : Nat} (rest : List UInt8)
    (hwidth : n < 128 ^ (width + 1)) (hlimit : n < 128 ^ (limit + 1)) :
    getVarint (limit + 1) (putVarint (width + 1) n ++ rest) = some (n, rest) := by
  induction width generalizing limit n with
  | zero =>
    rw [zero_add, pow_one] at hwidth
    rw [putVarint, if_pos hwidth]
    exact getVarint_byte limit rest hwidth
  | succ width ih =>
    rw [putVarint]
    by_cases hsmall : n < 128
    · rw [if_pos hsmall]
      exact getVarint_byte limit rest hsmall
    · -- a number of more than one byte has room for a second one
      obtain ⟨limit, rfl⟩ : ∃ l, limit = l + 1 := by
        cases limit with
        | zero => exact absurd (by simpa using hlimit) hsmall
        | succ l => exact ⟨l, rfl⟩
      rw [if_neg hsmall, cons_append, getVarint_more, ih (div_lt_pow hwidth) (div_lt_pow hlimit),
        Option.map_some, Nat.mod_add_div]

/-- A number is read the same whatever follows it. -/
theorem getVarint_append {bytes after : List UInt8} (more : List UInt8)
    (hget : getVarint limit bytes = some (n, after)) :
    getVarint limit (bytes ++ more) = some (n, after ++ more) := by
  induction limit generalizing n bytes with
  | zero => cases hget
  | succ limit ih =>
    cases bytes with
    | nil => cases hget
    | cons byte rest =>
      rw [getVarint] at hget
      rw [cons_append, getVarint]
      split at hget
      · next hlast =>
          cases hget
          rw [if_pos hlast]
      · next hlast =>
          obtain ⟨high, hhigh, heq⟩ := Option.map_eq_some_iff.mp hget
          cases heq
          rw [if_neg hlast, ih hhigh, Option.map_some]

end ProtoWire
