/-
`StreamBuffer`: a byte vector with a read position, and the two-phase write of
direct I/O: `reserve_tail` grows the vector by zero bytes for a read to fill,
`commit_tail` cuts off what the read left unfilled.
-/
import Mathlib.Data.List.Basic

namespace HPActor

open List

/-- The vector, its capacity, the read position and the bytes reserved by the
last `reserve_tail` that no `commit_tail` has followed. -/
structure StreamBuffer where
  buf : List UInt8 := []
  readPos : Nat := 0
  reserveTailAmount : Nat := 0
  capacity : Nat := 0

namespace StreamBuffer

def kDefaultInitialCapacity : Nat := 65536

def kCompactThreshold : Nat := 65536

section

variable (b : StreamBuffer)

/-- The bytes between the read position and the end. -/
def content : List UInt8 := b.buf.drop b.readPos

def size : Nat := b.buf.length - b.readPos

/-- `std::vector::resize`: cut, or grow by zero bytes. -/
def resizeBytes (bytes : List UInt8) (n : Nat) : List UInt8 :=
  bytes.take n ++ List.replicate (n - bytes.length) 0

def compact : StreamBuffer :=
  { b with buf := b.buf.drop b.readPos, readPos := 0 }

def maybeCompact : StreamBuffer :=
  if b.size < b.readPos ∨ kCompactThreshold < b.readPos then b.compact else b

def usable : Nat := b.capacity - b.buf.length

def grow (additional : Nat) : StreamBuffer :=
  { b with
    capacity := max (max (b.capacity * 2) (b.buf.length + additional)) kDefaultInitialCapacity }

def makeRoom (additional : Nat) : StreamBuffer :=
  if 0 < b.readPos ∧ b.usable < additional then b.compact else b

def ensureCapacity (additional : Nat) : StreamBuffer :=
  if (b.makeRoom additional).usable < additional then
    (b.makeRoom additional).grow additional
  else b.makeRoom additional

/-- Grow by `n` zero bytes that a read is to fill. -/
def reserveTail (n : Nat) : StreamBuffer :=
  { b.ensureCapacity n with
    buf := resizeBytes (b.ensureCapacity n).buf ((b.ensureCapacity n).buf.length + n)
    reserveTailAmount := n }

/-- A read that stores `data` at the start of the reserved area. -/
def fillTail (data : List UInt8) : StreamBuffer :=
  { b with
    buf := b.buf.take (b.buf.length - b.reserveTailAmount) ++ data ++
      b.buf.drop (b.buf.length - b.reserveTailAmount + data.length) }

def commitTail (n : Nat) : StreamBuffer :=
  if 0 < b.reserveTailAmount then
    { b with
      buf :=
        if n < b.reserveTailAmount then
          resizeBytes b.buf (b.buf.length - (b.reserveTailAmount - n))
        else b.buf
      reserveTailAmount := 0 }
  else { b with buf := resizeBytes b.buf (b.buf.length + n) }

def consume (n : Nat) : StreamBuffer :=
  { b with readPos := b.readPos + n }

def clear : StreamBuffer := { b with buf := [], readPos := 0 }

end

variable (alloc : Nat → Nat → Nat)

/-- The capacity of a vector that now holds `n` bytes: `alloc` is what the
library allocates when the old capacity does not do. -/
def capacityFor (capacity n : Nat) : Nat :=
  if capacity < n then max n (alloc capacity n) else capacity

section

variable (b : StreamBuffer)

/-- Put `bytes` in the vector's place. -/
def setBytes (bytes : List UInt8) : StreamBuffer :=
  { b with buf := bytes, capacity := capacityFor alloc b.capacity bytes.length }

def reserve (n : Nat) : StreamBuffer :=
  if b.capacity < n then { b with capacity := max n (alloc b.capacity n) } else b

def resize (n : Nat) (value : UInt8) : StreamBuffer :=
  setBytes alloc b.compact (b.compact.buf.take n ++ List.replicate (n - b.compact.buf.length) value)

def append (data : List UInt8) : StreamBuffer :=
  { b.ensureCapacity data.length with
    buf := (b.ensureCapacity data.length).buf ++ data }

def pushBack (value : UInt8) : StreamBuffer :=
  { b.ensureCapacity 1 with buf := (b.ensureCapacity 1).buf ++ [value] }

def assign (data : List UInt8) : StreamBuffer :=
  setBytes alloc b.clear data

/-- `offset` is the distance of the iterator from the read position. -/
def insert (offset : Nat) (data : List UInt8) : StreamBuffer :=
  setBytes alloc b.compact (b.compact.buf.take offset ++ data ++ b.compact.buf.drop offset)

/-- Both iterators as distances from the read position.  A range at the front
is consumed, and `begin()` may compact. -/
def erase (first last : Nat) : StreamBuffer :=
  if last ≤ first then b.maybeCompact
  else if first = 0 then (b.consume last).maybeCompact
  else
    { b.compact with
      buf := b.compact.buf.take first ++ b.compact.buf.drop last }

/-- The read position lies inside the vector. -/
def Valid : Prop := b.readPos ≤ b.buf.length

end

variable {b : StreamBuffer}

@[simp] theorem content_length (b : StreamBuffer) : b.content.length = b.size := by
  simp [content, size]

theorem content_compact : b.compact.content = b.content := by
  simp [compact, content]

theorem valid_compact : b.compact.Valid := Nat.zero_le _

theorem content_maybeCompact : b.maybeCompact.content = b.content := by
  unfold maybeCompact
  split
  · exact content_compact
  · rfl

theorem valid_maybeCompact (hvalid : b.Valid) : b.maybeCompact.Valid := by
  unfold maybeCompact
  split
  · exact valid_compact
  · exact hvalid

theorem ensureCapacity_spec (n : Nat) (hvalid : b.Valid) :
    (b.ensureCapacity n).content = b.content ∧ (b.ensureCapacity n).Valid := by
  have hroom : (b.makeRoom n).content = b.content ∧ (b.makeRoom n).Valid := by
    unfold makeRoom
    split
    · exact ⟨content_compact, valid_compact⟩
    · exact ⟨rfl, hvalid⟩
  unfold ensureCapacity
  split
  · exact hroom
  · exact hroom

theorem reserveTail_buf (b : StreamBuffer) (n : Nat) :
    (b.reserveTail n).buf = (b.ensureCapacity n).buf ++ List.replicate n 0 := by
  simp only [reserveTail, resizeBytes, Nat.add_sub_cancel_left]
  rw [take_of_length_le (by omega)]

/-- Reserved bytes are zero until a read fills them. -/
theorem content_reserveTail (n : Nat) (hvalid : b.Valid) :
    (b.reserveTail n).content = b.content ++ List.replicate n 0 := by
  obtain ⟨hcontent, hpos⟩ := ensureCapacity_spec n hvalid
  calc (b.reserveTail n).content = ((b.ensureCapacity n).buf ++ List.replicate n 0).drop
          (b.ensureCapacity n).readPos := by
        rw [content, reserveTail_buf]
        rfl
    _ = (b.ensureCapacity n).content ++ List.replicate n 0 :=
        drop_append_of_le_length hpos
    _ = b.content ++ List.replicate n 0 := by rw [hcontent]

theorem valid_reserveTail (n : Nat) (hvalid : b.Valid) : (b.reserveTail n).Valid := by
  obtain ⟨-, hpos⟩ := ensureCapacity_spec n hvalid
  unfold Valid at hpos ⊢
  rw [reserveTail_buf, length_append]
  exact Nat.le_add_right_of_le hpos

/-- What a read leaves in the reserved area, before the commit. -/
theorem fillTail_buf (b : StreamBuffer) (n : Nat) (data : List UInt8) :
    ((b.reserveTail n).fillTail data).buf = (b.ensureCapacity n).buf ++ data ++
        List.replicate (n - data.length) 0 := by
  have hlength : (b.reserveTail n).buf.length - (b.reserveTail n).reserveTailAmount =
      (b.ensureCapacity n).buf.length := by
    rw [reserveTail_buf]
    simp [reserveTail]
  simp only [fillTail, hlength]
  rw [reserveTail_buf, take_left', drop_append, drop_of_length_le (by omega)]
  · simp
  · rfl

/-- The whole two-phase write: what the read stored is appended. -/
theorem readTail_spec {n : Nat} {data : List UInt8} (hvalid : b.Valid)
    (hle : data.length ≤ n) (hpos : 0 < n) :
    (((b.reserveTail n).fillTail data).commitTail data.length).content = b.content ++ data ∧
      (((b.reserveTail n).fillTail data).commitTail data.length).Valid := by
  obtain ⟨hcontent, hread⟩ := ensureCapacity_spec n hvalid
  have hamount : ((b.reserveTail n).fillTail data).reserveTailAmount = n := rfl
  have hbuf : (((b.reserveTail n).fillTail data).commitTail data.length).buf =
      (b.ensureCapacity n).buf ++ data := by
    simp only [commitTail, hamount, if_pos hpos]
    split
    · have hcut : ((b.ensureCapacity n).buf ++ data ++
          List.replicate (n - data.length) 0).length - (n - data.length) =
            ((b.ensureCapacity n).buf ++ data).length := by
        simp only [length_append, length_replicate]
        omega
      rw [fillTail_buf, resizeBytes, hcut, take_left, Nat.sub_eq_zero_of_le]
      · simp
      · simp
    · have hall : n - data.length = 0 := by omega
      rw [fillTail_buf, hall]
      simp
  have hstart : (((b.reserveTail n).fillTail data).commitTail data.length).readPos =
      (b.ensureCapacity n).readPos := by
    simp only [commitTail, hamount, if_pos hpos]
    rfl
  unfold Valid content
  rw [hbuf, hstart]
  constructor
  · rw [drop_append_of_le_length hread]
    exact congrArg (· ++ data) hcontent
  · rw [length_append]
    exact Nat.le_add_right_of_le hread

theorem content_consume (b : StreamBuffer) (n : Nat) :
    (b.consume n).content = b.content.drop n := by
  simp [consume, content, Nat.add_comm]

theorem valid_consume {n : Nat} (hvalid : b.Valid) (hle : n ≤ b.size) : (b.consume n).Valid := by
  unfold Valid at hvalid ⊢
  simp only [size, consume] at hle ⊢
  omega

theorem compact_buf (b : StreamBuffer) : b.compact.buf = b.content := rfl

theorem content_clear (b : StreamBuffer) : b.clear.content = [] := by
  simp [clear, content]

variable (data : List UInt8)

section

variable (hvalid : b.Valid)
include hvalid

/-- Bytes put behind the vector's last one are appended to the content. -/
theorem content_append_bytes :
    ({ b with buf := b.buf ++ data } : StreamBuffer).content = b.content ++ data :=
  drop_append_of_le_length hvalid

theorem valid_append_bytes : ({ b with buf := b.buf ++ data } : StreamBuffer).Valid := by
  unfold Valid at hvalid ⊢
  rw [length_append]
  exact Nat.le_add_right_of_le hvalid

theorem content_append : (b.append data).content = b.content ++ data := by
  obtain ⟨hcontent, hpos⟩ := ensureCapacity_spec data.length hvalid
  rw [← hcontent]
  exact content_append_bytes data hpos

theorem valid_append : (b.append data).Valid :=
  valid_append_bytes data (ensureCapacity_spec data.length hvalid).2

/-- A commit cuts off what was reserved and not used, if that is still there
to be read. -/
theorem commitTail_spec {n : Nat} (hle : n ≤ b.reserveTailAmount)
    (hthere : b.reserveTailAmount - n ≤ b.size) :
    (b.commitTail n).content = b.content.take (b.size - (b.reserveTailAmount - n)) ∧
      (b.commitTail n).Valid ∧ (b.commitTail n).reserveTailAmount = 0 := by
  unfold Valid at hvalid
  unfold size at hthere
  have hbuf : (b.commitTail n).buf = b.buf.take (b.buf.length - (b.reserveTailAmount - n)) := by
    unfold commitTail resizeBytes
    split
    · split
      · rw [Nat.sub_eq_zero_of_le (Nat.sub_le _ _)]
        simp
      · have hall : b.reserveTailAmount - n = 0 := by omega
        rw [hall, Nat.sub_zero, take_length]
    · have hzero : n = 0 := by omega
      have hnone : b.reserveTailAmount = 0 := by omega
      simp [hzero, hnone]
  have hread : (b.commitTail n).readPos = b.readPos := by
    unfold commitTail
    split <;> rfl
  have hamount : (b.commitTail n).reserveTailAmount = 0 := by
    unfold commitTail
    split
    · rfl
    · simp only
      omega
  refine ⟨?_, ?_, hamount⟩
  · unfold content size
    rw [hbuf, hread, drop_take]
    congr 1
    omega
  · unfold Valid
    rw [hbuf, hread, length_take]
    omega

end

end StreamBuffer

end HPActor
