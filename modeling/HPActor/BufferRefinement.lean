/-
A `StreamBuffer` is a byte list to its callers: the read position, the lazy
compaction and the growth of the vector do not show in the readable bytes.

The list marks the bytes that `reserve_tail` has added, and `commit_tail` takes
the unused ones among them off, wherever they are.  The buffer cuts its vector
at the end instead, so nothing may have been put behind the bytes to be taken
off, and none of them taken away, meanwhile.
-/
import HPActor.StreamBuffer
import HPActor.Machines

namespace HPActor.StreamBuffer

open List

/-- The calls on a buffer.  A reservation comes with the bytes the caller
stores through the pointer it is given. -/
inductive Call where
  | append (data : List UInt8)
  | pushBack (value : UInt8)
  | reserve (n : Nat)
  | resize (n : Nat) (value : UInt8)
  | reserveTail (n : Nat) (written : List UInt8)
  | commitTail (n : Nat)
  | assign (data : List UInt8)
  | insert (offset : Nat) (data : List UInt8)
  | erase (first last : Nat)
  | consume (n : Nat)
  | compact
  | clear
  /-- `data()`, `begin()` and `end()`, which may compact. -/
  | access

def apply (alloc : Nat → Nat → Nat) (b : StreamBuffer) : Call → StreamBuffer
  | .append data => b.append data
  | .pushBack value => b.pushBack value
  | .reserve n => b.reserve alloc n
  | .resize n value => b.resize alloc n value
  | .reserveTail n written => (b.reserveTail n).fillTail written
  | .commitTail n => b.commitTail n
  | .assign data => b.assign alloc data
  | .insert offset data => b.insert alloc offset data
  | .erase first last => b.erase first last
  | .consume n => b.consume n
  | .compact => b.compact
  | .clear => b.clear
  | .access => b.maybeCompact

/-- A byte, and its place in the open reservation if it belongs to one. -/
structure Cell where
  byte : UInt8
  place : Option Nat := none

/-- A commit of `n` bytes takes off the reserved ones from the `n`-th on. -/
def Cell.keptBy (n : Nat) (cell : Cell) : Bool := cell.place.all (· < n)

/-- The buffer as its callers see it: a list of bytes, and the size of the open
reservation. -/
structure ByteList where
  cells : List Cell := []
  reserved : Nat := 0

namespace ByteList

def bytes (l : ByteList) : List UInt8 := l.cells.map Cell.byte

/-- Bytes outside of a reservation. -/
def plain (data : List UInt8) : List Cell := data.map fun byte => { byte }

/-- A reservation of `n` bytes, of which the first ones have been stored. -/
def block (n : Nat) (written : List UInt8) : List Cell :=
  (List.range n).map fun i => ⟨written.getD i 0, some i⟩

def apply (l : ByteList) : Call → ByteList
  | .append data => { l with cells := l.cells ++ plain data }
  | .pushBack value => { l with cells := l.cells ++ plain [value] }
  | .reserve _ => l
  | .resize n value =>
    { l with
      cells := l.cells.take n ++ plain (List.replicate (n - l.cells.length) value) }
  | .reserveTail n written => ⟨plain l.bytes ++ block n written, n⟩
  | .commitTail n =>
    ⟨plain ((l.cells.filter (Cell.keptBy n)).map Cell.byte), 0⟩
  | .assign data => { l with cells := plain data }
  | .insert offset data =>
    { l with cells := l.cells.take offset ++ plain data ++ l.cells.drop offset }
  | .erase first last =>
    if last ≤ first then l
    else { l with cells := l.cells.take first ++ l.cells.drop last }
  | .consume n => { l with cells := l.cells.drop n }
  | .compact => l
  | .clear => { l with cells := [] }
  | .access => l

/-- Positions lie inside the list, no more is stored or committed than was
reserved, and no more consumed than is there. -/
def InRange (l : ByteList) : Call → Prop
  | .reserveTail n written => written.length ≤ n
  | .commitTail n => n ≤ l.reserved
  | .insert offset _ => offset ≤ l.cells.length
  | .erase _ last => last ≤ l.cells.length
  | .consume n => n ≤ l.cells.length
  | _ => True

/-- What a commit takes off are the last bytes of the list. -/
def TailThere (l : ByteList) : Call → Prop
  | .commitTail n => (List.range' n (l.reserved - n)).map some <:+ l.cells.map Cell.place
  | _ => True

instance (l : ByteList) : ∀ call, Decidable (l.InRange call) := by
  intro call
  unfold InRange
  split <;> infer_instance

instance (l : ByteList) : ∀ call, Decidable (l.TailThere call) := by
  intro call
  unfold TailThere
  split <;> infer_instance

end ByteList

/-- The buffer holds the list. -/
structure Holds (b : StreamBuffer) (l : ByteList) : Prop where
  valid : b.Valid
  content : b.content = l.bytes
  reserved : b.reserveTailAmount = l.reserved
  places : l.cells.filterMap Cell.place <+ List.range l.reserved

/-- A valid buffer without an open reservation, as its callers see it. -/
def view (b : StreamBuffer) : ByteList where
  cells := ByteList.plain b.content

namespace ByteList

@[simp] theorem bytes_plain (data : List UInt8) : (plain data).map Cell.byte = data := by
  simp [plain, Function.comp_def]

@[simp] theorem places_plain (data : List UInt8) : (plain data).filterMap Cell.place = [] := by
  simp [plain, filterMap_map]

theorem bytes_block {n : Nat} {written : List UInt8} (hle : written.length ≤ n) :
    (block n written).map Cell.byte = written ++ replicate (n - written.length) 0 := by
  refine ext_getElem (by simp [block]; omega) fun i hi _ => ?_
  rw [getElem_append]
  split <;> simp [block, *]

theorem places_block (n : Nat) (written : List UInt8) :
    (block n written).filterMap Cell.place = range n := by
  simp [block, filterMap_map]

end ByteList

open ByteList

theorem holds_view {b : StreamBuffer} (hvalid : b.Valid) (hclosed : b.reserveTailAmount = 0) :
    b.Holds b.view :=
  ⟨hvalid, (bytes_plain _).symm, hclosed, by simp [view]⟩

namespace Holds

variable {b : StreamBuffer} {l : ByteList} {alloc : Nat → Nat → Nat}

theorem size_eq (h : b.Holds l) : b.size = l.cells.length := by
  rw [← content_length, h.content, bytes, length_map]

/-- A buffer that was compacted and given the bytes of other cells holds these. -/
theorem setCells {cells : List Cell} (h : b.Holds l) (hstart : b.readPos = 0)
    (hplaces : cells.filterMap Cell.place <+ l.cells.filterMap Cell.place) :
    (setBytes alloc b (cells.map Cell.byte)).Holds { l with cells := cells } := by
  refine ⟨?_, ?_, h.reserved, hplaces.trans h.places⟩
  · simp [StreamBuffer.setBytes, Valid, hstart]
  · simp [StreamBuffer.setBytes, StreamBuffer.content, hstart, bytes]

theorem compact (h : b.Holds l) : b.compact.Holds l :=
  ⟨valid_compact, content_compact.trans h.content, h.reserved, h.places⟩

theorem compact_buf_eq (h : b.Holds l) : b.compact.buf = l.cells.map Cell.byte := by
  rw [compact_buf, h.content, bytes]

theorem maybeCompact (h : b.Holds l) : b.maybeCompact.Holds l := by
  refine ⟨valid_maybeCompact h.valid, content_maybeCompact.trans h.content, ?_, h.places⟩
  rw [← h.reserved]
  unfold StreamBuffer.maybeCompact
  split <;> rfl

theorem ensureCapacity_reserved (b : StreamBuffer) (n : Nat) :
    (b.ensureCapacity n).reserveTailAmount = b.reserveTailAmount := by
  have hroom : (b.makeRoom n).reserveTailAmount = b.reserveTailAmount := by
    unfold makeRoom
    split <;> rfl
  unfold ensureCapacity
  split
  · exact hroom
  · exact hroom

section

variable (h : b.Holds l)
include h

theorem append (data : List UInt8) : (b.append data).Holds (l.apply (.append data)) := by
  refine ⟨valid_append data h.valid, ?_, ?_, ?_⟩
  · rw [content_append data h.valid, h.content]
    simp [ByteList.apply, bytes]
  · rw [ByteList.apply, ← h.reserved]
    exact ensureCapacity_reserved b data.length
  · simpa [ByteList.apply] using h.places

theorem reserve (n : Nat) : (b.reserve alloc n).Holds l := by
  unfold StreamBuffer.reserve
  split
  · exact ⟨h.valid, h.content, h.reserved, h.places⟩
  · exact h

theorem resize (n : Nat) (value : UInt8) :
    (b.resize alloc n value).Holds (l.apply (.resize n value)) := by
  have hbytes : (l.apply (.resize n value)).cells.map Cell.byte =
      (l.cells.map Cell.byte).take n ++
        replicate (n - (l.cells.map Cell.byte).length) value := by
    simp [ByteList.apply]
  unfold StreamBuffer.resize
  rw [h.compact_buf_eq, ← hbytes]
  refine h.compact.setCells rfl ?_
  simpa [ByteList.apply] using (take_sublist n l.cells).filterMap Cell.place

theorem reserveTail {n : Nat} {written : List UInt8} (hle : written.length ≤ n) :
    ((b.reserveTail n).fillTail written).Holds (l.apply (.reserveTail n written)) := by
  obtain ⟨hcontent, hpos⟩ := ensureCapacity_spec n h.valid
  have hbuf := fillTail_buf b n written
  rw [append_assoc] at hbuf
  refine ⟨?_, ?_, rfl, ?_⟩
  · unfold Valid at hpos ⊢
    rw [hbuf, length_append]
    exact Nat.le_add_right_of_le hpos
  · calc ((b.reserveTail n).fillTail written).content
        = ((b.ensureCapacity n).buf ++ (written ++ replicate (n - written.length) 0)).drop
              (b.ensureCapacity n).readPos := by
          rw [StreamBuffer.content, hbuf]
          rfl
      _ = (b.ensureCapacity n).content ++ (written ++ replicate (n - written.length) 0) :=
          drop_append_of_le_length hpos
      _ = (l.apply (.reserveTail n written)).bytes := by
          rw [hcontent, h.content, ← bytes_block hle]
          simp [ByteList.apply, bytes]
  · simp [ByteList.apply, places_block]

/-- The bytes a commit takes off, and those it keeps, when the former are the
last ones. -/
theorem filter_keptBy {n : Nat} (hle : n ≤ l.reserved)
    (hthere : l.TailThere (.commitTail n)) :
    l.cells.filter (Cell.keptBy n) = l.cells.take (l.cells.length - (l.reserved - n)) ∧
      l.reserved - n ≤ l.cells.length := by
  obtain ⟨places, hplaces⟩ := hthere
  obtain ⟨kept, cut, hcells, hkept, hcut⟩ := map_eq_append_iff.mp hplaces.symm
  have hlength : cut.length = l.reserved - n := by
    simpa using congrArg List.length hcut
  have hsub := h.places
  have hcutPlaces : cut.filterMap Cell.place = range' n (l.reserved - n) := by
    have hmap := congrArg (List.filterMap id) hcut
    simpa [filterMap_map, Function.comp_def] using hmap
  rw [hcells, filterMap_append, hcutPlaces] at hsub
  have hfront : kept.filter (Cell.keptBy n) = kept := by
    refine filter_eq_self.mpr fun cell hcell => ?_
    simp only [Cell.keptBy, Option.all_eq_true, decide_eq_true_eq]
    intro place hplace
    have hmem : place ∈ kept.filterMap Cell.place := mem_filterMap.mpr ⟨cell, hcell, hplace⟩
    rcases Nat.eq_or_lt_of_le hle with heq | hlt
    · rw [heq]
      exact mem_range.mp (hsub.subset (mem_append_left _ hmem))
    · -- the places of a reservation are in order
      have hordered := (pairwise_lt_range (n := l.reserved)).sublist hsub
      refine (pairwise_append.mp hordered).2.2 place hmem n ?_
      exact mem_range'_1.mpr ⟨Nat.le_refl n, by omega⟩
  have hback : cut.filter (Cell.keptBy n) = [] := by
    refine filter_eq_nil_iff.mpr fun cell hcell => ?_
    have hplace : cell.place ∈ (range' n (l.reserved - n)).map some := by
      rw [← hcut]
      exact mem_map_of_mem hcell
    obtain ⟨place, hrange, hplace⟩ := mem_map.mp hplace
    have hlow := (mem_range'_1.mp hrange).1
    simp only [Cell.keptBy, ← hplace, Option.all_some, decide_eq_true_eq]
    omega
  rw [hcells, filter_append, hfront, hback, append_nil, length_append, hlength,
    Nat.add_sub_cancel, take_left]
  exact ⟨rfl, by omega⟩

theorem commitTail {n : Nat} (hle : n ≤ l.reserved) (hthere : l.TailThere (.commitTail n)) :
    (b.commitTail n).Holds (l.apply (.commitTail n)) := by
  obtain ⟨hkept, hcut⟩ := h.filter_keptBy hle hthere
  rw [← h.reserved] at hle
  rw [← h.reserved, ← h.size_eq] at hcut
  obtain ⟨hcontent, hvalid, hamount⟩ := commitTail_spec h.valid hle hcut
  refine ⟨hvalid, ?_, hamount, by simp [ByteList.apply]⟩
  rw [hcontent, h.content, h.reserved, h.size_eq, ByteList.apply, bytes, bytes, bytes_plain,
    hkept, map_take]

theorem clear : b.clear.Holds (l.apply .clear) :=
  ⟨Nat.zero_le _, content_clear b, h.reserved, nil_sublist _⟩

theorem assign (data : List UInt8) :
    (b.assign alloc data).Holds (l.apply (.assign data)) := by
  have hcells : (setBytes alloc b.clear ((plain data).map Cell.byte)).Holds
      (l.apply (.assign data)) := h.clear.setCells rfl (by simp)
  rwa [bytes_plain] at hcells

theorem insert (offset : Nat) (data : List UInt8) :
    (b.insert alloc offset data).Holds (l.apply (.insert offset data)) := by
  have hbytes : (l.apply (.insert offset data)).cells.map Cell.byte =
      (l.cells.map Cell.byte).take offset ++ data ++ (l.cells.map Cell.byte).drop offset := by
    simp [ByteList.apply]
  unfold StreamBuffer.insert
  rw [h.compact_buf_eq, ← hbytes]
  refine h.compact.setCells rfl ?_
  simp only [ByteList.apply, filterMap_append, places_plain, append_nil]
  rw [← filterMap_append, take_append_drop]

theorem consume {n : Nat} (hle : n ≤ l.cells.length) :
    (b.consume n).Holds (l.apply (.consume n)) := by
  refine ⟨valid_consume h.valid ?_, ?_, h.reserved, ?_⟩
  · rwa [h.size_eq]
  · rw [content_consume, h.content]
    simp [ByteList.apply, bytes]
  · exact ((drop_sublist n l.cells).filterMap _).trans h.places

theorem erase {first last : Nat} (hle : last ≤ l.cells.length) :
    (b.erase first last).Holds (l.apply (.erase first last)) := by
  simp only [StreamBuffer.erase, ByteList.apply]
  by_cases hempty : last ≤ first
  · rw [if_pos hempty, if_pos hempty]
    exact h.maybeCompact
  · rw [if_neg hempty, if_neg hempty]
    by_cases hfront : first = 0
    · subst hfront
      rw [if_pos rfl, take_zero, nil_append]
      exact (h.consume hle).maybeCompact
    · rw [if_neg hfront, h.compact_buf_eq]
      refine ⟨Nat.zero_le _, ?_, h.reserved, ?_⟩
      · simp [StreamBuffer.content, StreamBuffer.compact, bytes]
      · have hsub : l.cells.take first ++ l.cells.drop last <+ l.cells := by
          conv_rhs => rw [← take_append_drop first l.cells]
          exact (drop_sublist_drop_left _ (by omega)).append_left _
        exact (hsub.filterMap _).trans h.places

/-- One call on the buffer is the same call on the list. -/
theorem apply (call : Call) (hrange : l.InRange call)
    (hthere : l.TailThere call) : (b.apply alloc call).Holds (l.apply call) := by
  cases call with
  | append data => exact h.append data
  | pushBack value => exact h.append [value]
  | reserve n => exact h.reserve n
  | resize n value => exact h.resize n value
  | reserveTail n written => exact h.reserveTail hrange
  | commitTail n => exact h.commitTail hrange hthere
  | assign data => exact h.assign data
  | insert offset data => exact h.insert offset data
  | erase first last => exact h.erase hrange
  | consume n => exact h.consume hrange
  | compact => exact h.compact
  | clear => exact h.clear
  | access => exact h.maybeCompact

end

end Holds

open Machines

/-- Whatever the read position, the capacity and the vector's growth are, the
readable bytes are those of the list, after every call of a run. -/
theorem content_run_eq (alloc : Nat → Nat → Nat) (b : StreamBuffer)
    (hvalid : b.Valid) (hclosed : b.reserveTailAmount = 0) (calls : List Call)
    (hcalls : Along ByteList.apply (fun l call => l.InRange call ∧ l.TailThere call) b.view calls) :
    (final (apply alloc) b calls).content = (final ByteList.apply b.view calls).bytes ∧
      (final (apply alloc) b calls).size = (final ByteList.apply b.view calls).bytes.length := by
  have hholds : (final (apply alloc) b calls).Holds (final ByteList.apply b.view calls) :=
    final_simulates (fun c l call hrel hcond => hrel.apply call hcond.1 hcond.2)
      (holds_view hvalid hclosed) hcalls
  refine ⟨hholds.content, ?_⟩
  rw [hholds.size_eq, bytes, length_map]

namespace RefinementWitness

/-- A run through the compaction at the front and a commit of less than was
reserved, with a call in between. -/
def calls : List Call :=
  [.append [1, 2, 3], .reserveTail 4 [8, 9], .consume 2, .commitTail 1,
    .insert 1 [5, 6], .erase 0 1, .resize 4 7, .erase 1 2]

theorem content_run_eq_calls : (final (apply fun _ n => n) {} calls).content = [5, 8, 7] := by
  have hcalls : Along ByteList.apply (fun l call => l.InRange call ∧ l.TailThere call)
      ({} : StreamBuffer).view calls := by decide
  rw [(content_run_eq (fun _ n => n) {} (Nat.zero_le _) rfl calls hcalls).1]
  rfl

/-- The reserved bytes are consumed before the commit takes them off: the read
position is left behind the vector's end, and the bytes appended next are
skipped. -/
def overdrawn : List Call :=
  [.reserveTail 2 [], .consume 2, .commitTail 0, .append [7, 8, 9]]

/-- Bytes are appended behind the reserved ones: the commit takes them off
instead. -/
def overtaken : List Call :=
  [.append [1], .reserveTail 2 [], .append [7, 8], .commitTail 0]

theorem content_overdrawn :
    (Along ByteList.apply ByteList.InRange ({} : StreamBuffer).view overdrawn ∧
      (final ByteList.apply ({} : StreamBuffer).view overdrawn).bytes = [7, 8, 9] ∧
      (final (apply fun _ n => n) {} overdrawn).content = [9]) ∧
    Along ByteList.apply ByteList.InRange ({} : StreamBuffer).view overtaken ∧
      (final ByteList.apply ({} : StreamBuffer).view overtaken).bytes = [1, 7, 8] ∧
      (final (apply fun _ n => n) {} overtaken).content = [1, 0, 0] := by
  refine ⟨⟨by decide, by decide, ?_⟩, by decide, by decide, ?_⟩
  · rfl
  · rfl

end RefinementWitness

end HPActor.StreamBuffer
