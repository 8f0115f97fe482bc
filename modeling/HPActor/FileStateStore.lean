/-
`FileStateStore`: one snapshot file for each persistence id.  The next sequence number is kept in
memory only, so it starts again with every store that is opened on the directory.  The files are
those of writes that succeed.
-/
import HPActor.EventSourcing
import Mathlib.Data.List.Induction

namespace HPActor

open List SnapshotRecord

/-- The words in front of the data, and the data. -/
structure SnapshotFile where
  sequence : Nat
  schemaVersion : Nat
  checksum : UInt32
  data : List UInt8

structure FileStateStore where
  nextSequences : String → Nat := fun _ => 0
  files : String → Option SnapshotFile := fun _ => none

namespace FileStateStore

/-- The rounds over the bits of one byte. -/
def crcRounds : Nat → UInt32 → UInt32
  | 0, crc => crc
  | rounds + 1, crc => crcRounds rounds ((crc >>> 1) ^^^ (0x82F63B78 &&& -(crc &&& 1)))

def crc32c (data : List UInt8) : UInt32 :=
  data.foldl (fun crc byte => crcRounds 8 (crc ^^^ byte.toUInt32)) 0

def checksum (data : List UInt8) : UInt32 := if 0 < data.length then crc32c data else 0

/-- A store opened on the directory of another one. -/
def reopen (store : FileStateStore) : FileStateStore := { store with nextSequences := fun _ => 0 }

def writeSnapshot (store : FileStateStore) (now : Nat) (persistenceId : String)
    (schemaVersion : Nat) (data : List UInt8) : FileStateStore × SnapshotRecord :=
  let sequence := store.nextSequences persistenceId
  ({ nextSequences := Function.update store.nextSequences persistenceId (sequence + 1)
     files := Function.update store.files persistenceId
      (some ⟨sequence, schemaVersion, checksum data, data⟩) },
    { persistenceId, sequence, schemaVersion, timestampMs := now, data
      checksum := (checksum data).toNat })

def loadLatestSnapshot (store : FileStateStore) (persistenceId : String) :
    Except UInt32 SnapshotRecord :=
  match store.files persistenceId with
  | none => .error FailureReason.unknown.code
  | some file =>
    if checksum file.data ≠ file.checksum then .error FailureReason.schemaVersionMismatch.code
    else
      .ok { persistenceId, sequence := file.sequence, schemaVersion := file.schemaVersion
            data := file.data, checksum := file.checksum.toNat }

/-- The arguments of a write. -/
structure Write where
  now : Nat := 0
  schemaVersion : Nat := 1
  data : List UInt8

variable (persistenceId : String)

def runWrite (run : FileStateStore × List SnapshotRecord) (write : Write) :
    FileStateStore × List SnapshotRecord :=
  let written := run.1.writeSnapshot write.now persistenceId write.schemaVersion write.data
  (written.1, run.2 ++ [written.2])

/-- The writes from one opening of the store to the next, and the records they return. -/
def session (run : FileStateStore × List SnapshotRecord) (writes : List Write) :
    FileStateStore × List SnapshotRecord :=
  writes.foldl (runWrite persistenceId) (run.1.reopen, run.2)

def sessions (writes : List (List Write)) : FileStateStore × List SnapshotRecord :=
  writes.foldl (session persistenceId) ({}, [])

/-- What loading returns of the latest of some writes. -/
def Latest (store : FileStateStore) (last : Option Write) : Prop :=
  (store.loadLatestSnapshot persistenceId).toOption.map SnapshotRecord.data = last.map Write.data

theorem session_spec (run : FileStateStore × List SnapshotRecord) (writes : List Write)
    {last : Option Write} (hlast : Latest persistenceId run.1 last) :
    (session persistenceId run writes).2.map sequence =
        run.2.map sequence ++ range writes.length ∧
      (session persistenceId run writes).1.nextSequences persistenceId = writes.length ∧
      Latest persistenceId (session persistenceId run writes).1 (writes.getLast?.or last) := by
  induction writes using reverseRecOn with
  | nil => exact ⟨(append_nil _).symm, rfl, hlast⟩
  | append_singleton front write ih =>
    obtain ⟨hrecords, hnext, -⟩ := ih
    rw [session, foldl_append, ← session]
    refine ⟨?_, ?_, ?_⟩
    · rw [length_append, length_singleton, range_succ, ← append_assoc, ← hrecords, ← hnext]
      exact map_append
    · rw [length_append, ← hnext]
      exact Function.update_self ..
    · rw [getLast?_concat]
      simp [runWrite, Latest, loadLatestSnapshot, writeSnapshot, Except.toOption]

theorem sessions_spec (writes : List (List Write)) :
    (sessions persistenceId writes).2.map sequence =
        writes.flatMap (fun session => range session.length) ∧
      Latest persistenceId (sessions persistenceId writes).1 writes.flatten.getLast? := by
  induction writes using reverseRecOn with
  | nil => exact ⟨rfl, rfl⟩
  | append_singleton front last ih =>
    obtain ⟨hrecords, hlatest⟩ := ih
    rw [sessions, foldl_append, ← sessions]
    obtain ⟨hmore, -, hnew⟩ := session_spec persistenceId _ last hlatest
    refine ⟨?_, ?_⟩
    · rw [flatMap_append, flatMap_singleton, ← hrecords]
      exact hmore
    · rw [flatten_append, flatten_singleton, getLast?_append]
      exact hnew

/-- The latest write is always the one that is loaded.  The numbers increase exactly if no two
openings of the store are written to. -/
theorem sequences_increase_iff (writes : List (List Write)) :
    (((sessions persistenceId writes).2.map SnapshotRecord.sequence).Pairwise (· < ·) ↔
        writes.Pairwise fun earlier later => earlier = [] ∨ later = []) ∧
      Latest persistenceId (sessions persistenceId writes).1 writes.flatten.getLast? := by
  obtain ⟨hrecords, hlatest⟩ := sessions_spec persistenceId writes
  refine ⟨?_, hlatest⟩
  rw [hrecords, pairwise_flatMap, and_iff_right fun session _ => pairwise_lt_range]
  refine Pairwise.iff fun earlier later => ⟨fun hless => ?_, ?_⟩
  · -- both would begin with number 0
    by_contra! hboth
    have hfirst : ∀ {session : List Write}, session ≠ [] → 0 ∈ range session.length :=
      fun hne => mem_range.mpr (length_pos_iff.mpr hne)
    exact Nat.lt_irrefl 0 (hless 0 (hfirst hboth.1) 0 (hfirst hboth.2))
  · rintro (rfl | rfl)
    · exact fun x hx => absurd hx not_mem_nil
    · exact fun _ _ y hy => absurd hy not_mem_nil

/-- Two writes with the store opened again between them. -/
theorem sequence_starts_again :
    ¬ ((sessions "a" [[⟨0, 1, [1]⟩], [⟨0, 1, [2]⟩]]).2.map SnapshotRecord.sequence).Pairwise
      (· < ·) := by
  decide

end FileStateStore

end HPActor
