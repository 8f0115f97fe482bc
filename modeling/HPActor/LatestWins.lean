/-
Replicas that keep the latest entry of every key.  An entry that arrives is kept
if its version is above that of the entry in its slot, and ignored otherwise.
When the versions of a key ascend in the order of writing, a replica that was
given every entry, in whatever order and however often, has the last one
written.
-/
import Mathlib.Data.List.Induction
import Mathlib.Data.List.Pairwise

namespace LatestWins

open List

universe u v

variable {K : Type u} {E : Type v}

section

variable (key : E → K) (version : E → Nat)

/-- What is in the slot after an entry has arrived. -/
def newer (old : Option E) (entry : E) : Option E :=
  match old with
  | some old => if version entry ≤ version old then some old else some entry
  | none => some entry

def merge [DecidableEq K] (view : K → Option E) (entry : E) : K → Option E :=
  Function.update view (key entry) (newer version (view (key entry)) entry)

def mergeAll [DecidableEq K] (entries : List E) : K → Option E :=
  entries.foldl (merge key version) fun _ => none

/-- The slot of a key holds an entry of the key that no other exceeds, or there
is none. -/
def IsLatest (entries : List E) (k : K) : Option E → Prop
  | none => ∀ entry ∈ entries, key entry ≠ k
  | some found => found ∈ entries ∧ key found = k ∧
      ∀ entry ∈ entries, key entry = k → version entry ≤ version found

/-- Later entries of a key have higher versions. -/
def Ascending (log : List E) : Prop :=
  log.Pairwise fun earlier later =>
    key earlier = key later → version earlier < version later

/-- The last entry of a key. -/
def last [DecidableEq K] (log : List E) (k : K) : Option E :=
  log.reverse.find? fun entry => key entry = k

end

variable {key : E → K} {version : E → Nat} {log entries delivered : List E} {k : K} {entry : E}

/-- An entry of another key changes nothing. -/
theorem IsLatest.append_of_ne {found : Option E}
    (hlatest : IsLatest key version entries k found) (hne : key entry ≠ k) :
    IsLatest key version (entries ++ [entry]) k found := by
  cases found with
  | none =>
    intro other hother
    rcases mem_append.mp hother with hin | hin
    · exact hlatest other hin
    · rwa [mem_singleton.mp hin]
  | some found =>
    obtain ⟨hmem, hkey, hhighest⟩ := hlatest
    refine ⟨mem_append_left _ hmem, hkey, ?_⟩
    intro other hother hsame
    rcases mem_append.mp hother with hin | hin
    · exact hhighest other hin hsame
    · exact absurd (mem_singleton.mp hin ▸ hsame) hne

/-- An entry that no other of its key exceeds is the latest. -/
theorem isLatest_append_self
    (hhighest : ∀ other ∈ entries, key other = key entry → version other ≤ version entry) :
    IsLatest key version (entries ++ [entry]) (key entry) (some entry) := by
  refine ⟨mem_concat_self, rfl, ?_⟩
  intro other hother hsame
  rcases mem_append.mp hother with hin | hin
  · exact hhighest other hin hsame
  · exact Nat.le_of_eq (congrArg version (mem_singleton.mp hin))

theorem newer_isLatest {old : Option E} (hold : IsLatest key version entries (key entry) old) :
    IsLatest key version (entries ++ [entry]) (key entry) (newer version old entry) := by
  cases old with
  | none =>
    apply isLatest_append_self
    intro other hother hsame
    exact absurd hsame (hold other hother)
  | some old =>
    obtain ⟨hmem, hkey, hhighest⟩ := hold
    by_cases hle : version entry ≤ version old
    · rw [newer, if_pos hle]
      refine ⟨mem_append_left _ hmem, hkey, ?_⟩
      intro other hother hsame
      rcases mem_append.mp hother with hin | hin
      · exact hhighest other hin hsame
      · rwa [mem_singleton.mp hin]
    · rw [newer, if_neg hle]
      apply isLatest_append_self
      intro other hother hsame
      exact Nat.le_trans (hhighest other hother hsame) (Nat.le_of_not_le hle)

/-- Two entries of one key and version are one entry. -/
theorem Ascending.eq_of_version (hlog : Ascending key version log)
    {entry entry' : E} (hentry : entry ∈ log) (hentry' : entry' ∈ log)
    (hkey : key entry = key entry') (hversion : version entry = version entry') :
    entry = entry' := by
  have hsymm : Std.Symm fun a b : E => key a = key b → version a ≠ version b :=
    ⟨fun a b hdiffer hsame heq => hdiffer hsame.symm heq.symm⟩
  have hdistinct : log.Pairwise fun a b =>
      key a = key b → version a ≠ version b :=
    hlog.imp fun hlt hsame => Nat.ne_of_lt (hlt hsame)
  by_contra hne
  exact hdistinct.forall hentry hentry' hne hkey hversion

theorem IsLatest.unique {found found' : Option E} (hfound : IsLatest key version log k found)
    (hlog : Ascending key version log)
    (hfound' : IsLatest key version log k found') : found = found' := by
  cases found with
  | none =>
    cases found' with
    | none => rfl
    | some found' => exact absurd hfound'.2.1 (hfound found' hfound'.1)
  | some found =>
    cases found' with
    | none => exact absurd hfound.2.1 (hfound' found hfound.1)
    | some found' =>
      have hkey : key found = key found' := hfound.2.1.trans hfound'.2.1.symm
      have hle := hfound'.2.2 found hfound.1 hfound.2.1
      have hge := hfound.2.2 found' hfound'.1 hfound'.2.1
      exact congrArg some (hlog.eq_of_version hfound.1 hfound'.1 hkey (Nat.le_antisymm hle hge))

theorem IsLatest.congr {found : Option E} (hfound : IsLatest key version delivered k found)
    (hsame : ∀ entry, key entry = k → (entry ∈ delivered ↔ entry ∈ log)) :
    IsLatest key version log k found := by
  cases found with
  | none =>
    intro entry hentry hkey
    exact hfound entry ((hsame entry hkey).mpr hentry) hkey
  | some found =>
    obtain ⟨hmem, hkey, hhighest⟩ := hfound
    refine ⟨(hsame found hkey).mp hmem, hkey, ?_⟩
    intro entry hentry hkeyEntry
    exact hhighest entry ((hsame entry hkeyEntry).mpr hentry) hkeyEntry

variable [DecidableEq K]

theorem mergeAll_append (entries : List E) (entry : E) :
    mergeAll key version (entries ++ [entry]) =
      merge key version (mergeAll key version entries) entry := by
  rw [mergeAll, foldl_append]
  rfl

theorem last_append (log : List E) (entry : E) (k : K) :
    last key (log ++ [entry]) k =
      if key entry = k then some entry else last key log k := by
  rw [last, reverse_append, reverse_singleton, singleton_append, find?_cons]
  by_cases hkey : key entry = k
  · simp [hkey]
  · simp [hkey, last]

/-- A replica has the latest of the entries that were given to it. -/
theorem mergeAll_isLatest (entries : List E) (k : K) :
    IsLatest key version entries k (mergeAll key version entries k) := by
  induction entries using List.reverseRecOn with
  | nil =>
    intro entry hentry
    cases hentry
  | append_singleton entries entry ih =>
    rw [mergeAll_append, merge]
    by_cases hkey : k = key entry
    · subst hkey
      rw [Function.update_self]
      exact newer_isLatest ih
    · rw [Function.update_of_ne hkey]
      exact ih.append_of_ne (Ne.symm hkey)

/-- Where versions ascend, the last entry is the latest. -/
theorem last_isLatest (hlog : Ascending key version log) (k : K) :
    IsLatest key version log k (last key log k) := by
  induction log using List.reverseRecOn with
  | nil =>
    intro entry hentry
    cases hentry
  | append_singleton log entry ih =>
    obtain ⟨hfront, -, hcross⟩ := pairwise_append.mp hlog
    rw [last_append]
    by_cases hkey : key entry = k
    · subst hkey
      rw [if_pos rfl]
      apply isLatest_append_self
      intro other hother hsame
      exact Nat.le_of_lt (hcross other hother entry mem_cons_self hsame)
    · rw [if_neg hkey]
      exact (ih hfront).append_of_ne hkey

/-- A replica that was given the entries of a key has the last one. -/
theorem mergeAll_eq_last (hlog : Ascending key version log)
    (hdelivered : ∀ entry, key entry = k → (entry ∈ delivered ↔ entry ∈ log)) :
    mergeAll key version delivered k = last key log k := by
  have hlatest : IsLatest key version log k (mergeAll key version delivered k) :=
    (mergeAll_isLatest delivered k).congr hdelivered
  exact hlatest.unique hlog (last_isLatest hlog k)

end LatestWins
