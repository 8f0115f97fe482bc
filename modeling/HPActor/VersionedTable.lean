/-
Tables whose values carry a version.  A table grows if every entry stays and
none falls back to an earlier version; single writes that respect the version
of what they overwrite are the way tables grow.
-/
import Mathlib.Data.List.AList
import Mathlib.Order.Basic

namespace VersionedTable

open AList

universe u v w

variable {K : Type u} {V : Type v} {R : Type w}

/-- The entries whose value is kept. -/
def filter (t : AList fun _ : K => V) (keep : V → Bool) : AList fun _ : K => V where
  entries := t.entries.filter fun e => keep e.2
  nodupKeys := t.nodupKeys.sublist List.filter_sublist

variable [DecidableEq K] {t t' t'' : AList fun _ : K => V} {keep : V → Bool} {k : K}

theorem lookup_filter (t : AList fun _ : K => V) (keep : V → Bool) (k : K) :
    (filter t keep).lookup k = (t.lookup k).filter keep := by
  have hentries (v : V) : (⟨k, v⟩ : Sigma fun _ : K => V) ∈ (filter t keep).entries ↔
      ⟨k, v⟩ ∈ t.entries ∧ keep v = true := List.mem_filter
  ext v
  rw [Option.filter_eq_some_iff, ← Option.mem_def, mem_lookup_iff, hentries, ← mem_lookup_iff,
    Option.mem_def]

theorem lookup_of_lookup_filter {v : V}
    (hlookup : (filter t keep).lookup k = some v) : t.lookup k = some v :=
  (Option.filter_eq_some_iff.mp ((lookup_filter t keep k).symm.trans hlookup)).1

variable [Preorder R] {version : V → R}

variable (version) in
/-- Every entry is still there, at the same version or a later one. -/
def Grows (t t' : AList fun _ : K => V) : Prop :=
  ∀ k v, t.lookup k = some v → ∃ v', t'.lookup k = some v' ∧ version v ≤ version v'

theorem Grows.refl (t : AList fun _ : K => V) : Grows version t t :=
  fun _ v hv => ⟨v, hv, le_refl _⟩

theorem Grows.trans (hfirst : Grows version t t')
    (hsecond : Grows version t' t'') : Grows version t t'' := by
  intro k v hv
  obtain ⟨v', hv', hle⟩ := hfirst k v hv
  obtain ⟨v'', hv'', hle'⟩ := hsecond k v' hv'
  exact ⟨v'', hv'', le_trans hle hle'⟩

theorem Grows.insert {new : V} (hnew : ∀ old, t.lookup k = some old → version old ≤ version new) :
    Grows version t (t.insert k new) := by
  intro j v hv
  by_cases hj : j = k
  · subst hj
    exact ⟨new, lookup_insert t, hnew v hv⟩
  · exact ⟨v, (lookup_insert_ne hj).trans hv, le_refl _⟩

theorem Grows.insert_new {new : V} (hnone : t.lookup k = none) :
    Grows version t (t.insert k new) := by
  apply Grows.insert
  intro old hold
  rw [hnone] at hold
  cases hold

/-- A write that respects the version it overwrites. -/
theorem Grows.insert_over {old new : V} (hold : t.lookup k = some old)
    (hle : version old ≤ version new) : Grows version t (t.insert k new) := by
  apply Grows.insert
  intro v hv
  rw [hold, Option.some.injEq] at hv
  rwa [← hv]

theorem Grows.foldl {A : Type*} {write : (AList fun _ : K => V) → A → AList fun _ : K => V}
    (hwrite : ∀ t a, Grows version t (write t a)) (actions : List A) (t : AList fun _ : K => V) :
    Grows version t (actions.foldl write t) := by
  induction actions generalizing t with
  | nil => exact Grows.refl t
  | cons a rest ih => exact (hwrite t a).trans (ih (write t a))

/-- Entries that are in both tables did not fall back; entries may go and
come. -/
def Keeps (version : V → R) (t t' : AList fun _ : K => V) : Prop :=
  ∀ k v v', t.lookup k = some v → t'.lookup k = some v' → version v ≤ version v'

theorem Grows.keeps (hgrows : Grows version t t') : Keeps version t t' := by
  intro k v v' hv hv'
  obtain ⟨found, hfound, hle⟩ := hgrows k v hv
  rw [hv', Option.some.injEq] at hfound
  rwa [hfound]

theorem Grows.keeps_filter (hgrows : Grows version t t') : Keeps version t (filter t' keep) :=
  fun k v v' hv hv' => hgrows.keeps k v v' hv (lookup_of_lookup_filter hv')

end VersionedTable
