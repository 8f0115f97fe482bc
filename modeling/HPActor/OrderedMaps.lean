/-
Searching ordered maps.  The first entry whose key passes a test is found in the
order of the keys, and a search from a key onwards wraps around to the first
entry of all.  A map that differs from another only by entries with one value
leads a search to that value or to where the other map leads it.

Maps are filled by owners who take their keys one after the other, so that of
two who want one key the later has it.
-/
import Mathlib.Data.List.Induction

namespace HPActor.OrderedMaps

open List

universe u v

variable {K : Type u} {V : Type v} {cmp : K → K → Ordering} (map : Std.TreeMap K V cmp)

/-- The first entry with a key that passes the test. -/
def firstWhere (test : K → Bool) : Option (K × V) :=
  map.toList.find? fun entry => test entry.1

/-- The first entry that does not come before the key. -/
def lowerBound (key : K) : Option (K × V) :=
  firstWhere map fun other => (cmp key other).isLE

/-- The first entry of all. -/
def first : Option (K × V) :=
  firstWhere map fun _ => true

/-- The value found from the key onwards, or else from the beginning. -/
def successor (key : K) : Option V :=
  ((lowerBound map key).or (first map)).map Prod.snd

/-- All the keys are given the value. -/
def assign (keys : List K) (value : V) (map : Std.TreeMap K V cmp) : Std.TreeMap K V cmp :=
  keys.foldl (fun map key => map.insert key value) map

/-- Owners take their keys one after the other. -/
def assignAll (keysOf : V → List K) (owners : List V) : Std.TreeMap K V cmp :=
  owners.foldl (fun map owner => assign (keysOf owner) owner map) ∅

/-- The second map has the first one's keys, and entries of the first one or
with the given value. -/
structure Overrides (old new : Std.TreeMap K V cmp) (value : V) : Prop where
  keeps : ∀ key : K, key ∈ old → key ∈ new
  entries : ∀ (key : K) found, new[key]? = some found → found = value ∨ old[key]? = some found

variable {keysOf : V → List K}

theorem assignAll_append (owners : List V) (last : V) :
    (assignAll keysOf (owners ++ [last]) : Std.TreeMap K V cmp) =
      assign (keysOf last) last (assignAll keysOf owners) := by
  rw [assignAll, foldl_append]
  rfl

variable [Std.TransCmp cmp] {key : K}

theorem mem_iff_exists {map : Std.TreeMap K V cmp} :
    key ∈ map ↔ ∃ value, map[key]? = some value := by
  rw [Std.TreeMap.mem_iff_isSome_getElem?, Option.isSome_iff_exists]

variable [Std.LawfulEqCmp cmp]

section

variable {map old new : Std.TreeMap K V cmp} {test : K → Bool} {value : V}

theorem firstWhere_eq_none : firstWhere map test = none ↔ ∀ key ∈ map, test key = false := by
  rw [firstWhere, find?_eq_none]
  constructor
  · intro hnone key hkey
    obtain ⟨value, hvalue⟩ := mem_iff_exists.mp hkey
    exact Bool.not_eq_true _ ▸
      hnone (key, value) (Std.TreeMap.mem_toList_iff_getElem?_eq_some.mpr hvalue)
  · intro hfails entry hentry
    rw [hfails entry.1 (mem_iff_exists.mpr
      ⟨entry.2, Std.TreeMap.mem_toList_iff_getElem?_eq_some.mp hentry⟩)]
    exact Bool.false_ne_true

variable {key : K} {found : V}

/-- What is found passes the test, and comes before all others that do. -/
theorem firstWhere_spec (hfound : firstWhere map test = some (key, found)) :
    map[key]? = some found ∧ test key = true ∧
      ∀ other ∈ map, test other = true → (cmp key other).isLE := by
  obtain ⟨htest, front, back, hlist, hfront⟩ :=
    find?_eq_some_iff_append.mp hfound
  have hsorted : map.toList.Pairwise fun a b => cmp a.1 b.1 = .lt :=
    Std.TreeMap.ordered_keys_toList
  have hmem : (key, found) ∈ map.toList := by
    rw [hlist]
    exact mem_append_right front mem_cons_self
  refine ⟨Std.TreeMap.mem_toList_iff_getElem?_eq_some.mp hmem, htest, ?_⟩
  intro other hother htestOther
  obtain ⟨value, hvalue⟩ := mem_iff_exists.mp hother
  have hentry := Std.TreeMap.mem_toList_iff_getElem?_eq_some.mpr hvalue
  rw [hlist, mem_append, mem_cons] at hentry
  rcases hentry with hentry | hentry | hentry
  · have hfails := hfront _ hentry
    rw [htestOther] at hfails
    cases hfails
  · cases hentry
    exact Std.ReflCmp.isLE_rfl
  · rw [hlist, pairwise_append, pairwise_cons] at hsorted
    have hlt := hsorted.2.1.1 _ hentry
    simp only at hlt
    rw [hlt]
    rfl

theorem firstWhere_eq_some (hentry : map[key]? = some found) (htest : test key = true)
    (hleast : ∀ other ∈ map, test other = true → (cmp key other).isLE) :
    firstWhere map test = some (key, found) := by
  cases hfirst : firstWhere map test with
  | none =>
    have hfails := firstWhere_eq_none.mp hfirst key (mem_iff_exists.mpr ⟨found, hentry⟩)
    rw [htest] at hfails
    cases hfails
  | some entry =>
    obtain ⟨hvalue, htestEntry, hleastEntry⟩ := firstWhere_spec hfirst
    have hbefore := hleast entry.1 (mem_iff_exists.mpr ⟨_, hvalue⟩) htestEntry
    have hafter := hleastEntry key (mem_iff_exists.mpr ⟨_, hentry⟩) htest
    have hkey : key = entry.1 := Std.LawfulEqCmp.eq_of_compare
      (Std.OrientedCmp.isLE_antisymm hbefore hafter)
    rw [← hkey, hentry] at hvalue
    cases hvalue
    rw [hkey]

section

variable (hover : Overrides old new value)
include hover

/-- Where the search ends in the new map, if not at the new value. -/
theorem Overrides.firstWhere_some (hfound : firstWhere new test = some (key, found)) :
    found = value ∨ firstWhere old test = some (key, found) := by
  obtain ⟨hentry, htest, hleast⟩ := firstWhere_spec hfound
  rcases hover.entries key found hentry with heq | hold
  · exact .inl heq
  · refine .inr (firstWhere_eq_some hold htest ?_)
    intro other hother
    exact hleast other (hover.keeps other hother)

theorem Overrides.firstWhere_none (hnone : firstWhere new test = none) :
    firstWhere old test = none := by
  rw [firstWhere_eq_none] at hnone ⊢
  intro key hkey
  exact hnone key (hover.keeps key hkey)

theorem Overrides.successor_eq (key : K) :
    successor new key = some value ∨ successor new key = successor old key := by
  simp only [successor]
  cases hbound : lowerBound new key with
  | some entry =>
    rcases hover.firstWhere_some hbound with heq | hold
    · exact .inl (congrArg some heq)
    · have hlower : lowerBound old key = some entry := hold
      rw [hlower]
      exact .inr rfl
  | none =>
    have hlower : lowerBound old key = none := hover.firstWhere_none hbound
    rw [hlower]
    cases hfirst : first new with
    | some entry =>
      rcases hover.firstWhere_some hfirst with heq | hold
      · exact .inl (congrArg some heq)
      · have hbegin : first old = some entry := hold
        exact .inr (by rw [hbegin])
    | none =>
      have hbegin : first old = none := hover.firstWhere_none hfirst
      exact .inr (by rw [hbegin])

end

theorem successor_of_isEmpty (hempty : map.isEmpty = true) (key : K) :
    successor map key = none := by
  have hnone : ∀ test, firstWhere map test = none := by
    intro test
    rw [firstWhere_eq_none]
    intro other hother
    exact absurd hother (Std.TreeMap.not_mem_of_isEmpty hempty)
  rw [successor, lowerBound, first, hnone, hnone]
  rfl

/-- A search in a map with a key finds a value of the map. -/
theorem successor_of_mem (hkey : key ∈ map) (start : K) :
    ∃ found, successor map start = some found ∧ ∃ other : K, map[other]? = some found := by
  have hsearch : ∃ entry, (lowerBound map start).or (first map) = some entry ∧
      map[entry.1]? = some entry.2 := by
    cases hbound : lowerBound map start with
    | some entry => exact ⟨entry, rfl, (firstWhere_spec hbound).1⟩
    | none =>
      cases hfirst : first map with
      | some entry => exact ⟨entry, rfl, (firstWhere_spec hfirst).1⟩
      | none => cases firstWhere_eq_none.mp hfirst key hkey
  obtain ⟨entry, hentry, hvalue⟩ := hsearch
  exact ⟨entry.2, by rw [successor, hentry]; rfl, entry.1, hvalue⟩

end

theorem assign_of_not_mem {keys : List K} (hkey : key ∉ keys) (value : V)
    (map : Std.TreeMap K V cmp) :
    (assign keys value map)[key]? = map[key]? := by
  induction keys generalizing map with
  | nil => rfl
  | cons head keys ih =>
    rw [mem_cons, not_or] at hkey
    rw [assign, foldl_cons, ← assign, ih hkey.2, Std.TreeMap.getElem?_insert, if_neg]
    intro heq
    exact hkey.1 (Std.LawfulEqCmp.eq_of_compare heq).symm

theorem assign_of_mem {keys : List K} (hkey : key ∈ keys) (value : V) (map : Std.TreeMap K V cmp) :
    (assign keys value map)[key]? = some value := by
  induction keys generalizing map with
  | nil => cases hkey
  | cons head keys ih =>
    rw [assign, foldl_cons, ← assign]
    by_cases htail : key ∈ keys
    · exact ih htail _
    · rcases mem_cons.mp hkey with heq | hmem
      · rw [assign_of_not_mem htail, heq, Std.TreeMap.getElem?_insert_self]
      · exact absurd hmem htail

variable {order : V → V → Ordering} [Std.TransCmp order]

/-- A key belongs to the last owner who takes it. -/
theorem assignAll_eq_some {owners : List V}
    (hsorted : owners.Pairwise fun a b => order a b = .lt) {owner : V} :
    (assignAll keysOf owners : Std.TreeMap K V cmp)[key]? = some owner ↔
      owner ∈ owners ∧ key ∈ keysOf owner ∧ ∀ other ∈ owners, key ∈ keysOf other →
          other = owner ∨ order other owner = .lt := by
  induction owners using List.reverseRecOn with
  | nil => simp [assignAll]
  | append_singleton owners last ih =>
    obtain ⟨hfront, -, hlast⟩ := pairwise_append.mp hsorted
    have hbefore : ∀ other ∈ owners, order other last = .lt := fun other h =>
      hlast other h last mem_cons_self
    rw [assignAll_append]
    by_cases hkey : key ∈ keysOf last
    · rw [assign_of_mem hkey, Option.some.injEq]
      constructor
      · rintro rfl
        refine ⟨mem_concat_self, hkey, ?_⟩
        intro other hother _
        rcases mem_append.mp hother with hmem | hmem
        · exact .inr (hbefore other hmem)
        · exact .inl (mem_singleton.mp hmem)
      · rintro ⟨hmem, -, hgreatest⟩
        rcases hgreatest last mem_concat_self hkey with heq | hlt
        · exact heq
        · -- nobody in front comes after the last one
          rcases mem_append.mp hmem with hin | hin
          · have hswap := @Std.OrientedCmp.eq_swap _ order _ last owner
            rw [hlt, hbefore owner hin] at hswap
            cases hswap
          · exact (mem_singleton.mp hin).symm
    · have hne : ∀ other, key ∈ keysOf other → other ≠ last := by
        rintro other hother rfl
        exact hkey hother
      rw [assign_of_not_mem hkey, ih hfront]
      simp only [mem_append, mem_singleton]
      constructor
      · rintro ⟨hmem, hown, hgreatest⟩
        refine ⟨.inl hmem, hown, ?_⟩
        rintro other (hother | hother) htakes
        · exact hgreatest other hother htakes
        · exact absurd hother (hne other htakes)
      · rintro ⟨hmem, hown, hgreatest⟩
        refine ⟨hmem.resolve_right (hne owner hown), hown, ?_⟩
        intro other hother
        exact hgreatest other (.inl hother)

/-- A key that somebody takes is in the map. -/
theorem mem_assignAll {owners : List V} {owner : V} (howner : owner ∈ owners)
    (hkey : key ∈ keysOf owner) :
    key ∈ (assignAll keysOf owners : Std.TreeMap K V cmp) := by
  induction owners using List.reverseRecOn with
  | nil => cases howner
  | append_singleton owners last ih =>
    rw [assignAll_append, mem_iff_exists]
    by_cases hlast : key ∈ keysOf last
    · exact ⟨last, assign_of_mem hlast last _⟩
    · rw [assign_of_not_mem hlast, ← mem_iff_exists]
      refine ih ((mem_append.mp howner).resolve_right ?_)
      intro hsingle
      exact hlast (mem_singleton.mp hsingle ▸ hkey)

variable [Std.LawfulEqCmp order] {owners few many : Std.TreeSet V order}

/-- One more owner overrides the others at most. -/
theorem overrides_of_mem {value : V} (hfew : ∀ owner : V, owner ∈ few → owner ∈ many)
    (hmany : ∀ owner : V, owner ∈ many → owner = value ∨ owner ∈ few) :
    Overrides (assignAll keysOf few.toList : Std.TreeMap K V cmp)
      (assignAll keysOf many.toList) value where
  keeps := by
    intro key hkey
    obtain ⟨owner, howner⟩ := mem_iff_exists.mp hkey
    obtain ⟨hmem, hown, -⟩ :=
      (assignAll_eq_some Std.TreeSet.ordered_toList).mp howner
    rw [Std.TreeSet.mem_toList] at hmem
    exact mem_assignAll (Std.TreeSet.mem_toList.mpr (hfew owner hmem)) hown
  entries := by
    intro key owner howner
    rw [assignAll_eq_some Std.TreeSet.ordered_toList] at howner
    obtain ⟨hmem, hown, hgreatest⟩ := howner
    rcases hmany owner (Std.TreeSet.mem_toList.mp hmem) with heq | hin
    · exact .inl heq
    · refine .inr ((assignAll_eq_some Std.TreeSet.ordered_toList).mpr
        ⟨Std.TreeSet.mem_toList.mpr hin, hown, ?_⟩)
      intro other hother
      exact hgreatest other
        (Std.TreeSet.mem_toList.mpr (hfew other (Std.TreeSet.mem_toList.mp hother)))

end HPActor.OrderedMaps
