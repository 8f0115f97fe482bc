/-
`ActorDirectory`: the actors of a runtime by id, the names bound to addresses,
and the port through which bindings are announced to the cluster.  The calls made
through the port are kept in the order in which they were made.
-/
import HPActor.Machines
import HPActor.Message
import HPActor.VersionedTable

namespace HPActor

open Option AList List

/-- An entry, reduced to the handle that the directory itself reads. -/
structure ActorDirectoryEntry where
  address : ActorAddress
deriving Repr, DecidableEq

/-- Which of the two callbacks are installed. -/
structure NameRegistrationPort where
  onRegister : Bool := false
  onUnregister : Bool := false

def NameRegistrationPort.active (port : NameRegistrationPort) : Bool :=
  port.onRegister && port.onUnregister

inductive PortCall where
  | register (name : String) (address : ActorAddress) (generation : UInt64)
  | unregister (name : String)
deriving Repr, DecidableEq

structure ActorDirectory where
  entries : AList fun _ : UInt64 => ActorDirectoryEntry := ∅
  names : AList fun _ : String => ActorAddress := ∅
  nameRegPort : NameRegistrationPort := {}
  portCalls : List PortCall := []

namespace ActorDirectory

inductive PublishStatus where
  | published
  | duplicateActorId
  | duplicateName
deriving Repr, DecidableEq

structure NamedActor where
  name : String
  actor : UInt64

/-- `std::unordered_map::emplace`: an entry that is there stays. -/
def emplace (names : AList fun _ : String => ActorAddress) (name : String)
    (address : ActorAddress) : AList fun _ : String => ActorAddress :=
  if name ∈ names then names else names.insert name address

def announce (d : ActorDirectory) (name : String) (address : ActorAddress) : ActorDirectory :=
  if d.nameRegPort.onRegister then
    { d with portCalls := d.portCalls ++ [.register name address 0] }
  else d

def publish (d : ActorDirectory) (entry : ActorDirectoryEntry)
    (name : Option String) : PublishStatus × ActorDirectory :=
  if entry.address.id ∈ d.entries then (.duplicateActorId, d)
  else
    match name with
    | none =>
      (.published,
        { d with entries := d.entries.insert entry.address.id entry })
    | some name =>
      if name ∈ d.names then (.duplicateName, d)
      else
        (.published, announce
            { d with
              entries := d.entries.insert entry.address.id entry
              names := emplace d.names name entry.address }
            name entry.address)

def insert (d : ActorDirectory) (entry : ActorDirectoryEntry) : Bool × ActorDirectory :=
  (decide ((d.publish entry none).1 = .published), (d.publish entry none).2)

def find (d : ActorDirectory) (id : UInt64) : Option ActorDirectoryEntry :=
  d.entries.lookup id

/-- What the first loop over the batch returns at. -/
def Refused (d : ActorDirectory) (item : NamedActor) : Prop :=
  item.name ∈ d.names ∨ item.actor ∉ d.entries

instance (d : ActorDirectory) (item : NamedActor) :
    Decidable (d.Refused item) := inferInstanceAs (Decidable (_ ∨ _))

/-- One round of the second loop.  The actor is there by the first loop. -/
def bindName (d : ActorDirectory) (item : NamedActor) : ActorDirectory :=
  match d.entries.lookup item.actor with
  | some entry => { d with names := emplace d.names item.name entry.address }
  | none => d

def registerNamesAtomically (d : ActorDirectory) (batch : List NamedActor) :
    Bool × ActorDirectory :=
  if ∃ item ∈ batch, d.Refused item then (false, d)
  else (true, batch.foldl bindName d)

def registerName (d : ActorDirectory) (name : String) (address : ActorAddress) :
    Bool × ActorDirectory :=
  if name ∈ d.names then (false, d)
  else
    (true, announce { d with names := emplace d.names name address } name address)

def unregisterName (d : ActorDirectory) (name : String) : Bool × ActorDirectory :=
  (decide (name ∈ d.names), { d with names := d.names.erase name })

def resolveName (d : ActorDirectory) (name : String) : Option ActorAddress :=
  d.names.lookup name

/-- The names bound to the actor, as the loop of `erase` meets them. -/
def namesOf (d : ActorDirectory) (id : UInt64) : List String :=
  (d.names.entries.filter fun entry => entry.2.id = id).map (·.1)

def erase (d : ActorDirectory) (id : UInt64) : Bool × ActorDirectory :=
  (decide (id ∈ d.entries),
    { d with
      entries := d.entries.erase id
      names := VersionedTable.filter d.names fun address => address.id ≠ id
      portCalls := d.portCalls ++
        if d.nameRegPort.onUnregister then
          (d.namesOf id).map .unregister
        else [] })

@[simp] theorem announce_names (d : ActorDirectory) (name : String)
    (address : ActorAddress) : (d.announce name address).names = d.names := by
  unfold announce
  split <;> rfl

@[simp] theorem announce_port (d : ActorDirectory) (name : String) (address : ActorAddress) :
    (d.announce name address).nameRegPort = d.nameRegPort := by
  unfold announce
  split <;> rfl

variable {d : ActorDirectory} {name : String}

theorem announce_portCalls (hport : d.nameRegPort.onRegister = true)
    (name : String) (address : ActorAddress) :
    (d.announce name address).portCalls = d.portCalls ++ [.register name address 0] := by
  rw [announce, if_pos hport]

section

variable (d : ActorDirectory) (item : NamedActor)

@[simp] theorem bindName_entries : (d.bindName item).entries = d.entries := by
  unfold bindName
  split <;> rfl

@[simp] theorem bindName_port : (d.bindName item).nameRegPort = d.nameRegPort := by
  unfold bindName
  split <;> rfl

@[simp] theorem bindName_portCalls : (d.bindName item).portCalls = d.portCalls := by
  unfold bindName
  split <;> rfl

theorem mem_emplace {names : AList fun _ : String => ActorAddress}
    {other : String} {address : ActorAddress} :
    other ∈ emplace names name address ↔ other = name ∨ other ∈ names := by
  unfold emplace
  split
  · next hmem =>
      constructor
      · exact .inr
      · rintro (rfl | hother)
        · exact hmem
        · exact hother
  · exact mem_insert names

/-- The address that the directory has for an item's actor. -/
def addressFor : Option ActorAddress :=
  (d.find item.actor).map ActorDirectoryEntry.address

end

theorem lookup_emplace (names : AList fun _ : String => ActorAddress)
    (name other : String) (address : ActorAddress) :
    (emplace names name address).lookup other =
      (names.lookup other).or (if other = name then some address else none) := by
  unfold emplace
  by_cases hother : other = name
  · subst hother
    split
    · next hmem =>
        obtain ⟨old, hold⟩ := isSome_iff_exists.mp (lookup_isSome.mpr hmem)
        simp [hold]
    · next hmem => simp [lookup_eq_none.mpr hmem]
  · split
    · simp
    · simp [lookup_insert_ne hother]

/-- The second loop leaves a name with the address it had, or with that of the
first item of the batch that has the name. -/
theorem lookup_foldl_bindName {batch : List NamedActor}
    (hactors : ∀ item ∈ batch, item.actor ∈ d.entries) :
    (batch.foldl bindName d).names.lookup name = (d.names.lookup name).or
        ((batch.find? fun item => item.name = name).bind d.addressFor) := by
  induction batch generalizing d with
  | nil => simp
  | cons item rest ih =>
    obtain ⟨entry, hentry⟩ := isSome_iff_exists.mp (lookup_isSome.mpr (hactors item mem_cons_self))
    have hrest : ∀ later ∈ rest, later.actor ∈ (d.bindName item).entries := by
      intro later hlater
      rw [bindName_entries]
      exact hactors later (mem_cons_of_mem item hlater)
    have haddress : (d.bindName item).addressFor = d.addressFor := by
      funext later
      rw [addressFor, addressFor, find, find, bindName_entries]
    have hnames : (d.bindName item).names = emplace d.names item.name entry.address := by
      rw [bindName, hentry]
    rw [foldl_cons, ih hrest, haddress, hnames, lookup_emplace, Option.or_assoc]
    congr 1
    by_cases hname : item.name = name
    · simp [hname, addressFor, find, hentry]
    · simp [hname, Ne.symm hname]

/-- A batch whose actors are all there binds its names. -/
theorem mem_foldl_bindName {batch : List NamedActor}
    (hactors : ∀ item ∈ batch, item.actor ∈ d.entries) :
    name ∈ (batch.foldl bindName d).names ↔
      (∃ item ∈ batch, item.name = name) ∨ name ∈ d.names := by
  have hbound : ((batch.find? fun item => item.name = name).bind
      d.addressFor).isSome ↔ ∃ item ∈ batch, item.name = name := by
    cases hfirst : batch.find? fun item => item.name = name with
    | none => simpa using hfirst
    | some first =>
      have hfound : (d.find first.actor).isSome :=
        lookup_isSome.mpr (hactors first (mem_of_find?_eq_some hfirst))
      refine iff_of_true ?_ ⟨first, mem_of_find?_eq_some hfirst, by simpa using find?_some hfirst⟩
      rwa [bind_some, addressFor, isSome_map]
  rw [← lookup_isSome, lookup_foldl_bindName hactors, isSome_or,
    Bool.or_eq_true, hbound, lookup_isSome, or_comm]

theorem mem_namesOf {id : UInt64} :
    name ∈ d.namesOf id ↔ ∃ address, d.names.lookup name = some address ∧ address.id = id := by
  simp only [namesOf, List.mem_map, mem_filter, decide_eq_true_eq]
  constructor
  · rintro ⟨⟨key, address⟩, ⟨hmem, hid⟩, rfl⟩
    exact ⟨address, mem_lookup_iff.mpr hmem, hid⟩
  · rintro ⟨address, hlookup, hid⟩
    exact ⟨⟨name, address⟩, ⟨mem_lookup_iff.mp hlookup, hid⟩, rfl⟩

/-- The names that an erasure leaves. -/
theorem mem_erase_names {id : UInt64} :
    name ∈ (d.erase id).2.names ↔ name ∈ d.names ∧ name ∉ d.namesOf id := by
  have hkept : ∀ address, (d.erase id).2.names.lookup name = some address ↔
      d.names.lookup name = some address ∧ address.id ≠ id := by
    intro address
    have hmem : (⟨name, address⟩ : Sigma fun _ : String => ActorAddress) ∈
        (d.erase id).2.names.entries ↔ ⟨name, address⟩ ∈ d.names.entries ∧ address.id ≠ id := by
      simp [erase, VersionedTable.filter]
    rw [← mem_lookup_iff, ← mem_lookup_iff] at hmem
    exact hmem
  rw [← lookup_isSome, ← lookup_isSome, isSome_iff_exists, isSome_iff_exists]
  constructor
  · rintro ⟨address, haddress⟩
    obtain ⟨hlookup, hid⟩ := (hkept address).mp haddress
    refine ⟨⟨address, hlookup⟩, fun hof => ?_⟩
    obtain ⟨other, hother, hotherId⟩ := mem_namesOf.mp hof
    rw [hlookup, some.injEq] at hother
    exact hid (hother ▸ hotherId)
  · rintro ⟨⟨address, hlookup⟩, hnot⟩
    exact ⟨address, (hkept address).mpr ⟨hlookup, fun hid =>
      hnot (mem_namesOf.mpr ⟨address, hlookup, hid⟩)⟩⟩

/-- A refused batch leaves the names alone.  After an accepted one every name
resolves to the actor given with it exactly if the batch does not give one name
to actors of different addresses. -/
theorem registerNamesAtomically_resolves_iff (d : ActorDirectory) (batch : List NamedActor) :
    ((d.registerNamesAtomically batch).1 = false →
      (d.registerNamesAtomically batch).2.names = d.names) ∧
    ((d.registerNamesAtomically batch).1 = true →
      ((∀ item ∈ batch, ∃ entry, d.find item.actor = some entry ∧
          (d.registerNamesAtomically batch).2.resolveName item.name = some entry.address) ↔
        ∀ item ∈ batch, ∀ other ∈ batch, item.name = other.name →
          d.addressFor item = d.addressFor other)) := by
  unfold registerNamesAtomically
  split
  · exact ⟨fun _ => rfl, fun htrue => absurd htrue Bool.false_ne_true⟩
  · next hfree =>
    refine ⟨fun hfalse => absurd hfalse.symm Bool.false_ne_true, fun _ => ?_⟩
    have hactors : ∀ item ∈ batch, item.actor ∈ d.entries := fun item hitem =>
      not_not.mp fun hnot => hfree ⟨item, hitem, .inr hnot⟩
    -- no name of the batch was bound before, so the first item decides
    have hresolve : ∀ item ∈ batch, ∃ first ∈ batch, first.name = item.name ∧
        (batch.foldl bindName d).resolveName item.name = d.addressFor first := by
      intro item hitem
      have hnew : d.names.lookup item.name = none :=
        AList.lookup_eq_none.mpr fun hmem => hfree ⟨item, hitem, .inl hmem⟩
      obtain ⟨first, hfirst⟩ := isSome_iff_exists.mp
        (List.find?_isSome (p := fun other => other.name = item.name).mpr ⟨item, hitem, by simp⟩)
      refine ⟨first, List.mem_of_find?_eq_some hfirst, by simpa using List.find?_some hfirst, ?_⟩
      rw [resolveName, lookup_foldl_bindName hactors, hnew, hfirst]
      rfl
    constructor
    · intro hall item hitem other hother hname
      obtain ⟨entry, hfound, hto⟩ := hall item hitem
      obtain ⟨entry', hfound', hto'⟩ := hall other hother
      rw [hname, hto'] at hto
      rw [addressFor, addressFor, hfound, hfound']
      exact hto.symm
    · intro hsame item hitem
      obtain ⟨entry, hfound⟩ := isSome_iff_exists.mp (AList.lookup_isSome.mpr (hactors item hitem))
      obtain ⟨first, hfirst, hname, hto⟩ := hresolve item hitem
      refine ⟨entry, hfound, ?_⟩
      rw [hto, hsame first hfirst item hitem hname, addressFor, find, hfound]
      rfl

/-- Two actors under one name: the call answers true and the name resolves to
the first of them. -/
theorem registerNamesAtomically_repeated_name :
    let first : ActorDirectoryEntry := ⟨{ id := 1 }⟩
    let second : ActorDirectoryEntry := ⟨{ id := 2 }⟩
    let d : ActorDirectory :=
      { entries := (AList.insert 1 first ∅).insert 2 second }
    let result := d.registerNamesAtomically [⟨"worker", 1⟩, ⟨"worker", 2⟩]
    result.1 = true ∧ d.find 2 = some second ∧
      result.2.resolveName "worker" = some first.address := by
  decide +kernel

end ActorDirectory

end HPActor
