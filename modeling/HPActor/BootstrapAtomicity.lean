/-
A topology bootstrap is all or nothing as long as every actor comes with a lease
that names it.  The journal is followed beside the list of the actors that were
spawned: entry by entry it knows the plan, the id and an uncommitted lease.

An empty lease names actor zero.  The rollback of such an actor is asked for the
wrong actor, and the lease takes nothing out of the directory.
-/
import HPActor.TopologyBootstrap

namespace HPActor

open ActorDirectory List ActorSpawnLease SpawnedActor

namespace ActorSpawnLease

/-- The destructor of the lease does nothing. -/
def Spent (lease : ActorSpawnLease) : Prop :=
  lease.committed = true ∨ lease.empty = true

theorem rollback_of_spent {lease : ActorSpawnLease} (h : lease.Spent)
    (directory : ActorDirectory) : lease.rollback directory = (lease, directory) := by
  rw [rollback, if_pos (Bool.or_eq_true_iff.mpr h)]

theorem destroy_of_spent {lease : ActorSpawnLease} (h : lease.Spent)
    (directory : ActorDirectory) : lease.destroy directory = directory := by
  rw [destroy, rollback_of_spent h]

theorem spent_movedFrom (lease : ActorSpawnLease) : lease.movedFrom.Spent :=
  .inl rfl

theorem spent_rollback (lease : ActorSpawnLease) (directory : ActorDirectory) :
    (lease.rollback directory).1.Spent := by
  unfold rollback
  split
  · next h => exact Bool.or_eq_true_iff.mp h
  · exact .inl rfl

/-- Moving onto an empty lease changes nothing in the directory. -/
theorem moveAssign_empty (source : ActorSpawnLease) (directory : ActorDirectory) :
    moveAssign {} source directory = (source, directory) := by
  rw [moveAssign, rollback_of_spent (.inr rfl)]

end ActorSpawnLease

/-- The lease that comes with an actor. -/
def SpawnedActor.lease (actor : SpawnedActor) : ActorSpawnLease :=
  if actor.leased then { actorId := actor.address.id, hasDirectory := true }
  else {}

namespace BootstrapSetup

variable {setup : BootstrapSetup} {directory : ActorDirectory} {b : Bootstrap}

/-- A member of the first list has its partner in the second. -/
theorem forall₂_mem_left {α β : Type*} {R : α → β → Prop} {l : List α}
    {m : List β} (h : List.Forall₂ R l m) {a : α} (ha : a ∈ l) :
    ∃ c ∈ m, R a c := by
  induction h with
  | nil => cases ha
  | @cons first second _ _ hfirst _ ih =>
    rcases mem_cons.mp ha with rfl | ha
    · exact ⟨second, mem_cons_self, hfirst⟩
    · obtain ⟨c, hc, hac⟩ := ih ha
      exact ⟨c, mem_cons_of_mem second hc, hac⟩

/-- The journal entry of an actor that was spawned. -/
structure Journaled (setup : BootstrapSetup) (actor : SpawnedActor)
    (entry : JournalEntry) : Prop where
  planned : actor.plan ∈ setup.specs
  provided : (setup.chooseProvider actor.plan).isSome = true
  id_ne : actor.address.id ≠ 0
  lease_eq : entry.lease = actor.lease
  id_eq : entry.actorId = actor.lease.actorId
  index_eq : entry.topologyIndex = actor.plan.topologyIndex
  spawned_eq : entry.spawned = true

/-- The transaction while it spawns. -/
structure Spawning (setup : BootstrapSetup) (directory : ActorDirectory)
    (b : Bootstrap) : Prop where
  journaled : List.Forall₂ (Journaled setup) b.spawned b.journal
  no_rollbacks : b.rollbacks = []
  names_eq : b.directory.names = directory.names
  present : ∀ actor ∈ b.spawned, actor.address.id ∈ b.directory.entries

theorem publish_none_names (directory : ActorDirectory) (entry : ActorDirectoryEntry) :
    (directory.publish entry none).2.names = directory.names := by
  unfold publish
  split <;> rfl

/-- The entry is there afterwards, new or not, and so are the others. -/
theorem mem_publish_none (directory : ActorDirectory) (entry : ActorDirectoryEntry) (id : UInt64) :
    id ∈ (directory.publish entry none).2.entries ↔
      id = entry.address.id ∨ id ∈ directory.entries := by
  unfold publish
  split
  · next hthere =>
      refine ⟨.inr, ?_⟩
      rintro (rfl | hold)
      · exact hthere
      · exact hold
  · exact AList.mem_insert directory.entries

variable {plan : ConfiguredActorPlan} {actor : SpawnedActor}
  {entries : List JournalEntry} {actors : List SpawnedActor}

theorem spawnUnpublished_spec {outcome : SpawnOutcome} {lease : ActorSpawnLease}
    {next : ActorDirectory}
    (h : spawnUnpublished outcome plan directory = some (lease, next, actor)) :
    actor.plan = plan ∧ actor.address.id ≠ 0 ∧ lease = actor.lease ∧
      next = (directory.publish ⟨actor.address⟩ none).2 := by
  cases outcome with
  | failed => cases h
  | adopted address hid =>
    simp only [spawnUnpublished] at h
    split at h
    · next published hpublish =>
        cases h
        exact ⟨rfl, hid, rfl, by rw [hpublish]⟩
    · cases h
  | publishedAlready address hid =>
    cases h
    exact ⟨rfl, hid, rfl, rfl⟩

theorem Spawning.spawnOne {i : Nat} (h : Spawning setup directory b) (hplan : plan ∈ setup.specs) :
    Spawning setup directory (setup.spawnOne i plan b).2 := by
  unfold BootstrapSetup.spawnOne
  cases hprovider : setup.chooseProvider plan with
  | none => exact h
  | some provider =>
    dsimp only
    cases hspawn : spawnUnpublished (provider.spawnUnpublished i) plan b.directory with
    | none => exact h
    | some spawn =>
      obtain ⟨result, next, actor⟩ := spawn
      obtain ⟨rfl, hid, rfl, rfl⟩ := spawnUnpublished_spec hspawn
      simp only [moveAssign_empty, destroy_of_spent (spent_movedFrom _)]
      refine ⟨?_, h.no_rollbacks, (publish_none_names _ _).trans h.names_eq, ?_⟩
      · refine rel_append h.journaled (.cons ?_ .nil)
        exact ⟨hplan, by rw [hprovider]; rfl, hid, rfl, rfl, rfl, rfl⟩
      · intro other hother
        rw [mem_publish_none]
        rcases mem_append.mp hother with hold | hnew
        · exact .inr (h.present other hold)
        · rw [mem_singleton.mp hnew]
          exact .inl rfl

theorem Spawning.spawnAll {plans : List ConfiguredActorPlan} {i : Nat}
    (h : Spawning setup directory b) (hplans : plans ⊆ setup.specs) :
    Spawning setup directory (setup.spawnAll i plans b).2 := by
  induction plans generalizing i b with
  | nil => exact h
  | cons plan rest ih =>
    have hnext := h.spawnOne (i := i) (hplans mem_cons_self)
    unfold BootstrapSetup.spawnAll
    cases hround : setup.spawnOne i plan b with
    | mk goesOn next =>
      rw [hround] at hnext
      cases goesOn with
      | false => exact hnext
      | true =>
        exact ih hnext fun later hlater =>
          hplans (mem_cons_of_mem plan hlater)

/-- What is asked of the provider when the actor is rolled back. -/
def rollbackOf (actor : SpawnedActor) : RollbackCall :=
  { provider := actor.plan.provider
    actorId := actor.lease.actorId
    plan := actor.plan }

section

variable (hdistinct : (setup.specs.map (·.topologyIndex)).Nodup)
include hdistinct

/-- Distinct indices lead back to the plan itself. -/
theorem find_plan (hplan : plan ∈ setup.specs) :
    setup.specs.find? (·.topologyIndex = plan.topologyIndex) = some plan := by
  cases hfind : setup.specs.find? (·.topologyIndex = plan.topologyIndex) with
  | none =>
    have hnone := find?_eq_none.mp hfind plan hplan
    exact absurd (decide_eq_true rfl) hnone
  | some found =>
    have hindex : found.topologyIndex = plan.topologyIndex := by
      simpa using find?_some hfind
    have hmem := mem_of_find?_eq_some hfind
    rw [inj_on_of_nodup_map hdistinct hmem hplan hindex]

theorem rollbackEntry_rollbacks {entry : JournalEntry}
    (h : Journaled setup actor entry) (b : Bootstrap) :
    (setup.rollbackEntry b entry).rollbacks = b.rollbacks ++ [rollbackOf actor] := by
  obtain ⟨provider, hprovider⟩ := Option.isSome_iff_exists.mp h.provided
  simp only [rollbackEntry, h.spawned_eq, if_true, h.index_eq,
    find_plan hdistinct h.planned, hprovider, h.id_eq]
  rfl

theorem foldl_rollbacks (h : List.Forall₂ (Journaled setup) actors entries) (b : Bootstrap) :
    (entries.foldl setup.rollbackEntry b).rollbacks = b.rollbacks ++ actors.map rollbackOf := by
  induction h generalizing b with
  | nil => exact (append_nil _).symm
  | cons hentry _ ih =>
    rw [foldl_cons, ih, rollbackEntry_rollbacks hdistinct hentry, append_assoc]
    rfl

end

theorem rollbackEntry_directory (b : Bootstrap) (entry : JournalEntry) :
    (setup.rollbackEntry b entry).directory = b.directory ∨
      (setup.rollbackEntry b entry).directory = (b.directory.erase entry.lease.actorId).2 := by
  unfold rollbackEntry rollback
  split
  · dsimp only
    split
    · exact .inl rfl
    · dsimp only
      split
      · exact .inr rfl
      · exact .inl rfl
  · exact .inl rfl

/-- Nothing comes into the directory while the journal is rolled back. -/
structure Shrinks (old new : ActorDirectory) : Prop where
  entries : ∀ id, id ∈ new.entries → id ∈ old.entries
  names : ∀ name address, new.names.lookup name = some address →
    old.names.lookup name = some address

theorem Shrinks.refl (d : ActorDirectory) : Shrinks d d :=
  ⟨fun _ h => h, fun _ _ h => h⟩

theorem Shrinks.trans {first second third : ActorDirectory}
    (h : Shrinks first second) (h' : Shrinks second third) :
    Shrinks first third :=
  ⟨fun id hid => h.entries id (h'.entries id hid),
    fun name address haddress => h.names name address (h'.names name address haddress)⟩

theorem shrinks_erase (d : ActorDirectory) (id : UInt64) : Shrinks d (d.erase id).2 :=
  ⟨fun _ h => (AList.mem_erase.mp h).2,
    fun _ _ h => VersionedTable.lookup_of_lookup_filter h⟩

theorem shrinks_rollbackEntry (b : Bootstrap) (entry : JournalEntry) :
    Shrinks b.directory (setup.rollbackEntry b entry).directory := by
  rcases rollbackEntry_directory b entry with h | h
  · rw [h]
    exact .refl _
  · rw [h]
    exact shrinks_erase _ _

theorem shrinks_foldl (entries : List JournalEntry) (b : Bootstrap) :
    Shrinks b.directory (entries.foldl setup.rollbackEntry b).directory := by
  induction entries generalizing b with
  | nil => exact .refl _
  | cons entry rest ih =>
    exact (shrinks_rollbackEntry b entry).trans (ih _)

/-- The lease of an actor that has one takes it out of the directory. -/
theorem rollbackEntry_gone {entry : JournalEntry} (h : Journaled setup actor entry)
    (hleased : actor.leased = true) (b : Bootstrap) :
    actor.address.id ∉ (setup.rollbackEntry b entry).directory.entries := by
  have hlease : entry.lease =
      { actorId := actor.address.id, hasDirectory := true } := by
    rw [h.lease_eq, lease, if_pos hleased]
  have hdirectory : (setup.rollbackEntry b entry).directory =
      (b.directory.erase actor.address.id).2 := by
    simp [rollbackEntry, h.spawned_eq, hlease, rollback, empty, h.id_ne]
  rw [hdirectory]
  exact fun hmem => (AList.mem_erase.mp hmem).1 rfl

theorem foldl_gone (h : List.Forall₂ (Journaled setup) actors entries) (b : Bootstrap) :
    ∀ actor ∈ actors, actor.leased = true → actor.address.id ∉
        (entries.foldl setup.rollbackEntry b).directory.entries := by
  induction h generalizing b with
  | nil => exact fun actor hactor => absurd hactor not_mem_nil
  | cons hentry _ ih =>
    intro actor hactor hleased hmem
    rw [foldl_cons] at hmem
    rcases mem_cons.mp hactor with rfl | hrest
    · exact rollbackEntry_gone hentry hleased b ((shrinks_foldl _ _).entries _ hmem)
    · exact ih _ actor hrest hleased hmem

/-- No destructor of the journal has anything left to do. -/
def AllSpent (journal : List JournalEntry) : Prop :=
  ∀ entry ∈ journal, entry.lease.Spent

theorem foldl_destroy {journal : List JournalEntry} (h : AllSpent journal)
    (directory : ActorDirectory) :
    journal.foldl (fun directory entry => entry.lease.destroy directory) directory = directory := by
  induction journal with
  | nil => rfl
  | cons entry rest ih =>
    rw [foldl_cons, destroy_of_spent (h entry mem_cons_self)]
    exact ih fun later hlater => h later (mem_cons_of_mem entry hlater)

theorem foldl_spent (h : List.Forall₂ (Journaled setup) actors entries)
    (b : Bootstrap) (hspent : AllSpent b.journal) :
    AllSpent (entries.foldl setup.rollbackEntry b).journal := by
  induction h generalizing b with
  | nil => exact hspent
  | @cons actor entry _ _ hentry _ ih =>
    refine ih _ fun later hlater => ?_
    simp only [rollbackEntry, hentry.spawned_eq, if_true] at hlater
    rcases mem_cons.mp hlater with rfl | hlater
    · exact spent_rollback _ _
    · exact hspent later hlater

theorem rollbackAll_spawned (setup : BootstrapSetup) (b : Bootstrap) :
    (setup.rollbackAll b).spawned = b.spawned :=
  Runs.foldl_keeps Bootstrap.spawned setup.rollbackEntry
    (fun b entry => by unfold rollbackEntry; split <;> rfl)
    b.journal.reverse { b with journal := [] }

/-- The rollback an actor is owed: by its provider, with its id and plan. -/
def ownRollback (actor : SpawnedActor) : RollbackCall :=
  { provider := actor.plan.provider
    actorId := actor.address.id
    plan := actor.plan }

/-- After an error every actor was rolled back once, the last one first, and
none of them nor any new name is left in the directory. -/
structure RolledBack (directory : ActorDirectory) (b : Bootstrap) : Prop where
  rollbacks : b.rollbacks = b.spawned.reverse.map ownRollback
  gone : ∀ actor ∈ b.spawned, actor.address.id ∉ (afterDestruction b).entries
  names : ∀ name address, (afterDestruction b).names.lookup name = some address →
      directory.names.lookup name = some address

/-- After a success every lease is committed, and no rollback has run or will
run. -/
structure Committed (b : Bootstrap) : Prop where
  committed : ∀ entry ∈ b.journal, entry.lease.committed = true
  rollbacks : b.rollbacks = []
  present : ∀ actor ∈ b.spawned, actor.address.id ∈ b.directory.entries
  undisturbed : afterDestruction b = b.directory

def AllOrNothing (directory : ActorDirectory) :
    Except BootstrapError TopologyBootstrapResult × Bootstrap → Prop
  | (.error _, b) => RolledBack directory b
  | (.ok _, b) => Committed b

theorem rollbackOf_eq_iff (hid : actor.address.id ≠ 0) :
    rollbackOf actor = ownRollback actor ↔ actor.leased = true := by
  cases hleased : actor.leased with
  | true => simp [rollbackOf, ownRollback, lease, hleased]
  | false =>
    simp [rollbackOf, ownRollback, lease, hleased, Ne.symm hid]

theorem Spawning.id_ne (h : Spawning setup directory b) :
    ∀ actor ∈ b.spawned, actor.address.id ≠ 0 := by
  intro actor hactor
  obtain ⟨entry, -, hentry⟩ :=
    forall₂_mem_left h.journaled hactor
  exact hentry.id_ne

theorem fail_iff (hdistinct : (setup.specs.map (·.topologyIndex)).Nodup)
    (h : Spawning setup directory b) :
    RolledBack directory (setup.rollbackAll b) ↔ ∀ actor ∈ b.spawned, actor.leased = true := by
  have hreverse := forall₂_reverse_iff.mpr h.journaled
  have hspawned := rollbackAll_spawned setup b
  have hrollbacks : (setup.rollbackAll b).rollbacks = b.spawned.reverse.map rollbackOf := by
    rw [rollbackAll, foldl_rollbacks hdistinct hreverse]
    simp [h.no_rollbacks]
  have hafter : afterDestruction (setup.rollbackAll b) = (setup.rollbackAll b).directory :=
    foldl_destroy (foldl_spent hreverse _ fun _ hmem => by cases hmem) _
  have hshrinks : Shrinks b.directory (setup.rollbackAll b).directory :=
    shrinks_foldl b.journal.reverse { b with journal := [] }
  have hcalls : (setup.rollbackAll b).rollbacks =
      (setup.rollbackAll b).spawned.reverse.map ownRollback ↔
        ∀ actor ∈ b.spawned, actor.leased = true := by
    rw [hrollbacks, hspawned, map_inj_left]
    refine forall_congr' fun actor => ?_
    rw [mem_reverse]
    exact imp_congr_right fun hactor => rollbackOf_eq_iff (h.id_ne actor hactor)
  constructor
  · intro hback
    exact hcalls.mp hback.rollbacks
  · intro hleased
    refine ⟨hcalls.mpr hleased, ?_, ?_⟩
    · intro actor hactor
      rw [hspawned] at hactor
      rw [hafter]
      exact foldl_gone hreverse _ actor (mem_reverse.mpr hactor) (hleased actor hactor)
    · intro name address haddress
      rw [hafter] at haddress
      have hold := hshrinks.names name address haddress
      rwa [h.names_eq] at hold

/-- An empty lease cannot be committed. -/
theorem commit_committed_iff (hid : actor.address.id ≠ 0) :
    actor.lease.commit.committed = true ↔ actor.leased = true := by
  cases hleased : actor.leased with
  | true =>
    simp [lease, hleased, commit, empty, hid]
  | false =>
    simp [lease, hleased, commit, empty]

theorem succeed_iff (h : Spawning setup directory b) {named : ActorDirectory}
    (hnamed : named.entries = b.directory.entries) :
    Committed (commitAll { b with directory := named }) ↔
      ∀ actor ∈ b.spawned, actor.leased = true := by
  constructor
  · intro hcommitted actor hactor
    obtain ⟨entry, hentry, hjournaled⟩ :=
      forall₂_mem_left h.journaled hactor
    have hlease := hcommitted.committed
      { entry with lease := entry.lease.commit }
      (mem_map.mpr ⟨entry, hentry, rfl⟩)
    rw [hjournaled.lease_eq] at hlease
    exact (commit_committed_iff hjournaled.id_ne).mp hlease
  · intro hleased
    have hall : ∀ entry ∈ (commitAll { b with directory := named }).journal,
        entry.lease.committed = true := by
      intro entry hentry
      obtain ⟨old, hold, rfl⟩ := mem_map.mp hentry
      obtain ⟨actor, hactor, hjournaled⟩ :=
        forall₂_mem_left h.journaled.flip hold
      rw [hjournaled.lease_eq]
      exact (commit_committed_iff hjournaled.id_ne).mpr (hleased actor hactor)
    refine ⟨hall, h.no_rollbacks, ?_,
      foldl_destroy (fun entry hentry => .inl (hall entry hentry)) _⟩
    intro actor hactor
    rw [show (commitAll { b with directory := named }).directory.entries =
      b.directory.entries from hnamed]
    exact h.present actor hactor

theorem registered_entries {d named : ActorDirectory} {accepted : Bool} {batch : List NamedActor}
    (h : d.registerNamesAtomically batch = (accepted, named)) :
    named.entries = d.entries := by
  unfold registerNamesAtomically at h
  split at h
  · cases h
    rfl
  · cases h
    exact Runs.foldl_keeps ActorDirectory.entries bindName bindName_entries batch d

/-- Of the providers that the spawn loop comes to, none publishes its actor by
itself.  The loop ends where there is no provider, where the spawn fails, where
the directory has the actor already, and behind an actor that does not get
ready. -/
def Leased (setup : BootstrapSetup) : Nat → List ConfiguredActorPlan → ActorDirectory → Prop
  | _, [], _ => True
  | i, plan :: rest, directory =>
    match setup.chooseProvider plan with
    | none => True
    | some provider =>
      match provider.spawnUnpublished i with
      | .failed => True
      | .publishedAlready _ _ => False
      | .adopted address _ =>
        match directory.publish ⟨address⟩ none with
        | (.published, next) => provider.awaitReady i = true → Leased setup (i + 1) rest next
        | _ => True

theorem spawnAll_leased_iff (plans : List ConfiguredActorPlan) (i : Nat) (b : Bootstrap) :
    (∀ actor ∈ (setup.spawnAll i plans b).2.spawned, actor.leased = true) ↔
      (∀ actor ∈ b.spawned, actor.leased = true) ∧ setup.Leased i plans b.directory := by
  induction plans generalizing i b with
  | nil => simp [BootstrapSetup.spawnAll, Leased]
  | cons plan rest ih =>
    unfold BootstrapSetup.spawnAll BootstrapSetup.spawnOne Leased
    cases setup.chooseProvider plan with
    | none => simp
    | some provider =>
      dsimp only
      cases provider.spawnUnpublished i with
      | failed => simp [spawnUnpublished]
      | adopted address hid =>
        rcases hpublish : b.directory.publish ⟨address⟩ none with ⟨status, next⟩
        cases status with
        | published =>
          cases provider.awaitReady i <;> simp [spawnUnpublished, hpublish, moveAssign_empty,
            destroy_of_spent (spent_movedFrom _), ih, or_imp, forall_and]
        | _ => simp [spawnUnpublished, hpublish]
      | publishedAlready address hid =>
        cases provider.awaitReady i <;> simp [spawnUnpublished, ih, or_imp, forall_and]

/-- A bootstrap is all or nothing exactly if it is refused at once, or each
provider that it comes to gives a lease with its actor. -/
theorem allOrNothing_iff (setup : BootstrapSetup) (directory : ActorDirectory)
    (hdistinct : (setup.specs.map (·.topologyIndex)).Nodup) :
    AllOrNothing directory (setup.execute directory) ↔
      setup.specs.length ≠ setup.actors.length ∨ setup.Leased 0 setup.specs directory := by
  have hspawning : Spawning setup directory (setup.spawnAll 0 setup.specs { directory }).2 :=
    Spawning.spawnAll ⟨.nil, rfl, rfl, fun _ h => by cases h⟩ fun _ h => h
  have hleased := @spawnAll_leased_iff setup setup.specs 0 { directory }
  rw [and_iff_right fun _ h => by cases h] at hleased
  unfold execute
  split
  · next hcount =>
      refine iff_of_true ⟨rfl, ?_, fun _ _ h => h⟩ (.inl hcount)
      exact fun _ h => by cases h
  · next hcount =>
      rw [or_iff_right hcount, ← hleased]
      cases hall : setup.spawnAll 0 setup.specs { directory } with
      | mk goesOn b =>
        rw [hall] at hspawning
        cases goesOn with
        | false => exact fail_iff hdistinct hspawning
        | true =>
          dsimp only
          split
          · exact succeed_iff hspawning rfl
          · cases hnames : b.directory.registerNamesAtomically (namesOf b.journal) with
            | mk accepted named =>
              cases accepted with
              | false => exact fail_iff hdistinct hspawning
              | true => exact succeed_iff hspawning (registered_entries hnames)

namespace BootstrapWitness

def first : ActorAddress := { id := 7 }

def second : ActorAddress := { id := 8 }

theorem first_id : first.id ≠ 0 := by decide

theorem second_id : second.id ≠ 0 := by decide

def absent : ConfiguredActorProviderPort :=
  { installed := false
    spawnUnpublished := fun _ => .failed
    awaitReady := fun _ => false }

/-- Two external actors, of which the second does not get ready. -/
def notReady : BootstrapSetup :=
  { actors := ["one", "two"]
    specs := [{ topologyIndex := 0, provider := .external },
      { topologyIndex := 1, provider := .external }]
    cppProvider := absent
    externalProvider :=
      { spawnUnpublished := fun i =>
          if i = 0 then .adopted first first_id else .adopted second second_id
        awaitReady := fun i => i = 0 } }

theorem allOrNothing_iff_notReady :
    (notReady.execute {}).2.rollbacks.map (·.actorId) = [8, 7] ∧
      AllOrNothing {} (notReady.execute {}) :=
  ⟨by decide, (allOrNothing_iff notReady {} (by decide)).mpr (.inr fun _ _ => trivial)⟩

/-- One actor of the built-in provider. -/
def builtin : BootstrapSetup :=
  { actors := ["one"]
    specs := [{ topologyIndex := 0 }]
    cppProvider :=
      { spawnUnpublished := fun _ => .publishedAlready first first_id
        awaitReady := fun _ => true }
    externalProvider := absent }

/-- The name is refused, because the empty lease names actor zero; the rollback
is asked for actor zero, and actor seven stays in the directory. -/
theorem builtin_left_behind :
    (match (builtin.execute {}).1 with
      | .error _ => True
      | .ok _ => False) ∧
      (builtin.execute {}).2.rollbacks.map (·.actorId) = [0] ∧
      first.id ∈ (afterDestruction (builtin.execute {}).2).entries ∧
      ¬ AllOrNothing {} (builtin.execute {}) := by
  have hstays : first.id ∈ (afterDestruction (builtin.execute {}).2).entries := by
    decide
  refine ⟨trivial, by decide, hstays, fun hall => ?_⟩
  have hback : RolledBack {} (builtin.execute {}).2 := hall
  exact hback.gone { plan := { topologyIndex := 0 }, address := first, leased := false }
    (by decide) hstays

end BootstrapWitness

end BootstrapSetup

end HPActor
