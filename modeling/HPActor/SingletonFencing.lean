/-
Fencing tokens of singletons.  A token is copied on activation only, so it is
the current one as long as the lease of an active node does not change its
token; and a lease serves for one activation only if a node stops holding it
before it stands by again.
-/
import HPActor.SingletonManager

namespace HPActor

open Function List SingletonManagerCore LeadershipResult SingletonRecord Option

namespace FakeLeadershipBackend

variable {b : FakeLeadershipBackend} {name : String}

theorem ownedLease_congr {b b' : FakeLeadershipBackend} (hleases : b'.leases name = b.leases name) :
    b'.ownedLease name = b.ownedLease name := by
  rw [ownedLease, ownedLease, hleases]

/-- The leases after an entry was stored or taken out. -/
theorem ownedLease_update (b : FakeLeadershipBackend) (name : String) (entry : Option StoredLease)
    {b' : FakeLeadershipBackend} (hleases : b'.leases = update b.leases name entry) :
    b'.ownedLease = update b.ownedLease name (entry.bind fun stored =>
        if stored.owned then some stored.lease else none) := by
  funext other
  by_cases hother : other = name
  · subst hother
    rw [update_self, ownedLease, hleases, update_self]
    cases entry <;> rfl
  · rw [update_of_ne hother]
    apply ownedLease_congr
    rw [hleases, update_of_ne hother]

theorem ownedLease_issue (b : FakeLeadershipBackend) (name : String) (lease : LeadershipLease) :
    (b.issue name { lease := lease, owned := true }).ownedLease =
      update b.ownedLease name (some lease) :=
  ownedLease_update b name (some { lease := lease, owned := true }) rfl

theorem ownedLease_eq_some {lease : LeadershipLease} :
    b.ownedLease name = some lease ↔ ∃ stored, b.leases name = some stored ∧ stored.owned = true ∧
        stored.lease = lease := by
  rw [ownedLease]
  cases b.leases name with
  | none => simp
  | some stored => by_cases howned : stored.owned = true <;> simp [howned]

end FakeLeadershipBackend

open FakeLeadershipBackend

namespace LeadershipBackendAdapter

variable {a : LeadershipBackendAdapter} {b : FakeLeadershipBackend}
  {name : String} {stored : StoredLease}

theorem getFencingToken_remember (a : LeadershipBackendAdapter) (name : String)
    (lease : LeadershipLease) :
    (a.remember name (some lease)).getFencingToken name = lease.fencingToken := by
  simp only [getFencingToken, remember, update_self]

theorem elect_vacant (hup : ¬ b.unavailable = true)
    (hstored : b.leases name = some stored) (hvacant : ¬ stored.owned = true)
    {lease : LeadershipLease}
    (hlease : lease =
      { singletonName := name, ownerNodeId := a.selfNodeId,
        fencingToken := b.nextToken }) :
    a.elect b name = (a.remember name (some lease),
      b.issue name { lease := lease, owned := true }, some a.selfNodeId) := by
  subst hlease
  simp only [elect, tryAcquire, if_neg hup, hstored, if_neg hvacant, granted]

/-- What an election finds.  Either the node itself owns the lease, which it
may have been granted just now, or nothing has changed at the backend. -/
theorem elect_cases (a : LeadershipBackendAdapter) (b : FakeLeadershipBackend) (name : String) :
    (a.elect b name).1.selfNodeId = a.selfNodeId ∧
      (((a.elect b name).2.2 = some a.selfNodeId ∧ ∃ lease, lease.ownerNodeId = a.selfNodeId ∧
          (a.elect b name).1.getFencingToken name = lease.fencingToken ∧
          ((b.ownedLease name = some lease ∧ (a.elect b name).2.1 = b) ∨
            (b.Vacant name ∧ lease.fencingToken = b.nextToken ∧ (a.elect b name).2.1 =
                b.issue name { lease := lease, owned := true }))) ∨
        ((a.elect b name).2.2 ≠ some a.selfNodeId ∧ (a.elect b name).2.1 = b ∧
          (b.unavailable = true ∨ ∀ lease, b.ownedLease name = some lease →
            lease.ownerNodeId ≠ a.selfNodeId))) := by
  by_cases hdown : b.unavailable = true
  · rw [elect, tryAcquire, if_pos hdown]
    exact ⟨rfl, .inr ⟨some_ne_none _ |>.symm, rfl, .inl hdown⟩⟩
  cases hstored : b.leases name with
  | none =>
    rw [elect, tryAcquire, if_neg hdown, hstored]
    refine ⟨rfl, .inr ⟨some_ne_none _ |>.symm, rfl, .inr ?_⟩⟩
    intro lease hlease
    obtain ⟨stored, hsome, -⟩ := ownedLease_eq_some.mp hlease
    rw [hstored] at hsome
    cases hsome
  | some stored =>
    by_cases howned : stored.owned = true
    · have hlease : b.ownedLease name = some stored.lease :=
        ownedLease_eq_some.mpr ⟨stored, hstored, howned, rfl⟩
      -- granted again to its owner or refused to another node, the lease is
      -- remembered as it is
      rw [elect, tryAcquire, if_neg hdown, hstored]
      by_cases hself : stored.lease.ownerNodeId = a.selfNodeId
      · simp only [if_pos howned, if_pos hself, granted]
        exact ⟨rfl, .inl ⟨congrArg some hself, stored.lease, hself,
          getFencingToken_remember a name _, .inl ⟨hlease, trivial⟩⟩⟩
      · simp only [if_pos howned, if_neg hself, alreadyOwned]
        refine ⟨rfl, .inr ⟨fun heq => hself (some.inj heq), trivial, .inr ?_⟩⟩
        intro lease hother
        rw [hlease] at hother
        cases hother
        exact hself
    · rw [elect_vacant hdown hstored howned rfl]
      exact ⟨rfl, .inl ⟨rfl, _, rfl, getFencingToken_remember a name _,
        .inr ⟨⟨stored, hstored, Bool.eq_false_iff.mpr howned⟩, rfl, rfl⟩⟩⟩

end LeadershipBackendAdapter

namespace SingletonCluster

/-- One record replaced. -/
def setAt (records : String → String → Option SingletonRecord)
    (node name : String) (record : SingletonRecord) :
    String → String → Option SingletonRecord := fun n m =>
  if n = node ∧ m = name then some record else records n m

theorem setAt_self (records : String → String → Option SingletonRecord)
    (node name : String) (record : SingletonRecord) :
    setAt records node name record node name = some record :=
  if_pos ⟨rfl, rfl⟩

theorem setAt_of_ne {records : String → String → Option SingletonRecord} {node name n m : String}
    (hne : ¬ (n = node ∧ m = name)) (record : SingletonRecord) :
    setAt records node name record n m = records n m :=
  if_neg hne

/-- A record is not waiting and has the token of a lease. -/
def Uses (record : SingletonRecord) (lease : LeadershipLease) : Prop :=
  record.isWaiting = false ∧ record.identity.fencingToken = lease.fencingToken

/-- An active owner uses its lease; a token that was activated with is an
older one than the lease's, or the owner of the lease uses it. -/
structure Fenced (owned : String → Option LeadershipLease) (next : Nat)
    (records : String → String → Option SingletonRecord)
    (activations : List Activation) : Prop where
  positive : 0 < next
  issued : ∀ name lease, owned name = some lease →
    0 < lease.fencingToken ∧ lease.fencingToken < next
  current : ∀ node name record lease, records node name = some record →
    record.state = .active → owned name = some lease →
    lease.ownerNodeId = node →
    record.identity.fencingToken = lease.fencingToken
  spent : ∀ a ∈ activations, a.token < next
  older : ∀ a ∈ activations, ∀ lease, owned a.name = some lease →
    a.token < lease.fencingToken ∨ a.token = lease.fencingToken ∧
      ∃ record, records lease.ownerNodeId a.name = some record ∧ Uses record lease
  ascending : activations.Pairwise fun a b => a.name = b.name → a.token < b.token

section

variable {owned : String → Option LeadershipLease} {next : Nat}
  {records : String → String → Option SingletonRecord} {activations : List Activation}

section

variable (hs : Fenced owned next records activations)
include hs

/-- A record may change as long as an active one has the token of its lease
and one that uses its lease goes on doing so. -/
theorem Fenced.setRecord {node name : String} {record : SingletonRecord}
    (hcurrent : record.state = .active → ∀ lease, owned name = some lease →
      lease.ownerNodeId = node → record.identity.fencingToken =
      lease.fencingToken)
    (huses : ∀ old, records node name = some old → ∀ lease, owned name = some
      lease → lease.ownerNodeId = node → Uses old lease → Uses record lease) :
    Fenced owned next (setAt records node name record) activations := by
  refine { hs with current := ?_, older := ?_ }
  · intro n m other lease hother hactive hlease howner
    by_cases hat : n = node ∧ m = name
    · obtain ⟨rfl, rfl⟩ := hat
      rw [setAt_self] at hother
      cases hother
      exact hcurrent hactive lease hlease howner
    · rw [setAt_of_ne hat] at hother
      exact hs.current n m other lease hother hactive hlease howner
  · intro a ha lease hlease
    rcases hs.older a ha lease hlease with hlt | ⟨heq, old, hold, hused⟩
    · exact .inl hlt
    · refine .inr ⟨heq, ?_⟩
      by_cases hat : lease.ownerNodeId = node ∧ a.name = name
      · obtain ⟨rfl, rfl⟩ := hat
        exact ⟨record, setAt_self _ _ _ _, huses old hold lease hlease rfl hused⟩
      · exact ⟨old, by rwa [setAt_of_ne hat], hused⟩

/-- A lease is given up or taken away. -/
theorem Fenced.drop (name : String) : Fenced (update owned name none) next records activations := by
  have hkept : ∀ m lease, update owned name none m = some lease → owned m = some lease := by
    intro m lease hlease
    by_cases hm : m = name
    · subst hm
      rw [update_self] at hlease
      cases hlease
    · rwa [update_of_ne hm] at hlease
  exact
    { hs with
      issued := fun m lease hlease => hs.issued m lease (hkept m lease hlease)
      current := fun n m record lease hrecord hactive hlease =>
        hs.current n m record lease hrecord hactive (hkept m lease hlease)
      older := fun a ha lease hlease =>
        hs.older a ha lease (hkept a.name lease hlease) }

/-- A lease with a new token, whose owner is not active. -/
theorem Fenced.issue {name : String} {lease : LeadershipLease} (htoken : lease.fencingToken = next)
    (hidle : ∀ record, records lease.ownerNodeId name = some record → record.state ≠ .active) :
    Fenced (update owned name (some lease)) (next + 1) records activations where
  positive := Nat.succ_pos next
  issued := by
    intro m other hother
    by_cases hm : m = name
    · subst hm
      rw [update_self] at hother
      cases hother
      have hpos := hs.positive
      omega
    · rw [update_of_ne hm] at hother
      have hlt := hs.issued m other hother
      omega
  current := by
    intro n m record other hrecord hactive hother howner
    by_cases hm : m = name
    · subst hm
      rw [update_self] at hother
      cases hother
      rw [← howner] at hrecord
      exact absurd hactive (hidle record hrecord)
    · rw [update_of_ne hm] at hother
      exact hs.current n m record other hrecord hactive hother howner
  spent := fun a ha => Nat.lt_succ_of_lt (hs.spent a ha)
  older := by
    intro a ha other hother
    by_cases hm : a.name = name
    · rw [hm, update_self] at hother
      cases hother
      exact .inl (by rw [htoken]; exact hs.spent a ha)
    · rw [update_of_ne hm] at hother
      exact hs.older a ha other hother
  ascending := hs.ascending

/-- A waiting record becomes active under a lease of its node, which then was
used for no activation before. -/
theorem Fenced.activate {node name : String} {old record : SingletonRecord}
    {lease : LeadershipLease} (hold : records node name = some old)
    (hwaiting : old.isWaiting = true) (hlease : owned name = some lease)
    (howner : lease.ownerNodeId = node) (hactive : record.state = .active)
    (htoken : record.identity.fencingToken = lease.fencingToken) :
    Fenced owned next (setAt records node name record)
      (activations ++ [⟨name, node, record.identity.fencingToken⟩]) := by
  have hfresh : ∀ a ∈ activations, a.name = name → a.token < lease.fencingToken := by
    intro a ha hname
    rcases hs.older a ha lease (by rw [hname, hlease]) with hlt | ⟨-, other, hother, huse, -⟩
    · exact hlt
    · rw [hname, howner, hold] at hother
      cases hother
      rw [hwaiting] at huse
      cases huse
  have hset := @Fenced.setRecord _ _ _ _ hs node name record
    (fun _ other hother _ => by
      rw [hlease] at hother
      cases hother
      exact htoken)
    (fun before hbefore _ _ _ huse => by
      rw [hold] at hbefore
      cases hbefore
      rw [Uses, hwaiting] at huse
      cases huse.1)
  have hwait : record.isWaiting = false := by
    simp [isWaiting, hactive]
  exact
    { hset with
      spent := by
        intro a ha
        rcases mem_append.mp ha with hbefore | hnew
        · exact hs.spent a hbefore
        · rw [mem_singleton.mp hnew, htoken]
          exact (hs.issued name lease hlease).2
      older := by
        intro a ha other hother
        rcases mem_append.mp ha with hbefore | hnew
        · exact hset.older a hbefore other hother
        · rw [mem_singleton.mp hnew] at hother ⊢
          rw [hlease] at hother
          cases hother
          rw [howner]
          exact .inr ⟨htoken, record, setAt_self _ _ _ _, hwait, htoken⟩
      ascending := by
        rw [pairwise_append]
        refine ⟨hs.ascending, pairwise_singleton _ _, ?_⟩
        intro a ha fresh hnew hname
        rw [mem_singleton.mp hnew] at hname ⊢
        rw [htoken]
        exact hfresh a ha hname }

end

end

/-- A manager knows its node, and its table is listed. -/
structure Keeps (node : String) (manager : SingletonManagerCore) : Prop where
  selfNode : manager.selfNode = node
  selfNodeId : manager.election.selfNodeId = node
  nodup : manager.names.Nodup
  listed : ∀ name, name ∈ manager.names ↔ (manager.singletons name).isSome

structure Guarded (s : SingletonCluster) : Prop where
  keeps : ∀ node, Keeps node (s.managers node)
  fenced : Fenced s.backend.ownedLease s.backend.nextToken s.recordAt s.activations

variable {s : SingletonCluster} {node name : String}

theorem guarded_empty : Guarded {} where
  keeps := fun _ => ⟨rfl, rfl, nodup_nil, fun _ => by simp⟩
  fenced :=
    { positive := Nat.one_pos
      issued := fun _ _ hlease => by cases hlease
      current := fun _ _ _ _ hrecord => by cases hrecord
      spent := fun _ ha => (not_mem_nil ha).elim
      older := fun _ ha => (not_mem_nil ha).elim
      ascending := List.Pairwise.nil }

/-- The backend changes, the managers do not. -/
theorem Guarded.setBackend (hs : s.Guarded) {backend : FakeLeadershipBackend}
    (hfenced : Fenced backend.ownedLease backend.nextToken s.recordAt
      s.activations) : (s.setBackend backend).Guarded :=
  { hs with fenced := hfenced }

variable {manager : SingletonManagerCore}

theorem recordAt_setRecord (hmanager : manager.singletons = (s.managers node).singletons)
    (record : SingletonRecord) :
    (s.setManager node (manager.setRecord name record)).recordAt =
      setAt s.recordAt node name record := by
  funext n m
  change (update s.managers node _ n).singletons m = _
  by_cases hn : n = node
  · subst hn
    rw [update_self]
    change update manager.singletons name (some record) m = _
    by_cases hm : m = name
    · subst hm
      rw [update_self, setAt_self]
    · rw [update_of_ne hm, setAt_of_ne fun hat => hm hat.2, hmanager]
      rfl
  · rw [update_of_ne hn, setAt_of_ne fun hat => hn hat.1]
    rfl

variable {record : SingletonRecord} {s' : SingletonCluster}

/-- A manager has changed one record, and perhaps what its adapter
remembers. -/
structure Touched (s s' : SingletonCluster) (node name : String)
    (record : SingletonRecord) : Prop where
  keeps : ∀ n, Keeps n (s'.managers n)
  records : s'.recordAt = setAt s.recordAt node name record

theorem Guarded.touched (hs : s.Guarded) {old : SingletonRecord}
    (hold : s.recordAt node name = some old) {adapter : LeadershipBackendAdapter}
    (hself : adapter.selfNodeId = (s.managers node).election.selfNodeId)
    (hmanagers : s'.managers =
      update s.managers node (((s.managers node).setElection adapter).setRecord name record)) :
    Touched s s' node name record := by
  obtain ⟨hnode, hnodeId, hnodup, hlisted⟩ := hs.keeps node
  constructor
  · rw [hmanagers, forall_update_iff s.managers Keeps]
    refine ⟨⟨hnode, hself.trans hnodeId, hnodup, fun m => (hlisted m).trans ?_⟩,
      fun n _ => hs.keeps n⟩
    change _ ↔ isSome (update (s.managers node).singletons name (some record) m)
    by_cases hm : m = name
    · subst hm
      rw [update_self, ← recordAt, hold]
      exact Iff.rfl
    · rw [update_of_ne hm]
  · rw [← @recordAt_setRecord s node name ((s.managers node).setElection adapter) rfl]
    funext n m
    rw [recordAt, hmanagers]
    rfl

theorem Touched.guarded (htouched : Touched s s' node name record)
    (hfenced : Fenced s'.backend.ownedLease s'.backend.nextToken
      (setAt s.recordAt node name record) s'.activations) : s'.Guarded where
  keeps := htouched.keeps
  fenced := by
    rw [htouched.records]
    exact hfenced

/-- The activations after a record won. -/
def activationsAfter (s : SingletonCluster) (node name : String)
    (record : SingletonRecord) (token : Nat) : List Activation :=
  if record.isWaiting then
    s.activations ++ [⟨name, node, (record.win token).identity.fencingToken⟩]
  else s.activations

/-- What one iteration of `on_node_state_change` finds: the node owns a lease,
the node is granted one, or it has none and the backend is as it was. -/
inductive Elected (s : SingletonCluster) (node name : String)
    (record : SingletonRecord) (s' : SingletonCluster) :
    SingletonRecord → Prop where
  | owned (lease : LeadershipLease) (howner : lease.ownerNodeId = node)
      (hlease : s.backend.ownedLease name = some lease)
      (hbackend : s'.backend = s.backend)
      (hactivations : s'.activations = s.activationsAfter node name record lease.fencingToken) :
      Elected s node name record s' (record.win lease.fencingToken)
  | granted (lease : LeadershipLease) (howner : lease.ownerNodeId = node)
      (hvacant : s.backend.Vacant name)
      (htoken : lease.fencingToken = s.backend.nextToken)
      (hbackend : s'.backend = s.backend.issue name { lease := lease, owned := true })
      (hactivations : s'.activations = s.activationsAfter node name record lease.fencingToken) :
      Elected s node name record s' (record.win lease.fencingToken)
  | lost (hwhy : s.backend.unavailable = true ∨ ∀ lease,
        s.backend.ownedLease name = some lease → lease.ownerNodeId ≠ node)
      (hbackend : s'.backend = s.backend)
      (hactivations : s'.activations = s.activations) :
      Elected s node name record s' record.lose

theorem electOne_elected (hs : s.Guarded) (hrecord : s.recordAt node name = some record) :
    ∃ next, Touched s (electOne node s name) node name next ∧
      Elected s node name record (electOne node s name) next := by
  obtain ⟨hselfId, hcases⟩ := LeadershipBackendAdapter.elect_cases
    (s.managers node).election s.backend name
  have htouched : ∀ next, (electOne node s name).managers =
      update s.managers node (((s.managers node).setElection
        ((s.managers node).election.elect s.backend name).1).setRecord name
          next) → Touched s (electOne node s name) node name next :=
    fun next hmanagers => hs.touched hrecord hselfId hmanagers
  rw [(hs.keeps node).selfNodeId] at hcases
  rw [recordAt] at hrecord
  rcases hcases with ⟨hwin, lease, howner, htoken, hbackend⟩ | ⟨hlost, hsame, hwhy⟩
  · have hone : electOne node s name =
        { backend := ((s.managers node).election.elect s.backend name).2.1
          managers := update s.managers node (((s.managers node).setElection
              ((s.managers node).election.elect s.backend name).1).setRecord
                name (record.win lease.fencingToken))
          activations :=
            s.activationsAfter node name record lease.fencingToken } := by
      simp only [electOne, hrecord, hwin, setElection,
        (hs.keeps node).selfNode, if_true, htoken, activationsAfter]
      split <;> rfl
    refine ⟨_, htouched _ (by rw [hone]), ?_⟩
    rcases hbackend with ⟨hlease, hkept⟩ | ⟨hvacant, hnext, hissued⟩
    · exact .owned lease howner hlease (by rw [hone]; exact hkept) (by rw [hone])
    · exact .granted lease howner hvacant hnext (by rw [hone]; exact hissued) (by rw [hone])
  · have hone : electOne node s name =
        { backend := ((s.managers node).election.elect s.backend name).2.1
          managers := update s.managers node (((s.managers node).setElection
              ((s.managers node).election.elect s.backend name).1).setRecord name record.lose)
          activations := s.activations } := by
      simp only [electOne, hrecord, setElection, (hs.keeps node).selfNode, if_neg hlost]
      rfl
    exact ⟨_, htouched _ (by rw [hone]), .lost hwhy (by rw [hone]; exact hsame) (by rw [hone])⟩

variable {owned : String → Option LeadershipLease}

/-- A record that wins under a lease of its node. -/
theorem Fenced.win {next : Nat} (hs : Fenced owned next s.recordAt s.activations)
    (hrecord : s.recordAt node name = some record) {lease : LeadershipLease}
    (hlease : owned name = some lease) (howner : lease.ownerNodeId = node) :
    Fenced owned next (setAt s.recordAt node name (record.win lease.fencingToken))
      (s.activationsAfter node name record lease.fencingToken) := by
  by_cases hwaiting : record.isWaiting = true
  · rw [activationsAfter, if_pos hwaiting]
    apply hs.activate hrecord hwaiting hlease howner
    · rw [SingletonRecord.win, if_pos hwaiting]
      rfl
    · rw [SingletonRecord.win, if_pos hwaiting]
      exact if_pos (hs.issued name lease hlease).1
  · rw [activationsAfter, if_neg hwaiting, SingletonRecord.win, if_neg hwaiting]
    apply hs.setRecord
    · intro hactive other hother hnode
      exact hs.current node name record other hrecord hactive hother hnode
    · intro old hold _ _ _ huses
      rw [hrecord] at hold
      cases hold
      exact huses

theorem lose_state (record : SingletonRecord) : record.lose.state ≠ .active := by
  rw [lose]
  split
  · intro hactive
    cases hactive
  · rename_i hneither
    exact fun hactive => hneither (.inl hactive)

/-- A record that loses was not using a lease. -/
theorem Fenced.lose {next : Nat} (hs : Fenced owned next s.recordAt s.activations)
    (hrecord : s.recordAt node name = some record)
    (hnone : ∀ lease, owned name = some lease → lease.ownerNodeId = node → ¬ Uses record lease) :
    Fenced owned next (setAt s.recordAt node name record.lose) s.activations := by
  apply hs.setRecord
  · exact fun hactive => absurd hactive (lose_state record)
  · intro old hold lease hlease howner huses
    rw [hrecord] at hold
    cases hold
    exact absurd huses (hnone lease hlease howner)

/-- An active node owns the lease of its singleton and has its token. -/
def Settled (s : SingletonCluster) (node name : String) : Prop :=
  ∀ record, s.recordAt node name = some record → record.state = .active →
    ∃ lease, s.backend.ownedLease name = some lease ∧ lease.ownerNodeId = node ∧
      record.identity.fencingToken = lease.fencingToken

theorem Guarded.settled (hs : s.Guarded) {lease : LeadershipLease}
    (hlease : s.backend.ownedLease name = some lease)
    (howner : lease.ownerNodeId = node) : s.Settled node name := by
  intro record hrecord hactive
  exact ⟨lease, hlease, howner,
    hs.fenced.current node name record lease hrecord hactive hlease howner⟩

/-- A singleton that the node does not manage. -/
theorem electOne_none (hrecord : s.recordAt node name = none) : electOne node s name = s := by
  rw [recordAt] at hrecord
  simp only [electOne, hrecord]

theorem Guarded.electOne (hs : s.Guarded) (hask : s.AskWell node name) :
    (electOne node s name).Guarded ∧ (SingletonCluster.electOne node s name).Settled node name := by
  cases hrecord : s.recordAt node name with
  | none =>
    rw [electOne_none hrecord]
    refine ⟨hs, fun record hsome => ?_⟩
    rw [hrecord] at hsome
    cases hsome
  | some record =>
    obtain ⟨next, htouched, helected⟩ := electOne_elected hs hrecord
    have hnext := htouched.records
    cases helected with
    | owned lease howner hlease hbackend hactivations =>
      have hguarded := htouched.guarded (by
        rw [hbackend, hactivations]
        exact hs.fenced.win hrecord hlease howner)
      rw [← hbackend] at hlease
      exact ⟨hguarded, hguarded.settled hlease howner⟩
    | granted lease howner hvacant htoken hbackend hactivations =>
      have hidle : ∀ other, s.recordAt lease.ownerNodeId name = some other →
            other.state ≠ .active := by
        intro other hother hactive
        rw [howner] at hother
        exact hask.1 ⟨other, hother, hactive⟩ hvacant
      have hissued := hs.fenced.issue htoken hidle
      rw [← ownedLease_issue] at hissued
      have hlease : (SingletonCluster.electOne node s name).backend.ownedLease
          name = some lease := by
        rw [hbackend, ownedLease_issue, update_self]
      have hguarded := htouched.guarded (by
        rw [hactivations, hbackend]
        rw [hbackend] at hlease
        exact hissued.win hrecord hlease howner)
      exact ⟨hguarded, hguarded.settled hlease howner⟩
    | lost hwhy hbackend hactivations =>
      have hguarded := htouched.guarded (by
        rw [hbackend, hactivations]
        apply hs.fenced.lose hrecord
        rintro lease hlease howner ⟨hwaiting, htoken⟩
        rcases hwhy with hdown | hother
        · exact hask.2 hdown ⟨record, lease, hrecord, hlease, hwaiting, howner, htoken⟩
        · exact hother lease hlease howner)
      refine ⟨hguarded, fun other hother hactive => ?_⟩
      rw [hnext, setAt_self] at hother
      cases hother
      exact absurd hactive (lose_state record)

/-- An iteration leaves every other singleton alone. -/
theorem electOne_other (hs : s.Guarded) {other : String} (hother : other ≠ name) :
    (∀ n, (electOne node s name).recordAt n other = s.recordAt n other) ∧
      (electOne node s name).backend.leases other = s.backend.leases other ∧
      (electOne node s name).backend.unavailable = s.backend.unavailable := by
  cases hrecord : s.recordAt node name with
  | none =>
    rw [electOne_none hrecord]
    exact ⟨fun _ => rfl, rfl, rfl⟩
  | some record =>
    obtain ⟨next, htouched, helected⟩ := electOne_elected hs hrecord
    refine ⟨fun n => ?_, ?_⟩
    · rw [htouched.records, setAt_of_ne fun hat => hother hat.2]
    · cases helected with
      | owned lease howner hlease hbackend hactivations
      | lost hwhy hbackend hactivations =>
        rw [hbackend]
        exact ⟨rfl, rfl⟩
      | granted lease howner hvacant htoken hbackend hactivations =>
        rw [hbackend]
        exact ⟨update_of_ne hother _ _, rfl⟩

/-- What a node may find of a singleton depends on that singleton only. -/
theorem AskWell.of_same (hask : s.AskWell node name)
    (hrecord : s'.recordAt node name = s.recordAt node name)
    (hleases : s'.backend.leases name = s.backend.leases name)
    (hdown : s'.backend.unavailable = s.backend.unavailable) :
    s'.AskWell node name := by
  rw [AskWell, IsActive, Vacant, Holds, hrecord, hleases, hdown, ownedLease_congr hleases]
  exact hask

theorem Settled.of_same (hsettled : s.Settled node name)
    (hrecord : s'.recordAt node name = s.recordAt node name)
    (hleases : s'.backend.leases name = s.backend.leases name) :
    s'.Settled node name := by
  rw [Settled, hrecord, ownedLease_congr hleases]
  exact hsettled

/-- The whole loop: each singleton is settled by its own iteration and left
alone by the others. -/
theorem Guarded.electAll (hs : s.Guarded) {order : List String}
    (hnodup : order.Nodup) (hask : ∀ name ∈ order, s.AskWell node name) :
    (order.foldl (SingletonCluster.electOne node) s).Guarded ∧
      (∀ name ∈ order, (order.foldl (SingletonCluster.electOne node) s).Settled node name) ∧
      ∀ name ∉ order,
        (order.foldl (SingletonCluster.electOne node) s).recordAt node name =
          s.recordAt node name ∧
        (order.foldl (SingletonCluster.electOne node) s).backend.leases name =
          s.backend.leases name := by
  induction order generalizing s with
  | nil => exact ⟨hs, fun _ hname => (not_mem_nil hname).elim, fun _ _ => ⟨rfl, rfl⟩⟩
  | cons name rest ih =>
    obtain ⟨hnew, hrest⟩ := nodup_cons.mp hnodup
    obtain ⟨hguarded, hsettled⟩ :=
      hs.electOne (hask name mem_cons_self)
    have hkeep : ∀ other ∈ rest, (SingletonCluster.electOne node s name).AskWell node other := by
      intro other hmem
      have hne : other ≠ name := fun heq => hnew (heq ▸ hmem)
      obtain ⟨hrecord, hleases, hdown⟩ := @electOne_other s node name hs _ hne
      exact (hask other (mem_cons_of_mem name hmem)).of_same (hrecord node) hleases hdown
    obtain ⟨hall, hin, hout⟩ := ih hguarded hrest hkeep
    refine ⟨hall, fun other hmem => ?_, fun other hnot => ?_⟩
    · rcases mem_cons.mp hmem with rfl | htail
      · exact hsettled.of_same (hout other hnew).1 (hout other hnew).2
      · exact hin other htail
    · obtain ⟨hne, hnotRest⟩ := ne_and_not_mem_of_not_mem_cons hnot
      obtain ⟨hrecord, hleases, -⟩ := @electOne_other s node name hs _ hne
      obtain ⟨hsame, hkept⟩ := hout other hnotRest
      exact ⟨hsame.trans (hrecord node), hkept.trans hleases⟩

theorem setManager_same (s : SingletonCluster) (node : String) :
    s.setManager node (s.managers node) = s := by
  rw [setManager, update_eq_self]

variable {manager : SingletonManagerCore} {id : SingletonIdentity}

theorem registerSingleton_new (hrecord : manager.singletons id.name = none) :
    manager.registerSingleton id =
      { manager.setRecord id.name { identity := id } with
        names := id.name :: manager.names } := by
  rw [registerSingleton, hrecord]

theorem recordAt_registerSingleton (hrecord : s.recordAt node id.name = none) :
    (s.setManager node ((s.managers node).registerSingleton id)).recordAt =
      setAt s.recordAt node id.name { identity := id } := by
  rw [registerSingleton_new hrecord, ← recordAt_setRecord rfl]
  funext n m
  by_cases hn : n = node
  · subst hn
    simp only [recordAt, setManager, update_self]
  · simp only [recordAt, setManager, update_of_ne hn]

section

variable (hs : s.Guarded)
include hs

theorem Guarded.registerNew (hrecord : s.recordAt node id.name = none) :
    (s.setManager node ((s.managers node).registerSingleton id)).Guarded where
  keeps := by
    obtain ⟨hnode, hnodeId, hnodup, hlisted⟩ := hs.keeps node
    rw [registerSingleton_new hrecord]
    refine (forall_update_iff s.managers Keeps).mpr
      ⟨⟨hnode, hnodeId, nodup_cons.mpr ⟨?_, hnodup⟩, fun name => ?_⟩, fun n _ => hs.keeps n⟩
    · rw [hlisted, ← recordAt, hrecord]
      exact Bool.false_ne_true
    change name ∈ id.name :: _ ↔ isSome (update (s.managers node).singletons id.name _ name)
    by_cases hname : name = id.name
    · subst hname
      rw [update_self]
      exact iff_of_true mem_cons_self rfl
    · rw [update_of_ne hname, mem_cons]
      exact (or_iff_right hname).trans (hlisted name)
  fenced := by
    rw [recordAt_registerSingleton hrecord]
    apply hs.fenced.setRecord
    · intro hactive
      cases hactive
    · intro old hold
      rw [hrecord] at hold
      cases hold

theorem Guarded.registerSingleton (node : String) (id : SingletonIdentity) :
    (s.setManager node ((s.managers node).registerSingleton id)).Guarded := by
  cases hrecord : s.recordAt node id.name with
  | some record =>
    rw [recordAt] at hrecord
    rwa [SingletonManagerCore.registerSingleton, hrecord, setManager_same]
  | none => exact hs.registerNew hrecord

theorem Guarded.setState (hrecord : s.recordAt node name = some record) {state : SingletonState}
    (hfenced : Fenced s.backend.ownedLease s.backend.nextToken
      (setAt s.recordAt node name { record with state := state }) s.activations) :
    (s.setManager node ((s.managers node).setRecord name
      { record with state := state })).Guarded :=
  (hs.touched hrecord rfl rfl).guarded hfenced

theorem Guarded.beginDrain (node name : String) :
    (s.setManager node ((s.managers node).beginDrain name)).Guarded := by
  rw [SingletonManagerCore.beginDrain]
  split
  · rwa [setManager_same]
  · rename_i record hrecord
    split
    · rename_i hactive
      apply hs.setState hrecord
      apply hs.fenced.setRecord
      · intro hnot
        cases hnot
      · intro old hold lease hlease howner huses
        rw [recordAt, hrecord] at hold
        cases hold
        exact ⟨rfl, huses.2⟩
    · rwa [setManager_same]

theorem Guarded.completeDrain (hgone : ¬ s.Holds node name) :
    (s.setManager node ((s.managers node).completeDrain name)).Guarded := by
  rw [SingletonManagerCore.completeDrain]
  split
  · rwa [setManager_same]
  · rename_i record hrecord
    split
    · apply hs.setState hrecord
      apply hs.fenced.setRecord
      · intro hnot
        cases hnot
      · intro old hold lease hlease howner huses
        rw [recordAt, hrecord] at hold
        cases hold
        exact absurd ⟨record, lease, hrecord, hlease, huses.1, howner, huses.2⟩ hgone
    · rwa [setManager_same]

theorem Guarded.renew (lease : LeadershipLease)
    (hidle : ¬ s.IsActive lease.ownerNodeId lease.singletonName) :
    (s.setBackend (s.backend.renew lease).1).Guarded := by
  apply hs.setBackend
  rw [FakeLeadershipBackend.renew]
  split
  · exact hs.fenced
  · split
    · exact hs.fenced
    · rename_i stored hstored
      by_cases howned : stored.owned = true
      · by_cases howner : stored.lease.ownerNodeId = lease.ownerNodeId
        · rw [if_pos howned, if_pos howner]
          simp only [howned, ownedLease_issue]
          apply hs.fenced.issue rfl
          intro record hrecord hactive
          rw [howner] at hrecord
          exact hidle ⟨record, hrecord, hactive⟩
        · rw [if_pos howned, if_neg howner]
          exact hs.fenced
      · rw [if_neg howned]
        exact hs.fenced

theorem Guarded.release (lease : LeadershipLease) :
    (s.setBackend (s.backend.release lease).1).Guarded := by
  apply hs.setBackend
  rw [FakeLeadershipBackend.release]
  split
  · exact hs.fenced
  · split
    · exact hs.fenced
    · rename_i stored hstored
      split
      · split
        · rw [ownedLease_update s.backend lease.singletonName
            (some { stored with owned := false }) rfl]
          exact hs.fenced.drop lease.singletonName
        · exact hs.fenced
      · exact hs.fenced

theorem Guarded.step {action : Action} (hcareful : s.Careful action)
    {next : SingletonCluster} (hstep : s.step action = some next) :
    next.Guarded := by
  cases action with
  | registerSingleton node id =>
    cases hstep
    exact hs.registerSingleton node id
  | onNodeStateChange node order =>
    rw [SingletonCluster.step] at hstep
    obtain ⟨hperm, ⟨⟩⟩ := ite_none_right_eq_some.mp hstep
    exact (hs.electAll (hperm.nodup_iff.mpr (hs.keeps node).nodup) hcareful).1
  | beginDrain node name =>
    cases hstep
    exact hs.beginDrain node name
  | completeDrain node name =>
    cases hstep
    exact hs.completeDrain hcareful
  | renew lease =>
    cases hstep
    exact hs.renew lease hcareful
  | release lease =>
    cases hstep
    exact hs.release lease
  | forceGrant singletonName ownerNodeId =>
    cases hstep
    apply hs.setBackend
    rw [forceGrant, ownedLease_issue]
    apply hs.fenced.issue rfl
    exact fun record hrecord hactive => hcareful ⟨record, hrecord, hactive⟩
  | forceRevoke singletonName =>
    cases hstep
    apply hs.setBackend
    rw [ownedLease_update s.backend singletonName none rfl]
    exact hs.fenced.drop singletonName
  | simulateUnavailable unavailable =>
    cases hstep
    exact hs.setBackend hs.fenced

end

/-- After a careful run, a manager that is active after a change of the node
states owns the lease and has its token, and the tokens of a singleton's
activations rise. -/
theorem tokens_fence {actions : List Action} {before : SingletonCluster} {order : List String}
    (hcareful : Runs.EachStep step Careful {} actions)
    (hrun : Runs.run step {} actions = some before)
    (hask : before.Careful (.onNodeStateChange node order))
    (hstep : before.step (.onNodeStateChange node order) = some s) :
    (∀ name record, s.recordAt node name = some record → record.state = .active → ∃ lease,
        s.backend.ownedLease name = some lease ∧ lease.ownerNodeId = node ∧
        record.identity.fencingToken = lease.fencingToken) ∧
      s.activations.Pairwise fun a b =>
        a.name = b.name → a.token < b.token := by
  have hbefore : before.Guarded := Runs.run_invariant
    (fun _ _ _ hs hcond hnext => hs.step hcond hnext) guarded_empty hcareful hrun
  rw [SingletonCluster.step] at hstep
  obtain ⟨hperm, ⟨⟩⟩ := Option.ite_none_right_eq_some.mp hstep
  obtain ⟨hguarded, hsettled, hout⟩ :=
    hbefore.electAll (hperm.nodup_iff.mpr (hbefore.keeps node).nodup) hask
  refine ⟨fun name record hrecord hactive => ?_, hguarded.fenced.ascending⟩
  have hlisted : name ∈ order := by
    by_contra hnot
    rw [(hout name hnot).1] at hrecord
    exact hnot (hperm.mem_iff.mpr
      (((hbefore.keeps node).listed name).mpr (isSome_of_eq_some hrecord)))
  exact hsettled name hlisted record hrecord hactive

namespace FencingWitness

/-- The first node is active until its lease is revoked, and the second one
is granted the next lease. -/
def handover : List Action :=
  [.registerSingleton "n1" { name := "s" },
    .registerSingleton "n2" { name := "s" }, .forceGrant "s" "n1",
    .onNodeStateChange "n1" ["s"], .forceRevoke "s",
    .onNodeStateChange "n1" ["s"], .forceGrant "s" "n2"]

/-- The record of a node, the lease and the tokens of the activations. -/
def view (node : String) (s : SingletonCluster) :
    Option SingletonRecord × Option LeadershipLease × List Nat :=
  (s.recordAt node "s", s.backend.ownedLease "s", s.activations.map Activation.token)

theorem handover_fences : ∃ before s, Runs.run step {} handover = some before ∧
      before.step (.onNodeStateChange "n2" ["s"]) = some s ∧
      s.activations.map Activation.token = [1, 2] ∧ s.IsActive "n2" "s" ∧
      s.activations.Pairwise fun a b =>
        a.name = b.name → a.token < b.token := by
  have hview : (Runs.run step {} handover).map
      (fun before => decide (before.Careful (.onNodeStateChange "n2" ["s"])) &&
        (before.step (.onNodeStateChange "n2" ["s"])).any fun s =>
          decide (s.activations.map Activation.token = [1, 2]) &&
            decide (s.IsActive "n2" "s")) = some true := by
    decide +kernel
  obtain ⟨before, hrun, hlast⟩ := Option.map_eq_some_iff.mp hview
  rw [Bool.and_eq_true, decide_eq_true_iff, Option.any_eq_true] at hlast
  obtain ⟨hask, s, hstep, hboth⟩ := hlast
  rw [Bool.and_eq_true, decide_eq_true_iff, decide_eq_true_iff] at hboth
  exact ⟨before, s, hrun, hstep, hboth.1, hboth.2,
    (tokens_fence (by decide +kernel) hrun hask hstep).2⟩

/-- A renewal gives the lease of an active node a new token, which the node
does not take over; and a node that is drained and comes back is activated
again with the token it had. -/
theorem tokens_go_stale :
    (Runs.run step {} [.registerSingleton "n1" { name := "s" },
      .forceGrant "s" "n1", .onNodeStateChange "n1" ["s"],
      .renew ⟨"s", "n1", 1⟩, .onNodeStateChange "n1" ["s"]]).map (view "n1") =
        some (some ⟨⟨"s", 1⟩, .active⟩, some ⟨"s", "n1", 2⟩, [1]) ∧
      (Runs.run step {} [.registerSingleton "n1" { name := "s" },
        .forceGrant "s" "n1", .onNodeStateChange "n1" ["s"],
        .beginDrain "n1" "s", .completeDrain "n1" "s",
        .onNodeStateChange "n1" ["s"]]).map (view "n1") =
          some (some ⟨⟨"s", 1⟩, .active⟩, some ⟨"s", "n1", 1⟩, [1, 1]) := by
  decide +kernel

end FencingWitness

end SingletonCluster

end HPActor
