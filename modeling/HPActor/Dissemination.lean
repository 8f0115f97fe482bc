/-
Nodes that spread what they write.  A node keeps the entries it has made until
they are drained; what was drained is on its way to the other nodes and may
reach them in any order and repeatedly.  If nodes keep the latest entry of every
slot, and those of a node ascend, then once everything has arrived the view of a
node is the last entry that each of the others has made.

The operations and the state of a node are parameters, with the few facts about
them that the argument needs.
-/
import HPActor.LatestWins
import HPActor.Runs
import Mathlib.Data.Finset.Basic

namespace Dissemination

open LatestWins Function List

universe u v w x y

variable {N : Type u} {C : Type v} {L : Type w} {E : Type x} {K : Type y}

/-- What a node can do. -/
structure Node (C : Type v) (L : Type w) (E : Type x) where
  call : C → L → C
  drain : C → List E × C
  merge : C → E → C

/-- The nodes, and all that was drained so far. -/
structure System (N : Type u) (C : Type v) (E : Type x) where
  cores : N → C
  sent : List E := []

inductive Action (N : Type u) (L : Type w) (E : Type x) where
  | call (node : N) (request : L)
  | drain (node : N)
  | merge (node : N) (entry : E)
deriving Repr, DecidableEq

section

variable [DecidableEq N]

/-- Only what was drained can be merged, and not by the node that made it. -/
def step [DecidableEq E] (node : Node C L E) (origin : E → N)
    (members : Finset N) (s : System N C E) :
    Action N L E → Option (System N C E)
  | .call n request =>
    if n ∈ members then
      some { s with
        cores := update s.cores n (node.call (s.cores n) request) }
    else none
  | .drain n =>
    if n ∈ members then
      some {
        cores := update s.cores n (node.drain (s.cores n)).2
        sent := s.sent ++ (node.drain (s.cores n)).1 }
    else none
  | .merge n entry =>
    if n ∈ members ∧ entry ∈ s.sent ∧ origin entry ≠ n then
      some { s with
        cores := update s.cores n (node.merge (s.cores n) entry) }
    else none

/-- What an action does to the state of one node. -/
def act (node : Node C L E) (m : N) : Action N L E → C → C
  | .call n request, core => if n = m then node.call core request else core
  | .drain n, core => if n = m then (node.drain core).2 else core
  | .merge n entry, core => if n = m then node.merge core entry else core

/-- The state of a node after what it was asked for in an action. -/
def asked (node : Node C L E) (m : N) : Action N L E → C → C
  | .call n request, core => if n = m then node.call core request else core
  | _, core => core

/-- The entry that a node merges in an action. -/
def mergedBy (n : N) : Action N L E → Option E
  | .merge node entry => if node = n then some entry else none
  | _ => none

def mergesAt (actions : List (Action N L E)) (n : N) : List E :=
  actions.filterMap (mergedBy n)

end

/-- Nothing is waiting to be drained, and the others have merged everything. -/
def Settled (dirty : C → List E) (origin : E → N) (members : Finset N)
    (actions : List (Action N L E)) (s : System N C E) : Prop :=
  (∀ n ∈ members, dirty (s.cores n) = []) ∧
    ∀ entry ∈ s.sent, ∀ n ∈ members, n ≠ origin entry → .merge n entry ∈ actions

/-- The state of a node has a list of entries to be drained and a view of the
others' entries.  `Tracks` says what the state of a node has to do with the
entries that the node has made. -/
structure Gossip (node : Node C L E) (origin : E → N) (slot : E → K)
    (version : E → Nat) [DecidableEq K] where
  dirty : C → List E
  view : C → K → Option E
  Tracks : N → C → List E → Prop
  tracks_origin : ∀ n c log, Tracks n c log → ∀ entry ∈ log, origin entry = n
  tracks_ascending : ∀ n c log, Tracks n c log → Ascending slot version log
  tracks_call : ∀ n c log request, Tracks n c log →
    ∃ new, dirty (node.call c request) = dirty c ++ new ∧
      Tracks n (node.call c request) (log ++ new)
  tracks_drain : ∀ n c log, Tracks n c log → Tracks n (node.drain c).2 log
  tracks_merge : ∀ n c log entry, Tracks n c log → Tracks n (node.merge c entry) log
  drained : ∀ c, (node.drain c).1 = dirty c
  dirty_drain : ∀ c, dirty (node.drain c).2 = []
  dirty_merge : ∀ c entry, dirty (node.merge c entry) = dirty c
  view_call : ∀ c request, view (node.call c request) = view c
  view_drain : ∀ c, view (node.drain c).2 = view c
  view_merge : ∀ c entry, view (node.merge c entry) = merge slot version (view c) entry

variable [DecidableEq N] [DecidableEq K] {node : Node C L E} {origin : E → N} {slot : E → K}
  {version : E → Nat} {members : Finset N} {s t : System N C E} {n : N}

theorem update_apply_of (core : N → C) (n m : N) (change : C → C) :
    update core n (change (core n)) m =
      if n = m then change (core m) else core m := by
  by_cases heq : n = m
  · subst heq
    rw [update_self, if_pos rfl]
  · rw [update_of_ne (Ne.symm heq), if_neg heq]

theorem step_cores [DecidableEq E] {action : Action N L E}
    (hstep : step node origin members s action = some t) (m : N) :
    t.cores m = act node m action (s.cores m) := by
  cases action with
  | call n request =>
    rw [step, Option.ite_none_right_eq_some] at hstep
    cases hstep.2
    exact update_apply_of s.cores n m fun core => node.call core request
  | drain n =>
    rw [step, Option.ite_none_right_eq_some] at hstep
    cases hstep.2
    exact update_apply_of s.cores n m fun core => (node.drain core).2
  | merge n entry =>
    rw [step, Option.ite_none_right_eq_some] at hstep
    cases hstep.2
    exact update_apply_of s.cores n m fun core => node.merge core entry

namespace Gossip

/-- All entries of a node, drained or not. -/
def log (gossip : Gossip node origin slot version) (s : System N C E) (n : N) : List E :=
  s.sent.filter (fun entry => origin entry = n) ++ gossip.dirty (s.cores n)

structure Inv (gossip : Gossip node origin slot version) (members : Finset N)
    (actions : List (Action N L E)) (s : System N C E) : Prop where
  tracks : ∀ n ∈ members, gossip.Tracks n (s.cores n) (gossip.log s n)
  view : ∀ n ∈ members, gossip.view (s.cores n) = mergeAll slot version (mergesAt actions n)
  merged : ∀ n, ∀ entry ∈ mergesAt actions n, entry ∈ s.sent ∧ origin entry ≠ n
  origins : ∀ entry ∈ s.sent, origin entry ∈ members

variable {gossip : Gossip node origin slot version} {actions : List (Action N L E)}

theorem mergesAt_append (actions : List (Action N L E)) (action : Action N L E) (n : N) :
    mergesAt (actions ++ [action]) n = mergesAt actions n ++ (mergedBy n action).toList := by
  rw [mergesAt, filterMap_append]
  cases hmerged : mergedBy n action with
  | none | some entry => simp [mergesAt, hmerged]

/-- What a node sees in a slot was made by another member. -/
theorem Inv.origin_of_view (hinv : gossip.Inv members actions s) (hn : n ∈ members) {k : K}
    {entry : E} (hentry : gossip.view (s.cores n) k = some entry) :
    slot entry = k ∧ origin entry ∈ members ∧ origin entry ≠ n := by
  have hlatest : IsLatest slot version (mergesAt actions n) k
      (mergeAll slot version (mergesAt actions n) k) := mergeAll_isLatest _ k
  rw [← hinv.view n hn, hentry] at hlatest
  obtain ⟨hmem, hslot, -⟩ := hlatest
  obtain ⟨hsent, hne⟩ := hinv.merged n entry hmem
  exact ⟨hslot, hinv.origins entry hsent, hne⟩

theorem log_of_settled (hsettled : Settled gossip.dirty origin members actions s)
    (hn : n ∈ members) :
    gossip.log s n = s.sent.filter fun entry => origin entry = n := by
  rw [log, hsettled.1 n hn, append_nil]

/-- When everything has arrived, a node sees the last entry of every other. -/
theorem Inv.view_eq_last (hinv : gossip.Inv members actions s)
    (hsettled : Settled gossip.dirty origin members actions s) {m : N} (hn : n ∈ members)
    (hm : m ∈ members) (hne : n ≠ m) {k : K} (hslot : ∀ entry, slot entry = k → origin entry = m) :
    gossip.view (s.cores n) k = last slot (gossip.log s m) k := by
  rw [hinv.view n hn]
  apply mergeAll_eq_last (gossip.tracks_ascending m _ _ (hinv.tracks m hm))
  intro entry hentry
  have horigin := hslot entry hentry
  rw [log_of_settled hsettled hm, mem_filter]
  constructor
  · intro hmerged
    exact ⟨(hinv.merged n entry hmerged).1, decide_eq_true horigin⟩
  · rintro ⟨hsent, -⟩
    have haction := hsettled.2 entry hsent n hn (horigin ▸ hne)
    rw [mergesAt, mem_filterMap]
    exact ⟨.merge n entry, haction, if_pos rfl⟩

variable [DecidableEq E]

section

variable (hinv : gossip.Inv members actions s) {action : Action N L E}
  (hstep : step node origin members s action = some t)
include hinv hstep

/-- Only what a node is asked for makes new entries. -/
theorem log_step (m : N) :
    gossip.log t m = s.sent.filter (fun entry => origin entry = m) ++
      gossip.dirty (asked node m action (s.cores m)) := by
  rw [log, step_cores hstep]
  cases action with
  | call n request =>
    rw [step, Option.ite_none_right_eq_some] at hstep
    cases hstep.2
    rfl
  | drain n =>
    rw [step, Option.ite_none_right_eq_some] at hstep
    obtain ⟨hn, hstep⟩ := hstep
    cases hstep
    -- what a node drains is its own
    have hown : ∀ entry ∈ gossip.dirty (s.cores n), origin entry = n := fun entry hentry =>
      gossip.tracks_origin n _ _ (hinv.tracks n hn) entry (mem_append_right _ hentry)
    simp only [act, asked, filter_append, gossip.drained]
    by_cases heq : n = m
    · subst heq
      rw [filter_eq_self.mpr fun entry hentry => decide_eq_true (hown entry hentry), if_pos rfl,
        gossip.dirty_drain, append_nil]
    · have hnone : (gossip.dirty (s.cores n)).filter (fun entry => origin entry = m) = [] := by
        rw [filter_eq_nil_iff]
        intro entry hentry hm
        exact heq ((hown entry hentry).symm.trans (of_decide_eq_true hm))
      rw [hnone, if_neg heq, append_nil]
  | merge n entry =>
    rw [step, Option.ite_none_right_eq_some] at hstep
    cases hstep.2
    simp only [act, asked]
    split
    · rw [gossip.dirty_merge]
    · rfl

theorem Inv.tracks_step (hn : n ∈ members) : gossip.Tracks n (t.cores n) (gossip.log t n) := by
  have htracks := hinv.tracks n hn
  rw [log_step hinv hstep, step_cores hstep]
  cases action with
  | call m request =>
    simp only [act, asked]
    split
    · obtain ⟨new, hdirty, hnext⟩ := gossip.tracks_call n _ _ request htracks
      rw [hdirty, ← append_assoc]
      exact hnext
    · exact htracks
  | drain m =>
    simp only [act, asked]
    split
    · exact gossip.tracks_drain n _ _ htracks
    · exact htracks
  | merge m entry =>
    simp only [act, asked]
    split
    · exact gossip.tracks_merge n _ _ entry htracks
    · exact htracks

theorem Inv.view_step (hn : n ∈ members) :
    gossip.view (t.cores n) = mergeAll slot version (mergesAt (actions ++ [action]) n) := by
  have hview := hinv.view n hn
  rw [step_cores hstep, mergesAt_append]
  cases action with
  | call m request =>
    simp only [act, mergedBy, Option.toList_none, append_nil, ← hview]
    split
    · exact gossip.view_call _ _
    · rfl
  | drain m =>
    simp only [act, mergedBy, Option.toList_none, append_nil, ← hview]
    split
    · exact gossip.view_drain _
    · rfl
  | merge m entry =>
    simp only [act, mergedBy]
    split
    · rw [gossip.view_merge, hview, Option.toList_some, mergeAll_append]
    · rw [hview, Option.toList_none, append_nil]

theorem Inv.step : gossip.Inv members (actions ++ [action]) t := by
  refine ⟨fun n hn => hinv.tracks_step hstep hn, fun n hn => hinv.view_step hstep hn, ?_, ?_⟩
  · intro n entry hentry
    rw [mergesAt_append, mem_append] at hentry
    cases action with
    | call m request =>
      rw [Dissemination.step, Option.ite_none_right_eq_some] at hstep
      cases hstep.2
      exact hinv.merged n entry (hentry.resolve_right not_mem_nil)
    | drain m =>
      rw [Dissemination.step, Option.ite_none_right_eq_some] at hstep
      cases hstep.2
      obtain ⟨hsent, hne⟩ := hinv.merged n entry (hentry.resolve_right not_mem_nil)
      exact ⟨mem_append_left _ hsent, hne⟩
    | merge m other =>
      rw [Dissemination.step, Option.ite_none_right_eq_some] at hstep
      obtain ⟨⟨-, hsent, hne⟩, hstep⟩ := hstep
      cases hstep
      rcases hentry with hold | hnew
      · exact hinv.merged n entry hold
      · rw [mergedBy, Option.mem_toList, Option.ite_none_right_eq_some] at hnew
        obtain ⟨rfl, hnew⟩ := hnew
        cases hnew
        exact ⟨hsent, hne⟩
  · cases action with
    | call m request | merge m other =>
      rw [Dissemination.step, Option.ite_none_right_eq_some] at hstep
      cases hstep.2
      exact hinv.origins
    | drain m =>
      rw [Dissemination.step, Option.ite_none_right_eq_some] at hstep
      obtain ⟨hm, hstep⟩ := hstep
      cases hstep
      refine forall_mem_append.mpr ⟨hinv.origins, fun entry hentry => ?_⟩
      rw [gossip.drained] at hentry
      rw [gossip.tracks_origin m _ _ (hinv.tracks m hm) entry (mem_append_right _ hentry)]
      exact hm

end

/-- What holds along every run from nodes that have made and seen nothing. -/
theorem run_inv (gossip : Gossip node origin slot version) {start : N → C}
    (htracks : ∀ n ∈ members, gossip.Tracks n (start n) [])
    (hdirty : ∀ n ∈ members, gossip.dirty (start n) = [])
    (hview : ∀ n ∈ members, gossip.view (start n) = fun _ => none)
    (hrun : Runs.run (step node origin members) { cores := start } actions = some s) :
    gossip.Inv members actions s := by
  have hstart : gossip.Inv members [] { cores := start } := by
    refine ⟨?_, hview, ?_, ?_⟩
    · intro n hn
      rw [log, hdirty n hn]
      exact htracks n hn
    · intro n entry hentry
      cases hentry
    · intro entry hentry
      cases hentry
  exact Runs.run_history' (fun _ _ _ _ hinv hstep => hinv.step hstep) hstart hrun

end Gossip

end Dissemination
