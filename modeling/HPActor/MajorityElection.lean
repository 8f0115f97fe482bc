/-
Majority election of a singleton's owner.  Each election object holds the votes
it was told of and is asked with its own view of the alive nodes.  The threshold
is a majority of that view, not of the cluster, so the two sides of a partition
can each reach it.
-/
import Mathlib

namespace HPActor

open Option

/-- The iteration order of a hash table: some order of its entries. -/
structure HashOrder (α : Type) where
  order : List α → List α
  order_perm : ∀ entries, (order entries).Perm entries

/-- Votes by singleton name and voter. -/
structure MajorityBasedElection where
  votes : String → Option (String → Option String)

namespace MajorityBasedElection

open List

def empty : MajorityBasedElection := ⟨fun _ => none⟩

variable (e : MajorityBasedElection)

def recordVote (singletonName voter votedFor : String) : MajorityBasedElection where
  votes := fun name =>
    if name = singletonName then
      some fun node =>
        if node = voter then some votedFor
        else (e.votes name).bind fun singletonVotes => singletonVotes node
    else e.votes name

/-- The votes of a dead node are forgotten. -/
def onPeerDown (nodeId : String) : MajorityBasedElection where
  votes := fun name => (e.votes name).map fun singletonVotes node =>
    if node = nodeId then none else singletonVotes node

/-- One more vote for a candidate. -/
def bump (candidate : String) : List (String × Nat) → List (String × Nat)
  | [] => [(candidate, 1)]
  | (other, count) :: rest =>
    if other = candidate then (other, count + 1) :: rest
    else (other, count) :: bump candidate rest

/-- A live voter's vote counts if its candidate is alive. -/
def countVote (singletonVotes : String → Option String)
    (aliveNodes : List String) (tally : List (String × Nat)) (node : String) :
    List (String × Nat) :=
  match singletonVotes node with
  | none => tally
  | some candidate =>
    if candidate ∈ aliveNodes then bump candidate tally else tally

def tally (singletonVotes : String → Option String)
    (aliveNodes : List String) : List (String × Nat) :=
  aliveNodes.foldl (countVote singletonVotes aliveNodes) []

def majorityThreshold (aliveNodes : List String) : Nat :=
  aliveNodes.length / 2 + 1

def elect (hash : HashOrder (String × Nat)) (e : MajorityBasedElection)
    (name : String) (aliveNodes : List String) : Option String :=
  if aliveNodes.isEmpty then none
  else
    match e.votes name with
    | none => none
    | some singletonVotes =>
      ((hash.order (tally singletonVotes aliveNodes)).find? fun entry =>
        decide (majorityThreshold aliveNodes ≤ entry.2)).map Prod.fst

/-- The vote of a node for a singleton, if one is recorded. -/
def voteOf (name node : String) : Option String :=
  (e.votes name).bind fun singletonVotes => singletonVotes node

/-- No node of the view has the votes of more than half of the view. -/
def Undecided (name : String) (aliveNodes : List String) : Prop :=
  ∀ candidate ∈ aliveNodes,
    2 * aliveNodes.countP (fun node => e.voteOf name node = some candidate) ≤ aliveNodes.length

instance (e : MajorityBasedElection) (name : String)
    (aliveNodes : List String) : Decidable (e.Undecided name aliveNodes) :=
  inferInstanceAs (Decidable (∀ candidate ∈ aliveNodes, _))

/-- A node of the view for which more than half of the view votes. -/
def Majority (name : String) (aliveNodes : List String) (candidate : String) : Prop :=
  candidate ∈ aliveNodes ∧ aliveNodes.length <
    2 * aliveNodes.countP fun node => e.voteOf name node = some candidate

/-- No entry exceeds its candidate's count, and the first entry of a candidate
has reached it. -/
structure Tallies (entries : List (String × Nat)) (count : String → Nat) : Prop where
  le : ∀ entry ∈ entries, entry.2 ≤ count entry.1
  first : ∀ candidate, (entries.lookup candidate).getD 0 = count candidate

variable {entries : List (String × Nat)} {count : String → Nat} {candidate name : String}
  {aliveNodes : List String} {e : MajorityBasedElection} {hash : HashOrder (String × Nat)}

theorem Tallies.mem (h : Tallies entries count) (candidate : String)
    (hvotes : 0 < count candidate) :
    (candidate, count candidate) ∈ entries := by
  have hfirst := h.first candidate
  cases hlookup : entries.lookup candidate with
  | none =>
    rw [← hfirst, hlookup] at hvotes
    cases hvotes
  | some votes =>
    obtain ⟨front, back, rfl, -⟩ := lookup_eq_some_iff.mp hlookup
    rw [← hfirst, hlookup]
    simp

theorem le_bump (candidate : String) (hle : ∀ entry ∈ entries, entry.2 ≤ count entry.1) :
    ∀ entry ∈ bump candidate entries,
      entry.2 ≤ count entry.1 + if entry.1 = candidate then 1 else 0 := by
  induction entries with
  | nil => simp [bump]
  | cons head rest ih =>
    obtain ⟨hhead, hrest⟩ := forall_mem_cons.mp hle
    rw [bump]
    split
    · next heq =>
        refine forall_mem_cons.mpr ⟨by simpa [heq] using hhead, ?_⟩
        exact fun entry hentry => Nat.le_add_right_of_le (hrest entry hentry)
    · exact forall_mem_cons.mpr ⟨Nat.le_add_right_of_le hhead, ih hrest⟩

theorem lookup_bump (candidate other : String) (entries : List (String × Nat)) :
    ((bump candidate entries).lookup other).getD 0 =
      (entries.lookup other).getD 0 + if other = candidate then 1 else 0 := by
  induction entries with
  | nil =>
    by_cases heq : other = candidate
    · simp [bump, heq]
    · simp [bump, lookup, beq_false_of_ne heq, heq]
  | cons head rest ih =>
    rw [bump]
    by_cases hother : other = head.1
    · subst hother
      split <;> simp [lookup, *]
    · have hbeq := beq_false_of_ne hother
      split
      · next heq => simp [lookup, hbeq, heq ▸ hother]
      · simpa only [lookup, hbeq] using ih

/-- The tally counts for a node of the view the votes that it has in the view. -/
theorem Tallies.foldl_countVote (h : Tallies entries count)
    (singletonVotes : String → Option String) (aliveNodes nodes : List String) :
    Tallies (nodes.foldl (countVote singletonVotes aliveNodes) entries)
      fun candidate => count candidate + if candidate ∈ aliveNodes then
        nodes.countP fun node => singletonVotes node = some candidate else 0 := by
  induction nodes generalizing entries count with
  | nil => simpa using h
  | cons node rest ih =>
    rw [foldl_cons]
    cases hvote : singletonVotes node with
    | none => simpa [countVote, hvote] using ih h
    | some voted =>
      by_cases halive : voted ∈ aliveNodes
      · simp only [countVote, hvote, if_pos halive]
        convert ih ⟨le_bump voted h.le, fun other => by
          rw [lookup_bump, h.first]⟩ using 2 with candidate
        by_cases heq : candidate = voted
        · simp [hvote, heq, halive, add_assoc, add_comm]
        · simp [hvote, heq, Ne.symm heq]
      · simp only [countVote, hvote, if_neg halive]
        convert ih h using 2 with candidate
        by_cases heq : candidate = voted
        · simp [heq, halive]
        · simp [hvote, Ne.symm heq]

theorem tallies_tally (singletonVotes : String → Option String) (aliveNodes : List String) :
    Tallies (tally singletonVotes aliveNodes) fun candidate =>
      if candidate ∈ aliveNodes then
        aliveNodes.countP fun node => singletonVotes node = some candidate
      else 0 := by
  have hnone : Tallies [] fun _ => 0 := ⟨by simp, fun _ => rfl⟩
  simpa [tally] using hnone.foldl_countVote singletonVotes aliveNodes aliveNodes

theorem Majority.unique {other : String} (h : e.Majority name aliveNodes candidate)
    (hother : e.Majority name aliveNodes other) : candidate = other := by
  by_contra hne
  have hle : aliveNodes.countP (fun node => e.voteOf name node = some other) ≤
      aliveNodes.countP fun node => ¬ e.voteOf name node = some candidate := by
    refine countP_mono_left fun node _ hvote => ?_
    simp_all [Ne.symm hne]
  have hsum := length_eq_countP_add_countP
    (fun node => decide (e.voteOf name node = some candidate)) (l := aliveNodes)
  simp only [decide_eq_true_eq] at hsum
  have hmost := h.2
  have hmost' := hother.2
  omega

theorem Majority.of_elect (helect : elect hash e name aliveNodes = some candidate) :
    e.Majority name aliveNodes candidate := by
  rw [elect] at helect
  split_ifs at helect
  cases hvotes : e.votes name with
  | none => simp [hvotes] at helect
  | some singletonVotes =>
    rw [hvotes] at helect
    obtain ⟨entry, hfind, rfl⟩ := map_eq_some_iff.mp helect
    have hmem := (hash.order_perm _).mem_iff.mp (mem_of_find?_eq_some hfind)
    have hle := (tallies_tally singletonVotes aliveNodes).le entry hmem
    have hreached : majorityThreshold aliveNodes ≤ entry.2 := by
      simpa using find?_some hfind
    rw [majorityThreshold] at hreached
    split_ifs at hle with halive
    · refine ⟨halive, ?_⟩
      simp only [voteOf, hvotes, bind_some]
      omega
    · omega

theorem Majority.elect (h : e.Majority name aliveNodes candidate)
    (hash : HashOrder (String × Nat)) :
    elect hash e name aliveNodes = some candidate := by
  obtain ⟨winner, hwinner⟩ : ∃ winner,
      MajorityBasedElection.elect hash e name aliveNodes = some winner := by
    obtain ⟨halive, hmost⟩ := h
    rw [MajorityBasedElection.elect, if_neg (by
      simpa using ne_nil_of_mem halive)]
    cases hvotes : e.votes name with
    | none => simp [voteOf, hvotes] at hmost
    | some singletonVotes =>
      simp only [voteOf, hvotes, bind_some] at hmost
      have hmem := (tallies_tally singletonVotes aliveNodes).mem candidate
        (by rw [if_pos halive]; omega)
      rw [if_pos halive] at hmem
      rw [← isSome_iff_exists, isSome_map, find?_isSome]
      refine ⟨_, (hash.order_perm _).mem_iff.mpr hmem, decide_eq_true ?_⟩
      rw [majorityThreshold]
      omega
  rw [hwinner, (Majority.of_elect hwinner).unique h]

/-- The node with the majority of the view is elected and no other, so neither
the order in which the table is walked nor that of the view plays a part. -/
theorem elect_majority (hash : HashOrder (String × Nat))
    (e : MajorityBasedElection) (name : String) (aliveNodes : List String) :
    (∀ candidate, elect hash e name aliveNodes = some candidate ↔
      e.Majority name aliveNodes candidate) ∧
    ∀ (hash' : HashOrder (String × Nat)) (others : List String), others.Perm aliveNodes →
        elect hash' e name others = elect hash e name aliveNodes := by
  refine ⟨fun candidate => ⟨.of_elect, fun h => h.elect hash⟩, ?_⟩
  intro hash' others hperm
  refine Option.ext fun candidate => ?_
  have hsame : e.Majority name others candidate ↔ e.Majority name aliveNodes candidate := by
    rw [Majority, Majority, hperm.mem_iff, hperm.length_eq, hperm.countP_eq]
  exact ⟨fun helect => (hsame.mp (.of_elect helect)).elect hash,
    fun helect => (hsame.mpr (.of_elect helect)).elect hash'⟩

theorem elect_eq_none_iff (hash : HashOrder (String × Nat)) :
    elect hash e name aliveNodes = none ↔ e.Undecided name aliveNodes := by
  rw [eq_none_iff_forall_ne_some]
  constructor
  · intro hnobody candidate halive
    by_contra hmost
    exact hnobody candidate (Majority.elect ⟨halive, by omega⟩ hash)
  · intro hundecided candidate helect
    obtain ⟨halive, hmost⟩ := Majority.of_elect helect
    have hle := hundecided candidate halive
    omega

/-- The two sides of a partition do not both elect, and so not two different
nodes, exactly if one of them has no node that more than half of that side
votes for. -/
theorem at_most_one_side_elects (hash hash' : HashOrder (String × Nat))
    (e : MajorityBasedElection) (name : String) (left right : List String) :
    ((elect hash e name left = none ∨ elect hash' e name right = none) ↔
      e.Undecided name left ∨ e.Undecided name right) ∧
    (left.Disjoint right →
      ((∀ a b, elect hash e name left = some a → elect hash' e name right = some b → a = b) ↔
        e.Undecided name left ∨ e.Undecided name right)) := by
  have hsides : (elect hash e name left = none ∨ elect hash' e name right = none) ↔
      e.Undecided name left ∨ e.Undecided name right := by
    rw [elect_eq_none_iff, elect_eq_none_iff]
  refine ⟨hsides, fun hdisjoint => Iff.trans ⟨fun hsame => ?_, fun hnone a b hleft hright => ?_⟩
    hsides⟩
  · by_contra hboth
    obtain ⟨hleft, hright⟩ := not_or.mp hboth
    obtain ⟨a, ha⟩ := ne_none_iff_exists'.mp hleft
    obtain ⟨b, hb⟩ := ne_none_iff_exists'.mp hright
    -- a node is elected by a view that it belongs to
    have hmem := (Majority.of_elect hb).1
    rw [← hsame a b ha hb] at hmem
    exact hdisjoint (Majority.of_elect ha).1 hmem
  · rcases hnone with hnone | hnone
    · rw [hnone] at hleft
      cases hleft
    · rw [hnone] at hright
      cases hright

inductive Call where
  | recordVote (singletonName voter votedFor : String)
  | onPeerDown (nodeId : String)

def call (e : MajorityBasedElection) : Call → MajorityBasedElection
  | .recordVote other voter votedFor => e.recordVote other voter votedFor
  | .onPeerDown nodeId => e.onPeerDown nodeId

/-- The vote with which a call leaves a node, if the call is about it. -/
def Call.leaves (name node : String) : Call → Option (Option String)
  | .recordVote other voter votedFor =>
    if name = other ∧ node = voter then some (some votedFor) else none
  | .onPeerDown nodeId => if node = nodeId then some none else none

theorem voteOf_call (c : Call) (node : String) :
    (e.call c).voteOf name node = (c.leaves name node).getD (e.voteOf name node) := by
  cases c with
  | recordVote other voter votedFor =>
    by_cases hname : name = other <;> by_cases hnode : node = voter <;>
      simp [call, recordVote, voteOf, Call.leaves, hname, hnode]
  | onPeerDown nodeId =>
    cases hvotes : e.votes name <;> by_cases hnode : node = nodeId <;>
      simp [call, onPeerDown, voteOf, Call.leaves, hvotes, hnode]

/-- After any history the node is elected that more than half of the view voted for
last; a lost node has to vote again. -/
theorem elect_history (calls : List Call) :
    elect hash (calls.foldl call empty) name aliveNodes = some candidate ↔
      candidate ∈ aliveNodes ∧ aliveNodes.length < 2 * aliveNodes.countP fun node =>
        calls.reverse.findSome? (Call.leaves name node) = some (some candidate) := by
  have hvote : ∀ node, (calls.foldl call empty).voteOf name node =
      (calls.reverse.findSome? (Call.leaves name node)).join := by
    intro node
    induction calls using reverseRecOn with
    | nil => rfl
    | append_singleton calls c ih =>
      rw [foldl_concat, voteOf_call, ih, reverse_concat, findSome?_cons]
      cases c.leaves name node <;> rfl
  refine Iff.trans ⟨Majority.of_elect, fun hmost => hmost.elect hash⟩ ?_
  simp only [Majority, hvote, Option.join_eq_some_iff]

namespace ElectionWitness

/-- A table that is walked in the order of insertion. -/
def inOrder : HashOrder (String × Nat) := ⟨id, fun _ => List.Perm.refl _⟩

/-- Everybody votes for the first node of a cluster of three. -/
def agreed : MajorityBasedElection :=
  ((empty.recordVote "s" "a" "a").recordVote "s" "b" "a").recordVote "s" "c" "a"

theorem agreed_elects_once :
    elect inOrder agreed "s" ["a", "b"] = some "a" ∧
      ∀ x y, elect inOrder agreed "s" ["a", "b"] = some x →
        elect inOrder agreed "s" ["c"] = some y → x = y :=
  ⟨by decide, ((at_most_one_side_elects inOrder inOrder agreed "s" ["a", "b"]
    ["c"]).2 (by simp)).mpr (.inr (by decide))⟩

/-- Each of two nodes votes for itself and sees only itself. -/
def apart : MajorityBasedElection :=
  (empty.recordVote "s" "a" "a").recordVote "s" "b" "b"

theorem both_sides_elect :
    elect inOrder apart "s" ["a"] = some "a" ∧ elect inOrder apart "s" ["b"] = some "b" := by
  decide

end ElectionWitness

end MajorityBasedElection

end HPActor
