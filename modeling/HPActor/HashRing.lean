/-
The hash ring that gives every name its home.  A member has a number of tokens,
hashes of its text and an index; the home of a name is the member with the first
token from the hash of the name onwards, and after the last token comes the
first one.  Members are kept in the order of their texts, and where two have one
token the later member has it.

The hash function is a parameter; the source uses `hash` below.
-/
import HPActor.OrderedMaps
import HPActor.EndpointText

namespace HPActor

/-- The addresses that the source can represent. -/
abbrev MemberEndPoint := { ep : EndPoint // ep.Valid }

abbrev HashToken := UInt64

namespace ConsistentHashRing

open OrderedMaps

def kFnvPrime : UInt64 := 0x00000100000001B3
def kFnvOffsetBasis : UInt64 := 0xcbf29ce484222325

/-- FNV-1a over the bytes of the text. -/
def hash (s : List Char) : HashToken :=
  s.foldl (fun h c => (h ^^^ c.toUInt8.toUInt64) * kFnvPrime) kFnvOffsetBasis

def memberText (inet : InetLibrary) (node : MemberEndPoint) : List Char :=
  EndPoint.toString inet node.1

/-- Members are ordered by their texts. -/
def endPointCompare (inet : InetLibrary) : MemberEndPoint → MemberEndPoint → Ordering :=
  compareOn (memberText inet)

abbrev LiveMembers (inet : InetLibrary) :=
  Std.TreeSet MemberEndPoint (endPointCompare inet)

/-- Tokens and their members. -/
abbrev Ring := Std.TreeMap HashToken MemberEndPoint

section

variable (hash : List Char → HashToken) (inet : InetLibrary)

def virtualNodeHash (node : MemberEndPoint) (vn : Nat) : HashToken :=
  hash (memberText inet node ++ ':' :: Nat.toDigits 10 vn)

def build (liveMembers : LiveMembers inet) (virtualNodes : UInt32) : Ring :=
  liveMembers.toList.foldl
    (fun ring node =>
      (List.range virtualNodes.toNat).foldl
        (fun ring vn => ring.insert (virtualNodeHash hash inet node vn) node)
        ring)
    ∅

def lookup (ring : Ring) (name : List Char) : Option MemberEndPoint :=
  if ring.isEmpty then none
  else
    match lowerBound ring (hash name) with
    | some entry => some entry.2
    | none => (first ring).map Prod.snd

/-- The tokens of a member. -/
def tokens (virtualNodes : UInt32) (node : MemberEndPoint) : List HashToken :=
  (List.range virtualNodes.toNat).map (virtualNodeHash hash inet node)

end

instance (inet : InetLibrary) : Std.TransCmp (endPointCompare inet) :=
  inferInstanceAs (Std.TransCmp (compareOn (memberText inet)))

theorem memberText_injective (inet : InetLibrary) : Function.Injective (memberText inet) := by
  intro node node' htext
  exact Subtype.ext (EndPoint.toString_injective inet node.2 node'.2 htext)

instance (inet : InetLibrary) : Std.LawfulEqCmp (endPointCompare inet) where
  eq_of_compare := by
    intro node node' heq
    exact memberText_injective inet (Std.LawfulEqCmp.eq_of_compare heq)

variable {hash : List Char → HashToken} {inet : InetLibrary}
  {liveMembers : LiveMembers inet} {virtualNodes : UInt32}

theorem build_eq (hash : List Char → HashToken) (liveMembers : LiveMembers inet)
    (virtualNodes : UInt32) :
    build hash inet liveMembers virtualNodes =
      assignAll (tokens hash inet virtualNodes) liveMembers.toList := by
  simp only [build, assignAll, assign, tokens, List.foldl_map]

theorem lookup_eq (hash : List Char → HashToken) (ring : Ring)
    (name : List Char) : lookup hash ring name = successor ring (hash name) := by
  rw [lookup]
  split
  · next hempty => rw [successor_of_isEmpty hempty]
  · rw [successor]
    cases lowerBound ring (hash name) <;> rfl

/-- With one virtual node at least, a name has a home among the members. -/
theorem lookup_mem (hmembers : liveMembers.isEmpty = false) (hnodes : 1 ≤ virtualNodes)
    (hash : List Char → HashToken) (name : List Char) :
    ∃ owner ∈ liveMembers, lookup hash (build hash inet liveMembers virtualNodes) name =
        some owner := by
  obtain ⟨node, hnode⟩ : ∃ node, node ∈ liveMembers :=
    Std.TreeSet.isEmpty_eq_false_iff_exists_mem.mp hmembers
  have htoken : virtualNodeHash hash inet node 0 ∈ tokens hash inet virtualNodes node :=
    List.mem_map_of_mem (List.mem_range.mpr hnodes)
  have hmem : virtualNodeHash hash inet node 0 ∈ build hash inet liveMembers virtualNodes := by
    rw [build_eq]
    exact mem_assignAll (Std.TreeSet.mem_toList.mpr hnode) htoken
  obtain ⟨owner, howner, token, hentry⟩ := successor_of_mem hmem (hash name)
  rw [build_eq, assignAll_eq_some Std.TreeSet.ordered_toList, Std.TreeSet.mem_toList] at hentry
  exact ⟨owner, hentry.1, by rw [lookup_eq, howner]⟩

/-- Two sets of members that differ in one. -/
theorem lookup_of_mem {few many : LiveMembers inet} {member : MemberEndPoint}
    (hfew : ∀ node : MemberEndPoint, node ∈ few → node ∈ many)
    (hmany : ∀ node : MemberEndPoint, node ∈ many → node = member ∨ node ∈ few)
    (hash : List Char → HashToken) (virtualNodes : UInt32) (name : List Char) :
    lookup hash (build hash inet many virtualNodes) name = some member ∨
      lookup hash (build hash inet many virtualNodes) name =
        lookup hash (build hash inet few virtualNodes) name := by
  rw [lookup_eq, lookup_eq, build_eq, build_eq]
  exact (overrides_of_mem hfew hmany).successor_eq (hash name)

/-- A join moves names to the new member only, and a departure moves those of
the departed member only. -/
theorem lookup_moves_little (hash : List Char → HashToken) (hmembers : liveMembers.isEmpty = false)
    (hnodes : 1 ≤ virtualNodes) (name : List Char) :
    ∃ owner ∈ liveMembers,
      lookup hash (build hash inet liveMembers virtualNodes) name = some owner ∧
        (∀ member, lookup hash (build hash inet (liveMembers.insert member) virtualNodes)
                name = some member ∨
            lookup hash (build hash inet (liveMembers.insert member) virtualNodes)
                name = some owner) ∧
        ∀ member, member ≠ owner → lookup hash
              (build hash inet (liveMembers.erase member) virtualNodes) name =
            some owner := by
  obtain ⟨owner, hmem, howner⟩ := lookup_mem hmembers hnodes hash name
  refine ⟨owner, hmem, howner, ?_, ?_⟩
  · intro member
    have hjoin := @lookup_of_mem inet liveMembers (liveMembers.insert member)
      member (fun node hnode => Std.TreeSet.mem_insert.mpr (.inr hnode)) ?_ hash
      virtualNodes name
    · rw [howner] at hjoin
      exact hjoin
    · intro node hnode
      rcases Std.TreeSet.mem_insert.mp hnode with heq | hin
      · exact .inl (Std.LawfulEqCmp.eq_of_compare heq).symm
      · exact .inr hin
  · intro member hne
    have hleave := @lookup_of_mem inet (liveMembers.erase member) liveMembers
      member (fun node hnode => (Std.TreeSet.mem_erase.mp hnode).2) ?_ hash
      virtualNodes name
    · rw [howner] at hleave
      rcases hleave with heq | heq
      · exact absurd (Option.some.inj heq).symm hne
      · exact heq.symm
    · intro node hnode
      by_cases heq : node = member
      · exact .inl heq
      · refine .inr (Std.TreeSet.mem_erase.mpr ⟨?_, hnode⟩)
        intro hsame
        exact heq (Std.LawfulEqCmp.eq_of_compare hsame).symm

namespace HashRingWitness

def node (port : UInt16) : MemberEndPoint := ⟨.ipv4 0x0A000001 port, trivial⟩

def lone : LiveMembers EndPoint.EndpointWitness.plain := {node 1}

/-- A second member takes names from the only one, or leaves them there. -/
theorem lookup_moves_little_lone :
    lone.isEmpty = false ∧ (1 : UInt32) ≤ 2 ∧ ∃ owner ∈ lone, lookup ConsistentHashRing.hash
              (build ConsistentHashRing.hash _ (lone.insert (node 2)) 2) ['n'] =
            some (node 2) ∨
          lookup ConsistentHashRing.hash
              (build ConsistentHashRing.hash _ (lone.insert (node 2)) 2) ['n'] =
            some owner := by
  have hlone : lone.isEmpty = false := Std.TreeSet.isEmpty_insert
  have htwo : (1 : UInt32) ≤ 2 := by decide
  obtain ⟨owner, hmem, _, hjoin, _⟩ :=
    lookup_moves_little ConsistentHashRing.hash hlone htwo ['n']
  exact ⟨hlone, htwo, owner, hmem, hjoin (node 2)⟩

end HashRingWitness

end ConsistentHashRing

end HPActor
