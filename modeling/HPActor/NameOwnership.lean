/-
Who owns a distributed name.  As long as one node makes the calls about a name,
its requests in flight can be served ahead of time: the entry that the home will
have changes with the calls and not with the deliveries.  And an entry with a
generation above zero is safe from every unregister request.
-/
import HPActor.NameCluster

namespace HPActor.NameCluster

open Option List Runs

variable {inet : InetLibrary} {ring : String → Option EndPoint} {node home owner : EndPoint}
  {name : String} {c : LocalCall} {entry : NameEntry} {s t : NameCluster}

/-- The entry that the home will have when the requests of the owner that are
in flight have been served. -/
def foreseen (inet : InetLibrary) (s : NameCluster) (name : String)
    (owner home : EndPoint) : Option NameEntry :=
  (s.inFlight name owner home).foldl (NameMessage.serve inet) (s.entryAt home name)

/-- What a call of the owner does to the entry, sooner or later. -/
def callBy (inet : InetLibrary) (name : String) (owner home : EndPoint)
    (entry : Option NameEntry) (c : LocalCall) : Option NameEntry :=
  if owner = home then callAtHome entry c
  else (requestFor inet none name c).serve inet entry

/-- The requests about the name in flight are the owner's, and it sends none
if it is the home itself. -/
structure OneCaller (ring : String → Option EndPoint) (s : NameCluster)
    (name : String) (owner home : EndPoint) : Prop where
  homed : s.Homed ring
  only : ∀ sender, sender ≠ owner ∨ owner = home → s.inFlight name sender home = []

section

variable (hs : s.OneCaller ring name owner home)
include hs

theorem OneCaller.foreseen_home (hhome : owner = home) :
    s.foreseen inet name owner home = s.entryAt home name := by
  rw [foreseen, hs.only owner (.inr hhome)]
  rfl

theorem OneCaller.call (hhome : ring name = some home)
    (hstep : s.step inet (.localCall owner name c) = some t) :
    t.OneCaller ring name owner home ∧ t.foreseen inet name owner home =
        callBy inet name owner home (s.foreseen inet name owner home) c := by
  have hhomed := hs.homed.step hstep
  obtain rfl := some.inj ((step_localCall s owner name c).symm.trans hstep)
  by_cases howner : owner = home
  · subst howner
    obtain ⟨hentries, hout⟩ :=
      @call_home inet ring owner name _ (hs.homed.wired owner) hhome c
    rw [hout] at hhomed ⊢
    have hone : ((s.setNode owner (NameCluster.call inet (s.nodes owner) name
        c).1).post owner none).OneCaller ring name owner owner :=
      ⟨hhomed, hs.only⟩
    refine ⟨hone, ?_⟩
    rw [hone.foreseen_home rfl, hs.foreseen_home rfl, entryAt_post, entryAt_setNode, if_pos rfl,
      hentries, Function.update_self, callBy, if_pos rfl]
    rfl
  · obtain ⟨hsame, hout⟩ := @call_remote inet ring owner home name _
      (hs.homed.wired owner) hhome (Ne.symm howner) c
    have hown : (s.nodes owner).nameDirectory.entries name = none :=
      hs.homed.homed owner name fun heq =>
        howner (some.inj (heq.symm.trans hhome))
    have hrequests : (requestFor inet none name c).requests name = true := by
      rw [requestFor_requests, decide_eq_true_eq]
    rw [hout, hown] at hhomed ⊢
    refine ⟨⟨hhomed, fun sender hsender => ?_⟩, ?_⟩
    · have hne : sender ≠ owner := hsender.resolve_right howner
      rw [inFlight_post_request hrequests, if_neg hne]
      exact hs.only sender hsender
    · rw [foreseen, inFlight_post_request hrequests, if_pos rfl, foldl_append, entryAt_post,
        entryAt_setNode, if_neg (Ne.symm howner), callBy, if_neg howner]
      rfl

theorem OneCaller.otherCall {other : String} (hother : other ≠ name)
    (hstep : s.step inet (.localCall node other c) = some t) :
    t.OneCaller ring name owner home ∧
      t.foreseen inet name owner home = s.foreseen inet name owner home := by
  obtain ⟨hflight, hentry⟩ := call_other hs.homed hother home hstep
  refine ⟨⟨hs.homed.step hstep, fun sender hsender => ?_⟩, ?_⟩
  · rw [hflight]
    exact hs.only sender hsender
  · rw [foreseen, hflight, hentry]
    rfl

theorem OneCaller.deliver (hhome : ring name = some home) {sender receiver : EndPoint}
    (hstep : s.step inet (.deliver sender receiver) = some t) :
    t.OneCaller ring name owner home ∧
      t.foreseen inet name owner home = s.foreseen inet name owner home := by
  have hhomed := hs.homed.step hstep
  obtain ⟨msg, rest, hchannel, rfl⟩ := step_deliver hstep
  have htake := fun a => @inFlight_take name s sender receiver msg rest hchannel a home
  -- a request in the first place is a request of the owner to the home
  have hfrom : receiver = home → msg.requests name = true → sender = owner ∧ owner ≠ home := by
    intro hreceiver hmsg
    have hfirst := htake sender
    rw [if_pos ⟨by rw [hreceiver], hmsg⟩] at hfirst
    by_contra hcontra
    rw [hs.only sender (by tauto)] at hfirst
    cases hfirst
  refine ⟨⟨hhomed, fun a ha => ?_⟩, ?_⟩
  · rw [inFlight_deliver]
    have hnone := hs.only a ha
    rw [htake a] at hnone
    split at hnone
    · cases hnone
    · exact hnone
  · rw [foreseen, inFlight_deliver, entryAt_deliver hs.homed hhome, foreseen, htake owner]
    by_cases hserved : receiver = home ∧ msg.requests name = true
    · obtain ⟨rfl, hmsg⟩ := hserved
      obtain ⟨rfl, -⟩ := hfrom rfl hmsg
      rw [if_pos ⟨rfl, hmsg⟩, if_pos ⟨rfl, hmsg⟩]
      rfl
    · rw [if_neg hserved, if_neg]
      rintro ⟨hpair, hmsg⟩
      exact hserved ⟨(Prod.mk.inj hpair).2.symm, hmsg⟩

theorem OneCaller.run {actions : List Action} (hhome : ring name = some home)
    (hcalls : ∀ called ∈ callsOf name actions, called.1 = owner)
    (hrun : run (step inet) s actions = some t) :
    t.OneCaller ring name owner home ∧ t.foreseen inet name owner home =
        (callsOf name actions).foldl
          (fun entry called => callBy inet name owner home entry called.2)
          (s.foreseen inet name owner home) := by
  induction actions generalizing s with
  | nil =>
    rw [run_nil] at hrun
    cases hrun
    exact ⟨hs, rfl⟩
  | cons action rest ih =>
    obtain ⟨mid, hstep, hrest⟩ := run_cons_eq_some.mp hrun
    cases action with
    | deliver sender receiver =>
      obtain ⟨hmid, hsame⟩ := hs.deliver hhome hstep
      obtain ⟨ht, hforeseen⟩ := ih hmid hcalls hrest
      exact ⟨ht, by rw [hforeseen, hsame]; rfl⟩
    | localCall node other c =>
      by_cases hother : other = name
      · subst hother
        have hlist : callsOf other (.localCall node other c :: rest) =
            (node, c) :: callsOf other rest := by
          simp [callsOf]
        rw [hlist] at hcalls ⊢
        obtain rfl : node = owner := hcalls (node, c) mem_cons_self
        obtain ⟨hmid, hcall⟩ := hs.call hhome hstep
        obtain ⟨ht, hforeseen⟩ := ih hmid
          (fun called hmem => hcalls called (mem_cons_of_mem _ hmem)) hrest
        exact ⟨ht, by rw [hforeseen, hcall]; rfl⟩
      · have hlist : callsOf name (.localCall node other c :: rest) = callsOf name rest := by
          simp [callsOf, hother]
        rw [hlist] at hcalls ⊢
        obtain ⟨hmid, hsame⟩ := hs.otherCall hother hstep
        obtain ⟨ht, hforeseen⟩ := ih hmid hcalls hrest
        exact ⟨ht, by rw [hforeseen, hsame]⟩

end

/-- The home's entry, which no request in flight can remove. -/
structure Guards (ring : String → Option EndPoint) (s : NameCluster)
    (name : String) (home : EndPoint) (entry : NameEntry) : Prop where
  homed : s.Homed ring
  kept : s.entryAt home name = some entry
  harmless : ∀ sender, ∀ msg ∈ s.inFlight name sender home, msg = .unregisterRequest name 0

section

variable (hs : s.Guards ring name home entry)
include hs

theorem Guards.call (hhome : ring name = some home) {other : String}
    (hcall : other = name → node ≠ home ∧ c = .unregister)
    (hstep : s.step inet (.localCall node other c) = some t) :
    t.Guards ring name home entry := by
  have hhomed := hs.homed.step hstep
  by_cases hother : other = name
  · subst hother
    obtain ⟨hnode, rfl⟩ := hcall rfl
    obtain rfl :=
      some.inj ((step_localCall s node other _).symm.trans hstep)
    obtain ⟨hsame, hout⟩ := @call_remote inet ring node home other _
      (hs.homed.wired node) hhome (Ne.symm hnode) .unregister
    have hown : (s.nodes node).nameDirectory.entries other = none :=
      hs.homed.homed node other fun heq =>
        hnode (some.inj (heq.symm.trans hhome))
    refine ⟨hhomed, ?_, fun sender msg hmsg => ?_⟩
    · rw [entryAt_post, entryAt_setNode, if_neg (Ne.symm hnode)]
      exact hs.kept
    · rw [hout, hown, inFlight_post_request
        (by rw [requestFor_requests, decide_eq_true_eq])] at hmsg
      split at hmsg
      · rcases mem_append.mp hmsg with hold | hnew
        · exact hs.harmless sender msg hold
        · exact mem_singleton.mp hnew
      · exact hs.harmless sender msg hmsg
  · obtain ⟨hflight, hentry⟩ := call_other hs.homed hother home hstep
    refine ⟨hhomed, hentry.trans hs.kept, fun sender msg hmsg => ?_⟩
    rw [hflight] at hmsg
    exact hs.harmless sender msg hmsg

theorem Guards.deliver (hgeneration : 0 < entry.generation) (hhome : ring name = some home)
    {sender receiver : EndPoint} (hstep : s.step inet (.deliver sender receiver) = some t) :
    t.Guards ring name home entry := by
  have hhomed := hs.homed.step hstep
  obtain ⟨msg, rest, hchannel, rfl⟩ := step_deliver hstep
  have htake := fun a => @inFlight_take name s sender receiver msg rest hchannel a home
  refine ⟨hhomed, ?_, fun a other hother => ?_⟩
  · rw [entryAt_deliver hs.homed hhome, hs.kept]
    split
    · rename_i hserved
      have hmem : msg ∈ s.inFlight name sender home := by
        rw [htake sender, if_pos ⟨by rw [hserved.1], hserved.2⟩]
        exact mem_cons_self
      rw [hs.harmless sender msg hmem]
      exact if_neg (UInt64.not_le.mpr hgeneration)
    · rfl
  · rw [inFlight_deliver] at hother
    apply hs.harmless a other
    rw [htake a]
    split
    · exact mem_cons_of_mem msg hother
    · exact hother

theorem Guards.run {actions : List Action} (hgeneration : 0 < entry.generation)
    (hhome : ring name = some home)
    (hcalls : ∀ called ∈ callsOf name actions, called.1 ≠ home ∧ called.2 = .unregister)
    (hrun : run (step inet) s actions = some t) :
    t.Guards ring name home entry := by
  induction actions generalizing s with
  | nil =>
    rw [run_nil] at hrun
    cases hrun
    exact hs
  | cons action rest ih =>
    obtain ⟨mid, hstep, hrest⟩ := run_cons_eq_some.mp hrun
    cases action with
    | deliver sender receiver =>
      exact ih (hs.deliver hgeneration hhome hstep) hcalls hrest
    | localCall node other c =>
      have hnow : other = name → node ≠ home ∧ c = .unregister := by
        rintro rfl
        exact hcalls (node, c) (by simp [callsOf])
      refine ih (hs.call hhome hnow hstep) (fun called hmem => ?_) hrest
      apply hcalls called
      rw [callsOf, filterMap_cons]
      split
      · exact hmem
      · exact mem_cons_of_mem _ hmem

end

/-- The owner registers the name with a generation and unregisters it again,
nobody else calls about it, and its requests have arrived: the name is
unbound. -/
def ReleaseUnbinds (inet : InetLibrary) (s : NameCluster) (name : String)
    (home owner : EndPoint) (generation : UInt64) : Prop :=
  s.entryAt home name = none → s.Quiet name home → ∀ address actions t, callsOf name actions =
        [(owner, .register address generation), (owner, .unregister)] →
      Runs.run (step inet) s actions = some t →
        t.inFlight name owner home = [] → t.entryAt home name = none

/-- The registration of a second node arrives and is refused as a duplicate;
all it has sent since and may still send about the name are unregister
requests, and nobody else calls about it: the entry is unchanged. -/
def RefusalHarmless (inet : InetLibrary) (s : NameCluster) (name : String)
    (home second : EndPoint) (generation : UInt64) : Prop :=
  ∀ actorId endpoint rest actions t, s.channels (second, home) =
      .registerRequest name actorId endpoint generation :: rest →
    ((s.nodes home).nameDirectory.registerEntry name
      ⟨actorId, EndPoint.parseEndpoint inet endpoint, generation⟩).2 = .duplicateName →
    (∀ msg ∈ rest, msg.requests name = true → ∃ g, msg = .unregisterRequest name g) →
    (∀ sender, sender ≠ second → s.inFlight name sender home = []) →
    (∀ called ∈ callsOf name actions, called = (second, .unregister)) →
    Runs.run (step inet) s (.deliver second home :: actions) = some t →
      t.entryAt home name = s.entryAt home name

theorem release_unbinds (hs : s.Homed ring) (hhome : ring name = some home)
    {generation : UInt64} (hcond : owner = home ∨ generation = 0) :
    s.ReleaseUnbinds inet name home owner generation := by
  intro hnone hquiet address actions t hcalls hrun hdone
  have hone : s.OneCaller ring name owner home :=
    ⟨hs, fun sender _ => hquiet sender⟩
  obtain ⟨-, hforeseen⟩ := hone.run hhome (by rw [hcalls]; simp) hrun
  have hstart : s.foreseen inet name owner home = none := by
    rw [foreseen, hquiet owner, hnone]
    rfl
  have hend : t.foreseen inet name owner home = t.entryAt home name := by
    rw [foreseen, hdone]
    rfl
  rw [← hend, hforeseen, hcalls, hstart]
  simp only [foldl_cons, foldl_nil]
  rcases hcond with howner | rfl
  · rw [callBy, if_pos howner]
    rfl
  · by_cases howner : owner = home
    · rw [callBy, if_pos howner]
      rfl
    · rw [callBy, callBy, if_neg howner, if_neg howner]
      rfl

theorem duplicateName_iff {d : NameDirectory} {entry : NameEntry}
    (hresult : (d.registerEntry name entry).2 = .duplicateName) :
    ∃ e, d.entries name = some e ∧ e.generation = entry.generation := by
  rw [NameDirectory.registerEntry] at hresult
  split at hresult
  · cases hresult
  · rename_i e hentry
    split at hresult
    · cases hresult
    · split at hresult
      · rename_i heq
        exact ⟨e, hentry, heq.symm⟩
      · cases hresult

theorem refusal_harmless (hs : s.Homed ring) (hhome : ring name = some home) {second : EndPoint}
    (hsecond : second ≠ home) {generation : UInt64} (hgeneration : 0 < generation) :
    s.RefusalHarmless inet name home second generation := by
  intro actorId endpoint rest actions t hchannel hrefused hrest hothers hcalls hrun
  obtain ⟨entry, hentry, hsame⟩ := duplicateName_iff hrefused
  change entry.generation = generation at hsame
  obtain ⟨mid, hstep, hactions⟩ := run_cons_eq_some.mp hrun
  have hguards : mid.Guards ring name home entry := by
    have hhomed := hs.step hstep
    obtain ⟨msg, rest', hchannel', rfl⟩ := step_deliver hstep
    rw [hchannel] at hchannel'
    obtain ⟨rfl, rfl⟩ := cons.inj hchannel'
    refine ⟨hhomed, ?_, fun sender msg hmsg => ?_⟩
    · rw [entryAt_deliver hs hhome]
      split
      · rw [entryAt, hentry]
        exact if_neg (by rw [hsame]; exact UInt64.lt_irrefl _)
      · exact hentry
    · rw [inFlight_deliver] at hmsg
      by_cases hsender : sender = second
      · subst hsender
        rw [inFlight, setChannel_self, mem_filter] at hmsg
        obtain ⟨g, rfl⟩ := hrest msg hmsg.1 hmsg.2
        have hzero := hs.zero (sender, home) name g
          (by rw [hchannel]; exact mem_cons_of_mem _ hmsg.1)
        rw [hzero]
      · have hnone := hothers sender hsender
        rw [@inFlight_take name s second home _ rest hchannel] at hnone
        rw [if_neg fun h => hsender (Prod.mk.inj h.1).1] at hnone
        rw [hnone] at hmsg
        exact (not_mem_nil hmsg).elim
  have hend := hguards.run (by rw [hsame]; exact hgeneration) hhome
    (fun called hmem => by rw [hcalls called hmem]; exact ⟨hsecond, rfl⟩)
    hactions
  rw [hend.kept, entryAt, hentry]

/-- In every state of every run, a release unbinds the name if the owner is
the home or registered with generation zero, and a refused node does no harm
if it is not the home and the generation is not zero. -/
theorem names_are_owned {before : List Action} (hhome : ring name = some home)
    (hrun : Runs.run (step inet) (fresh ring) before = some s) :
    (∀ owner generation, owner = home ∨ generation = 0 →
      s.ReleaseUnbinds inet name home owner generation) ∧
    ∀ second generation, second ≠ home → 0 < generation →
      s.RefusalHarmless inet name home second generation := by
  have hs : s.Homed ring := Runs.run_invariant'
    (fun _ _ _ hinv hstep => hinv.step hstep) (homed_fresh ring) hrun
  exact ⟨fun _ _ hcond => release_unbinds hs hhome hcond,
    fun _ _ hsecond hgeneration =>
      refusal_harmless hs hhome hsecond hgeneration⟩

namespace OwnershipWitness

open EndPoint.EndpointWitness (plain)

def homeNode : EndPoint := .ipv4 1 0
def firstNode : EndPoint := .ipv4 2 0
def secondNode : EndPoint := .ipv4 3 0

def oneHome (_ : String) : Option EndPoint := some homeNode

/-- The first node's registration has arrived, the second node's registration
and its withdrawal are on their way. -/
def race (generation : UInt64) : List Action :=
  [.localCall firstNode "s" (.register { id := 7 } generation), .deliver firstNode homeNode,
    .localCall secondNode "s" (.register { id := 8 } generation),
    .localCall secondNode "s" .unregister]

/-- A registration with its withdrawal, both delivered. -/
def release (generation : UInt64) : List Action :=
  [.localCall firstNode "s" (.register { id := 7 } generation),
    .localCall firstNode "s" .unregister, .deliver firstNode homeNode,
    .deliver firstNode homeNode]

def originText : List Char := ({} : ActorAddress).endpoint.toString plain

/-- What the second node has sent. -/
def sent (generation : UInt64) : List NameMessage :=
  [.registerRequest "s" 8 originText generation, .unregisterRequest "s" 0]

def boundAt (s : NameCluster) : Option UInt64 :=
  (s.entryAt homeNode "s").map NameEntry.actorId

def boundAfter (actions : List Action) : Option (Option UInt64) :=
  (Runs.run (step plain) (fresh oneHome) actions).map boundAt

/-- A name released with generation zero is unbound, and a refused node leaves
the entry of generation one alone. -/
theorem released_and_refused :
    (∃ t, Runs.run (step plain) (fresh oneHome) (release 0) = some t ∧
      t.entryAt homeNode "s" = none) ∧
    ∃ s t, Runs.run (step plain) (fresh oneHome) (race 1) = some s ∧ Runs.run (step plain) s
        [.deliver secondNode homeNode, .deliver secondNode homeNode] = some t ∧
      boundAt s = some 7 ∧ t.entryAt homeNode "s" = s.entryAt homeNode "s" := by
  constructor
  · have hview : (Runs.run (step plain) (fresh oneHome) (release 0)).map
        (fun t => t.inFlight "s" firstNode homeNode) = some [] := by
      decide +kernel
    obtain ⟨t, hrun, hdone⟩ := map_eq_some_iff.mp hview
    refine ⟨t, hrun, ?_⟩
    have hstart : Runs.run (step plain) (fresh oneHome) [] = some (fresh oneHome) := rfl
    exact (names_are_owned rfl hstart).1 firstNode 0 (.inr rfl) rfl
      (fun _ => rfl) { id := 7 } (release 0) t (by decide) hrun hdone
  · have hview : (Runs.run (step plain) (fresh oneHome) (race 1)).map (fun s =>
        (decide (s.channels (secondNode, homeNode) = sent 1),
          decide (((s.nodes homeNode).nameDirectory.registerEntry "s"
            ⟨8, EndPoint.parseEndpoint plain originText, 1⟩).2 = .duplicateName),
          decide (s.inFlight "s" firstNode homeNode = []), boundAt s,
          (Runs.run (step plain) s [.deliver secondNode homeNode,
            .deliver secondNode homeNode]).isSome)) =
        some (true, true, true, some 7, true) := by
      decide +kernel
    obtain ⟨s, hrun, hfacts⟩ := map_eq_some_iff.mp hview
    simp only [Prod.mk.injEq, decide_eq_true_eq] at hfacts
    obtain ⟨hsent, hrefused, hfirst, hbound, hsome⟩ := hfacts
    obtain ⟨t, hlater⟩ := isSome_iff_exists.mp hsome
    refine ⟨s, t, hrun, hlater, hbound, ?_⟩
    refine (names_are_owned rfl hrun).2 secondNode 1 (by decide) (by decide) 8
      originText [.unregisterRequest "s" 0] [.deliver secondNode homeNode] t
      hsent hrefused (by simp) (fun sender hsender => ?_) (by simp [callsOf])
      hlater
    by_cases hother : sender = firstNode
    · rw [hother, hfirst]
    · refine inFlight_of_no_calls (homed_fresh oneHome) rfl ?_ hrun
      intro called hcalled
      have hcallers : ∀ called ∈ callsOf "s" (race 1),
          called.1 = firstNode ∨ called.1 = secondNode := by
        decide
      rcases hcallers called hcalled with heq | heq
      · rw [heq]
        exact Ne.symm hother
      · rw [heq]
        exact Ne.symm hsender

/-- Generations that do not fit: an owner other than the home cannot release a
name of generation one, a refused node removes an entry of generation zero,
and a refused home removes any entry. -/
theorem entries_go_wrong :
    boundAfter (release 1) = some (some 7) ∧
      boundAfter (race 0 ++ [.deliver secondNode homeNode, .deliver secondNode homeNode]) =
          some none ∧
      boundAfter
        [.localCall firstNode "s" (.register { id := 7 } 1), .deliver firstNode homeNode,
          .localCall homeNode "s" (.register { id := 8 } 1),
          .localCall homeNode "s" .unregister] = some none := by
  decide +kernel

end OwnershipWitness

end HPActor.NameCluster
