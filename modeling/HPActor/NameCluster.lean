/-
A cluster of name resolvers: one for each node and a queue of messages for each
pair of nodes.  A name has the same home on every node.

A node that is not the home has no entry of its own for a name, so the
unregister requests it sends carry generation zero, whatever generation it
registered with.
-/
import HPActor.NameResolver
import HPActor.Runs

namespace HPActor

open NameResolver Function Option NameDirectory List NameMessage

namespace NameDirectory

/-- What a directory has for a name after a registration. -/
def afterRegister (existing : Option NameEntry) (entry : NameEntry) : Option NameEntry :=
  match existing with
  | none => some entry
  | some e => if e.generation < entry.generation then some entry else some e

/-- What a home has for a name after an unregister request. -/
def afterUnregister (existing : Option NameEntry) (generation : UInt64) : Option NameEntry :=
  match existing with
  | none => none
  | some e => if e.generation ≤ generation then none else some e

theorem registerEntry_entries (d : NameDirectory) (name : String) (entry : NameEntry) :
    (d.registerEntry name entry).1.entries =
      update d.entries name (afterRegister (d.entries name) entry) := by
  rw [registerEntry]
  cases hentry : d.entries name with
  | none => rfl
  | some e =>
    have hkeep : update d.entries name (some e) = d.entries := by
      rw [← hentry, update_eq_self]
    by_cases hlt : e.generation < entry.generation
    · have hge : ¬ entry.generation < e.generation := UInt64.lt_asymm hlt
      have hne : entry.generation ≠ e.generation :=
        fun heq => UInt64.ne_of_lt hlt heq.symm
      simp only [afterRegister, if_neg hge, if_neg hne, if_pos hlt]
      rfl
    · simp only [afterRegister, if_neg hlt, hkeep]
      split
      · rfl
      · rename_i hge
        have heq : entry.generation = e.generation :=
          UInt64.le_antisymm (UInt64.not_lt.mp hlt) (UInt64.not_lt.mp hge)
        rw [if_pos heq]

end NameDirectory

namespace NameMessage

/-- A request to change what the home has for a name. -/
def requests (name : String) : NameMessage → Bool
  | .registerRequest other _ _ _ => other = name
  | .unregisterRequest other _ => other = name
  | _ => false

/-- The entry of a name after its home has served a request. -/
def serve (inet : InetLibrary) (entry : Option NameEntry) : NameMessage → Option NameEntry
  | .registerRequest _ actorId endpoint generation =>
    NameDirectory.afterRegister entry ⟨actorId, EndPoint.parseEndpoint inet endpoint, generation⟩
  | .unregisterRequest _ generation =>
    NameDirectory.afterUnregister entry generation
  | _ => entry

end NameMessage

inductive LocalCall where
  | register (address : ActorAddress) (generation : UInt64)
  | unregister
deriving Repr, DecidableEq

/-- Messages from one node to another arrive in the order they were sent. -/
structure NameCluster where
  nodes : EndPoint → NameResolver
  channels : EndPoint × EndPoint → List NameMessage := fun _ => []

namespace NameCluster

def fresh (ring : String → Option EndPoint) : NameCluster :=
  { nodes := fun node =>
      { localEndpoint := node, ring := ring, enabled := true,
        outboundActive := true } }

variable (s : NameCluster)

def setNode (node : EndPoint) (r : NameResolver) : NameCluster :=
  { s with nodes := update s.nodes node r }

def setChannel (channel : EndPoint × EndPoint) (msgs : List NameMessage) : NameCluster :=
  { s with channels := update s.channels channel msgs }

def post (sender : EndPoint) : Outbound → NameCluster
  | none => s
  | some (target, msg) =>
    s.setChannel (sender, target) (s.channels (sender, target) ++ [msg])

inductive Action where
  | localCall (node : EndPoint) (name : String) (call : LocalCall)
  | deliver (sender receiver : EndPoint)

def call (inet : InetLibrary) (r : NameResolver) (name : String) :
    LocalCall → NameResolver × Outbound
  | .register address generation =>
    r.onLocalRegister inet name address generation
  | .unregister => r.onLocalUnregister name

def step (inet : InetLibrary) (s : NameCluster) : Action → Option NameCluster
  | .localCall node name c =>
    let (r, out) := call inet (s.nodes node) name c
    some ((s.setNode node r).post node out)
  | .deliver sender receiver =>
    match s.channels (sender, receiver) with
    | [] => none
    | msg :: rest =>
      let (r, out) := (s.nodes receiver).receive inet sender msg
      some (((s.setChannel (sender, receiver) rest).setNode receiver r).post receiver out)

def entryAt (node : EndPoint) (name : String) : Option NameEntry :=
  (s.nodes node).nameDirectory.entries name

/-- The requests about a name on their way from one node to another. -/
def inFlight (name : String) (sender receiver : EndPoint) : List NameMessage :=
  (s.channels (sender, receiver)).filter fun msg => msg.requests name

/-- No request about the name is on its way to the node. -/
def Quiet (name : String) (home : EndPoint) : Prop :=
  ∀ sender, s.inFlight name sender home = []

/-- The calls about a name, in their order. -/
def callsOf (name : String) (actions : List Action) : List (EndPoint × LocalCall) :=
  actions.filterMap fun action =>
    match action with
    | .localCall node other c => if other = name then some (node, c) else none
    | .deliver _ _ => none

/-- The resolver of a node, set up for the common ring. -/
structure Wired (ring : String → Option EndPoint) (node : EndPoint) (r : NameResolver) : Prop where
  localEndpoint : r.localEndpoint = node
  ring : r.ring = ring
  enabled : r.enabled = true
  outboundActive : r.outboundActive = true

/-- The request that a call at another node than the home sends, given the
entry of the node's own directory. -/
def requestFor (inet : InetLibrary) (own : Option NameEntry) (name : String) :
    LocalCall → NameMessage
  | .register address generation =>
    .registerRequest name address.id (address.endpoint.toString inet) generation
  | .unregister =>
    .unregisterRequest name
      (match own with
      | some entry => entry.generation
      | none => 0)

/-- What a call at the home does to the entry. -/
def callAtHome (entry : Option NameEntry) : LocalCall → Option NameEntry
  | .register address generation =>
    NameDirectory.afterRegister entry ⟨address.id, address.endpoint, generation⟩
  | .unregister => none

variable {inet : InetLibrary} {ring : String → Option EndPoint} {node home owner : EndPoint}
  {name : String} {r : NameResolver} {c : LocalCall} {entry : NameEntry}

section

variable (hr : Wired ring node r)
include hr

theorem call_wired (name : String) (c : LocalCall) : Wired ring node (call inet r name c).1 := by
  obtain ⟨hlocal, hring, henabled, hactive⟩ := hr
  cases c with
  | register address generation | unregister =>
    simp only [call, onLocalRegister, onLocalUnregister, if_pos henabled]
    split
    · exact ⟨hlocal, hring, henabled, hactive⟩
    · split <;> exact ⟨hlocal, hring, henabled, hactive⟩

theorem call_home (hhome : ring name = some node) (c : LocalCall) :
    (call inet r name c).1.nameDirectory.entries = update r.nameDirectory.entries name
          (callAtHome (r.nameDirectory.entries name) c) ∧
      (call inet r name c).2 = none := by
  have hlookup : r.ring name = some r.localEndpoint := by
    rw [hr.ring, hr.localEndpoint, hhome]
  cases c with
  | register address generation =>
    simp only [call, onLocalRegister, if_pos hr.enabled, hlookup, if_true]
    exact ⟨registerEntry_entries _ _ _, trivial⟩
  | unregister =>
    simp only [call, onLocalUnregister, if_pos hr.enabled, hlookup, if_true]
    exact ⟨rfl, trivial⟩

theorem call_remote (hhome : ring name = some home) (hne : home ≠ node) (c : LocalCall) :
    (call inet r name c).1.nameDirectory = r.nameDirectory ∧
      (call inet r name c).2 = some (home,
        requestFor inet (r.nameDirectory.entries name) name c) := by
  have hlookup : r.ring name = some home := by
    rw [hr.ring, hhome]
  have hremote : home ≠ r.localEndpoint := by
    rwa [hr.localEndpoint]
  cases c with
  | register address generation | unregister =>
    simp only [call, onLocalRegister, onLocalUnregister, if_pos hr.enabled, hlookup,
      if_neg hremote, send, if_pos hr.outboundActive]
    exact ⟨trivial, rfl⟩

/-- A call changes the entry of its name if the node is the home, and sends
the home a request otherwise. -/
theorem call_cases (name : String) (c : LocalCall) :
    (ring name = some node ∧ (call inet r name c).1.nameDirectory.entries =
        update r.nameDirectory.entries name (callAtHome (r.nameDirectory.entries name) c) ∧
      (call inet r name c).2 = none) ∨
    (ring name ≠ some node ∧ (call inet r name c).1.nameDirectory.entries =
        r.nameDirectory.entries ∧
      ((call inet r name c).2 = none ∨ ∃ home, ring name = some home ∧
        (call inet r name c).2 = some (home,
          requestFor inet (r.nameDirectory.entries name) name c))) := by
  cases hring : ring name with
  | none =>
    have hlookup : r.ring name = none := by rw [hr.ring, hring]
    cases c with
    | register address generation | unregister =>
      simp only [call, onLocalRegister, onLocalUnregister, if_pos hr.enabled, hlookup]
      exact .inr ⟨nofun, trivial, .inl trivial⟩
  | some home =>
    by_cases hnode : home = node
    · subst hnode
      exact .inl ⟨rfl, call_home hr hring c⟩
    · obtain ⟨hsame, hout⟩ :=
        @call_remote inet ring node home name r hr hring hnode c
      refine .inr ⟨fun h => hnode (some.inj h), ?_, .inr ⟨home, rfl, hout⟩⟩
      rw [hsame]

end

theorem onNameUnregisterRequest_entries (henabled : r.enabled = true)
    (hhome : r.IsHome name) (generation : UInt64) :
    (r.onNameUnregisterRequest name generation).nameDirectory.entries =
      update r.nameDirectory.entries name
        (afterUnregister (r.nameDirectory.entries name) generation) := by
  rw [onNameUnregisterRequest, if_pos ⟨henabled, hhome⟩]
  cases hentry : r.nameDirectory.entries name with
  | none =>
    simp only [resolve, hentry, afterUnregister]
    rw [← hentry, update_eq_self]
  | some e =>
    simp only [resolve, hentry, afterUnregister]
    split
    · rfl
    · rw [← hentry, update_eq_self]

theorem receive_wired (hr : Wired ring node r) (sender : EndPoint)
    (msg : NameMessage) : Wired ring node (r.receive inet sender msg).1 := by
  obtain ⟨hlocal, hring, henabled, hactive⟩ := hr
  cases msg with
  | registerRequest name actorId endpoint generation =>
    simp only [receive, onNameRegisterRequest]
    split <;> exact ⟨hlocal, hring, henabled, hactive⟩
  | registerResponse result | resolveQuery name | resolveResponse response =>
    exact ⟨hlocal, hring, henabled, hactive⟩
  | unregisterRequest name generation =>
    simp only [receive, onNameUnregisterRequest]
    split
    · split
      · exact ⟨hlocal, hring, henabled, hactive⟩
      · split <;> exact ⟨hlocal, hring, henabled, hactive⟩
    · exact ⟨hlocal, hring, henabled, hactive⟩

/-- A resolver serves the requests about the names it is the home of. -/
theorem receive_entries (hr : Wired ring node r) (sender : EndPoint)
    (msg : NameMessage) (name : String) :
    (r.receive inet sender msg).1.nameDirectory.entries name =
      if msg.requests name = true ∧ ring name = some node then
        msg.serve inet (r.nameDirectory.entries name)
      else r.nameDirectory.entries name := by
  have hhome : ∀ other, r.IsHome other ↔ ring other = some node := by
    intro other
    rw [IsHome, hr.ring, hr.localEndpoint]
  cases msg with
  | registerRequest other actorId endpoint generation =>
    by_cases hother : ring other = some node
    · rcases eq_or_ne name other with rfl | hname
      · simp [receive, onNameRegisterRequest, hr.enabled, hhome, hother, setDirectory,
          registerEntry_entries, requests, serve]
      · simp [receive, onNameRegisterRequest, hr.enabled, hhome, hother, setDirectory,
          registerEntry_entries, requests, hname, hname.symm]
    · rw [receive, onNameRegisterRequest, if_neg fun h => hother ((hhome other).mp h.2), if_neg]
      rintro ⟨hname, hnode⟩
      rw [requests, decide_eq_true_eq] at hname
      exact hother (hname ▸ hnode)
  | registerResponse result | resolveQuery other | resolveResponse response =>
    rfl
  | unregisterRequest other generation =>
    by_cases hother : ring other = some node
    · have hentries := onNameUnregisterRequest_entries hr.enabled ((hhome other).mpr hother)
        generation
      rcases eq_or_ne name other with rfl | hname
      · simp [receive, hentries, requests, serve, hother]
      · simp [receive, hentries, requests, hname, hname.symm]
    · rw [receive, onNameUnregisterRequest, if_neg fun h => hother ((hhome other).mp h.2), if_neg]
      rintro ⟨hname, hnode⟩
      rw [requests, decide_eq_true_eq] at hname
      exact hother (hname ▸ hnode)

/-- The answers are no requests. -/
theorem receive_answer {sender target : EndPoint} {msg reply : NameMessage}
    (hreply : (r.receive inet sender msg).2 = some (target, reply))
    (name : String) : reply.requests name = false := by
  have hsend : ∀ answer, r.send sender answer = some (target, reply) → reply = answer := by
    intro answer hsent
    rw [send] at hsent
    split at hsent
    · cases hsent
      rfl
    · cases hsent
  cases msg with
  | registerRequest other actorId endpoint generation =>
    simp only [receive, onNameRegisterRequest] at hreply
    split at hreply
    · rw [hsend _ hreply]
      rfl
    · cases hreply
  | registerResponse result | resolveResponse response
  | unregisterRequest other generation => cases hreply
  | resolveQuery other =>
    simp only [receive, onNameResolveQuery] at hreply
    split at hreply
    · split at hreply <;> exact hsend _ hreply ▸ rfl
    · cases hreply

variable {s t : NameCluster}

section

variable (s : NameCluster)

@[simp] theorem post_nodes (sender : EndPoint)
    (out : Outbound) : (s.post sender out).nodes = s.nodes := by
  cases out <;> rfl

theorem entryAt_post (sender : EndPoint) (out : Outbound) (node : EndPoint) (name : String) :
    (s.post sender out).entryAt node name = s.entryAt node name := by
  rw [entryAt, post_nodes]
  rfl

theorem entryAt_setNode (node : EndPoint) (r : NameResolver) (other : EndPoint) (name : String) :
    (s.setNode node r).entryAt other name =
      if other = node then r.nameDirectory.entries name
      else s.entryAt other name := by
  rw [entryAt, setNode]
  by_cases hother : other = node
  · subst hother
    simp only [update_self, if_true]
  · simp only [update_of_ne hother, if_neg hother]
    rfl

theorem setChannel_self (channel : EndPoint × EndPoint) (msgs : List NameMessage) :
    (s.setChannel channel msgs).channels channel = msgs :=
  update_self _ _ _

end

theorem setChannel_of_ne {channel other : EndPoint × EndPoint}
    (hother : other ≠ channel) (msgs : List NameMessage) :
    (s.setChannel channel msgs).channels other = s.channels other :=
  update_of_ne hother _ _

variable {sender : EndPoint}

theorem mem_post {channel : EndPoint × EndPoint} {msg : NameMessage} {out : Outbound}
    (hmsg : msg ∈ (s.post sender out).channels channel) :
    msg ∈ s.channels channel ∨ out = some (channel.2, msg) := by
  cases out with
  | none => exact .inl hmsg
  | some sent =>
    obtain ⟨target, sentMsg⟩ := sent
    rw [post] at hmsg
    by_cases hchannel : channel = (sender, target)
    · subst hchannel
      rw [setChannel_self, mem_append, mem_singleton] at hmsg
      rcases hmsg with hold | rfl
      · exact .inl hold
      · exact .inr rfl
    · rw [setChannel_of_ne hchannel] at hmsg
      exact .inl hmsg

theorem inFlight_post_of_not_requests {out : Outbound}
    (hout : ∀ target msg, out = some (target, msg) → msg.requests name = false) (a b : EndPoint) :
    (s.post sender out).inFlight name a b = s.inFlight name a b := by
  cases out with
  | none => rfl
  | some sent =>
    obtain ⟨target, msg⟩ := sent
    rw [inFlight, post]
    by_cases hchannel : (a, b) = (sender, target)
    · rw [hchannel, setChannel_self, filter_append, filter_singleton, hout target msg rfl]
      cases hchannel
      exact append_nil _
    · rw [setChannel_of_ne hchannel]
      rfl

theorem inFlight_post_request {msg : NameMessage} (hmsg : msg.requests name = true) (a : EndPoint) :
    (s.post sender (some (home, msg))).inFlight name a home =
      if a = sender then s.inFlight name a home ++ [msg]
      else s.inFlight name a home := by
  rw [inFlight, post]
  by_cases hsender : a = sender
  · subst hsender
    rw [setChannel_self, filter_append, filter_singleton, hmsg, if_pos rfl]
    rfl
  · rw [if_neg hsender, setChannel_of_ne fun heq => hsender (Prod.mk.inj heq).1]
    rfl

theorem inFlight_post_of_ne {a : EndPoint} (hne : sender ≠ a) (out : Outbound) (b : EndPoint) :
    (s.post sender out).inFlight name a b = s.inFlight name a b := by
  cases out with
  | none => rfl
  | some sent =>
    rw [inFlight, post, setChannel_of_ne fun heq => hne (Prod.mk.inj heq).1.symm]
    rfl

/-- Taking the first message out of a channel. -/
theorem inFlight_take {receiver : EndPoint} {msg : NameMessage} {rest : List NameMessage}
    (hchannel : s.channels (sender, receiver) = msg :: rest) (a b : EndPoint) :
    s.inFlight name a b =
      if (a, b) = (sender, receiver) ∧ msg.requests name = true then
        msg :: (s.setChannel (sender, receiver) rest).inFlight name a b
      else (s.setChannel (sender, receiver) rest).inFlight name a b := by
  rw [inFlight, inFlight]
  by_cases hab : (a, b) = (sender, receiver)
  · rw [hab, hchannel, setChannel_self, filter_cons]
    simp
  · rw [if_neg fun h => hab h.1, setChannel_of_ne hab]

theorem requestFor_requests (own : Option NameEntry) (name other : String) (c : LocalCall) :
    (requestFor inet own name c).requests other = decide (name = other) := by
  cases c <;> rfl

/-- What holds in every state of a run: only the home has an entry for a name,
and so the unregister requests carry generation zero. -/
structure Homed (ring : String → Option EndPoint) (s : NameCluster) : Prop where
  wired : ∀ node, Wired ring node (s.nodes node)
  homed : ∀ node name, ring name ≠ some node → s.entryAt node name = none
  zero : ∀ channel name generation,
    .unregisterRequest name generation ∈ s.channels channel → generation = 0

theorem homed_fresh (ring : String → Option EndPoint) : (fresh ring).Homed ring where
  wired := fun _ => ⟨rfl, rfl, rfl, rfl⟩
  homed := fun _ _ _ => rfl
  zero := fun _ _ _ hmem => (not_mem_nil hmem).elim

theorem Homed.setNode (hs : s.Homed ring) (hr : Wired ring node r)
    (hentries : ∀ name, ring name ≠ some node →
      r.nameDirectory.entries name = none) : (s.setNode node r).Homed ring where
  wired := (forall_update_iff s.nodes
    (fun node r => Wired ring node r)).mpr ⟨hr, fun other _ => hs.wired other⟩
  homed := by
    intro other name hother
    rw [entryAt_setNode]
    split
    · rename_i heq
      rw [heq] at hother
      exact hentries name hother
    · exact hs.homed other name hother
  zero := hs.zero

theorem Homed.post (hs : s.Homed ring) {sender : EndPoint}
    {out : Outbound}
    (hout : ∀ target name generation, out = some (target, .unregisterRequest name generation) →
        generation = 0) : (s.post sender out).Homed ring where
  wired := by rw [post_nodes]; exact hs.wired
  homed := fun other name hother => by
    rw [entryAt_post]
    exact hs.homed other name hother
  zero := by
    intro channel name generation hmem
    rcases mem_post hmem with hold | hnew
    · exact hs.zero channel name generation hold
    · exact hout _ name generation hnew

theorem step_localCall (s : NameCluster) (node : EndPoint) (name : String) (c : LocalCall) :
    s.step inet (.localCall node name c) =
      some ((s.setNode node (call inet (s.nodes node) name c).1).post node
        (call inet (s.nodes node) name c).2) := rfl

theorem step_deliver {receiver : EndPoint}
    (hstep : s.step inet (.deliver sender receiver) = some t) :
    ∃ msg rest, s.channels (sender, receiver) = msg :: rest ∧
      t = ((s.setChannel (sender, receiver) rest).setNode receiver
        ((s.nodes receiver).receive inet sender msg).1).post receiver
          ((s.nodes receiver).receive inet sender msg).2 := by
  rw [step] at hstep
  split at hstep
  · cases hstep
  · rename_i msg rest hchannel
    exact ⟨msg, rest, hchannel, (some.inj hstep).symm⟩

section

variable (hs : s.Homed ring)
include hs

theorem Homed.localCall (hstep : s.step inet (.localCall node name c) = some t) : t.Homed ring := by
  obtain rfl := some.inj ((step_localCall s node name c).symm.trans hstep)
  rcases call_cases (hs.wired node) name c with
    ⟨hhome, hentries, hout⟩ | ⟨hhome, hentries, hout⟩
  · have hnode := hs.setNode (call_wired (hs.wired node) name c)
      (fun other hother => by
        have hne : other ≠ name := fun heq => hother (heq ▸ hhome)
        rw [hentries, update_of_ne hne]
        exact hs.homed node other hother)
    exact hnode.post (by simp [hout])
  · have hnode := hs.setNode (call_wired (hs.wired node) name c)
      (fun other hother => by
        rw [hentries]
        exact hs.homed node other hother)
    apply hnode.post
    intro target other generation hsent
    rcases hout with hnone | ⟨home, -, hrequest⟩
    · simp [hnone] at hsent
    · have hown : (s.nodes node).nameDirectory.entries name = none :=
        hs.homed node name hhome
      rw [hrequest, hown] at hsent
      cases c with
      | register address g => cases hsent
      | unregister =>
        cases hsent
        rfl

theorem Homed.deliver {sender receiver : EndPoint}
    (hstep : s.step inet (.deliver sender receiver) = some t) :
    t.Homed ring := by
  obtain ⟨msg, rest, hchannel, rfl⟩ := step_deliver hstep
  have htake : (s.setChannel (sender, receiver) rest).Homed ring :=
    { hs with
      zero := by
        intro channel other generation hmem
        by_cases heq : channel = (sender, receiver)
        · subst heq
          rw [setChannel_self] at hmem
          apply hs.zero (sender, receiver) other generation
          rw [hchannel]
          exact mem_cons_of_mem msg hmem
        · rw [setChannel_of_ne heq] at hmem
          exact hs.zero channel other generation hmem }
  have hnode := htake.setNode (receive_wired (hs.wired receiver) sender msg)
    (fun other hother => by
      rw [@receive_entries inet ring receiver _ (hs.wired receiver) sender msg,
        if_neg fun h => hother h.2]
      exact hs.homed receiver other hother)
  apply hnode.post
  intro target other generation hsent
  have hanswer := receive_answer hsent other
  rw [requests, decide_eq_false_iff_not] at hanswer
  exact absurd rfl hanswer

theorem Homed.step {action : Action} (hstep : s.step inet action = some t) : t.Homed ring := by
  cases action with
  | localCall node name c => exact hs.localCall hstep
  | deliver sender receiver => exact hs.deliver hstep

/-- A delivery to the home serves the request, and one to another node does
not touch the home's entry. -/
theorem entryAt_deliver (hhome : ring name = some home)
    {sender receiver : EndPoint} {msg : NameMessage} {rest : List NameMessage} :
    (((s.setChannel (sender, receiver) rest).setNode receiver
      ((s.nodes receiver).receive inet sender msg).1).post receiver
        ((s.nodes receiver).receive inet sender msg).2).entryAt home name =
      if receiver = home ∧ msg.requests name = true then
        msg.serve inet (s.entryAt home name)
      else s.entryAt home name := by
  rw [entryAt_post, entryAt_setNode]
  by_cases hreceiver : receiver = home
  · subst hreceiver
    rw [if_pos rfl, receive_entries (hs.wired receiver)]
    by_cases hmsg : msg.requests name = true
    · rw [if_pos ⟨hmsg, hhome⟩, if_pos ⟨rfl, hmsg⟩]
      rfl
    · rw [if_neg fun h => hmsg h.1, if_neg fun h => hmsg h.2]
      rfl
  · rw [if_neg fun h => hreceiver h.symm, if_neg fun h => hreceiver h.1]
    rfl

end

theorem inFlight_deliver {sender receiver : EndPoint} {msg : NameMessage}
    {rest : List NameMessage} (a b : EndPoint) :
    (((s.setChannel (sender, receiver) rest).setNode receiver
      ((s.nodes receiver).receive inet sender msg).1).post receiver
        ((s.nodes receiver).receive inet sender msg).2).inFlight name a b =
      (s.setChannel (sender, receiver) rest).inFlight name a b := by
  rw [inFlight_post_of_not_requests]
  · rfl
  · exact fun target reply hreply => receive_answer hreply name

/-- A call about another name changes nothing. -/
theorem call_other (hs : s.Homed ring) {other : String} (hother : other ≠ name) (home : EndPoint)
    (hstep : s.step inet (.localCall node other c) = some t) :
    (∀ a, t.inFlight name a home = s.inFlight name a home) ∧
      t.entryAt home name = s.entryAt home name := by
  obtain rfl :=
    some.inj ((step_localCall s node other c).symm.trans hstep)
  constructor
  · intro a
    rw [inFlight_post_of_not_requests]
    · rfl
    · intro target msg hout
      rcases @call_cases inet ring node _ (hs.wired node) other c with
        ⟨-, -, hnone⟩ | ⟨-, -, hnone | ⟨_, -, hsome⟩⟩
      · simp [hnone] at hout
      · simp [hnone] at hout
      · rw [hsome] at hout
        cases hout
        rw [requestFor_requests, decide_eq_false hother]
  · rw [entryAt_post, entryAt_setNode]
    split
    · rename_i hnode
      subst hnode
      rcases @call_cases inet ring home _ (hs.wired home) other c with
        ⟨-, hentries, -⟩ | ⟨-, hentries, -⟩
      · rw [hentries, update_of_ne (Ne.symm hother)]
        rfl
      · rw [hentries]
        rfl
    · rfl

/-- A node that makes no calls about a name has no requests about it in
flight. -/
theorem inFlight_of_no_calls {sender : EndPoint} {actions : List Action}
    (hs : s.Homed ring) (hnone : s.inFlight name sender home = [])
    (hcalls : ∀ called ∈ callsOf name actions, called.1 ≠ sender)
    (hrun : Runs.run (step inet) s actions = some t) :
    t.inFlight name sender home = [] := by
  induction actions generalizing s with
  | nil =>
    rw [Runs.run_nil] at hrun
    cases hrun
    exact hnone
  | cons action rest ih =>
    obtain ⟨mid, hstep, hrest⟩ := Runs.run_cons_eq_some.mp hrun
    have hcallsRest : ∀ called ∈ callsOf name rest, called.1 ≠ sender := by
      intro called hmem
      apply hcalls called
      rw [callsOf, filterMap_cons]
      split
      · exact hmem
      · exact mem_cons_of_mem _ hmem
    refine ih (hs.step hstep) ?_ hcallsRest hrest
    cases action with
    | deliver a b =>
      obtain ⟨msg, left, hchannel, rfl⟩ := step_deliver hstep
      rw [inFlight_deliver]
      rw [@inFlight_take name s a b msg left hchannel] at hnone
      split at hnone
      · cases hnone
      · exact hnone
    | localCall node other c =>
      by_cases hother : other = name
      · subst hother
        have hne : node ≠ sender := hcalls (node, c) (by simp [callsOf])
        obtain rfl :=
          some.inj ((step_localCall s node other c).symm.trans hstep)
        rw [inFlight_post_of_ne hne]
        exact hnone
      · rw [(call_other hs hother home hstep).1]
        exact hnone

end NameCluster

end HPActor
