/-
Distributed names.  Every name has a home node, given by a hash ring, and the
home's directory holds the entry of the name.  Other nodes send it requests,
which the home answers, and keep what it answers in a cache.

The hash ring is taken as a function from names to homes.
-/
import HPActor.EndpointText

namespace HPActor

structure NameEntry where
  actorId : UInt64
  endpoint : EndPoint
  generation : UInt64 := 0

inductive RegisterResult where
  | ok
  | duplicateName
  | staleGeneration
deriving Repr, DecidableEq

structure NameDirectory where
  entries : String → Option NameEntry := fun _ => none

namespace NameDirectory

variable (d : NameDirectory) (name : String)

def emplace (entry : NameEntry) : NameDirectory :=
  { entries := Function.update d.entries name (some entry) }

/-- A higher generation takes over. -/
def registerEntry (entry : NameEntry) : NameDirectory × RegisterResult :=
  match d.entries name with
  | none => (d.emplace name entry, .ok)
  | some existing =>
    if entry.generation < existing.generation then (d, .staleGeneration)
    else if entry.generation = existing.generation then (d, .duplicateName)
    else (d.emplace name entry, .ok)

def resolve : Option NameEntry :=
  d.entries name

def unregister : NameDirectory :=
  { entries := Function.update d.entries name none }

end NameDirectory

/-- Addresses with the second at which they expire. -/
structure NameResolveCache where
  cache : String → Option (ActorAddress × Nat) := fun _ => none

namespace NameResolveCache

def get (c : NameResolveCache) (now : Nat) (name : String) : Option ActorAddress :=
  match c.cache name with
  | none => none
  | some (address, expiresAt) => if expiresAt ≤ now then none else some address

def put (c : NameResolveCache) (name : String) (address : ActorAddress)
    (expiresAt : Nat) : NameResolveCache :=
  { cache := Function.update c.cache name (some (address, expiresAt)) }

def evict (c : NameResolveCache) (name : String) : NameResolveCache :=
  { cache := Function.update c.cache name none }

end NameResolveCache

/-- What a home says about a name it was asked for. -/
structure NameResolveResponse where
  found : Bool
  actorId : UInt64 := 0
  endpoint : List Char := []
  generation : UInt64 := 0
deriving Repr, DecidableEq

namespace NameResolveResponse

/-- The address that the response carries. -/
def address (inet : InetLibrary) (response : NameResolveResponse) : Option ActorAddress :=
  if response.found = true ∧ response.endpoint ≠ [] then
    some
      { endpoint := EndPoint.parseEndpoint inet response.endpoint
        id := response.actorId }
  else none

end NameResolveResponse

/-- The messages of the name protocol. -/
inductive NameMessage where
  | registerRequest (name : String) (actorId : UInt64) (endpoint : List Char) (generation : UInt64)
  | registerResponse (result : UInt32)
  | resolveQuery (name : String)
  | resolveResponse (response : NameResolveResponse)
  | unregisterRequest (name : String) (generation : UInt64)
deriving Repr, DecidableEq

inductive NameRegisterResult where
  | ok
  | duplicateName
  | staleGeneration
  | timeout
  | disabled

namespace RegisterResult

def resultCode : RegisterResult → UInt32
  | .ok => 0
  | .duplicateName => 1
  | .staleGeneration => 3

def toNameRegisterResult : RegisterResult → NameRegisterResult
  | .ok => .ok
  | .duplicateName => .duplicateName
  | .staleGeneration => .staleGeneration

end RegisterResult

structure PendingResolve where
  result : Option ActorAddress := none
  ready : Bool := false

structure NameResolver where
  localEndpoint : EndPoint
  ring : String → Option EndPoint
  enabled : Bool := false
  outboundActive : Bool := false
  cacheTtlSeconds : Nat := 30
  nameDirectory : NameDirectory := {}
  cache : NameResolveCache := {}
  pendingResolves : String → Option PendingResolve := fun _ => none

namespace NameResolver

/-- What a call sends, if it sends anything. -/
abbrev Outbound := Option (EndPoint × NameMessage)

variable (inet : InetLibrary) (r : NameResolver)

def setDirectory (nameDirectory : NameDirectory) : NameResolver :=
  { r with nameDirectory := nameDirectory }

def IsHome (name : String) : Prop :=
  r.ring name = some r.localEndpoint

instance (r : NameResolver) (name : String) : Decidable (r.IsHome name) :=
  inferInstanceAs (Decidable (_ = _))

def send (target : EndPoint) (msg : NameMessage) : Outbound :=
  if r.outboundActive then some (target, msg) else none

/-- The answer of the directory is not looked at here. -/
def onLocalRegister (name : String)
    (address : ActorAddress) (generation : UInt64) : NameResolver × Outbound :=
  if r.enabled then
    match r.ring name with
    | none => (r, none)
    | some home =>
      if home = r.localEndpoint then
        let entry : NameEntry :=
          { actorId := address.id, endpoint := address.endpoint,
            generation := generation }
        (r.setDirectory (r.nameDirectory.registerEntry name entry).1, none)
      else
        (r, r.send home (.registerRequest name address.id
          (address.endpoint.toString inet) generation))
  else (r, none)

/-- The generation in the request is that of the node's own directory. -/
def onLocalUnregister (name : String) : NameResolver × Outbound :=
  if r.enabled then
    match r.ring name with
    | none => (r, none)
    | some home =>
      let evicted := { r with cache := r.cache.evict name }
      if home = r.localEndpoint then
        (evicted.setDirectory (r.nameDirectory.unregister name), none)
      else
        let generation :=
          match r.nameDirectory.resolve name with
          | some entry => entry.generation
          | none => 0
        (evicted, r.send home (.unregisterRequest name generation))
  else (r, none)

def onNameRegisterRequest (sender : EndPoint)
    (name : String) (address : ActorAddress) (generation : UInt64) :
    NameResolver × Outbound × NameRegisterResult :=
  if r.enabled = true ∧ r.IsHome name then
    let entry : NameEntry :=
      { actorId := address.id, endpoint := address.endpoint,
        generation := generation }
    let (nameDirectory, result) := r.nameDirectory.registerEntry name entry
    (r.setDirectory nameDirectory, r.send sender (.registerResponse result.resultCode),
      result.toNameRegisterResult)
  else (r, none, .disabled)

def onNameResolveQuery (sender : EndPoint) (name : String) : Outbound × Option ActorAddress :=
  if r.enabled = true ∧ r.IsHome name then
    match r.nameDirectory.resolve name with
    | none => (r.send sender (.resolveResponse { found := false }), none)
    | some entry =>
      (r.send sender (.resolveResponse
          { found := true, actorId := entry.actorId,
            endpoint := entry.endpoint.toString inet,
            generation := entry.generation }),
        some { endpoint := entry.endpoint, id := entry.actorId })
  else (none, none)

/-- The sender of the request is not looked at. -/
def onNameUnregisterRequest (name : String) (generation : UInt64) : NameResolver :=
  if r.enabled = true ∧ r.IsHome name then
    match r.nameDirectory.resolve name with
    | none => r
    | some existing =>
      if existing.generation ≤ generation then
        r.setDirectory (r.nameDirectory.unregister name)
      else r
  else r

/-- A response does not say which name it is about: it is given to every
resolve that waits. -/
def onNameResolveResponse (response : NameResolveResponse) : NameResolver :=
  let signal (pending : PendingResolve) : PendingResolve :=
    if pending.ready then pending
    else
      { result := (response.address inet).or pending.result
        ready := true }
  { r with pendingResolves := fun name => (r.pendingResolves name).map signal }

/-- The router of inbound frames, for the frames of the name protocol. -/
def receive (sender : EndPoint) : NameMessage → NameResolver × Outbound
  | .registerRequest name actorId endpoint generation =>
    let address : ActorAddress :=
      { endpoint := EndPoint.parseEndpoint inet endpoint, id := actorId }
    let (r, out, _) := r.onNameRegisterRequest sender name address generation
    (r, out)
  | .registerResponse _ => (r, none)
  | .resolveQuery name => (r, (r.onNameResolveQuery inet sender name).1)
  | .resolveResponse response => (r.onNameResolveResponse inet response, none)
  | .unregisterRequest name generation =>
    (r.onNameUnregisterRequest name generation, none)

end NameResolver

end HPActor
