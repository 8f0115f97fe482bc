/-
`RegistrarConnection`: the registrar protocol over a TCP socket.  A read event
fills up the header and then the payload and hands one message to the handler.
The event loop always says that the descriptor is readable, so a `recv` that
would block answers an error, and an error closes the connection.
-/
import HPActor.FrameReassembly

namespace HPActor

open List

/-- `EventLoop::has_event`, which looks at neither of its arguments. -/
def EventLoop.hasEvent : Bool := true

inductive TcpMessageType where
  | register
  | heartbeat
  | nodeJoin
  | nodeLeave
  | accept
  | error

def TcpMessageType.code : TcpMessageType → UInt8
  | .register => 0x01
  | .heartbeat => 0x02
  | .nodeJoin => 0x03
  | .nodeLeave => 0x04
  | .accept => 0x05
  | .error => 0x06

namespace RegistrarConnection

def tcpHeaderSize : Nat := 10

/-- The bytes of `TcpRegistrarMagic` in network order. -/
def tcpRegistrarMagic : List UInt8 := [0x48, 0x50, 0x52, 0x43]

def tcpRegistrarVersion : UInt8 := 0x01

/-- The type and the payload of a message. -/
abbrev TcpMessage := TcpMessageType × List UInt8

/-- Magic, version, type, and the length after the cast to 32 bits. -/
def headerOf (message : TcpMessage) : List UInt8 :=
  tcpRegistrarMagic ++ [tcpRegistrarVersion, message.1.code] ++
    WireFrame.lengthBytes (message.2.length % 2 ^ 32)

/-- The bytes `send_message` puts into the write buffer. -/
def encode (message : TcpMessage) : List UInt8 :=
  headerOf message ++ message.2

def encodeAll (messages : List TcpMessage) : List UInt8 :=
  messages.flatMap encode

inductive ReadState where
  | readingHeader
  | readingPayload

/-- How a loop over `recv` ends: the buffer is full, the loop waits for the
next event, or the connection is gone. -/
inductive FillResult where
  | full
  | waiting
  | gone

/-- The loop over `recv` that has `missing` bytes to go.  The socket holds the
chunks that have arrived; each `recv` takes at most one of them, and an empty
chunk is the end of the stream. -/
def fill : Nat → List (List UInt8) → List UInt8 × List (List UInt8) × FillResult
  | 0, socket => ([], socket, .full)
  | missing + 1, socket =>
    if EventLoop.hasEvent = false then ([], socket, .waiting)
    else
      match socket with
      | [] => ([], [], .gone)
      | [] :: rest => ([], rest, .gone)
      | (byte :: bytes) :: rest =>
        if bytes.length ≤ missing then
          let further := fill (missing - bytes.length) rest
          (byte :: bytes ++ further.1, further.2)
        else
          (byte :: bytes.take missing, bytes.drop missing :: rest, .full)

end RegistrarConnection

/-- `header` and `payload` are the bytes read so far of the two buffers.
`handled` is a ghost field: what the message handler was called with. -/
structure RegistrarConnection where
  isOpen : Bool := true
  readState : RegistrarConnection.ReadState := .readingHeader
  header : List UInt8 := []
  currentType : UInt8 := TcpMessageType.register.code
  payloadSize : Nat := 0
  payload : List UInt8 := []
  socket : List (List UInt8) := []
  handled : List (UInt8 × List UInt8) := []

namespace RegistrarConnection

variable (c : RegistrarConnection) (message : TcpMessage)

def close : RegistrarConnection :=
  { c with isOpen := false }

def addHeader (bytes : List UInt8) (socket : List (List UInt8)) : RegistrarConnection :=
  { c with header := c.header ++ bytes, socket }

def addPayload (bytes : List UInt8) (socket : List (List UInt8)) : RegistrarConnection :=
  { c with payload := c.payload ++ bytes, socket }

/-- Hand the message to the handler and start over. -/
def deliver : RegistrarConnection :=
  { c with
    handled := c.handled ++ [(c.currentType, c.payload)]
    header := [], payload := [], payloadSize := 0
    readState := .readingHeader }

def handlePayloadRead : RegistrarConnection :=
  if c.isOpen = false then c
  else
    match fill (c.payloadSize - c.payload.length) c.socket with
    | (bytes, socket, .waiting) => c.addPayload bytes socket
    | (bytes, socket, .gone) => (c.addPayload bytes socket).close
    | (bytes, socket, .full) => (c.addPayload bytes socket).deliver

/-- A wrong magic or version costs the first byte of the header. -/
def skipByte : RegistrarConnection :=
  { c with header := c.header.drop 1 }

/-- The header is parsed again in every event, and the payload read so far is
forgotten. -/
def startPayload : RegistrarConnection :=
  { c with
    currentType := c.header.getD 5 0
    payloadSize := WireFrame.parseLength (c.header.drop 2)
    payload := []
    readState := .readingPayload }

def parseHeader : RegistrarConnection :=
  if c.header.take 4 ≠ tcpRegistrarMagic then c.skipByte
  else if c.header.getD 4 0 ≠ tcpRegistrarVersion then c.skipByte
  else c.startPayload.handlePayloadRead

def handleReadEvent : RegistrarConnection :=
  if c.isOpen = false then c
  else
    match fill (tcpHeaderSize - c.header.length) c.socket with
    | (bytes, socket, .waiting) => c.addHeader bytes socket
    | (bytes, socket, .gone) => (c.addHeader bytes socket).close
    | (bytes, socket, .full) => (c.addHeader bytes socket).parseHeader

/-- What happens to a connection: bytes arrive, or the loop reports that it is
readable. -/
inductive Happening where
  | arrive (chunk : List UInt8)
  | readEvent

def happen : Happening → RegistrarConnection
  | .arrive chunk => { c with socket := c.socket ++ [chunk] }
  | .readEvent => c.handleReadEvent

def after (happenings : List Happening) : RegistrarConnection :=
  happenings.foldl happen c

/-- The chunks that arrive in the course of some happenings. -/
def arrivals : List Happening → List (List UInt8)
  | [] => []
  | .arrive chunk :: rest => chunk :: arrivals rest
  | .readEvent :: rest => arrivals rest

/-- Every read event finds the next message whole among the bytes that wait, as
long as there is one to come, and there are as many events as messages. -/
def FoundWhole : Nat → List TcpMessage → List Happening → Prop
  | _, [], _ => True
  | _, _ :: _, [] => False
  | waiting, todo, .arrive chunk :: rest => FoundWhole (waiting + chunk.length) todo rest
  | waiting, message :: todo, .readEvent :: rest =>
    (encode message).length ≤ waiting ∧
      FoundWhole (waiting - (encode message).length) todo rest

/-- What the loop takes from the socket: as much as is missing, or all there
is. -/
theorem fill_spec {missing : Nat} {socket : List (List UInt8)} (hchunks : [] ∉ socket) :
    socket.flatten = (fill missing socket).1 ++ (fill missing socket).2.1.flatten ∧
      [] ∉ (fill missing socket).2.1 ∧
      ((fill missing socket).2.2 = .full ∧ (fill missing socket).1.length = missing ∨
        (fill missing socket).2.2 = .gone ∧ socket.flatten.length < missing) := by
  induction socket generalizing missing with
  | nil =>
    cases missing with
    | zero => simp [fill]
    | succ missing => simp [fill, EventLoop.hasEvent]
  | cons chunk rest ih =>
    obtain ⟨hchunk, hrest⟩ := not_or.mp (mt mem_cons.mpr hchunks)
    cases missing with
    | zero => simp [fill, hchunk, hrest]
    | succ missing =>
      cases chunk with
      | nil => exact absurd rfl hchunk
      | cons byte bytes =>
        simp only [fill, EventLoop.hasEvent, Bool.true_eq_false, ↓reduceIte]
        by_cases hshort : bytes.length ≤ missing
        · obtain ⟨hflat, hne, hend⟩ := @ih (missing - bytes.length) hrest
          simp only [hshort, ↓reduceIte, flatten_cons, cons_append, append_assoc, ← hflat, true_and,
            length_cons, length_append]
          exact ⟨hne, hend.imp (.imp_right (by omega)) (.imp_right (by omega))⟩
        · have hdrop : [] ≠ bytes.drop missing := by
            rw [ne_comm, Ne, drop_eq_nil_iff]
            exact hshort
          simp only [hshort, ↓reduceIte, flatten_cons, cons_append, ← append_assoc,
            take_append_drop, mem_cons, not_or, true_and, length_cons, length_take]
          exact ⟨⟨hdrop, hrest⟩, .inl (by omega)⟩

theorem headerOf_length :
    (headerOf message).length = tcpHeaderSize := rfl

/-- A message as the handler gets it. -/
def asHandled : UInt8 × List UInt8 :=
  (message.1.code, message.2)

/-- A header of the protocol is accepted, with its type and its length. -/
theorem parseHeader_headerOf {c : RegistrarConnection} {message : TcpMessage}
    (hlen : message.2.length < 2 ^ 32) (hheader : c.header = headerOf message) :
    c.parseHeader = handlePayloadRead
        { c with
          currentType := message.1.code, payloadSize := message.2.length
          payload := [], readState := .readingPayload } := by
  have hlength : WireFrame.parseLength (c.header.drop 2) = message.2.length := by
    have hparse := WireFrame.parseLength_lengthBytes 0x52 0x43
      tcpRegistrarVersion message.1.code hlen []
    rw [append_nil] at hparse
    rw [hheader, headerOf, Nat.mod_eq_of_lt hlen]
    exact hparse
  have htype : c.header.getD 5 0 = message.1.code := by
    rw [hheader]
    rfl
  rw [parseHeader, if_neg, if_neg, startPayload, hlength, htype]
  · rw [hheader]
    exact not_not.mpr rfl
  · rw [hheader]
    exact not_not.mpr rfl

/-- An open connection between two messages: those handed over, those to come,
and the bytes that have not arrived yet. -/
structure Reading (messages done todo : List TcpMessage) (later : List UInt8)
    (c : RegistrarConnection) : Prop where
  split : messages = done ++ todo
  handled : c.handled = done.map asHandled
  isOpen : c.isOpen = true
  header : c.header = []
  chunks : [] ∉ c.socket
  stream : c.socket.flatten ++ later = encodeAll todo

theorem encode_length : (encode message).length = tcpHeaderSize + message.2.length := by
  rw [encode, length_append, headerOf_length]

section

variable {messages done todo rest : List TcpMessage} {later : List UInt8} {c message}

/-- The payload of an event that began at a message: the message is handed
over, or the connection closes inside it. -/
theorem handlePayloadRead_reads (hsplit : messages = done ++ message :: rest)
    (hopen : c.isOpen = true) (hhandled : c.handled = done.map asHandled)
    (htype : c.currentType = message.1.code) (hsize : c.payloadSize = message.2.length)
    (hpayload : c.payload = []) (hchunks : [] ∉ c.socket)
    (hstream : c.socket.flatten ++ later = message.2 ++ encodeAll rest) :
    message.2.length ≤ c.socket.flatten.length ∧
        Reading messages (done ++ [message]) rest later c.handlePayloadRead ∨
      c.socket.flatten.length < message.2.length ∧ c.handlePayloadRead.isOpen = false ∧
        c.handlePayloadRead.handled = c.handled := by
  have hmissing : c.payloadSize - c.payload.length = message.2.length := by
    rw [hsize, hpayload, length_nil, Nat.sub_zero]
  obtain ⟨hflat, hne, hend⟩ := @fill_spec message.2.length c.socket hchunks
  rw [handlePayloadRead, if_neg (by rw [hopen]; decide), hmissing]
  rcases hfill : fill message.2.length c.socket with ⟨bytes, socket, result⟩
  rw [hfill] at hflat hne hend
  rcases hend with ⟨rfl, hlen⟩ | ⟨rfl, hshort⟩
  · left
    rw [hflat, append_assoc] at hstream
    obtain ⟨rfl, hrest⟩ := append_inj hstream hlen
    refine ⟨by rw [hflat, length_append]; exact Nat.le_add_right _ _,
      by rw [hsplit, append_assoc]; rfl, ?_, hopen, rfl, hne, hrest⟩
    simp [deliver, addPayload, hhandled, htype, hpayload, asHandled]
  · exact .inr ⟨hshort, rfl, rfl⟩

section

variable (hlen : ∀ message ∈ messages, message.2.length < 2 ^ 32)
include hlen

/-- A read event between two messages hands over the next one if it is there as
a whole, and closes the connection if not. -/
theorem handleReadEvent_step (hreading : Reading messages done todo later c) :
    (∃ message rest, todo = message :: rest ∧
        (encode message).length ≤ c.socket.flatten.length ∧
        Reading messages (done ++ [message]) rest later c.handleReadEvent) ∨
      (∀ message ∈ todo.head?, c.socket.flatten.length < (encode message).length) ∧
        c.handleReadEvent.isOpen = false ∧ c.handleReadEvent.handled = c.handled := by
  have hstream := hreading.stream
  obtain ⟨hflat, hne, hend⟩ := @fill_spec tcpHeaderSize c.socket hreading.chunks
  rw [handleReadEvent, if_neg (by rw [hreading.isOpen]; decide), hreading.header, length_nil,
    Nat.sub_zero]
  rcases hfill : fill tcpHeaderSize c.socket with ⟨bytes, socket, result⟩
  rw [hfill] at hflat hne hend
  rcases hend with ⟨rfl, hlength⟩ | ⟨rfl, hshort⟩
  · rw [hflat, append_assoc] at hstream
    cases todo with
    | nil =>
      rw [(append_eq_nil_iff.mp hstream).1] at hlength
      cases hlength
    | cons message rest =>
      rw [encodeAll, flatMap_cons, encode, append_assoc] at hstream
      obtain ⟨rfl, hafter⟩ := append_inj hstream hlength
      have hheader : (c.addHeader (headerOf message) socket).header = headerOf message := by
        rw [addHeader, hreading.header, nil_append]
      have hmessage := hlen message (by simp [hreading.split])
      have hsize : c.socket.flatten.length = tcpHeaderSize + socket.flatten.length := by
        rw [hflat, length_append, headerOf_length]
      simp only [parseHeader_headerOf hmessage hheader, head?_cons, Option.mem_some_iff,
        forall_eq', encode_length, hsize, Nat.add_le_add_iff_left, Nat.add_lt_add_iff_left]
      refine Or.imp_left (fun hnext => ⟨message, rest, rfl, hnext⟩) ?_
      exact handlePayloadRead_reads (c := { c.addHeader (headerOf message) socket with
        currentType := _, payloadSize := _, payload := _, readState := _ }) hreading.split
        hreading.isOpen hreading.handled rfl rfl rfl hne hafter
  · refine .inr ⟨fun message _ => ?_, rfl, rfl⟩
    rw [encode_length]
    omega

omit hlen in
theorem Reading.arrive {chunk : List UInt8} (hchunk : chunk ≠ [])
    (hreading : Reading messages done todo (chunk ++ later) c) :
    Reading messages done todo later (c.happen (.arrive chunk)) :=
  { hreading with
    chunks := by simp [happen, hreading.chunks, hchunk.symm]
    stream := by simpa [happen] using hreading.stream }

omit hlen in
/-- A closed connection hands nothing over. -/
theorem after_closed (hclosed : c.isOpen = false) (happenings : List Happening) :
    (c.after happenings).handled = c.handled := by
  induction happenings generalizing c with
  | nil => rfl
  | cons happening rest ih =>
    cases happening with
    | arrive chunk => exact ih (c := c.happen (.arrive chunk)) hclosed
    | readEvent =>
      have hsame : c.happen .readEvent = c := if_pos hclosed
      rw [after, foldl_cons, hsame]
      exact ih hclosed

omit hlen in
/-- The connection has handed over what is done, and that is everything once
nothing is left to come. -/
theorem handled_of_split (hsplit : messages = done ++ todo)
    (hhandled : c.handled = done.map asHandled) :
    c.handled <+: messages.map asHandled ∧ (c.handled = messages.map asHandled ↔ todo = []) := by
  rw [hhandled, hsplit, map_append]
  exact ⟨prefix_append _ _, by rw [self_eq_append_right, map_eq_nil_iff]⟩

theorem handled_after {happenings : List Happening} (hchunks : [] ∉ arrivals happenings)
    (hreading : Reading messages done todo ((arrivals happenings).flatten ++ later) c) :
    (c.after happenings).handled <+: messages.map asHandled ∧
      ((c.after happenings).handled = messages.map asHandled ↔
        FoundWhole c.socket.flatten.length todo happenings) := by
  induction happenings generalizing c done todo with
  | nil =>
    refine (handled_of_split hreading.split hreading.handled).imp_right fun hiff => hiff.trans ?_
    cases todo <;> simp [FoundWhole]
  | cons happening rest ih =>
    cases happening with
    | arrive chunk =>
      obtain ⟨hchunk, hrest⟩ := not_or.mp (mt mem_cons.mpr hchunks)
      rw [arrivals, flatten_cons, append_assoc] at hreading
      refine (ih hrest (hreading.arrive (Ne.symm hchunk))).imp_right fun hiff => hiff.trans ?_
      cases todo <;> simp [FoundWhole, happen]
    | readEvent =>
      rcases handleReadEvent_step hlen hreading with
        ⟨message, todo, rfl, hwhole, hnext⟩ | ⟨hshort, hclosed, hsame⟩
      · -- what waits afterwards is what waited without the message
        have hwaiting : c.handleReadEvent.socket.flatten.length =
            c.socket.flatten.length - (encode message).length := by
          have hbefore := congrArg List.length hreading.stream
          have hafter := congrArg List.length hnext.stream
          rw [encodeAll, flatMap_cons] at hbefore
          rw [encodeAll] at hafter
          simp only [length_append] at hbefore hafter
          omega
        refine (ih hchunks hnext).imp_right fun hiff => hiff.trans ?_
        rw [hwaiting, FoundWhole, and_iff_right hwhole]
      · rw [after, foldl_cons]
        have hend := (after_closed hclosed rest).trans hsame
        refine (handled_of_split hreading.split (hend.trans hreading.handled)).imp_right
          fun hiff => hiff.trans ?_
        cases todo with
        | nil => simp [FoundWhole]
        | cons message todo =>
          have hless := hshort message rfl
          simp only [FoundWhole]
          exact iff_of_false (cons_ne_nil _ _) fun hfound => absurd hfound.1 (by omega)

/-- The handler gets a prefix of the messages sent, however the bytes arrive and
whenever the loop reports the connection readable.  It gets them all exactly if
no read event finds a message in part. -/
theorem messages_reassembled {happenings : List Happening} (hchunks : [] ∉ arrivals happenings)
    {later : List UInt8} (hstream : (arrivals happenings).flatten ++ later = encodeAll messages) :
    (({} : RegistrarConnection).after happenings).handled <+: messages.map asHandled ∧
      ((({} : RegistrarConnection).after happenings).handled = messages.map asHandled ↔
        FoundWhole 0 messages happenings) := by
  have hstart : Reading messages [] messages ((arrivals happenings).flatten ++ later) {} :=
    ⟨rfl, rfl, rfl, rfl, not_mem_nil, hstream⟩
  exact handled_after hlen hchunks hstart

end

end

namespace RegistrarWitness

/-- Two messages, the second one without a payload. -/
def messages : List TcpMessage :=
  [(.register, [7, 8]), (.heartbeat, [])]

/-- The bytes in three chunks, one of them across the two messages. -/
def happenings : List Happening :=
  [.arrive ((encodeAll messages).take 5),
    .arrive (((encodeAll messages).drop 5).take 10), .readEvent,
    .arrive ((encodeAll messages).drop 15), .readEvent]

theorem happenings_reassembled :
    (({} : RegistrarConnection).after happenings).handled = messages.map asHandled :=
  (@messages_reassembled messages (by decide) happenings
    (by decide +kernel) [] (by decide +kernel)).2.mpr
      (by simp +decide [FoundWhole, happenings, messages])

/-- A heartbeat that arrives in two halves, with a read event after each. -/
def halves : List Happening :=
  [.arrive ((encode (.heartbeat, [])).take 5), .readEvent,
    .arrive ((encode (.heartbeat, [])).drop 5), .readEvent]

/-- All of its bytes arrive, but the first event closes the connection. -/
theorem halves_are_lost :
    (arrivals halves).flatten = encode (.heartbeat, []) ∧
      (({} : RegistrarConnection).after halves).handled = [] ∧
      (({} : RegistrarConnection).after halves).isOpen = false := by
  decide +kernel

end RegistrarWitness

end RegistrarConnection

structure HostResolver.CacheEntry where
  ip : String
  expiresAt : Nat

/-- The mutex is not recursive: to lock it while it is held never returns. -/
structure HostResolver where
  entries : String → Option HostResolver.CacheEntry := fun _ => none
  held : Bool := false

namespace HostResolver

variable (r : HostResolver)

def lock : Option HostResolver :=
  if r.held then none else some { r with held := true }

def unlock : HostResolver := { r with held := false }

/-- Times are in seconds. -/
def cache (hostname ip : String) (ttl now : Nat) :
    Option HostResolver := do
  let r ← r.lock
  pure (unlock { r with
    entries := Function.update r.entries hostname (some ⟨ip, now + ttl⟩) })

/-- What the system answers: whether the name is an address, and the first
address found for it, if the lookup succeeds. -/
structure SystemResolver where
  inetPton : String → Bool
  getaddrinfo : String → Option String

/-- What follows an unsuccessful look at the cache, with the mutex held. -/
def lookUp (system : SystemResolver) (hostname : String)
    (now : Nat) : Option (HostResolver × String) :=
  if system.inetPton hostname then do
    let r ← r.cache hostname hostname 300 now
    pure (r, hostname)
  else
    match system.getaddrinfo hostname with
    | none => some (r, "")
    | some ip =>
      if ip = "" then some (r, ip)
      else do
        let r ← r.cache hostname ip 300 now
        pure (r, ip)

def resolve (system : SystemResolver) (hostname : String)
    (now : Nat) : Option (HostResolver × String) := do
  let r ← r.lock
  let fresh := (r.entries hostname).filter fun entry => now < entry.expiresAt
  let (r, ip) ← match fresh with
    | some entry => some (r, entry.ip)
    | none => lookUp { r with
        entries := Function.update r.entries hostname none } system hostname now
  pure (r.unlock, ip)

theorem cache_of_held {r : HostResolver} (hheld : r.held = true)
    (hostname ip : String) (ttl now : Nat) :
    r.cache hostname ip ttl now = none := by
  rw [cache, lock, if_pos hheld]
  rfl

/-- Whatever is found is cached, and to cache it the mutex is locked again. -/
theorem lookUp_of_held {r : HostResolver} (hheld : r.held = true)
    (system : SystemResolver) (hostname : String) (now : Nat) :
    r.lookUp system hostname now =
      if system.inetPton hostname = false ∧
        ∀ ip ∈ system.getaddrinfo hostname, ip = "" then some (r, "")
      else none := by
  rw [lookUp]
  cases system.inetPton hostname with
  | true => simp [cache_of_held hheld]
  | false =>
    cases system.getaddrinfo hostname with
    | none => simp
    | some ip =>
      by_cases hempty : ip = ""
      · simp [hempty]
      · simp [hempty, cache_of_held hheld]

/-- A call returns exactly if the name is in the cache and has not expired, or if
nothing is found for it; every other call locks the mutex twice.  An address
that is returned is in the cache. -/
theorem resolve_returns_iff (r : HostResolver) (system : SystemResolver)
    (hostname : String) (now : Nat) :
    ((r.unlock.resolve system hostname now).isSome ↔
      (∃ entry ∈ r.entries hostname, now < entry.expiresAt) ∨ system.inetPton hostname = false ∧
          ∀ ip ∈ system.getaddrinfo hostname, ip = "") ∧
    ∀ r' ip, r.unlock.resolve system hostname now = some (r', ip) → ip ≠ "" →
      ∃ entry ∈ r'.entries hostname, entry.ip = ip := by
  cases hentry : (r.entries hostname).filter fun e => now < e.expiresAt with
  | some entry =>
    obtain ⟨hmem, hfresh⟩ := Option.filter_eq_some_iff.mp hentry
    have hresolve : r.unlock.resolve system hostname now = some (r.unlock, entry.ip) := by
      simp [resolve, lock, unlock, hentry]
    rw [hresolve]
    refine ⟨iff_of_true rfl (.inl ⟨entry, hmem, of_decide_eq_true hfresh⟩), ?_⟩
    rintro r' ip heq -
    cases heq
    exact ⟨entry, hmem, rfl⟩
  | none =>
    have hstale : ¬ ∃ entry ∈ r.entries hostname, now < entry.expiresAt := by
      simpa using hentry
    have hresolve : r.unlock.resolve system hostname now =
        if system.inetPton hostname = false ∧ ∀ ip ∈ system.getaddrinfo hostname, ip = "" then
            some (⟨Function.update r.entries hostname none, false⟩, "")
        else none := by
      simp only [resolve, lock, unlock, Bool.false_eq_true, if_false,
        Option.bind_eq_bind, Option.bind_some, hentry,
        lookUp_of_held (r := ⟨_, true⟩) rfl]
      split <;> rfl
    rw [hresolve]
    split
    · next hnothing =>
        refine ⟨iff_of_true rfl (.inr hnothing), ?_⟩
        rintro r' ip heq hip
        cases heq
        exact absurd rfl hip
    · next hfound =>
        refine ⟨iff_of_false Bool.false_ne_true (not_or.mpr ⟨hstale, hfound⟩), ?_⟩
        rintro r' ip heq
        cases heq

/-- An address in the place of a name, with an empty cache: the call never
returns. -/
theorem resolve_address_deadlocks :
    (resolve {} ⟨fun _ => true, fun _ => none⟩ "127.0.0.1" 0).isNone := by
  decide

end HostResolver

end HPActor
