/-
The HPAC frame format and `WireFrameConnection::handle_read`: header and
payload are accumulated in a `StreamBuffer` over any number of calls, a wrong
magic is skipped byte by byte, and a complete frame goes to the handler.
-/
import HPActor.StreamBuffer
import Mathlib.Algebra.Group.Nat.Defs

namespace HPActor.WireFrame

def headerSize : Nat := 8

/-- The bytes of "HPAC". -/
def magic : List UInt8 := [72, 80, 65, 67]

def kMaxFramesPerTurn : Nat := 64

/-- The length in network byte order, after the cast to 32 bits. -/
def lengthBytes (n : Nat) : List UInt8 :=
  [UInt8.ofNat (n >>> 24), UInt8.ofNat (n >>> 16), UInt8.ofNat (n >>> 8), UInt8.ofNat n]

/-- `WireFrame::encode` of an envelope that serialises to `payload`. -/
def encode (payload : List UInt8) : List UInt8 :=
  magic ++ lengthBytes (payload.length % 2 ^ 32) ++ payload

/-- The length in bytes 4 to 7 of a header. -/
def parseLength (header : List UInt8) : Nat :=
  (header.getD 4 0).toNat <<< 24 ||| (header.getD 5 0).toNat <<< 16 |||
    (header.getD 6 0).toNat <<< 8 ||| (header.getD 7 0).toNat

/-- What a `read` on the socket meets next.  A chunk is not empty. -/
inductive ReadEvent where
  | chunk (head : UInt8) (tail : List UInt8)
  | wouldBlock
  | eof
  | failure
deriving Repr, DecidableEq

inductive ReadResult where
  | data (bytes : List UInt8)
  | wouldBlock
  | eof
  | failure

/-- A chunk that a read has not taken whole stays in front. -/
def pushBack : List UInt8 → List ReadEvent → List ReadEvent
  | [], rest => rest
  | head :: tail, rest => .chunk head tail :: rest

/-- `::read` of at most `n` bytes; without further events it would block. -/
def read (n : Nat) : List ReadEvent → ReadResult × List ReadEvent
  | [] => (.wouldBlock, [])
  | .wouldBlock :: rest => (.wouldBlock, rest)
  | .eof :: rest => (.eof, .eof :: rest)
  | .failure :: rest => (.failure, rest)
  | .chunk head tail :: rest =>
    (.data ((head :: tail).take n), pushBack ((head :: tail).drop n) rest)

inductive ConnectionState where
  | connected
  | disconnected
  | error

inductive FrameDecodeError where
  | headerTooShort
  | invalidMagic
  | frameTooLarge
  | lengthMismatch
  | trailingBytes
  | invalidProtobuf

/-- The connection, its socket, and what its handlers were called with. -/
structure Connection where
  maxInboundFrameBytes : Nat
  socket : List ReadEvent
  readBuffer : StreamBuffer := {}
  state : ConnectionState := .connected
  isOpen : Bool := true
  frames : List (List UInt8) := []
  frameErrors : List (FrameDecodeError × Nat) := []
  errors : List String := []

namespace Connection

variable (c : Connection)

def setSocket (socket : List ReadEvent) : Connection :=
  { c with socket }

def setBuffer (readBuffer : StreamBuffer) : Connection :=
  { c with readBuffer }

/-- Leave with an error: the buffer is cleared and the handler called. -/
def fail (state : ConnectionState) (text : String) : Connection :=
  { c with
    readBuffer := c.readBuffer.clear, state, errors := c.errors ++ [text] }

def size (c : Connection) : Nat := c.readBuffer.size

/-- Reserve room for `remaining` bytes and read into it.  The answer says
whether bytes came; a read that would block leaves the reserved bytes in the
buffer. -/
def readInto (remaining : Nat) (eofText : String) : Bool × Connection :=
  match read remaining c.socket with
  | (.data bytes, rest) =>
    (true, (c.setSocket rest).setBuffer
      (((c.readBuffer.reserveTail remaining).fillTail bytes).commitTail bytes.length))
  | (.wouldBlock, rest) =>
    (false, (c.setSocket rest).setBuffer (c.readBuffer.reserveTail remaining))
  | (.eof, rest) =>
    (false, ((c.setSocket rest).setBuffer
      (c.readBuffer.reserveTail remaining)).fail .disconnected eofText)
  | (.failure, rest) =>
    (false, ((c.setSocket rest).setBuffer
      (c.readBuffer.reserveTail remaining)).fail .error "read error")

/-- Skip one byte of a header without the magic. -/
def skipByte : Connection :=
  { c with
    readBuffer := c.readBuffer.consume 1
    frameErrors := c.frameErrors ++ [(.invalidMagic, 1)] }

def rejectLarge (length : Nat) : Connection :=
  { c with
    readBuffer := c.readBuffer.clear
    state := .disconnected
    isOpen := false
    frameErrors := c.frameErrors ++ [(.frameTooLarge, length)] }

/-- Hand `total` bytes to the frame handler and consume them. -/
def deliver (total : Nat) : Connection :=
  { c with
    readBuffer := c.readBuffer.maybeCompact.consume total
    frames := c.frames ++ [c.readBuffer.maybeCompact.content.take total] }

/-- Phase 1: fill up the header, or leave the call. -/
def readHeader : Bool × Connection :=
  if c.size < headerSize then
    match c.readInto (headerSize - c.size) "EOF on read" with
    | (true, next) => (decide (headerSize ≤ next.size), next)
    | (false, next) => (false, next)
  else (true, c)

/-- Phase 2: fill up the payload, or leave the call.  `none` is out of fuel. -/
def readPayload : Nat → Nat → Connection → Option (Bool × Connection)
  | 0, _, _ => none
  | fuel + 1, total, c =>
    if c.size < total then
      match c.readInto (total - c.size) "EOF mid-frame" with
      | (true, next) => readPayload fuel total next
      | (false, next) => some (false, next)
    else some (true, c)

def hasMagic : Bool :=
  c.readBuffer.content.take 4 = magic

def tooLarge : Bool :=
  decide (0 < c.maxInboundFrameBytes) &&
    decide (c.maxInboundFrameBytes < parseLength c.readBuffer.content)

/-- The loop of `handle_read`.  `none` is out of fuel. -/
def frameLoop : Nat → Nat → Connection → Option Connection
  | 0, _, _ => none
  | fuel + 1, processed, c =>
    if processed < kMaxFramesPerTurn then
      match c.readHeader with
      | (false, next) => some next
      | (true, next) =>
        if next.hasMagic then
          if next.tooLarge then
            some (next.rejectLarge (parseLength next.readBuffer.content))
          else
            match next.readPayload fuel (headerSize + parseLength next.readBuffer.content) with
            | none => none
            | some (false, last) => some last
            | some (true, full) =>
              if (full.deliver (headerSize + parseLength next.readBuffer.content)).size < headerSize
              then some (full.deliver (headerSize + parseLength next.readBuffer.content))
              else frameLoop fuel (processed + 1) (full.deliver
                (headerSize + parseLength next.readBuffer.content))
        else frameLoop fuel processed next.skipByte
    else some c

end Connection

/-- The bytes of the socket that no read has returned. -/
def unread : List ReadEvent → List UInt8
  | [] => []
  | .chunk head tail :: rest => head :: tail ++ unread rest
  | _ :: rest => unread rest

/-- One call of `handle_read`, with as many rounds as it can need. -/
def handleRead (c : Connection) : Option Connection :=
  c.frameLoop (2 * (unread c.socket).length + c.size + 2) 0

def handleReads : Nat → Connection → Option Connection
  | 0, c => some c
  | calls + 1, c => (handleRead c).bind (handleReads calls)

end HPActor.WireFrame
