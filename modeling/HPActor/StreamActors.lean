/-
The two actors of a stream.  The sender numbers its chunks, keeps what it may
not send yet in a buffer, and counts the bytes it has sent; the receiver hands
the chunks on in order and answers each with an acknowledgement and a window.
The counter of bytes in flight is added to when a chunk is sent, and by nobody
taken from.
-/
import Mathlib
import HPActor.Message

namespace HPActor

open List

structure StreamChunk where
  tag : TypeTag
  payload : List UInt8
deriving Repr, DecidableEq

def StreamChunk.size (chunk : StreamChunk) : Nat := chunk.payload.length

/-- Bytes of a list of chunks. -/
def chunkBytes (chunks : List StreamChunk) : Nat :=
  (chunks.map StreamChunk.size).sum

/-- What the sender puts on the wire. -/
inductive StreamFrame where
  | data (streamId sequence : Nat) (chunk : StreamChunk)
  | close (streamId : Nat)
  | error (streamId : Nat) (code : UInt32) (description : String)
deriving Repr, DecidableEq

/-- What the receiver answers. -/
inductive StreamReply where
  | ack (streamId lastSequence windowBytes : Nat)
  | error (streamId : Nat) (code : UInt32) (description : String)
deriving Repr, DecidableEq

inductive StreamState where
  | opening
  | streaming
  | closing
  | closed
  | error
deriving Repr, DecidableEq

/-- `emitted` is the list of all frames handed to the transport. -/
structure StreamSender where
  streamId : Nat := 0
  bufferLimit : Nat := 262144
  state : StreamState := .opening
  nextSequence : Nat := 1
  lastAcked : Nat := 0
  sendBuffer : List StreamChunk := []
  sendBufferBytes : Nat := 0
  windowBytes : Nat := 0
  bytesInFlight : Nat := 0
  emitted : List StreamFrame := []

namespace StreamSender

variable (s : StreamSender) (chunk : StreamChunk)

/-- The states in which chunks are accepted and sent. -/
def isActive : Bool :=
  decide (s.state = .streaming ∨ s.state = .opening ∨ s.state = .closing)

/-- The window does not let another chunk through. -/
def isBlocked : Bool :=
  decide ((0 < s.windowBytes ∧ s.windowBytes ≤ s.bytesInFlight) ∨
    (0 < s.bytesInFlight ∧ s.windowBytes = 0))

/-- One round of the loop in `send_pending_chunks`. -/
def sendChunk : StreamSender :=
  { s with
    sendBuffer := s.sendBuffer.drop 1
    sendBufferBytes := s.sendBufferBytes - chunk.size
    nextSequence := s.nextSequence + 1
    bytesInFlight := s.bytesInFlight + chunk.size
    emitted := s.emitted ++ [.data s.streamId s.nextSequence chunk] }

/-- The loop itself, over the chunks of the send buffer, and whether it has
sent any. -/
def sendLoop (s : StreamSender) : List StreamChunk → StreamSender × Bool
  | [] => (s, false)
  | chunk :: rest =>
    if s.isBlocked || !s.isActive then (s, false)
    else (((s.sendChunk chunk).sendLoop rest).1, true)

def sendCloseToReceiver : StreamSender :=
  { s with emitted := s.emitted ++ [.close s.streamId] }

def setState (state : StreamState) : StreamSender :=
  { s with state }

/-- A deferred close is completed by a call that has sent something. -/
def sendPendingChunks : StreamSender :=
  let sent := s.sendLoop s.sendBuffer
  if sent.2 = true ∧ sent.1.state = .closing ∧ sent.1.sendBuffer = [] then
    sent.1.sendCloseToReceiver.setState .closed
  else sent.1

def pushChunk : StreamSender :=
  { s with
    sendBuffer := s.sendBuffer ++ [chunk]
    sendBufferBytes := s.sendBufferBytes + chunk.size }

/-- The chunk is dropped if the stream is over, or the buffer full. -/
def accepts : Bool :=
  s.isActive && decide (s.sendBufferBytes + chunk.size ≤ s.bufferLimit)

def enqueueChunk : StreamSender :=
  if s.accepts chunk then (s.pushChunk chunk).sendPendingChunks else s

def noteAck (lastSequence windowBytes : Nat) : StreamSender :=
  { s with
    lastAcked := max s.lastAcked lastSequence
    windowBytes
    state := if s.state = .opening then .streaming else s.state }

def handleStreamAck (lastSequence windowBytes : Nat) : StreamSender :=
  let noted := s.noteAck lastSequence windowBytes
  if noted.state = .streaming ∨ noted.state = .closing then
    noted.sendPendingChunks
  else noted

def handleStreamError : StreamSender := s.setState .error

def handleInternalClose : StreamSender :=
  if s.state = .streaming ∨ s.state = .opening then
    let pending := (s.setState .closing).sendPendingChunks
    if pending.sendBuffer = [] ∧ pending.bytesInFlight = 0 then
      pending.sendCloseToReceiver.setState .closed
    else pending
  else s

end StreamSender

/-- `delivered` is what the target actor was given, `replies` all answers. -/
structure StreamReceiver where
  streamId : Nat := 0
  lastDeliveredSeq : Nat := 0
  totalBytesReceived : Nat := 0
  delivered : List StreamChunk := []
  closedNotices : Nat := 0
  errorNotices : Nat := 0
  replies : List StreamReply := []

namespace StreamReceiver

def streamChunkTag : TypeTag := ⟨0x80⟩

/-- Chunks without a tag of their own get the stream's. -/
def deliveryChunk (chunk : StreamChunk) : StreamChunk :=
  if chunk.tag.value ≠ 0 then chunk else { chunk with tag := streamChunkTag }

/-- The window is what `compute_window_bytes` finds in the target's mailbox. -/
def handleStreamData (r : StreamReceiver) (sequence : Nat)
    (chunk : StreamChunk) (windowBytes : Nat) : StreamReceiver :=
  if sequence ≠ r.lastDeliveredSeq + 1 then
    { r with
      replies := r.replies ++ [.error r.streamId 2 "Out-of-order stream sequence"] }
  else
    { r with
      delivered := r.delivered ++ [deliveryChunk chunk]
      lastDeliveredSeq := sequence
      totalBytesReceived := r.totalBytesReceived + chunk.size
      replies := r.replies ++ [.ack r.streamId sequence windowBytes] }

def handle (r : StreamReceiver) (windowBytes : Nat) : StreamFrame → StreamReceiver
  | .data _ sequence chunk => r.handleStreamData sequence chunk windowBytes
  | .close _ => { r with closedNotices := r.closedNotices + 1 }
  | .error .. => { r with errorNotices := r.errorNotices + 1 }

end StreamReceiver

namespace StreamSender

/-- The frames of some chunks, numbered from `first`. -/
def dataFrames (streamId : Nat) : Nat → List StreamChunk → List StreamFrame
  | _, [] => []
  | first, chunk :: rest =>
    .data streamId first chunk :: dataFrames streamId (first + 1) rest

theorem dataFrames_append (streamId first : Nat) (front back : List StreamChunk) :
    dataFrames streamId first (front ++ back) = dataFrames streamId first front ++
        dataFrames streamId (first + front.length) back := by
  induction front generalizing first with
  | nil => simp [dataFrames]
  | cons chunk rest ih =>
    rw [cons_append, dataFrames, dataFrames, ih, cons_append,
      length_cons, add_right_comm, add_assoc]

theorem dataFrames_length (streamId first : Nat) (chunks : List StreamChunk) :
    (dataFrames streamId first chunks).length = chunks.length := by
  induction chunks generalizing first with
  | nil => rfl
  | cons chunk rest ih => rw [dataFrames, length_cons, ih, length_cons]

@[simp] theorem chunkBytes_nil : chunkBytes [] = 0 := rfl

@[simp] theorem chunkBytes_cons (chunk : StreamChunk) (rest : List StreamChunk) :
    chunkBytes (chunk :: rest) = chunk.size + chunkBytes rest := rfl

@[simp] theorem chunkBytes_append (front back : List StreamChunk) :
    chunkBytes (front ++ back) = chunkBytes front + chunkBytes back := by
  simp [chunkBytes]

/-- The sender after it has sent the chunks `now` and kept `later`. -/
def sentOff (s : StreamSender) (now later : List StreamChunk) : StreamSender :=
  { s with
    sendBuffer := later
    sendBufferBytes := s.sendBufferBytes - chunkBytes now
    nextSequence := s.nextSequence + now.length
    bytesInFlight := s.bytesInFlight + chunkBytes now
    emitted := s.emitted ++ dataFrames s.streamId s.nextSequence now }

variable {s : StreamSender}

theorem sentOff_nil {later : List StreamChunk} (hbuffer : s.sendBuffer = later)
    : s.sentOff [] later = s := by
  subst hbuffer
  simp [sentOff, dataFrames]

/-- The loop sends a front part of the buffer; it stops at the end, or where
the window blocks it. -/
theorem sendLoop_spec (hactive : s.isActive = true) {chunks : List StreamChunk}
    (hbuffer : s.sendBuffer = chunks) :
    ∃ now later, chunks = now ++ later ∧
      s.sendLoop chunks = (s.sentOff now later, decide (now ≠ [])) ∧
      (later = [] ∨ (s.sentOff now later).isBlocked = true) := by
  induction chunks generalizing s with
  | nil =>
    refine ⟨[], [], rfl, ?_, .inl rfl⟩
    rw [sendLoop, sentOff_nil hbuffer]
    rfl
  | cons chunk rest ih =>
    by_cases hblocked : s.isBlocked = true
    · refine ⟨[], chunk :: rest, rfl, ?_, .inr ?_⟩
      · rw [sendLoop, sentOff_nil hbuffer, hblocked]
        rfl
      · rwa [sentOff_nil hbuffer]
    · have hnext : (s.sendChunk chunk).sendBuffer = rest := by
        simp [sendChunk, hbuffer]
      obtain ⟨now, later, hsplit, hloop, hstop⟩ :=
        ih (s := s.sendChunk chunk) hactive hnext
      have hsame : (s.sendChunk chunk).sentOff now later = s.sentOff (chunk :: now) later := by
        simp only [sentOff, sendChunk, dataFrames, chunkBytes_cons, length_cons,
          append_assoc, singleton_append, StreamSender.mk.injEq, true_and, and_true]
        refine ⟨by omega, by omega, by omega⟩
      refine ⟨chunk :: now, later, by rw [hsplit, cons_append], ?_, ?_⟩
      · rw [sendLoop, hloop, hsame]
        simp [hblocked, hactive]
      · rwa [hsame] at hstop

/-- With nothing to send, or no room in the window, nothing happens. -/
theorem sendPendingChunks_stay (hstay : s.sendBuffer = [] ∨ s.isBlocked = true) :
    s.sendPendingChunks = s := by
  have hloop : s.sendLoop s.sendBuffer = (s, false) := by
    rcases hstay with hempty | hblocked
    · rw [hempty, sendLoop]
    · cases hbuffer : s.sendBuffer with
      | nil => rw [sendLoop]
      | cons chunk rest =>
        rw [sendLoop, hblocked]
        rfl
  rw [sendPendingChunks, hloop]
  simp

/-- `send_pending_chunks` sends a front part too, and may complete a close. -/
theorem sendPendingChunks_spec (hactive : s.isActive = true) :
    ∃ now later, s.sendBuffer = now ++ later ∧
      (later = [] ∨ (s.sentOff now later).isBlocked = true) ∧
      s.sendPendingChunks =
        if now ≠ [] ∧ s.state = .closing ∧ later = [] then
          (s.sentOff now later).sendCloseToReceiver.setState .closed
        else s.sentOff now later := by
  obtain ⟨now, later, hsplit, hloop, hstop⟩ := sendLoop_spec hactive rfl
  refine ⟨now, later, hsplit, hstop, ?_⟩
  rw [sendPendingChunks, hloop]
  simp only [decide_eq_true_eq, sentOff]

end StreamSender

end HPActor
