/-
A sender and a receiver joined by two channels that lose nothing and keep the
order.  As long as no acknowledgement covers a chunk with bytes in it, the
counter of bytes in flight is right, and a link at rest has delivered
everything; the first acknowledgement that does cover bytes leaves the counter
too high for good.
-/
import HPActor.StreamActors
import HPActor.Machines

namespace HPActor

open List StreamReceiver

/-- The frames on the way are those the sender has emitted and the receiver
not handled, and so for the replies.  `accepted` is a ghost field. -/
structure StreamLink where
  sender : StreamSender := {}
  receiver : StreamReceiver := {}
  framesHandled : Nat := 0
  repliesHandled : Nat := 0
  accepted : List StreamChunk := []

namespace StreamLink

open StreamSender

inductive Action where
  | chunk (chunk : StreamChunk)
  | frame (windowBytes : Nat)
  | reply

variable (s : StreamSender) (l : StreamLink)

def handleReply : StreamReply → StreamSender
  | .ack _ lastSequence windowBytes =>
    s.handleStreamAck lastSequence windowBytes
  | .error .. => s.handleStreamError

/-- Messages with a tag below the user range are no chunks. -/
def step : Action → Option StreamLink
  | .chunk chunk =>
    if chunk.tag.value < TypeTag.user.value then none
    else some
      { l with
        sender := l.sender.enqueueChunk chunk
        accepted :=
          if l.sender.accepts chunk then l.accepted ++ [chunk]
          else l.accepted }
  | .frame windowBytes =>
    l.sender.emitted[l.framesHandled]?.map fun frame =>
      { l with
        receiver := l.receiver.handle windowBytes frame
        framesHandled := l.framesHandled + 1 }
  | .reply =>
    l.receiver.replies[l.repliesHandled]?.map fun reply =>
      { l with
        sender := handleReply l.sender reply
        repliesHandled := l.repliesHandled + 1 }

/-- Bytes of a frame numbered above `low` and at most `high`. -/
def bytesWithin (low high : Nat) : StreamFrame → Nat
  | .data _ sequence chunk =>
    if low < sequence ∧ sequence ≤ high then chunk.size else 0
  | .close _ | .error .. => 0

/-- Bytes of a frame numbered above `low`. -/
def bytesAbove (low : Nat) : StreamFrame → Nat
  | .data _ sequence chunk => if low < sequence then chunk.size else 0
  | .close _ | .error .. => 0

/-- The bytes sent in frames numbered above the last acknowledgement. -/
def unackedBytes : Nat :=
  (s.emitted.map (bytesAbove s.lastAcked)).sum

/-- No frame and no reply is on the way. -/
def AtRest : Prop :=
  l.framesHandled = l.sender.emitted.length ∧ l.repliesHandled = l.receiver.replies.length

instance (l : StreamLink) : Decidable l.AtRest :=
  inferInstanceAs (Decidable (_ ∧ _))

/-- The counter is right, and at rest everything has arrived. -/
def Sound : Prop :=
  l.sender.bytesInFlight = unackedBytes l.sender ∧
    (l.AtRest → l.sender.sendBuffer = [] ∧ l.receiver.delivered = l.accepted)

/-- The chunks that a reply acknowledges for the first time are empty. -/
def CoversEmpty : StreamReply → Prop
  | .ack _ lastSequence _ => ∀ frame ∈ s.emitted, bytesWithin s.lastAcked lastSequence frame = 0
  | .error .. => True

instance (s : StreamSender) (reply : StreamReply) : Decidable (CoversEmpty s reply) := by
  unfold CoversEmpty
  split <;> infer_instance

/-- Acknowledgements that the sender handles cover empty chunks only. -/
def AcksEmpty : Action → Prop
  | .reply => ∀ reply ∈ l.receiver.replies[l.repliesHandled]?, CoversEmpty l.sender reply
  | .chunk _ | .frame _ => True

instance (l : StreamLink) (action : Action) : Decidable (l.AcksEmpty action) := by
  unfold AcksEmpty
  split <;> infer_instance

theorem dataFrames_getElem? (streamId first : Nat) (chunks : List StreamChunk) (i : Nat) :
    (dataFrames streamId first chunks)[i]? =
      chunks[i]?.map (StreamFrame.data streamId (first + i)) := by
  induction chunks generalizing first i with
  | nil => simp [dataFrames]
  | cons chunk rest ih =>
    cases i with
    | zero => simp [dataFrames]
    | succ i =>
      rw [dataFrames, getElem?_cons_succ, ih, getElem?_cons_succ, add_right_comm, add_assoc]

/-- The bytes numbered above `low` are those of the chunks after the first
`low`. -/
theorem sum_bytesAbove (streamId first low : Nat) (chunks : List StreamChunk) :
    ((dataFrames streamId first chunks).map (bytesAbove low)).sum =
      chunkBytes (chunks.drop (low + 1 - first)) := by
  induction chunks generalizing first with
  | nil => simp [dataFrames]
  | cons chunk rest ih =>
    rw [dataFrames, map_cons, sum_cons, ih, bytesAbove]
    by_cases hlow : low < first
    · have hnow : low + 1 - first = 0 := by omega
      have hnext : low + 1 - (first + 1) = 0 := by omega
      rw [if_pos hlow, hnow, hnext, drop_zero, drop_zero, chunkBytes_cons]
    · have hsucc : low + 1 - first = (low + 1 - (first + 1)) + 1 := by omega
      rw [if_neg hlow, hsucc, drop_succ_cons, zero_add]

/-- Apart from the window: what has been sent, in the order it was accepted,
and how far the receiver and the acknowledgements have come. -/
structure Numbered (l : StreamLink) (sent : List StreamChunk) : Prop where
  state : l.sender.state = .opening ∨ l.sender.state = .streaming
  emitted : l.sender.emitted = dataFrames l.sender.streamId 1 sent
  next : l.sender.nextSequence = sent.length + 1
  accepted : l.accepted = sent ++ l.sender.sendBuffer
  tagged : ∀ chunk ∈ l.accepted, chunk.tag.value ≠ 0
  handled : l.framesHandled ≤ sent.length
  last : l.receiver.lastDeliveredSeq = l.framesHandled
  delivered : l.receiver.delivered = sent.take l.framesHandled
  replied : l.receiver.replies.length = l.framesHandled
  acks : ∀ i < l.framesHandled, ∃ streamId windowBytes,
    l.receiver.replies[i]? = some (.ack streamId (i + 1) windowBytes)
  acked : l.repliesHandled ≤ l.framesHandled
  lastAcked : l.sender.lastAcked = l.repliesHandled
  inFlight : l.sender.bytesInFlight = chunkBytes (sent.drop l.repliesHandled)

/-- The buffer is empty, or the window blocks it. -/
def Drained : Prop :=
  s.sendBuffer = [] ∨ s.isBlocked = true

def Flowing : Prop :=
  (∃ sent, Numbered l sent) ∧ Drained l.sender

variable {l t : StreamLink} {sent : List StreamChunk}

theorem Numbered.active (hl : Numbered l sent) : l.sender.isActive = true := by
  rcases hl.state with h | h <;> simp [isActive, h]

theorem Flowing.sound (hl : Flowing l) : l.Sound := by
  obtain ⟨⟨sent, hnumbered⟩, hdrained⟩ := hl
  constructor
  · rw [hnumbered.inFlight, unackedBytes, hnumbered.emitted, sum_bytesAbove,
      hnumbered.lastAcked, Nat.add_sub_cancel]
  · rintro ⟨hframes, hreplies⟩
    rw [hnumbered.emitted, dataFrames_length] at hframes
    rw [hnumbered.replied, hframes] at hreplies
    have hzero : l.sender.bytesInFlight = 0 := by
      rw [hnumbered.inFlight, hreplies, drop_length, chunkBytes_nil]
    have hbuffer : l.sender.sendBuffer = [] := by
      rcases hdrained with h | h
      · exact h
      · rw [isBlocked, hzero, decide_eq_true_eq] at h
        omega
    refine ⟨hbuffer, ?_⟩
    rw [hnumbered.delivered, hnumbered.accepted, hbuffer, hframes, take_length, append_nil]

/-- Sending what the window lets through keeps the numbering. -/
theorem Numbered.sendPending (hl : Numbered l sent) :
    Flowing { l with sender := l.sender.sendPendingChunks } := by
  obtain ⟨now, later, hsplit, hstop, hsend⟩ := sendPendingChunks_spec hl.active
  have hopen : l.sender.state ≠ .closing := by
    rcases hl.state with h | h <;> rw [h] <;> decide
  rw [if_neg (fun h => hopen h.2.1)] at hsend
  have hacked : l.repliesHandled ≤ sent.length := hl.acked.trans hl.handled
  rw [hsend]
  refine ⟨⟨sent ++ now, ?_⟩, hstop⟩
  refine { hl with emitted := ?_, next := ?_, accepted := ?_, handled := ?_,
                   delivered := ?_, inFlight := ?_ }
  · simp only [sentOff]
    rw [hl.emitted, hl.next, dataFrames_append, add_comm 1]
  · simp only [sentOff, length_append]
    have hnext := hl.next
    omega
  · simp only [sentOff]
    rw [hl.accepted, hsplit, append_assoc]
  · have hhandled := hl.handled
    simp only [length_append]
    omega
  · rw [take_append_of_le_length hl.handled]
    exact hl.delivered
  · simp only [sentOff]
    rw [hl.inFlight, drop_append_of_le_length hacked, chunkBytes_append]

open Option

theorem chunk_flowing {chunk : StreamChunk} (hl : Flowing l)
    (hstep : l.step (.chunk chunk) = some t) : Flowing t := by
  rw [step] at hstep
  by_cases htag : chunk.tag.value < TypeTag.user.value
  · rw [if_pos htag] at hstep
    cases hstep
  rw [if_neg htag] at hstep
  obtain rfl := some.inj hstep
  obtain ⟨⟨sent, hnumbered⟩, hdrained⟩ := hl
  by_cases haccepts : l.sender.accepts chunk = true
  · have hvalue : chunk.tag.value ≠ 0 := by
      intro hzero
      rw [hzero] at htag
      exact htag (by decide)
    have hpushed : Numbered
        { l with
          sender := l.sender.pushChunk chunk
          accepted := l.accepted ++ [chunk] } sent := by
      refine { hnumbered with accepted := ?_, tagged := ?_ }
      · simp only [pushChunk]
        rw [hnumbered.accepted, append_assoc]
      · exact forall_mem_append.mpr ⟨hnumbered.tagged, forall_mem_singleton.mpr hvalue⟩
    simp only [enqueueChunk, haccepts, ↓reduceIte]
    exact hpushed.sendPending
  · simp only [enqueueChunk, haccepts, Bool.false_eq_true, ↓reduceIte]
    exact ⟨⟨sent, hnumbered⟩, hdrained⟩

theorem frame_flowing {windowBytes : Nat} (hl : Flowing l)
    (hstep : l.step (.frame windowBytes) = some t) : Flowing t := by
  obtain ⟨⟨sent, hnumbered⟩, hdrained⟩ := hl
  obtain ⟨frame, hframe, rfl⟩ := map_eq_some_iff.mp hstep
  rw [hnumbered.emitted, dataFrames_getElem?] at hframe
  obtain ⟨chunk, hchunk, rfl⟩ := map_eq_some_iff.mp hframe
  obtain ⟨hlt, hget⟩ := List.getElem?_eq_some_iff.mp hchunk
  have htagged : chunk.tag.value ≠ 0 := by
    apply hnumbered.tagged
    rw [hnumbered.accepted]
    exact mem_append_left _ (mem_of_getElem? hchunk)
  have hhandle : l.receiver.handle windowBytes
      (.data l.sender.streamId (1 + l.framesHandled) chunk) =
        { l.receiver with
          delivered := l.receiver.delivered ++ [chunk]
          lastDeliveredSeq := 1 + l.framesHandled
          totalBytesReceived := l.receiver.totalBytesReceived + chunk.size
          replies := l.receiver.replies ++
            [.ack l.receiver.streamId (1 + l.framesHandled) windowBytes] } := by
    rw [handle, handleStreamData, if_neg, deliveryChunk, if_pos htagged]
    rw [hnumbered.last]
    omega
  rw [hhandle]
  refine ⟨⟨sent, ?_⟩, hdrained⟩
  refine { hnumbered with
           handled := hlt, last := add_comm 1 _, delivered := ?_, replied := ?_, acks := ?_,
           acked := Nat.le_succ_of_le hnumbered.acked }
  · simp only
    rw [hnumbered.delivered, take_add_one, hchunk, toList_some]
  · simp only [length_append, length_singleton]
    rw [hnumbered.replied]
  · intro i hi
    simp only at hi ⊢
    rcases Nat.lt_succ_iff_lt_or_eq.mp hi with hold | rfl
    · obtain ⟨streamId, window, hreply⟩ := hnumbered.acks i hold
      refine ⟨streamId, window, ?_⟩
      rw [getElem?_append_left (by rw [hnumbered.replied]; exact hold)]
      exact hreply
    · refine ⟨l.receiver.streamId, windowBytes, ?_⟩
      rw [getElem?_append_right (by rw [hnumbered.replied]), hnumbered.replied, Nat.sub_self,
        getElem?_cons_zero, add_comm 1]

/-- The bytes in flight do not change if the next chunk is empty. -/
theorem Numbered.inFlight_next (hl : Numbered l sent) (hnext : l.repliesHandled < sent.length)
    (hempty : ∀ frame ∈ l.sender.emitted,
      bytesWithin l.sender.lastAcked (l.repliesHandled + 1) frame = 0) :
    l.sender.bytesInFlight = chunkBytes (sent.drop (l.repliesHandled + 1)) := by
  have hmem : StreamFrame.data l.sender.streamId (1 + l.repliesHandled)
      sent[l.repliesHandled] ∈ l.sender.emitted := by
    apply mem_of_getElem? (i := l.repliesHandled)
    rw [hl.emitted, dataFrames_getElem?, getElem?_eq_getElem hnext]
    rfl
  have hsize := hempty _ hmem
  rw [hl.lastAcked, bytesWithin, if_pos (by omega)] at hsize
  rw [hl.inFlight, drop_eq_getElem_cons hnext, chunkBytes_cons, hsize, zero_add]

theorem reply_flowing (hl : Flowing l) (hacks : l.AcksEmpty .reply)
    (hstep : l.step .reply = some t) : Flowing t := by
  obtain ⟨⟨sent, hnumbered⟩, hdrained⟩ := hl
  obtain ⟨reply, hreply, rfl⟩ := map_eq_some_iff.mp hstep
  have hpending : l.repliesHandled < l.framesHandled := by
    rw [← hnumbered.replied]
    exact (List.getElem?_eq_some_iff.mp hreply).1
  obtain ⟨streamId, windowBytes, hack⟩ := hnumbered.acks _ hpending
  obtain rfl := some.inj (hack.symm.trans hreply)
  have hempty := hacks _ hack
  have hstreaming : (l.sender.noteAck (l.repliesHandled + 1) windowBytes).state = .streaming := by
    rcases hnumbered.state with h | h <;> simp [noteAck, h]
  have hnoted : Numbered
      { l with
        sender := l.sender.noteAck (l.repliesHandled + 1) windowBytes
        repliesHandled := l.repliesHandled + 1 } sent := by
    refine { hnumbered with
             state := .inr hstreaming, acked := hpending, lastAcked := ?_, inFlight := ?_ }
    · simp only [noteAck]
      rw [hnumbered.lastAcked]
      omega
    · exact hnumbered.inFlight_next (lt_of_lt_of_le hpending hnumbered.handled) hempty
  simp only [handleReply, handleStreamAck, hstreaming, true_or, ↓reduceIte]
  exact hnoted.sendPending

theorem step_flowing {action : Action} (hl : Flowing l)
    (hacks : l.AcksEmpty action) (hstep : l.step action = some t) :
    Flowing t := by
  cases action with
  | chunk chunk => exact chunk_flowing hl hstep
  | frame windowBytes => exact frame_flowing hl hstep
  | reply => exact reply_flowing hl hacks hstep

theorem start_flowing (streamId bufferLimit : Nat) :
    Flowing { sender := { streamId, bufferLimit }, receiver := { streamId } } := by
  refine ⟨⟨[], ?_⟩, .inl rfl⟩
  exact { state := .inl rfl, emitted := rfl, next := rfl, accepted := rfl,
          tagged := by simp, handled := le_rfl, last := rfl,
          delivered := rfl, replied := rfl, acks := by simp,
          acked := le_rfl, lastAcked := rfl, inFlight := rfl }

/-- In every run in which the sender handles no acknowledgement of a chunk
with bytes in it, the counter is right, and at rest every accepted chunk has
been delivered, once and in order. -/
theorem link_never_wedges {streamId bufferLimit : Nat} {actions : List Action}
    (hacks : Runs.EachStep step AcksEmpty
      { sender := { streamId, bufferLimit }, receiver := { streamId } }
      actions)
    (hrun : Runs.run step
      { sender := { streamId, bufferLimit }, receiver := { streamId } }
      actions = some l) : l.Sound :=
  Flowing.sound (Runs.run_invariant (fun _ _ _ hl hcond hstep => step_flowing hl hcond hstep)
    (start_flowing streamId bufferLimit) hacks hrun)

namespace FlowWitness

def chunkOf (payload : List UInt8) : StreamChunk := ⟨.user, payload⟩

/-- An empty chunk goes over and is acknowledged; one with a byte is on the
way. -/
def emptyFirst : List Action :=
  [.chunk (chunkOf []), .frame 10, .reply, .chunk (chunkOf [7])]

theorem emptyFirst_sound :
    ∃ l, Runs.run step {} emptyFirst = some l ∧ l.sender.bytesInFlight = 1 ∧ l.Sound := by
  have hview : (Runs.run step {} emptyFirst).map
      (fun l => l.sender.bytesInFlight) = some 1 := by decide +kernel
  obtain ⟨l, hrun, hbytes⟩ := Option.map_eq_some_iff.mp hview
  exact ⟨l, hrun, hbytes, link_never_wedges (by decide +kernel) hrun⟩

/-- One byte is sent and acknowledged with a window of one byte: the link is at
rest, and the next chunk stays behind. -/
def wedged : List Action :=
  [.chunk (chunkOf [7]), .frame 1, .reply, .chunk (chunkOf [8])]

theorem link_wedges :
    ∃ l, Runs.run step {} wedged = some l ∧ l.AtRest ∧
      l.sender.bytesInFlight = 1 ∧ unackedBytes l.sender = 0 ∧
      l.sender.sendBuffer = [chunkOf [8]] ∧ ¬ l.Sound := by
  have hview : (Runs.run step {} wedged).map (fun l =>
      (decide l.AtRest, l.sender.bytesInFlight, unackedBytes l.sender,
        l.sender.sendBuffer)) = some (true, 1, 0, [chunkOf [8]]) := by
    decide +kernel
  obtain ⟨l, hrun, hstate⟩ := Option.map_eq_some_iff.mp hview
  simp only [Prod.mk.injEq, decide_eq_true_eq] at hstate
  obtain ⟨hrest, hbytes, hunacked, hbuffer⟩ := hstate
  refine ⟨l, hrun, hrest, hbytes, hunacked, hbuffer, ?_⟩
  rintro ⟨hcount, -⟩
  rw [hbytes, hunacked] at hcount
  cases hcount

end FlowWitness

end StreamLink

/-- A receiver and, as a ghost field, the sequence numbers of the chunks that the
target's mailbox has admitted. -/
structure StreamInlet where
  receiver : StreamReceiver := {}
  admitted : List Nat := []

namespace StreamInlet

/-- A data message.  `admitted` is the outcome of the delivery to the target. -/
structure Arrival where
  sequence : Nat
  chunk : StreamChunk
  windowBytes : Nat
  admitted : Bool

variable (s : StreamInlet)

/-- The outcome of the delivery is not looked at. -/
def step (a : Arrival) : StreamInlet where
  receiver := s.receiver.handleStreamData a.sequence a.chunk a.windowBytes
  admitted :=
    if a.sequence = s.receiver.lastDeliveredSeq + 1 ∧ a.admitted = true then
      s.admitted ++ [a.sequence]
    else s.admitted

/-- The sequence numbers that were acknowledged. -/
def acked : List Nat :=
  s.receiver.replies.filterMap fun
    | .ack _ lastSequence _ => some lastSequence
    | .error .. => none

/-- Everything up to the latest acknowledgement was admitted, in order and once
each. -/
def Delivered : Prop :=
  s.admitted = range' 1 s.receiver.lastDeliveredSeq

/-- The mailbox takes the chunk, if the receiver hands it on. -/
def Taken (a : Arrival) : Prop :=
  a.sequence = s.receiver.lastDeliveredSeq + 1 → a.admitted = true

theorem range'_succ_last (n : Nat) : range' 1 (n + 1) = range' 1 n ++ [n + 1] := by
  rw [range'_concat, one_mul, add_comm 1 n]

theorem acked_step {s : StreamInlet} (a : Arrival)
    (hacked : s.acked = range' 1 s.receiver.lastDeliveredSeq) :
    (s.step a).acked = range' 1 (s.step a).receiver.lastDeliveredSeq := by
  simp only [acked, step, handleStreamData] at hacked ⊢
  split
  · simpa using hacked
  · next hnext =>
      rw [not_not] at hnext
      simp [hacked, hnext, range'_succ_last]

theorem delivered_step (a : Arrival) (hs : s.Delivered) : (s.step a).Delivered ↔ s.Taken a := by
  rw [Delivered] at hs
  simp only [Delivered, step, Taken, handleStreamData, hs]
  by_cases hnext : a.sequence = s.receiver.lastDeliveredSeq + 1
  · cases a.admitted <;> simp [hnext, range'_succ_last]
  · simp [hnext]

/-- The acknowledgements count up from one.  They keep their promise as long as
the target's mailbox takes every chunk that the receiver hands on, and no
longer. -/
theorem acks_promise_iff (arrivals : List Arrival) :
    (Machines.final step {} arrivals).acked =
      range' 1 (Machines.final step {} arrivals).receiver.lastDeliveredSeq ∧
    ((∀ front, front <+: arrivals → (Machines.final step {} front).Delivered) ↔
      Machines.Along step Taken {} arrivals) := by
  constructor
  · exact Machines.final_invariant'
      (fun s : StreamInlet => s.acked = range' 1 s.receiver.lastDeliveredSeq)
      (fun _ a hacked => acked_step a hacked) rfl arrivals
  · exact Machines.throughout_iff delivered_step rfl

/-- A chunk that the mailbox refuses is acknowledged. -/
theorem refused_chunk_acked :
    let s := step {} ⟨1, ⟨.user, [7]⟩, 10, false⟩
    s.receiver.replies = [.ack 0 1 10] ∧ s.admitted = [] := by
  decide

end StreamInlet

end HPActor
