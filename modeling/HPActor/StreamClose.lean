/-
The end of a stream.  The chunks lie in the sender's mailbox before the close
request, which may overtake them.  The close frame goes out when a call sends
the last chunk of the buffer, or at once if nothing was ever in flight; so it
comes last exactly if at that moment no chunk is left in the mailbox, and it
comes at all only if something is left to be sent.
-/
import HPActor.StreamActors
import HPActor.Runs

namespace HPActor

open Option List

/-- A sender with the chunks still in its mailbox.  Each data frame is
acknowledged once. -/
structure StreamEnding where
  sender : StreamSender := {}
  mailbox : List StreamChunk := []
  closeWaiting : Bool := true
  acksHandled : Nat := 0

namespace StreamEnding

open StreamSender

def isData : StreamFrame → Bool
  | .data .. => true
  | .close _ | .error .. => false

/-- The data frames sent so far. -/
def dataCount (s : StreamSender) : Nat := s.emitted.countP isData

inductive Action where
  | chunk
  | close
  | ack (lastSequence windowBytes : Nat)

/-- Chunks are taken in order, the close at any time, and an acknowledgement
for a frame that was sent. -/
def step (e : StreamEnding) : Action → Option StreamEnding
  | .chunk =>
    match e.mailbox with
    | [] => none
    | chunk :: rest =>
      some { e with
             sender := e.sender.enqueueChunk chunk, mailbox := rest }
  | .close =>
    if e.closeWaiting then
      some { e with
             sender := e.sender.handleInternalClose, closeWaiting := false }
    else none
  | .ack lastSequence windowBytes =>
    if e.acksHandled < dataCount e.sender ∧ lastSequence ≤ dataCount e.sender then
      some { e with
             sender := e.sender.handleStreamAck lastSequence windowBytes
             acksHandled := e.acksHandled + 1 }
    else none

/-- All messages and all acknowledgements have been processed. -/
def Finished (e : StreamEnding) : Prop :=
  e.mailbox = [] ∧ e.closeWaiting = false ∧ e.acksHandled = dataCount e.sender

instance (e : StreamEnding) : Decidable e.Finished :=
  inferInstanceAs (Decidable (_ ∧ _ ∧ _))

/-- All data frames in order, and one close after them. -/
def ClosedLast (chunks : List StreamChunk) (e : StreamEnding) : Prop :=
  e.sender.emitted = dataFrames e.sender.streamId 1 chunks ++ [.close e.sender.streamId]

instance (chunks : List StreamChunk) (e : StreamEnding) : Decidable (e.ClosedLast chunks) :=
  inferInstanceAs (Decidable (_ = _))

/-- When the close finds something to wait for, and what it waits for does not
go out too early:
- the close is processed with an empty mailbox and nothing ever in flight, or
  with bytes in flight and a chunk left in the buffer or the mailbox;
- after it, a chunk is processed while the window is still shut, or is the last
  one;
- after it, an acknowledgement is handled with an empty buffer or an empty
  mailbox; and every window is wider than all the chunks together. -/
def InTime (total : Nat) (e : StreamEnding) : Action → Prop
  | .chunk => e.sender.state = .closing → e.sender.windowBytes = 0 ∨ e.mailbox.length = 1
  | .close =>
    (e.mailbox = [] ∧ e.sender.bytesInFlight = 0) ∨
      (0 < e.sender.bytesInFlight ∧ (e.sender.sendBuffer ≠ [] ∨ e.mailbox ≠ []))
  | .ack _ windowBytes => total < windowBytes ∧
      (e.sender.state = .closing → e.sender.sendBuffer = [] ∨ e.mailbox = [])

instance (total : Nat) (e : StreamEnding) (action : Action) :
    Decidable (InTime total e action) := by
  unfold InTime
  split <;> infer_instance

/-- While the stream is open: what has been sent, what waits in the buffer and
what in the mailbox.  The window is shut until the first acknowledgement, and
wide open from then on. -/
structure Sending (chunks : List StreamChunk) (e : StreamEnding)
    (sent : List StreamChunk) : Prop where
  split : chunks = sent ++ (e.sender.sendBuffer ++ e.mailbox)
  emitted : e.sender.emitted = dataFrames e.sender.streamId 1 sent
  next : e.sender.nextSequence = sent.length + 1
  inFlight : e.sender.bytesInFlight = chunkBytes sent
  buffered : e.sender.sendBufferBytes = chunkBytes e.sender.sendBuffer
  limit : chunkBytes chunks ≤ e.sender.bufferLimit
  window : (e.sender.windowBytes = 0 ∧ e.acksHandled = 0) ∨ chunkBytes chunks < e.sender.windowBytes

/-- The buffer is empty, or the window blocks it. -/
def Drained (e : StreamEnding) : Prop :=
  e.sender.sendBuffer = [] ∨ e.sender.isBlocked = true

/-- Before the close request, between it and the close frame, and after. -/
inductive Phase (chunks : List StreamChunk) (e : StreamEnding) : Prop where
  | opened (sent : List StreamChunk) (hsending : Sending chunks e sent)
      (hdrained : e.Drained) (hwaiting : e.closeWaiting = true)
      (hstate : e.sender.state = .opening ∨ e.sender.state = .streaming)
  | closing (sent : List StreamChunk) (hsending : Sending chunks e sent)
      (hdrained : e.Drained) (hwaiting : e.closeWaiting = false)
      (hstate : e.sender.state = .closing)
      (hbytes : 0 < e.sender.bytesInFlight)
      (hleft : e.sender.sendBuffer ≠ [] ∨ e.mailbox ≠ [])
  | closed (hwaiting : e.closeWaiting = false)
      (hstate : e.sender.state = .closed) (hmailbox : e.mailbox = [])
      (hlast : e.ClosedLast chunks)

variable {chunks sent : List StreamChunk} {e t : StreamEnding} {total windowBytes : Nat}
  {s : StreamSender} {chunk : StreamChunk}

/-- A wide window blocks nothing. -/
theorem not_isBlocked_of_wide (hwide : total < s.windowBytes)
    (hbytes : s.bytesInFlight ≤ total) : s.isBlocked = false := by
  rw [isBlocked, decide_eq_false_iff_not]
  omega

theorem isBlocked_of_shut (hwindow : s.windowBytes = 0)
    (hbytes : 0 < s.bytesInFlight) : s.isBlocked = true := by
  rw [isBlocked, decide_eq_true_eq]
  exact .inr ⟨hbytes, hwindow⟩

theorem Sending.bytes_le (he : Sending chunks e sent) :
    chunkBytes sent + chunkBytes e.sender.sendBuffer +
      chunkBytes e.mailbox = chunkBytes chunks := by
  rw [he.split, chunkBytes_append, chunkBytes_append]
  omega

/-- With a wide window the whole buffer is sent. -/
theorem sendPendingChunks_wide (hactive : s.isActive = true) (hwide : total < s.windowBytes)
    (hbytes : s.bytesInFlight + chunkBytes s.sendBuffer ≤ total) :
    s.sendPendingChunks =
      if s.sendBuffer ≠ [] ∧ s.state = .closing then
        (s.sentOff s.sendBuffer []).sendCloseToReceiver.setState .closed
      else s.sentOff s.sendBuffer [] := by
  obtain ⟨now, later, hsplit, hstop, hsend⟩ := sendPendingChunks_spec hactive
  rw [hsplit, chunkBytes_append] at hbytes
  have hlater : later = [] := by
    rcases hstop with h | h
    · exact h
    · have hwide' : total < (s.sentOff now later).windowBytes := hwide
      rw [not_isBlocked_of_wide hwide' (by simp only [sentOff]; omega)] at h
      cases h
  subst hlater
  rw [append_nil] at hsplit
  rw [hsend, hsplit]
  simp only [and_true]

/-- Sending a front part of the buffer. -/
theorem Sending.sentOff {now later : List StreamChunk}
    (he : Sending chunks e sent) (hbuffer : e.sender.sendBuffer = now ++ later) :
    Sending chunks { e with sender := e.sender.sentOff now later } (sent ++ now) := by
  refine { split := ?_, emitted := ?_, next := ?_, inFlight := ?_,
           buffered := ?_, limit := he.limit, window := he.window }
  · simpa [StreamSender.sentOff, hbuffer, append_assoc] using he.split
  · simp only [StreamSender.sentOff]
    rw [he.emitted, he.next, dataFrames_append, add_comm 1]
  · simp only [StreamSender.sentOff, length_append]
    have hnext := he.next
    omega
  · simp only [StreamSender.sentOff]
    rw [he.inFlight, chunkBytes_append]
  · simp only [StreamSender.sentOff]
    rw [he.buffered, hbuffer, chunkBytes_append, Nat.add_sub_cancel_left]

/-- The close frame after the last chunk. -/
theorem Sending.closedLast (he : Sending chunks e sent)
    (hbuffer : e.sender.sendBuffer = []) (hmailbox : e.mailbox = []) :
    ClosedLast chunks
      { e with sender := e.sender.sendCloseToReceiver.setState .closed } := by
  have hsplit := he.split
  rw [hbuffer, hmailbox, append_nil, append_nil] at hsplit
  simp only [ClosedLast, setState, sendCloseToReceiver]
  rw [he.emitted, hsplit]

/-- The sender takes a chunk of the mailbox: the limit is never reached. -/
theorem Sending.accepts {rest : List StreamChunk} (he : Sending chunks e sent)
    (hmailbox : e.mailbox = chunk :: rest) (hactive : e.sender.isActive = true) :
    e.sender.accepts chunk = true := by
  have hbytes := he.bytes_le
  have hlimit := he.limit
  have hbuffered := he.buffered
  rw [hmailbox, chunkBytes_cons] at hbytes
  rw [StreamSender.accepts, hactive, Bool.true_and, decide_eq_true_eq]
  omega

/-- The chunk in the buffer, before anything is sent. -/
def pushed (e : StreamEnding) (chunk : StreamChunk) (rest : List StreamChunk) : StreamEnding :=
  { e with sender := e.sender.pushChunk chunk, mailbox := rest }

theorem Sending.pushed {rest : List StreamChunk} (he : Sending chunks e sent)
    (hmailbox : e.mailbox = chunk :: rest) :
    Sending chunks (e.pushed chunk rest) sent := by
  refine { split := ?_, emitted := he.emitted, next := he.next,
           inFlight := he.inFlight, buffered := ?_, limit := he.limit,
           window := he.window }
  · have hsplit := he.split
    rw [hmailbox] at hsplit
    simpa [StreamEnding.pushed, pushChunk] using hsplit
  · simp only [StreamEnding.pushed, pushChunk]
    rw [he.buffered, chunkBytes_append, chunkBytes_cons, chunkBytes_nil, add_zero]

/-- What `send_pending_chunks` does with a chunk that comes in: it stays behind
the others, or goes out alone. -/
theorem push_cases (hactive : s.isActive = true)
    (hdrained : s.sendBuffer = [] ∨ s.isBlocked = true) :
    (s.isBlocked = true ∧ (s.pushChunk chunk).sendPendingChunks = s.pushChunk chunk) ∨
      (s.isBlocked = false ∧ (s.pushChunk chunk).sendBuffer = [chunk] ++ [] ∧
        (s.pushChunk chunk).sendPendingChunks =
          if s.state = .closing then
            ((s.pushChunk chunk).sentOff [chunk] []).sendCloseToReceiver.setState .closed
          else (s.pushChunk chunk).sentOff [chunk] []) := by
  by_cases hblocked : s.isBlocked = true
  · exact .inl ⟨hblocked, sendPendingChunks_stay (.inr hblocked)⟩
  · right
    have hbuffer : (s.pushChunk chunk).sendBuffer = [chunk] := by
      simp [pushChunk, hdrained.resolve_right hblocked]
    refine ⟨Bool.eq_false_iff.mpr hblocked, hbuffer, ?_⟩
    have hloop : (s.pushChunk chunk).sendLoop [chunk] =
        ((s.pushChunk chunk).sentOff [chunk] [], true) := by
      have hfree : (s.pushChunk chunk).isBlocked = false :=
        Bool.eq_false_iff.mpr hblocked
      have hstill : (s.pushChunk chunk).isActive = true := hactive
      simp [sendLoop, hfree, hstill, sendChunk, sentOff, hbuffer, dataFrames, chunkBytes]
    rw [sendPendingChunks, hbuffer, hloop]
    simp [sentOff, pushChunk]

theorem active_of_state (hstate : s.state = .opening ∨ s.state = .streaming ∨ s.state = .closing) :
    s.isActive = true := by
  rw [isActive, decide_eq_true_eq]
  rcases hstate with h | h | h <;> simp [h]

theorem chunk_phase (he : Phase chunks e) (htime : InTime total e .chunk)
    (hstep : e.step .chunk = some t) : Phase chunks t := by
  cases hmailbox : e.mailbox with
  | nil => simp [step, hmailbox] at hstep
  | cons chunk rest =>
    simp only [step, hmailbox, some.injEq] at hstep
    subst hstep
    cases he with
    | opened sent hsending hdrained hwaiting hstate =>
      have hactive := active_of_state (hstate.imp_right .inl)
      rw [enqueueChunk, hsending.accepts hmailbox hactive, if_pos rfl]
      rcases push_cases hactive hdrained with
        ⟨hblocked, hpush⟩ | ⟨-, hbuffer, hpush⟩
      · rw [hpush]
        exact .opened sent (hsending.pushed hmailbox) (.inr hblocked) hwaiting hstate
      · rw [hpush, if_neg (by rcases hstate with h | h <;> simp [h])]
        exact .opened _ ((hsending.pushed hmailbox).sentOff hbuffer) (.inl rfl) hwaiting hstate
    | closing sent hsending hdrained hwaiting hstate hbytes hleft =>
      have hactive := active_of_state (.inr (.inr hstate))
      rw [enqueueChunk, hsending.accepts hmailbox hactive, if_pos rfl]
      rcases push_cases hactive hdrained with
        ⟨hblocked, hpush⟩ | ⟨hfree, hbuffer, hpush⟩
      · rw [hpush]
        exact .closing sent (hsending.pushed hmailbox) (.inr hblocked)
          hwaiting hstate hbytes (.inl (by simp [pushChunk]))
      · -- the way is free, so the window is not shut and this is the last
        have hlast : rest = [] := by
          rcases htime hstate with hshut | hone
          · rw [isBlocked_of_shut hshut hbytes] at hfree
            cases hfree
          · simpa [hmailbox] using hone
        rw [hpush, if_pos hstate]
        exact .closed hwaiting rfl hlast
          (((hsending.pushed hmailbox).sentOff hbuffer).closedLast rfl hlast)
    | closed hwaiting hstate hempty hlast =>
      rw [hempty] at hmailbox
      cases hmailbox

theorem close_phase (he : Phase chunks e) (htime : InTime total e .close)
    (hstep : e.step .close = some t) : Phase chunks t := by
  rw [step] at hstep
  split_ifs at hstep with hclose
  obtain rfl := some.inj hstep
  cases he with
  | opened sent hsending hdrained hwaiting hstate =>
    have hpending : (e.sender.setState .closing).sendPendingChunks =
        e.sender.setState .closing := sendPendingChunks_stay hdrained
    have hclosing : Sending chunks
        { e with
          sender := e.sender.setState .closing, closeWaiting := false }
        sent :=
      { split := hsending.split, emitted := hsending.emitted,
        next := hsending.next, inFlight := hsending.inFlight,
        buffered := hsending.buffered, limit := hsending.limit,
        window := hsending.window }
    rw [handleInternalClose, if_pos hstate.symm, hpending]
    rcases htime with ⟨hmailbox, hzero⟩ | ⟨hbytes, hleft⟩
    · have hbuffer : e.sender.sendBuffer = [] := by
        rcases hdrained with h | h
        · exact h
        · rw [isBlocked, hzero, decide_eq_true_eq] at h
          omega
      rw [if_pos ⟨hbuffer, hzero⟩]
      exact .closed rfl rfl hmailbox (hclosing.closedLast hbuffer hmailbox)
    · rw [if_neg (fun h => hbytes.ne' h.2)]
      exact .closing sent hclosing hdrained rfl rfl hbytes hleft
  | closing sent hsending hdrained hwaiting | closed hwaiting =>
    rw [hwaiting] at hclose
    cases hclose

/-- The sender after an acknowledgement, before it sends. -/
def noted (e : StreamEnding) (lastSequence windowBytes : Nat) : StreamEnding :=
  { e with
    sender := e.sender.noteAck lastSequence windowBytes
    acksHandled := e.acksHandled + 1 }

theorem Sending.noted (he : Sending chunks e sent) (lastSequence : Nat)
    (hwide : chunkBytes chunks < windowBytes) :
    Sending chunks (e.noted lastSequence windowBytes) sent :=
  { he with window := .inr hwide }

/-- An acknowledgement opens the window, and the whole buffer goes out. -/
theorem ack_sends {lastSequence : Nat} (he : Sending chunks e sent)
    (hwide : chunkBytes chunks < windowBytes)
    (hactive : (e.sender.noteAck lastSequence windowBytes).isActive = true) :
    (e.sender.noteAck lastSequence windowBytes).sendPendingChunks =
      if e.sender.sendBuffer ≠ [] ∧
          (e.sender.noteAck lastSequence windowBytes).state = .closing then
        ((e.sender.noteAck lastSequence windowBytes).sentOff
          e.sender.sendBuffer []).sendCloseToReceiver.setState .closed
      else
        (e.sender.noteAck lastSequence windowBytes).sentOff e.sender.sendBuffer [] := by
  have hbytes := he.bytes_le
  apply sendPendingChunks_wide hactive hwide
  simp only [noteAck]
  rw [he.inFlight]
  omega

theorem ack_phase {lastSequence : Nat} (he : Phase chunks e)
    (htime : InTime (chunkBytes chunks) e (.ack lastSequence windowBytes))
    (hstep : e.step (.ack lastSequence windowBytes) = some t) :
    Phase chunks t := by
  rw [step] at hstep
  split_ifs at hstep with hpending
  obtain rfl := some.inj hstep
  obtain ⟨hwide, hlate⟩ := htime
  cases he with
  | opened sent hsending hdrained hwaiting hstate =>
    have hstreaming : (e.sender.noteAck lastSequence windowBytes).state = .streaming := by
      rcases hstate with h | h <;> simp [noteAck, h]
    rw [handleStreamAck, if_pos (.inl hstreaming), ack_sends hsending hwide
      (active_of_state (.inr (.inl hstreaming))),
      if_neg (by simp [hstreaming])]
    exact .opened _ ((hsending.noted lastSequence hwide).sentOff (append_nil _).symm)
      (.inl rfl) hwaiting (.inr hstreaming)
  | closing sent hsending hdrained hwaiting hstate hbytes hleft =>
    have hclosing : (e.sender.noteAck lastSequence windowBytes).state = .closing := by
      simp [noteAck, hstate]
    have hsent := (hsending.noted lastSequence hwide).sentOff (append_nil _).symm
    rw [handleStreamAck, if_pos (.inr hclosing), ack_sends hsending hwide
      (active_of_state (.inr (.inr hclosing)))]
    by_cases hbuffer : e.sender.sendBuffer = []
    · rw [if_neg (fun h => h.1 hbuffer)]
      refine .closing _ hsent (.inl rfl) hwaiting hclosing ?_
        (.inr (hleft.resolve_left (fun h => h hbuffer)))
      simp only [sentOff, noteAck]
      omega
    · have hmailbox := (hlate hstate).resolve_left hbuffer
      rw [if_pos ⟨hbuffer, hclosing⟩]
      exact .closed hwaiting rfl hmailbox (hsent.closedLast rfl hmailbox)
  | closed hwaiting hstate hmailbox hlast =>
    have hclosed : (e.sender.noteAck lastSequence windowBytes).state = .closed := by
      simp [noteAck, hstate]
    rw [handleStreamAck, if_neg (by simp [hclosed])]
    exact .closed hwaiting hclosed hmailbox hlast

theorem step_phase {action : Action} (he : Phase chunks e)
    (htime : InTime (chunkBytes chunks) e action)
    (hstep : e.step action = some t) : Phase chunks t := by
  cases action with
  | chunk => exact chunk_phase he htime hstep
  | close => exact close_phase he htime hstep
  | ack lastSequence windowBytes => exact ack_phase he htime hstep

theorem start_phase {streamId bufferLimit : Nat} (hlimit : chunkBytes chunks ≤ bufferLimit) :
    Phase chunks
      { sender := { streamId, bufferLimit }, mailbox := chunks } := by
  refine .opened [] ?_ (.inl rfl) rfl (.inl rfl)
  exact { split := rfl, emitted := rfl, next := rfl, inFlight := rfl,
          buffered := rfl, limit := hlimit, window := .inl ⟨rfl, rfl⟩ }

theorem countP_dataFrames (streamId first : Nat) (chunks : List StreamChunk) :
    (dataFrames streamId first chunks).countP isData = chunks.length := by
  induction chunks generalizing first with
  | nil => rfl
  | cons chunk rest ih =>
    rw [dataFrames, countP_cons_of_pos rfl, ih, length_cons]

/-- A finished stream is past the close frame. -/
theorem Phase.closedLast_of_finished (he : Phase chunks e)
    (hfinished : e.Finished) : e.ClosedLast chunks := by
  obtain ⟨hmailbox, hclose, hacks⟩ := hfinished
  cases he with
  | opened sent hsending hdrained hwaiting hstate =>
    rw [hclose] at hwaiting
    cases hwaiting
  | closing sent hsending hdrained hwaiting hstate hbytes hleft =>
    exfalso
    have hblocked :=
      hdrained.resolve_left (hleft.resolve_right (fun h => h hmailbox))
    have htotal := hsending.bytes_le
    rcases hsending.window with ⟨-, hnone⟩ | hwide
    · rw [hnone, dataCount, hsending.emitted, countP_dataFrames] at hacks
      rw [hsending.inFlight, length_eq_zero_iff.mp hacks.symm] at hbytes
      cases hbytes
    · rw [not_isBlocked_of_wide hwide (by rw [hsending.inFlight]; omega)] at hblocked
      cases hblocked
  | closed hwaiting hstate hmailbox hlast => exact hlast

/-- Once everything is processed, the sender has emitted the data frames of all
chunks and one close after them, in every run in which the close and what comes
after it are in time. -/
theorem close_delivered_last {streamId bufferLimit : Nat}
    (hlimit : chunkBytes chunks ≤ bufferLimit) {actions : List Action}
    (htime : Runs.EachStep step (InTime (chunkBytes chunks))
      { sender := { streamId, bufferLimit }, mailbox := chunks } actions)
    (hrun : Runs.run step
      { sender := { streamId, bufferLimit }, mailbox := chunks } actions = some e)
    (hfinished : e.Finished) : e.ClosedLast chunks :=
  (Runs.run_invariant (fun _ _ _ he hcond hstep => step_phase he hcond hstep)
    (start_phase hlimit) htime hrun).closedLast_of_finished hfinished

namespace CloseWitness

def chunkOf (payload : List UInt8) : StreamChunk := ⟨.user, payload⟩

def twoChunks : List StreamChunk := [chunkOf [1, 2], chunkOf [3]]

/-- The close overtakes the second chunk, and the acknowledgement of the first
comes after both. -/
def overtaking : List Action :=
  [.chunk, .close, .chunk, .ack 1 10, .ack 2 10]

theorem overtaking_closed_last :
    ∃ e, Runs.run step { mailbox := twoChunks } overtaking = some e ∧
      e.Finished ∧ e.ClosedLast twoChunks := by
  have hview : (Runs.run step { mailbox := twoChunks } overtaking).map
      (fun e => decide e.Finished) = some true := by decide +kernel
  obtain ⟨e, hrun, hfinished⟩ := map_eq_some_iff.mp hview
  have hdone := of_decide_eq_true hfinished
  exact ⟨e, hrun, hdone, close_delivered_last (by decide) (by decide +kernel) hrun hdone⟩

/-- The close comes first, with nothing in flight. -/
theorem chunk_dropped_by_close :
    ∃ e, Runs.run step { mailbox := [chunkOf [1]] } [.close, .chunk] = some e ∧
      e.Finished ∧ e.sender.emitted = [.close 0] ∧
      ¬ e.ClosedLast [chunkOf [1]] := by
  have hview : (Runs.run step { mailbox := [chunkOf [1]] }
      [.close, .chunk]).map (fun e => (decide e.Finished, e.sender.emitted,
        decide (e.ClosedLast [chunkOf [1]]))) =
      some (true, [.close 0], false) := by
    decide +kernel
  obtain ⟨e, hrun, hstate⟩ := map_eq_some_iff.mp hview
  simp only [Prod.mk.injEq, decide_eq_true_eq, decide_eq_false_iff_not] at hstate
  exact ⟨e, hrun, hstate⟩

end CloseWitness

end StreamEnding

end HPActor
