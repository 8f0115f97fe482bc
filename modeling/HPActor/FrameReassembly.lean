/-
`handle_read` puts the frames of a stream together again, however the stream
is cut into reads, as long as no read blocks inside a frame.  A read that
blocks between two frames leaves zero bytes in the buffer, which the search for
the magic removes one by one.
-/
import HPActor.WireFrame
import Mathlib.Data.List.GetD
import Mathlib.Data.List.Infix

namespace HPActor.WireFrame

open StreamBuffer List Connection

theorem or_byte {x b : Nat} (hb : b < 2 ^ 8) : x <<< 8 ||| b = x * 256 + b := by
  rw [← Nat.shiftLeft_add_eq_or_of_lt hb, Nat.shiftLeft_eq]

/-- Four bytes in network order. -/
theorem join_bytes {a b c d : Nat} (hb : b < 2 ^ 8) (hc : c < 2 ^ 8) (hd : d < 2 ^ 8) :
    a <<< 24 ||| b <<< 16 ||| c <<< 8 ||| d = ((a * 256 + b) * 256 + c) * 256 + d := by
  calc a <<< 24 ||| b <<< 16 ||| c <<< 8 ||| d = ((a <<< 8 ||| b) <<< 8 ||| c) <<< 8 ||| d := by
        simp only [Nat.shiftLeft_or_distrib, ← Nat.shiftLeft_add]
    _ = ((a * 256 + b) * 256 + c) * 256 + d := by
        rw [or_byte hb, or_byte hc, or_byte hd]

/-- A length in network order is read as it was written. -/
theorem parseLength_lengthBytes (a b c d : UInt8) {n : Nat} (hn : n < 2 ^ 32) (rest : List UInt8) :
    parseLength (a :: b :: c :: d :: (lengthBytes n ++ rest)) = n := by
  simp only [parseLength, lengthBytes, cons_append, nil_append,
    getD_cons_succ, getD_cons_zero, UInt8.toNat_ofNat']
  rw [join_bytes (by omega) (by omega) (by omega)]
  simp only [Nat.shiftRight_eq_div_pow]
  omega

theorem parseLength_encode (payload rest : List UInt8) (hlen : payload.length < 2 ^ 32) :
    parseLength (encode payload ++ rest) = payload.length := by
  rw [encode, Nat.mod_eq_of_lt hlen, append_assoc, append_assoc]
  exact parseLength_lengthBytes _ _ _ _ hlen _

@[simp] theorem encode_length (payload : List UInt8) :
    (encode payload).length = headerSize + payload.length := by
  simp [encode, magic, lengthBytes, headerSize]
  omega

def encodeAll (payloads : List (List UInt8)) : List UInt8 :=
  payloads.flatMap encode

@[simp] theorem encodeAll_nil : encodeAll [] = [] := rfl

@[simp] theorem encodeAll_cons (payload : List UInt8) (rest : List (List UInt8)) :
    encodeAll (payload :: rest) = encode payload ++ encodeAll rest := rfl

/-- A header that has been read whole shows the magic and the length of the
frame it belongs to. -/
theorem header_of_stream {read later payload : List UInt8} {rest : List (List UInt8)}
    (hlen : payload.length < 2 ^ 32) (hstream : read ++ later = encodeAll (payload :: rest))
    (hread : headerSize ≤ read.length) :
    read.take 4 = magic ∧ parseLength read = payload.length := by
  have hget : ∀ i, i < headerSize →
      read.getD i 0 = (encode payload ++ encodeAll rest).getD i 0 := by
    intro i hi
    rw [← encodeAll_cons, ← hstream, getD_append _ _ _ _ (by omega)]
  constructor
  · have htake : read.take 4 = (read ++ later).take 4 := by
      rw [take_append_of_le_length (by simp [headerSize] at hread; omega)]
    rw [htake, hstream]
    simp [encode, magic]
  · rw [← parseLength_encode payload (encodeAll rest) hlen]
    unfold parseLength
    rw [hget 4 (by decide), hget 5 (by decide), hget 6 (by decide), hget 7 (by decide)]

@[simp] theorem unread_pushBack (bytes : List UInt8) (rest : List ReadEvent) :
    unread (pushBack bytes rest) = bytes ++ unread rest := by
  cases bytes <;> rfl

/-- The socket neither ends nor fails. -/
def Clean (socket : List ReadEvent) : Prop :=
  ReadEvent.eof ∉ socket ∧ ReadEvent.failure ∉ socket

/-- Every read that would block comes where the bytes read so far, `read` and
then the ones in front of it, end a frame. -/
def BlocksBetween (read : List UInt8) (todo : List (List UInt8)) (socket : List ReadEvent) : Prop :=
  ∀ front back, socket = front ++ .wouldBlock :: back →
    ∃ j, read ++ unread front = encodeAll (todo.take j)

variable {rest : List ReadEvent} {todo payloads : List (List UInt8)} {c : Connection}

theorem Clean.tail {event : ReadEvent} (hclean : Clean (event :: rest)) :
    Clean rest := by
  simp only [Clean, mem_cons, not_or] at hclean ⊢
  exact ⟨hclean.1.2, hclean.2.2⟩

theorem Clean.pushBack {bytes : List UInt8} (hclean : Clean rest) :
    Clean (pushBack bytes rest) := by
  cases bytes with
  | nil => exact hclean
  | cons head tail => simpa [Clean, WireFrame.pushBack] using hclean

theorem BlocksBetween.take_chunk {read bytes later : List UInt8} {head : UInt8}
    {tail : List UInt8} (hsplit : head :: tail = bytes ++ later)
    (hblocks : BlocksBetween read todo (.chunk head tail :: rest)) :
    BlocksBetween (read ++ bytes) todo (pushBack later rest) := by
  intro front back hsocket
  cases later with
  | nil =>
    obtain ⟨j, hj⟩ := hblocks (.chunk head tail :: front) back
      (congrArg (ReadEvent.chunk head tail :: ·) hsocket)
    refine ⟨j, ?_⟩
    rw [← hj, unread, hsplit]
    simp
  | cons first more =>
    cases front with
    | nil => cases hsocket
    | cons event front =>
      simp only [pushBack, cons_append, List.cons.injEq] at hsocket
      obtain ⟨rfl, hrest⟩ := hsocket
      obtain ⟨j, hj⟩ := hblocks (.chunk head tail :: front) back
        (congrArg (ReadEvent.chunk head tail :: ·) hrest)
      refine ⟨j, ?_⟩
      rw [← hj, unread, unread, hsplit]
      simp

/-- The first frame of `todo` is longer than `part`. -/
def Short (part : List UInt8) (todo : List (List UInt8)) : Prop :=
  ∀ payload ∈ todo.head?, part.length < (encode payload).length

/-- A boundary in front of the end of the first frame is at its start. -/
theorem Short.boundary {part : List UInt8} {j : Nat} (hshort : Short part todo)
    (hpart : part = encodeAll (todo.take j)) : part = [] := by
  cases todo with
  | nil => simpa using hpart
  | cons payload rest =>
    cases j with
    | zero => simpa using hpart
    | succ j =>
      have hlt := hshort payload rfl
      rw [hpart, take_succ_cons, encodeAll_cons, length_append] at hlt
      omega

/-- The payload has a length that the header can hold and the connection
accepts. -/
def Fits (limit : Nat) (payload : List UInt8) : Prop :=
  payload.length < 2 ^ 32 ∧ (0 < limit → payload.length ≤ limit)

/-- The frames of `done` are delivered and those of `todo` are not.  The buffer
holds bytes left by a blocked read and then `part`, what has been read of
`todo`. -/
structure Synced (c : Connection) (done todo : List (List UInt8))
    (zeros : Nat) (part : List UInt8) : Prop where
  frames : c.frames = done.map encode
  valid : c.readBuffer.Valid
  content : c.readBuffer.content = List.replicate zeros 0 ++ part
  stream : part ++ unread c.socket = encodeAll todo
  clean : Clean c.socket
  blocks : BlocksBetween part todo c.socket
  fits : ∀ payload ∈ todo, Fits c.maxInboundFrameBytes payload

namespace Synced

variable {c : Connection} {done todo : List (List UInt8)} {zeros : Nat} {part : List UInt8}

theorem size_eq (hsync : Synced c done todo zeros part) : c.size = zeros + part.length := by
  rw [Connection.size, ← content_length, hsync.content]
  simp

/-- A read that blocks leaves the reserved bytes behind. -/
theorem reserved (hsync : Synced c done todo zeros []) (n : Nat)
    (hunread : unread rest = unread c.socket) (hclean : Clean rest)
    (hblocks : BlocksBetween [] todo rest) :
    Synced ((c.setSocket rest).setBuffer (c.readBuffer.reserveTail n))
      done todo (zeros + n) [] := by
  refine ⟨hsync.frames, valid_reserveTail n hsync.valid, ?_, ?_, hclean, hblocks, hsync.fits⟩
  · refine (content_reserveTail n hsync.valid).trans ?_
    rw [hsync.content, append_nil, append_nil, replicate_append_replicate]
  · rw [← hsync.stream]
    exact hunread

/-- A read of a chunk brings at least one of its bytes. -/
theorem readChunk {n : Nat} (text : String) (hsync : Synced c done todo zeros part) (hpos : 0 < n)
    {head : UInt8} {tail : List UInt8} (hsocket : c.socket = .chunk head tail :: rest) :
    ∃ bytes next, c.readInto n text = (true, next) ∧ bytes ≠ [] ∧
      bytes.length ≤ n ∧ Synced next done todo zeros (part ++ bytes) := by
  have hread : c.readInto n text = (true,
      (c.setSocket (pushBack ((head :: tail).drop n) rest)).setBuffer
        (((c.readBuffer.reserveTail n).fillTail ((head :: tail).take n)).commitTail
            ((head :: tail).take n).length)) := by
    simp only [readInto, hsocket, read]
  have hclean := hsync.clean
  have hblocks := hsync.blocks
  rw [hsocket] at hclean hblocks
  have hsplit := (take_append_drop n (head :: tail)).symm
  have htake : ((head :: tail).take n).length ≤ n := length_take_le n _
  obtain ⟨hcontent, hvalid⟩ :=
    readTail_spec hsync.valid htake hpos
  refine ⟨_, _, hread, ?_, htake, hsync.frames, hvalid, ?_, ?_,
    hclean.tail.pushBack, hblocks.take_chunk hsplit, hsync.fits⟩
  · simp
    omega
  · refine hcontent.trans ?_
    rw [hsync.content, append_assoc]
  · refine Eq.trans ?_ hsync.stream
    refine (congrArg _ (unread_pushBack _ rest)).trans ?_
    rw [hsocket, unread, append_assoc, ← append_assoc _ _ (unread rest), ← hsplit]

/-- A read brings bytes, or it blocks with nothing of the next frame in the
buffer. -/
theorem readInto {n : Nat} (text : String) (hsync : Synced c done todo zeros part) (hpos : 0 < n)
    (hshort : Short part todo) :
    (∃ bytes next, c.readInto n text = (true, next) ∧ bytes ≠ [] ∧
        bytes.length ≤ n ∧ Synced next done todo zeros (part ++ bytes)) ∨
      part = [] ∧ ∃ next, c.readInto n text = (false, next) ∧
        Synced next done todo (zeros + n) [] := by
  cases hsocket : c.socket with
  | nil =>
    have hpart : part = [] := by
      apply hshort.boundary (j := todo.length)
      simpa [hsocket, unread] using hsync.stream
    have hread : c.readInto n text = (false,
        (c.setSocket []).setBuffer (c.readBuffer.reserveTail n)) := by
      simp [Connection.readInto, hsocket, read]
    subst hpart
    refine .inr ⟨rfl, _, hread, hsync.reserved n (by rw [hsocket]) ?_ ?_⟩
    · exact hsocket ▸ hsync.clean
    · intro front back hnil
      simp at hnil
  | cons event rest =>
    have hclean := hsync.clean
    have hblocks := hsync.blocks
    rw [hsocket] at hclean hblocks
    cases event with
    | eof => exact absurd mem_cons_self hclean.1
    | failure => exact absurd mem_cons_self hclean.2
    | wouldBlock =>
      have hpart : part = [] := by
        obtain ⟨j, hj⟩ := hblocks [] rest rfl
        exact hshort.boundary (by simpa [unread] using hj)
      have hread : c.readInto n text = (false,
          (c.setSocket rest).setBuffer (c.readBuffer.reserveTail n)) := by
        simp [Connection.readInto, hsocket, read]
      subst hpart
      refine .inr ⟨rfl, _, hread, hsync.reserved n (by simp [hsocket, unread]) hclean.tail ?_⟩
      intro front back hfront
      obtain ⟨j, hj⟩ := hblocks (.wouldBlock :: front) back (by rw [hfront]; rfl)
      exact ⟨j, by simp [← hj, unread]⟩
    | chunk head tail => exact .inl (hsync.readChunk text hpos hsocket)

variable {rest : List (List UInt8)} {payload : List UInt8}

/-- The payload loop ends with the whole frame in the buffer: blocking needs an
empty buffer, and the header is there. -/
theorem readPayload (fuel : Nat) (hsync : Synced c done (payload :: rest) 0 part)
    (hheader : headerSize ≤ part.length) (hle : part.length ≤ (encode payload).length)
    (hfuel : (unread c.socket).length < fuel) :
    ∃ next, c.readPayload fuel (headerSize + payload.length) = some (true, next) ∧
      Synced next done (payload :: rest) 0 (encode payload) := by
  induction fuel generalizing c part with
  | zero => omega
  | succ fuel ih =>
    have hsize := hsync.size_eq
    have hlength := encode_length payload
    by_cases hfull : c.size < headerSize + payload.length
    · have hshort : Short part (payload :: rest) := by
        intro first hfirst
        obtain rfl : payload = first := Option.some.inj hfirst
        omega
      obtain ⟨bytes, next, hread, hbytes, hcount, hnext⟩ | ⟨hpart, -⟩ :=
        hsync.readInto "EOF mid-frame" (Nat.sub_pos_of_lt hfull) hshort
      · have hpos := length_pos_iff.mpr hbytes
        have hstream := congrArg List.length (hnext.stream.trans hsync.stream.symm)
        simp only [length_append] at hstream
        obtain ⟨last, hlast, hsynced⟩ := ih hnext (by rw [length_append]; omega)
          (by rw [length_append]; omega) (by omega)
        refine ⟨last, ?_, hsynced⟩
        rw [readPayload, if_pos hfull, hread]
        exact hlast
      · rw [hpart] at hheader
        exact absurd hheader (by decide)
    · have hpart : part = encode payload :=
        append_inj_left hsync.stream (by omega)
      refine ⟨c, ?_, hpart ▸ hsync⟩
      rw [readPayload, if_neg hfull]

/-- A header in the buffer: either zero bytes stand in front, or it is the
header of the next frame. -/
theorem readHeader (hsync : Synced c done todo zeros part)
    (hsmall : zeros + part.length ≤ headerSize) (hpart : part.length < headerSize) :
    (∃ next zeros' part', c.readHeader = (false, next) ∧ Synced next done todo zeros' part' ∧
        zeros' + part'.length ≤ headerSize ∧ part'.length < headerSize) ∨
      ∃ next part', c.readHeader = (true, next) ∧ Synced next done todo zeros part' ∧
        zeros + part'.length = headerSize := by
  have hsize := hsync.size_eq
  by_cases hfull : c.size < headerSize
  · have hshort : Short part todo := by
      intro first hfirst
      rw [encode_length]
      omega
    obtain ⟨bytes, next, hread, -, hcount, hnext⟩ | ⟨rfl, next, hread, hnext⟩ :=
      hsync.readInto "EOF on read" (Nat.sub_pos_of_lt hfull) hshort
    · have hsize' := hnext.size_eq
      rw [length_append] at hsize'
      by_cases hdone : headerSize ≤ next.size
      · refine .inr ⟨next, part ++ bytes, ?_, hnext, ?_⟩
        · simp only [Connection.readHeader, if_pos hfull, hread, hdone, decide_true]
        · rw [length_append]
          omega
      · refine .inl ⟨next, zeros, part ++ bytes, ?_, hnext, ?_, ?_⟩
        · simp only [Connection.readHeader, if_pos hfull, hread, hdone, decide_false]
        · rw [length_append]
          omega
        · rw [length_append]
          omega
    · refine .inl ⟨next, _, [], ?_, hnext, ?_, by decide⟩
      · simp only [Connection.readHeader, if_pos hfull, hread]
      · rw [length_nil] at hsize ⊢
        omega
  · refine .inr ⟨c, part, ?_, hsync, by omega⟩
    simp only [Connection.readHeader, if_neg hfull]

theorem skipByte (hsync : Synced c done todo (zeros + 1) part) :
    Synced c.skipByte done todo zeros part := by
  have hsize := hsync.size_eq
  refine ⟨hsync.frames, ?_, ?_, hsync.stream, hsync.clean, hsync.blocks, hsync.fits⟩
  · exact valid_consume hsync.valid (by
      rw [Connection.size] at hsize
      omega)
  · refine (content_consume _ 1).trans ?_
    rw [hsync.content, replicate_succ]
    rfl

theorem deliver (hsync : Synced c done (payload :: rest) 0 (encode payload)) :
    Synced (c.deliver (headerSize + payload.length)) (done ++ [payload]) rest 0 [] := by
  have hlength := encode_length payload
  have hcontent : c.readBuffer.maybeCompact.content = encode payload := by
    rw [content_maybeCompact, hsync.content]
    rfl
  have hrest : unread c.socket = encodeAll rest :=
    append_cancel_left hsync.stream
  refine ⟨?_, ?_, ?_, hrest, hsync.clean, ?_, ?_⟩
  · rw [Connection.deliver, hcontent, ← hlength, take_length, hsync.frames, map_append]
    rfl
  · refine valid_consume (valid_maybeCompact hsync.valid) ?_
    rw [← content_length, hcontent, hlength]
  · refine (content_consume _ _).trans ?_
    rw [hcontent, ← hlength, drop_length]
    rfl
  · intro front back hsocket
    obtain ⟨j, hj⟩ := hsync.blocks front back hsocket
    cases j with
    | zero => simp [encode, magic] at hj
    | succ j =>
      rw [take_succ_cons, encodeAll_cons] at hj
      exact ⟨j, append_cancel_left hj⟩
  · intro later hlater
    exact hsync.fits later (mem_cons_of_mem _ hlater)

/-- With a zero byte in front the magic is missing. -/
theorem hasMagic_zeros (hsync : Synced c done todo (zeros + 1) part) : c.hasMagic = false := by
  rw [hasMagic, hsync.content, replicate_succ]
  simp [magic]

/-- The header of the next frame is accepted. -/
theorem header_accepted (hsync : Synced c done (payload :: rest) 0 part)
    (hheader : part.length = headerSize) :
    c.hasMagic = true ∧ c.tooLarge = false ∧ parseLength c.readBuffer.content = payload.length := by
  obtain ⟨hlen, hlimit⟩ := hsync.fits payload mem_cons_self
  have hcontent : c.readBuffer.content = part := hsync.content
  obtain ⟨hmagic, hparse⟩ :=
    header_of_stream hlen hsync.stream (le_of_eq hheader.symm)
  rw [hasMagic, tooLarge, hcontent, hparse]
  refine ⟨decide_eq_true hmagic, ?_, rfl⟩
  simpa using hlimit

end Synced

/-- Between two calls: some frames are delivered, and the buffer holds less than
a header of the next one, behind what is left of a blocked read. -/
def Waiting (payloads : List (List UInt8)) (c : Connection) : Prop :=
  ∃ done todo zeros part, payloads = done ++ todo ∧
    Synced c done todo zeros part ∧ zeros + part.length ≤ headerSize ∧
    part.length < headerSize

/-- The loop skips the zero bytes, one a round, and then delivers a frame or
waits for more bytes. -/
theorem frameLoop_waiting {done : List (List UInt8)} {zeros fuel : Nat} {part : List UInt8}
    (hsync : Synced c done todo zeros part) (hsmall : zeros + part.length ≤ headerSize)
    (hpart : part.length < headerSize) (hfuel : zeros + (unread c.socket).length + 1 < fuel) :
    ∃ next, c.frameLoop fuel 0 = some next ∧ Waiting (done ++ todo) next := by
  induction fuel generalizing c zeros part with
  | zero => omega
  | succ fuel ih =>
    rw [frameLoop, if_pos (by decide)]
    obtain ⟨next, zeros', part', hread, hnext, hsmall', hpart'⟩ |
        ⟨next, part', hread, hnext, hfull⟩ := hsync.readHeader hsmall hpart
    · rw [hread]
      exact ⟨next, rfl, done, todo, zeros', part', rfl, hnext, hsmall', hpart'⟩
    have hstream := congrArg List.length (hnext.stream.trans hsync.stream.symm)
    simp only [length_append] at hstream
    rw [hread]
    cases zeros with
    | succ zeros =>
      simp only [hnext.hasMagic_zeros, Bool.false_eq_true, if_false]
      apply ih hnext.skipByte
      · omega
      · omega
      · change zeros + (unread next.socket).length + 1 < fuel
        omega
    | zero =>
      rw [zero_add] at hfull
      cases todo with
      | nil =>
        have hnil : part' = [] := append_eq_nil_iff.mp hnext.stream |>.1
        rw [hnil] at hfull
        cases hfull
      | cons payload rest =>
        obtain ⟨hmagic, hlarge, hparse⟩ := hnext.header_accepted hfull
        obtain ⟨full, hpayload, hframe⟩ := hnext.readPayload fuel
          (le_of_eq hfull.symm) (by rw [encode_length]; omega)
          (by omega)
        have hdone := hframe.deliver
        have hsize : (full.deliver (headerSize + payload.length)).size <
            headerSize := by
          rw [hdone.size_eq]
          decide
        simp only [hmagic, hlarge, hparse, hpayload, if_pos hsize,
          if_true, Bool.false_eq_true, if_false]
        exact ⟨_, rfl, done ++ [payload], rest, 0, [],
          by rw [append_assoc]; rfl, hdone, by decide, by decide⟩

/-- One call returns, and keeps the buffer in step with the stream. -/
theorem handleRead_waiting (hwait : Waiting payloads c) :
    ∃ next, handleRead c = some next ∧ Waiting payloads next := by
  obtain ⟨done, todo, zeros, part, rfl, hsync, hsmall, hpart⟩ := hwait
  apply frameLoop_waiting hsync hsmall hpart
  rw [hsync.size_eq]
  omega

theorem handleReads_waiting (calls : Nat) (hwait : Waiting payloads c) :
    ∃ last, handleReads calls c = some last ∧ Waiting payloads last := by
  induction calls generalizing c with
  | zero => exact ⟨c, rfl, hwait⟩
  | succ calls ih =>
    obtain ⟨next, hnext, hwait'⟩ := handleRead_waiting hwait
    obtain ⟨last, hlast, hwaiting⟩ := ih hwait'
    exact ⟨last, by rw [handleReads, hnext]; exact hlast, hwaiting⟩

theorem Waiting.frames (hwait : Waiting payloads c) :
    c.frames <+: payloads.map encode ∧ (unread c.socket = [] → c.frames = payloads.map encode) := by
  obtain ⟨done, todo, zeros, part, rfl, hsync, -, hpart⟩ := hwait
  rw [hsync.frames, map_append]
  refine ⟨prefix_append _ _, ?_⟩
  intro hread
  cases todo with
  | nil => simp
  | cons payload rest =>
    have hlength := congrArg List.length hsync.stream
    rw [hread, encodeAll_cons] at hlength
    simp only [length_append, encode_length, length_nil] at hlength
    omega

/-- Every stream of frames is put together again, whatever the chunks, when no
read blocks inside a frame: after any number of calls the frames handed on are
a prefix of those sent, and all of them once the stream is read. -/
theorem frames_reassembled {payloads : List (List UInt8)} {limit : Nat}
    {socket : List ReadEvent} (hfits : ∀ payload ∈ payloads, Fits limit payload)
    (hstream : unread socket = encodeAll payloads) (hclean : Clean socket)
    (hblocks : BlocksBetween [] payloads socket) (calls : Nat) :
    ∃ c, handleReads calls { maxInboundFrameBytes := limit, socket } = some c ∧
      c.frames <+: payloads.map encode ∧
      (unread c.socket = [] → c.frames = payloads.map encode) := by
  have hwait : Waiting payloads { maxInboundFrameBytes := limit, socket } :=
    ⟨[], payloads, 0, [], rfl, ⟨rfl, Nat.le_refl 0, rfl, hstream, hclean, hblocks, hfits⟩,
      by decide, by decide⟩
  obtain ⟨c, hc, hlast⟩ := handleReads_waiting calls hwait
  exact ⟨c, hc, hlast.frames⟩

namespace FrameWitness

/-- Two frames, the first cut inside its header, and a read that blocks between
them. -/
def cutStream : List ReadEvent :=
  [.chunk 72 [80, 65], .chunk 67 [0, 0, 0, 2, 1, 2], .wouldBlock,
    .chunk 72 [80, 65, 67, 0, 0, 0, 1, 3]]

theorem cutStream_blocks : BlocksBetween [] [[1, 2], [3]] cutStream := by
  intro front back hsocket
  obtain _ | ⟨first, _ | ⟨second, _ | ⟨third, _ | ⟨fourth, front⟩⟩⟩⟩ := front
  · simp [cutStream] at hsocket
  · simp [cutStream] at hsocket
  · refine ⟨1, ?_⟩
    simp only [cutStream, cons_append, List.cons.injEq] at hsocket
    obtain ⟨rfl, rfl, -⟩ := hsocket
    decide
  · simp [cutStream] at hsocket
  · simp [cutStream] at hsocket

theorem cutStream_reassembled :
    ∃ c, handleReads 2 { maxInboundFrameBytes := 1024, socket := cutStream } = some c ∧
      c.frames <+: [[1, 2], [3]].map encode ∧
      (unread c.socket = [] → c.frames = [[1, 2], [3]].map encode) :=
  frames_reassembled (by unfold Fits; decide) (by decide)
    (by unfold Clean; decide) cutStream_blocks 2

/-- A read that blocks behind the header leaves two reserved bytes in the
buffer, and the next call takes them for the payload. -/
theorem blocked_payload_is_zeroed :
    (∀ payload ∈ [[1, 2]], Fits 1024 payload) ∧
    unread [.chunk 72 [80, 65, 67, 0, 0, 0, 2], .wouldBlock, .chunk 1 [2]] = encodeAll [[1, 2]] ∧
    ∃ c, handleReads 2
        { maxInboundFrameBytes := 1024
          socket :=
            [.chunk 72 [80, 65, 67, 0, 0, 0, 2], .wouldBlock, .chunk 1 [2]] } =
        some c ∧
      c.frames = [magic ++ [0, 0, 0, 2, 0, 0]] ∧
      ¬ c.frames <+: [[1, 2]].map encode :=
  ⟨by unfold Fits; decide, by decide, _, rfl, by decide, by decide⟩

end FrameWitness

end HPActor.WireFrame
