import AuraEpics.Codec.FrameRoundTrip
import AuraEpics.Lib.Pull
import AuraEpics.Lib.Runs

/-!
# The TCP transport

Model of `PvaTcp` (`crates/aura-net/src/runtime/tcp.rs`, lines 43-182) and of the headers it
writes (`crates/aura-net/src/codec/header.rs`, lines 226-255). A socket is the list of what its
coming reads give, the bytes it has taken and how many it will still take. The future of
`recv_frame` can be dropped while it reads: `tokio::select!` and `timeout_at` do that, and
`read_buf` has then read nothing. The two byte counters are natural numbers.

`send_msg` empties the write buffer before it fills it with its own message and leaves that
message there when it is written. A message that was buffered and not flushed is gone, and the
next `flush_writes` sends the message of `send_msg` again.

* `TcpOp`, `PvaTcp.step`: the calls on a connection and what they do;
* `Outbox`: what a connection has sent, and what it will send, as frames.

Results:
* `recv_frame_run`, the frames received in a run do not depend on how the stream is cut, on
  dropped futures or on what else the connection does, and none is lost;
* `send_run`, what a run writes is what the peer decodes, and when it is every message once.
-/

namespace AuraEpics.Runtime

open Codec Codec.PvaCodec Incremental Incremental.Machine

/-! ## Model -/

/-- How a read ends a call of `recv_frame`: it gives no bytes or an error, or the future is
    dropped while it waits. -/
inductive Ending where
  | eof
  | io
  | dropped
  deriving DecidableEq, Repr

/-- `TcpStream`: what the coming reads give, the bytes written, and how many more are written
    before the connection breaks, `none` if it does not. -/
structure TcpStream where
  reads : List (Wait UInt8 Ending)
  sent : List UInt8
  room : Option ℕ

/-- `write_all`: whether all of the buffer is written. -/
def TcpStream.writeAll (s : TcpStream) (buf : List UInt8) : Bool × TcpStream :=
  match s.room with
  | none => (true, { s with sent := s.sent ++ buf })
  | some k =>
    if buf.length ≤ k then (true, { s with sent := s.sent ++ buf, room := some (k - buf.length) })
    else (false, { s with sent := s.sent ++ buf.take k, room := some 0 })

/-- `TransportError` (lines 16-22). -/
inductive TransportError where
  | io
  | codec (e : CodecError)
  | timeout
  | closed
  deriving DecidableEq, Repr

/-- What a call of `recv_frame` comes to: a result, or none because its future was dropped or
    still waits. -/
abbrev Received := Option (Except TransportError PvaFrame)

/-- The result a pull stands for. -/
def Received.ofPulled : Pulled PvaFrame CodecError Ending → Received
  | .item frame => some (.ok frame)
  | .failed e => some (.error (.codec e))
  | .stopped .eof => some (.error .closed)
  | .stopped .io => some (.error .io)
  | .stopped .dropped => none
  | .pending => none

/-- `PvaTcp` (lines 44-53) but for the address. -/
structure PvaTcp where
  stream : TcpStream
  codec : PvaCodec
  readBuf : List UInt8
  writeBuf : List UInt8
  bytesRead : ℕ
  bytesWritten : ℕ

namespace PvaTcp

/-- `PvaTcp::connect` (lines 92-100), on a connected stream. -/
def connect (stream : TcpStream) : PvaTcp where
  stream := stream
  codec := PvaCodec.new
  readBuf := []
  writeBuf := []
  bytesRead := 0
  bytesWritten := 0

/-- The loop of `recv_frame` (lines 109-118), by recursion on what the reads give. -/
def recvLoop (t : PvaTcp) (reads : List (Wait UInt8 Ending)) :
    Pulled PvaFrame CodecError Ending × PvaTcp :=
  match decodeFrame t.codec t.readBuf with
  | .emit frame codec rest =>
    (.item frame, { t with codec := codec, readBuf := rest, stream.reads := reads })
  | .fail e codec rest =>
    (.failed e, { t with codec := codec, readBuf := rest, stream.reads := reads })
  | .more codec rest =>
    match reads with
    | [] => (.pending, { t with codec := codec, readBuf := rest, stream.reads := [] })
    | .data bytes :: reads =>
      recvLoop { t with
        codec := codec, readBuf := rest ++ bytes, bytesRead := t.bytesRead + bytes.length } reads
    | .stop why :: reads =>
      (.stopped why, { t with codec := codec, readBuf := rest, stream.reads := reads })

/-- `recv_frame` (lines 108-119). -/
def recvFrame (t : PvaTcp) : Pulled PvaFrame CodecError Ending × PvaTcp :=
  recvLoop t t.stream.reads

/-- `send_control` (lines 122-133). -/
def sendControl (t : PvaTcp) (command : UInt8) (payloadData : Int32) : Bool × PvaTcp :=
  let buf := (PvaHeader.ctrl command payloadData).encode
  let (ok, stream) := t.stream.writeAll buf
  if ok then (true, { t with stream := stream, bytesWritten := t.bytesWritten + headerSize })
  else (false, { t with stream := stream })

/-- `send_msg` (lines 136-144). -/
def sendMsg (t : PvaTcp) (command : UInt8) (payload : List UInt8) : Bool × PvaTcp :=
  let header := PvaHeader.app command (Int32.ofNat payload.length)
  let writeBuf := header.encode ++ payload
  let (ok, stream) := t.stream.writeAll writeBuf
  if ok then
    (true, { t with
      stream := stream, writeBuf := writeBuf, bytesWritten := t.bytesWritten + writeBuf.length })
  else (false, { t with stream := stream, writeBuf := writeBuf })

/-- `buffer_msg` (lines 148-152). -/
def bufferMsg (t : PvaTcp) (command : UInt8) (payload : List UInt8) : PvaTcp :=
  let header := PvaHeader.app command (Int32.ofNat payload.length)
  { t with writeBuf := t.writeBuf ++ header.encode ++ payload }

/-- `flush_writes` (lines 155-163). -/
def flushWrites (t : PvaTcp) : Bool × PvaTcp :=
  if t.writeBuf = [] then (true, t)
  else
    let (ok, stream) := t.stream.writeAll t.writeBuf
    if ok then
      (true, { t with
        stream := stream, bytesWritten := t.bytesWritten + t.writeBuf.length, writeBuf := [] })
    else (false, { t with stream := stream })

/-- `set_byte_order` (lines 169-171). -/
def setByteOrder (t : PvaTcp) (order : ByteOrder) : PvaTcp :=
  { t with codec := { t.codec with byteOrder := order } }

/-- `write_buf.clear()`, which the session calls. -/
def clearWrites (t : PvaTcp) : PvaTcp := { t with writeBuf := [] }

end PvaTcp

/-- The calls on a connection. -/
inductive TcpOp where
  | recvFrame
  | setByteOrder (order : ByteOrder)
  | sendControl (command : UInt8) (payloadData : Int32)
  | sendMsg (command : UInt8) (payload : List UInt8)
  | bufferMsg (command : UInt8) (payload : List UInt8)
  | flushWrites
  | clearWrites

/-- The most frames a call returns. -/
def TcpOp.receives : TcpOp → ℕ
  | recvFrame => 1
  | _ => 0

namespace PvaTcp

/-- The connection after a call. -/
def step (t : PvaTcp) : TcpOp → PvaTcp
  | .recvFrame => t.recvFrame.2
  | .setByteOrder order => t.setByteOrder order
  | .sendControl command payloadData => (t.sendControl command payloadData).2
  | .sendMsg command payload => (t.sendMsg command payload).2
  | .bufferMsg command payload => t.bufferMsg command payload
  | .flushWrites => t.flushWrites.2
  | .clearWrites => t.clearWrites

/-- The frame or the error of the codec a call returns, if it returns one. -/
def answer (t : PvaTcp) : TcpOp → List (PvaFrame ⊕ CodecError)
  | .recvFrame => t.recvFrame.1.answer
  | _ => []

/-! ## Receiving -/

theorem ignores_byteOrder (order : ByteOrder) :
    frameMachine.Ignores fun c => { c with byteOrder := order } := by
  intro c src
  obtain ⟨state, byteOrder, maxPayload, segmentBuf, totalBytes, totalFrames⟩ := c
  show decodeStep _ src = (decodeStep _ src).mapState _
  unfold decodeStep
  cases state with
  | header =>
    dsimp only
    unfold headerStep
    split_ifs
    · rfl
    · dsimp only
      split
      · rfl
      · split_ifs <;> rfl
  | payload header =>
    dsimp only
    unfold payloadStep
    dsimp only
    split_ifs
    · rfl
    · unfold segmentStep
      cases header.segmentation with
      | none => rfl
      | first => rfl
      | middle =>
        cases segmentBuf with
        | none => rfl
        | some seg =>
          dsimp only
          split_ifs <;> rfl
      | last =>
        cases segmentBuf with
        | none => rfl
        | some seg =>
          dsimp only
          split_ifs <;> rfl

/-- The write side of two connections is the same. -/
structure SameWrites (t t' : PvaTcp) : Prop where
  sent : t'.stream.sent = t.stream.sent
  room : t'.stream.room = t.stream.room
  writeBuf : t'.writeBuf = t.writeBuf
  bytesWritten : t'.bytesWritten = t.bytesWritten

theorem SameWrites.refl (t : PvaTcp) : SameWrites t t := ⟨rfl, rfl, rfl, rfl⟩

theorem SameWrites.trans {t t' t'' : PvaTcp} (h : SameWrites t t') (h' : SameWrites t' t'') :
    SameWrites t t'' :=
  ⟨h'.sent.trans h.sent, h'.room.trans h.room, h'.writeBuf.trans h.writeBuf,
    h'.bytesWritten.trans h.bytesWritten⟩

/-- What `recv_frame` does to a connection whose reads give `reads`. -/
structure RecvSpec (t : PvaTcp) (reads : List (Wait UInt8 Ending))
    (p : Pulled PvaFrame CodecError Ending) (t' : PvaTcp) : Prop where
  pull : frameMachine.PullSpec t.codec t.readBuf reads p t'.codec t'.readBuf t'.stream.reads
  bytesRead : t'.bytesRead + (Wait.inputs t'.stream.reads).length =
    t.bytesRead + (Wait.inputs reads).length
  writes : SameWrites t t'

theorem recvLoop_pull (t : PvaTcp) (reads : List (Wait UInt8 Ending)) :
    frameMachine.pull t.codec t.readBuf reads =
      ((recvLoop t reads).1, ((recvLoop t reads).2.codec, (recvLoop t reads).2.readBuf),
        (recvLoop t reads).2.stream.reads) := by
  induction reads generalizing t with
  | nil =>
    unfold pull recvLoop
    unfold decodeFrame
    cases frameMachine.run t.codec t.readBuf <;> rfl
  | cons read reads ih =>
    unfold pull recvLoop
    unfold decodeFrame
    cases frameMachine.run t.codec t.readBuf with
    | emit frame codec rest => rfl
    | fail e codec rest => rfl
    | more codec rest =>
      cases read with
      | data bytes =>
        exact ih { t with
          codec := codec, readBuf := rest ++ bytes, bytesRead := t.bytesRead + bytes.length }
      | stop why => rfl

theorem recvLoop_counts (t : PvaTcp) (reads : List (Wait UInt8 Ending)) :
    (recvLoop t reads).2.bytesRead + (Wait.inputs (recvLoop t reads).2.stream.reads).length =
        t.bytesRead + (Wait.inputs reads).length ∧
      SameWrites t (recvLoop t reads).2 := by
  induction reads generalizing t with
  | nil =>
    unfold recvLoop
    cases decodeFrame t.codec t.readBuf <;> exact ⟨rfl, rfl, rfl, rfl, rfl⟩
  | cons read reads ih =>
    unfold recvLoop
    cases decodeFrame t.codec t.readBuf with
    | emit frame codec rest => exact ⟨rfl, rfl, rfl, rfl, rfl⟩
    | fail e codec rest => exact ⟨rfl, rfl, rfl, rfl, rfl⟩
    | more codec rest =>
      cases read with
      | stop why => exact ⟨rfl, rfl, rfl, rfl, rfl⟩
      | data bytes =>
        obtain ⟨hcount, hwrites⟩ := ih { t with
          codec := codec, readBuf := rest ++ bytes, bytesRead := t.bytesRead + bytes.length }
        refine ⟨hcount.trans ?_, hwrites.sent, hwrites.room, hwrites.writeBuf, hwrites.bytesWritten⟩
        show t.bytesRead + bytes.length + (Wait.inputs reads).length =
          t.bytesRead + (bytes ++ Wait.inputs reads).length
        rw [List.length_append, Nat.add_assoc]

theorem recvFrame_spec (t : PvaTcp) :
    RecvSpec t t.stream.reads t.recvFrame.1 t.recvFrame.2 := by
  obtain ⟨hcount, hwrites⟩ := recvLoop_counts t t.stream.reads
  have hpull := frameMachine.pull_spec t.codec t.readBuf t.stream.reads
  rw [recvLoop_pull] at hpull
  exact ⟨hpull, hcount, hwrites⟩

/-- What the calls so far received: they used up `used` of the reads, and `got` are the answers
    to the bytes in them. -/
structure Got (t : PvaTcp) (used : List (Wait UInt8 Ending)) (got : List (PvaFrame ⊕ CodecError))
    (t' : PvaTcp) : Prop where
  reads : t.stream.reads = used ++ t'.stream.reads
  answered : frameMachine.Answered t.codec t.readBuf (Wait.inputs used) got t'.codec t'.readBuf
  bytesRead : t'.bytesRead = t.bytesRead + (Wait.inputs used).length

theorem Got.refl (t : PvaTcp) : Got t [] [] t := ⟨rfl, .refl _ _, rfl⟩

theorem Got.trans {t t' t'' : PvaTcp} {used used' : List (Wait UInt8 Ending)}
    {got got' : List (PvaFrame ⊕ CodecError)} (h : Got t used got t') (h' : Got t' used' got' t'') :
    Got t (used ++ used') (got ++ got') t'' := by
  refine ⟨?_, ?_, ?_⟩
  · rw [h.reads, h'.reads, List.append_assoc]
  · rw [Wait.inputs_append]
    exact h.answered.trans h'.answered
  · rw [h'.bytesRead, h.bytesRead, Wait.inputs_append, List.length_append, Nat.add_assoc]

/-- The read side of two connections is the same. -/
structure SameReads (t t' : PvaTcp) : Prop where
  reads : t'.stream.reads = t.stream.reads
  codec : t'.codec = t.codec
  readBuf : t'.readBuf = t.readBuf
  bytesRead : t'.bytesRead = t.bytesRead

theorem SameReads.trans {t t' t'' : PvaTcp} (h : SameReads t t') (h' : SameReads t' t'') :
    SameReads t t'' :=
  ⟨h'.reads.trans h.reads, h'.codec.trans h.codec, h'.readBuf.trans h.readBuf,
    h'.bytesRead.trans h.bytesRead⟩

/-- A call that leaves the read side alone receives nothing. -/
theorem SameReads.got {t t' : PvaTcp} (h : SameReads t t') : Got t [] [] t' := by
  refine ⟨h.reads.symm, ?_, h.bytesRead⟩
  rw [h.codec, h.readBuf]
  exact .refl _ _

theorem writeAll_reads (s : TcpStream) (buf : List UInt8) :
    (s.writeAll buf).2.reads = s.reads := by
  unfold TcpStream.writeAll
  cases s.room with
  | none => rfl
  | some k =>
    dsimp only
    split_ifs <;> rfl

theorem sendControl_reads (t : PvaTcp) (command : UInt8) (payloadData : Int32) :
    SameReads t (t.sendControl command payloadData).2 := by
  unfold sendControl
  dsimp only
  split_ifs <;> exact ⟨writeAll_reads _ _, rfl, rfl, rfl⟩

theorem sendMsg_reads (t : PvaTcp) (command : UInt8) (payload : List UInt8) :
    SameReads t (t.sendMsg command payload).2 := by
  unfold sendMsg
  dsimp only
  split_ifs <;> exact ⟨writeAll_reads _ _, rfl, rfl, rfl⟩

theorem bufferMsg_reads (t : PvaTcp) (command : UInt8) (payload : List UInt8) :
    SameReads t (t.bufferMsg command payload) := ⟨rfl, rfl, rfl, rfl⟩

theorem clearWrites_reads (t : PvaTcp) : SameReads t t.clearWrites := ⟨rfl, rfl, rfl, rfl⟩

theorem flushWrites_reads (t : PvaTcp) : SameReads t t.flushWrites.2 := by
  unfold flushWrites
  by_cases hempty : t.writeBuf = []
  · rw [if_pos hempty]
    exact ⟨rfl, rfl, rfl, rfl⟩
  · rw [if_neg hempty]
    dsimp only
    split_ifs <;> exact ⟨writeAll_reads _ _, rfl, rfl, rfl⟩

theorem step_got (t : PvaTcp) (op : TcpOp) :
    ∃ used, Got t used (t.answer op) (t.step op) ∧
      ((t.answer op).length = op.receives →
        ∃ chunks : List (List UInt8), used = chunks.map .data) := by
  have hsame : ∀ {t'}, SameReads t t' → ∃ used, Got t used [] t' ∧
      (([] : List (PvaFrame ⊕ CodecError)).length = 0 →
        ∃ chunks : List (List UInt8), used = chunks.map .data) :=
    fun h => ⟨[], h.got, fun _ => ⟨[], rfl⟩⟩
  cases op with
  | recvFrame =>
    obtain ⟨⟨⟨used, hused, hanswered, hdata⟩, -⟩, hcount, -⟩ := recvFrame_spec t
    refine ⟨used, ⟨hused, hanswered, ?_⟩, fun hlen => hdata ?_⟩
    · rw [hused, Wait.inputs_append, List.length_append] at hcount
      show t.recvFrame.2.bytesRead = _
      omega
    · exact List.ne_nil_of_length_pos (Nat.lt_of_lt_of_eq Nat.zero_lt_one hlen.symm)
  | setByteOrder order =>
    refine ⟨[], ⟨rfl, fun n ys => ?_, rfl⟩, fun _ => ⟨[], rfl⟩⟩
    have hsame := answers_map (ignores_byteOrder order) n t.codec (t.readBuf ++ ys)
    show frameMachine.answers (0 + n) t.codec (t.readBuf ++ [] ++ ys) = _
    rw [Nat.zero_add, List.append_nil]
    exact hsame.symm
  | sendControl command payloadData => exact hsame (sendControl_reads t command payloadData)
  | sendMsg command payload => exact hsame (sendMsg_reads t command payload)
  | bufferMsg command payload => exact hsame (bufferMsg_reads t command payload)
  | flushWrites => exact hsame (flushWrites_reads t)
  | clearWrites => exact hsame (clearWrites_reads t)

theorem length_answer_le (t : PvaTcp) (op : TcpOp) : (t.answer op).length ≤ op.receives := by
  cases op with
  | recvFrame =>
    show t.recvFrame.1.answer.length ≤ 1
    cases t.recvFrame.1 <;> simp [Pulled.answer]
  | _ => exact Nat.le_refl 0

theorem length_outputs_le (t : PvaTcp) (ops : List TcpOp) :
    (Runs.outputs step answer t ops).length ≤ (ops.map TcpOp.receives).sum := by
  induction ops generalizing t with
  | nil => exact Nat.le_refl 0
  | cons op ops ih =>
    show (t.answer op ++ Runs.outputs step answer (t.step op) ops).length ≤ _
    rw [List.length_append, List.map_cons, List.sum_cons]
    exact Nat.add_le_add (length_answer_le t op) (ih (t.step op))

theorem run_got (t : PvaTcp) (ops : List TcpOp) :
    ∃ used, Got t used (Runs.outputs step answer t ops) (Runs.run step t ops) ∧
      ((Runs.outputs step answer t ops).length = (ops.map TcpOp.receives).sum →
        ∃ chunks : List (List UInt8), used = chunks.map .data) := by
  induction ops generalizing t with
  | nil => exact ⟨[], .refl t, fun _ => ⟨[], rfl⟩⟩
  | cons op ops ih =>
    obtain ⟨used, hstep, hdata⟩ := step_got t op
    obtain ⟨used', hrest, hdata'⟩ := ih (t.step op)
    refine ⟨used ++ used', hstep.trans hrest, fun hlen => ?_⟩
    -- no call can have more than its share of the answers
    replace hlen : (t.answer op ++ Runs.outputs step answer (t.step op) ops).length =
      ((op :: ops).map TcpOp.receives).sum := hlen
    rw [List.length_append, List.map_cons, List.sum_cons] at hlen
    have hle := length_answer_le t op
    have hle' := length_outputs_le (t.step op) ops
    obtain ⟨chunks, rfl⟩ := hdata (by omega)
    obtain ⟨chunks', rfl⟩ := hdata' (by omega)
    exact ⟨chunks ++ chunks', List.map_append.symm⟩

/-- A call of `recv_frame` that returns nothing leaves the codec waiting. -/
theorem waits_of_no_answer {t : PvaTcp} (h : t.answer .recvFrame = []) :
    decodeFrame (t.step .recvFrame).codec (t.step .recvFrame).readBuf =
      .more (t.step .recvFrame).codec (t.step .recvFrame).readBuf :=
  (recvFrame_spec t).pull.waits h

/-- **Main theorem**: let some calls be made on a connection, with any reads. What the calls of
    `recv_frame` returned are the frames of the bytes read so far in their order, then the
    first error: at most all of them, all of them if the last call returned nothing, and no
    more if there is no error. The bytes read are counted. -/
theorem recv_frame_run (t : PvaTcp) (ops : List TcpOp) :
    let t' := Runs.run step t ops
    let got := Runs.outputs step answer t ops
    ∃ used, t.stream.reads = used ++ t'.stream.reads ∧
      t'.bytesRead = t.bytesRead + (Wait.inputs used).length ∧
      let whole := decodeFrames t.codec (t.readBuf ++ Wait.inputs used)
      let expected := whole.items.map Sum.inl ++ whole.error.toList.map Sum.inr
      (got <+: expected ∨ expected <+: got) ∧
      (∀ pre, ops = pre ++ [.recvFrame] → (Runs.run step t pre).answer .recvFrame = [] →
        expected <+: got) ∧
      (whole.error = none → got <+: expected) := by
  intro t' got
  obtain ⟨used, ⟨hreads, hanswered, hbytes⟩, -⟩ := run_got t ops
  refine ⟨used, hreads, hbytes, ?_⟩
  intro whole expected
  have hprefix : expected.take got.length <+: got := by
    have h := frameMachine.drained_prefix got.length t.codec (t.readBuf ++ Wait.inputs used)
    rwa [hanswered.answers_eq] at h
  have hcases : got <+: expected ∨ expected <+: got := by
    by_cases hle : got.length ≤ expected.length
    · left
      have heq : expected.take got.length = got := by
        refine hprefix.eq_of_length ?_
        rw [List.length_take, Nat.min_eq_left hle]
      exact heq ▸ List.take_prefix _ _
    · right
      rwa [List.take_of_length_le (by omega)] at hprefix
  refine ⟨hcases, ?_, ?_⟩
  · rintro pre rfl hnone
    have hwait : decodeFrame t'.codec t'.readBuf = .more t'.codec t'.readBuf := by
      have h := waits_of_no_answer hnone
      have hlast : t' = (Runs.run step t pre).step .recvFrame := by
        show Runs.run step t (pre ++ [.recvFrame]) = _
        rw [Runs.run_append]
        rfl
      rw [hlast]
      exact h
    have h := frameMachine.drained_prefix (got.length + expected.length) t.codec
      (t.readBuf ++ Wait.inputs used)
    rw [hanswered.all hwait] at h
    have hall : expected.take (got.length + expected.length) = expected :=
      List.take_of_length_le (Nat.le_add_left _ _)
    exact hall ▸ h
  · intro hok
    have h := frameMachine.answers_of_drained hok got.length
    rw [hanswered.answers_eq, List.map_take] at h
    have hexpected : expected = whole.items.map Sum.inl := by
      show whole.items.map Sum.inl ++ whole.error.toList.map Sum.inr = _
      rw [hok]
      simp
    have htake : got = (whole.items.map Sum.inl).take got.length := h
    rw [hexpected, htake]
    exact List.take_prefix _ _

/-! ## What will arrive -/

/-- The frames that arrive before the first read that gives no bytes. -/
def arriving (t : PvaTcp) : List PvaFrame :=
  (decodeFrames t.codec (t.readBuf ++ Wait.inputs (t.stream.reads.takeWhile Wait.isData))).items

/-- The reads up to the first that gives no bytes, and those behind. -/
theorem exists_reads (t : PvaTcp) :
    ∃ (chunks : List (List UInt8)) (later : List (Wait UInt8 Ending)),
      t.stream.reads = chunks.map .data ++ later ∧ later.takeWhile Wait.isData = [] := by
  obtain ⟨chunks, hchunks⟩ := Wait.exists_chunks t.stream.reads
  have hsplit : t.stream.reads = chunks.map .data ++ t.stream.reads.dropWhile Wait.isData := by
    rw [← hchunks, List.takeWhile_append_dropWhile]
  refine ⟨chunks, _, hsplit, ?_⟩
  have htake := Wait.takeWhile_data chunks (t.stream.reads.dropWhile Wait.isData)
  rw [← hsplit, hchunks] at htake
  exact List.self_eq_append_right.1 htake

theorem arriving_eq {t : PvaTcp} {chunks : List (List UInt8)} {later : List (Wait UInt8 Ending)}
    (hreads : t.stream.reads = chunks.map .data ++ later)
    (hlater : later.takeWhile Wait.isData = []) :
    t.arriving = (decodeFrames t.codec (t.readBuf ++ chunks.flatten)).items := by
  unfold arriving
  rw [hreads, Wait.takeWhile_data, hlater, List.append_nil, Wait.inputs_data]

/-- `recv_frame` returns what arrives first, and the rest is left to later calls. -/
theorem recvFrame_arriving {t : PvaTcp} {frame : PvaFrame} {frames : List PvaFrame}
    (h : t.arriving = frame :: frames) :
    ∃ t', t.recvFrame = (.item frame, t') ∧ t'.arriving = frames ∧ SameWrites t t' := by
  obtain ⟨chunks, later, hreads, hlater⟩ := exists_reads t
  have harriving := (arriving_eq hreads hlater).symm.trans h
  have hanswers : ∀ as, frameMachine.answers as.length t.codec (t.readBuf ++ chunks.flatten) =
      as.map Sum.inl ↔ as <+: frame :: frames := by
    intro as
    rw [frameMachine.answers_items_iff]
    exact iff_of_eq (congrArg (as <+: ·) harriving)
  obtain ⟨codec, buf, rest, hpull, hnext⟩ :=
    frameMachine.pull_enough ((hanswers [frame]).2 (List.prefix_append [frame] frames)) later
  have heq : frameMachine.pull t.codec t.readBuf t.stream.reads =
      (t.recvFrame.1, (t.recvFrame.2.codec, t.recvFrame.2.readBuf), t.recvFrame.2.stream.reads) :=
    recvLoop_pull t t.stream.reads
  rw [hreads, hpull] at heq
  simp only [Prod.mk.injEq] at heq
  obtain ⟨hitem, ⟨hcodec, hbuf⟩, hrest⟩ := heq
  refine ⟨t.recvFrame.2, Prod.ext hitem.symm rfl, ?_, (recvFrame_spec t).writes⟩
  rw [arriving_eq hrest.symm hlater, ← hcodec, ← hbuf]
  -- each is a prefix of the other, by the answers after the first
  have hpre : ∀ as, as <+: (decodeFrames codec (buf ++ rest.flatten)).items ↔ as <+: frames := by
    intro as
    show as <+: (frameMachine.drain codec (buf ++ rest.flatten)).items ↔ _
    have hall := hanswers (frame :: as)
    rw [List.length_cons, hnext, List.map_cons, List.cons.injEq, List.cons_prefix_cons] at hall
    rw [← frameMachine.answers_items_iff]
    simpa using hall
  exact List.IsPrefix.eq_of_length_le ((hpre _).1 List.prefix_rfl)
    ((hpre _).2 List.prefix_rfl).length_le

/-- Where nothing arrives, `recv_frame` returns no frame. -/
theorem recvFrame_none {t : PvaTcp} (h : t.arriving = []) (frame : PvaFrame) (t' : PvaTcp) :
    t.recvFrame ≠ (.item frame, t') := by
  intro hrecv
  obtain ⟨⟨used, hused, hanswered, hdata⟩, -⟩ := (recvFrame_spec t).pull
  rw [hrecv] at hused hanswered hdata
  obtain ⟨chunks, rfl⟩ := hdata (List.cons_ne_nil _ _)
  have hfirst := hanswered 0 (Wait.inputs (t'.stream.reads.takeWhile Wait.isData))
  have hall : t.readBuf ++ Wait.inputs (t.stream.reads.takeWhile Wait.isData) =
      t.readBuf ++ Wait.inputs (chunks.map .data : List (Wait UInt8 Ending)) ++
        Wait.inputs (t'.stream.reads.takeWhile Wait.isData) := by
    rw [hused, Wait.takeWhile_data, Wait.inputs_append, List.append_assoc]
  rw [← hall] at hfirst
  have hitem := (frameMachine.answers_items_iff [frame] _ _).1 hfirst
  have hnil : [frame] <+: t.arriving := hitem
  rw [h] at hnil
  exact absurd (List.prefix_nil.1 hnil) (List.cons_ne_nil _ _)

end PvaTcp

/-! ## Sending -/

/-- The frame `send_msg` and `buffer_msg` write. -/
def appFrame (command : UInt8) (payload : List UInt8) : PvaFrame :=
  ⟨PvaHeader.app command (Int32.ofNat payload.length), payload⟩

/-- The frame `send_control` writes. -/
def ctrlFrame (command : UInt8) (payloadData : Int32) : PvaFrame :=
  ⟨PvaHeader.ctrl command payloadData, []⟩

theorem isControl_appFrame (command : UInt8) (payload : List UInt8) :
    (appFrame command payload).header.isControl = false := by
  show decide ((0 : UInt8) &&& Flags.control ≠ 0) = false
  decide

theorem isControl_ctrlFrame (command : UInt8) (payloadData : Int32) :
    (ctrlFrame command payloadData).header.isControl = true := by
  show decide (Flags.control &&& Flags.control ≠ 0) = true
  decide

/-- The frames a connection has written, the one `send_msg` left in the write buffer after it
    was written, the ones buffered and not written, and all it was given to send. -/
structure Outbox where
  sent : List PvaFrame
  stale : Option PvaFrame
  unsent : List PvaFrame
  issued : List PvaFrame

namespace Outbox

/-- The outbox of a new connection. -/
def empty : Outbox := ⟨[], none, [], []⟩

/-- The frames in the write buffer. -/
def buffered (b : Outbox) : List PvaFrame := b.stale.toList ++ b.unsent

/-- The outbox after a call, when the connection does not break. -/
def step (b : Outbox) : TcpOp → Outbox
  | .recvFrame => b
  | .setByteOrder _ => b
  | .sendControl command payloadData =>
    let frame := ctrlFrame command payloadData
    { b with sent := b.sent ++ [frame], issued := b.issued ++ [frame] }
  | .sendMsg command payload =>
    let frame := appFrame command payload
    ⟨b.sent ++ [frame], some frame, [], b.issued ++ [frame]⟩
  | .bufferMsg command payload =>
    let frame := appFrame command payload
    { b with unsent := b.unsent ++ [frame], issued := b.issued ++ [frame] }
  | .flushWrites => { b with sent := b.sent ++ b.buffered, stale := none, unsent := [] }
  | .clearWrites => { b with stale := none, unsent := [] }

/-- Every frame to send was sent once and in order, or is still to be. -/
def Faithful (b : Outbox) : Prop := b.sent ++ b.unsent = b.issued

/-- The calls that keep an outbox faithful: nothing is sent past what is buffered or thrown
    away with it, and no flush finds a message of `send_msg`. -/
def Careful (b : Outbox) : TcpOp → Prop
  | .sendControl _ _ => b.unsent = []
  | .sendMsg _ _ => b.unsent = []
  | .clearWrites => b.unsent = []
  | .flushWrites => b.stale = none
  | _ => True

instance (b : Outbox) : (op : TcpOp) → Decidable (b.Careful op)
  | .recvFrame => inferInstanceAs (Decidable True)
  | .setByteOrder _ => inferInstanceAs (Decidable True)
  | .sendControl _ _ => inferInstanceAs (Decidable (b.unsent = []))
  | .sendMsg _ _ => inferInstanceAs (Decidable (b.unsent = []))
  | .bufferMsg _ _ => inferInstanceAs (Decidable True)
  | .flushWrites => inferInstanceAs (Decidable (b.stale = none))
  | .clearWrites => inferInstanceAs (Decidable (b.unsent = []))

/-- No control message is buffered. -/
def BuffersApp (b : Outbox) : Prop := ∀ f ∈ b.unsent, f.header.isControl = false

theorem step_buffersApp {b : Outbox} (h : b.BuffersApp) (op : TcpOp) : (b.step op).BuffersApp := by
  cases op with
  | recvFrame => exact h
  | setByteOrder order => exact h
  | sendControl command payloadData => exact h
  | sendMsg command payload => exact fun f hf => absurd hf List.not_mem_nil
  | bufferMsg command payload =>
    intro f hf
    obtain hf | hf := List.mem_append.1 hf
    · exact h f hf
    · rw [List.mem_singleton.1 hf]
      exact isControl_appFrame command payload
  | flushWrites => exact fun f hf => absurd hf List.not_mem_nil
  | clearWrites => exact fun f hf => absurd hf List.not_mem_nil

theorem step_faithful_iff {b : Outbox} (hbuffers : b.BuffersApp) (h : b.Faithful) (op : TcpOp) :
    (b.step op).Faithful ↔ b.Careful op := by
  unfold Faithful at h
  cases op with
  | recvFrame => exact iff_of_true h trivial
  | setByteOrder order => exact iff_of_true h trivial
  | bufferMsg command payload =>
    refine iff_of_true ?_ trivial
    show b.sent ++ (b.unsent ++ [_]) = b.issued ++ [_]
    rw [← h, List.append_assoc]
  | sendControl command payloadData =>
    show (b.sent ++ [ctrlFrame command payloadData]) ++ b.unsent =
      b.issued ++ [ctrlFrame command payloadData] ↔ b.unsent = []
    rw [← h, List.append_assoc, List.append_assoc, List.append_cancel_left_eq]
    constructor
    · intro heq
      cases hunsent : b.unsent with
      | nil => rfl
      | cons f fs =>
        -- the first frame would be the control message itself
        rw [hunsent] at heq
        have hctrl : ctrlFrame command payloadData = f := (List.cons.inj heq).1
        have happ := hbuffers f (by rw [hunsent]; exact List.mem_cons_self)
        rw [← hctrl, isControl_ctrlFrame] at happ
        cases happ
    · intro hnil
      rw [hnil]
      rfl
  | sendMsg command payload =>
    show (b.sent ++ [appFrame command payload]) ++ [] = b.issued ++ [appFrame command payload] ↔
      b.unsent = []
    rw [← h, List.append_nil, List.append_cancel_right_eq]
    exact List.self_eq_append_right
  | flushWrites =>
    show (b.sent ++ (b.stale.toList ++ b.unsent)) ++ [] = b.issued ↔ b.stale = none
    rw [← h, List.append_nil, List.append_cancel_left_eq]
    simp
  | clearWrites =>
    show b.sent ++ [] = b.issued ↔ b.unsent = []
    rw [← h, List.append_nil]
    exact List.self_eq_append_right

end Outbox

namespace TcpOp

/-- The message of a call fits the limit of a peer. -/
def Fits : TcpOp → Prop
  | sendMsg _ payload => payload.length ≤ maxPayloadSize
  | bufferMsg _ payload => payload.length ≤ maxPayloadSize
  | _ => True

end TcpOp

/-- The frame is one that a new codec decodes. -/
abbrev Decodable (f : PvaFrame) : Prop := f.WellFormed PvaCodec.new.maxPayload

theorem appFrame_decodable {command : UInt8} {payload : List UInt8}
    (h : payload.length ≤ maxPayloadSize) : Decodable (appFrame command payload) := by
  have hsmall : payload.length < 2 ^ 31 := Nat.lt_of_le_of_lt h (by decide)
  refine .inr ⟨isControl_appFrame command payload, ?_, Int32.toInt_ofNat_of_lt hsmall, h⟩
  show Segmentation.fromFlags 0 = .none
  decide

theorem ctrlFrame_decodable (command : UInt8) (payloadData : Int32) :
    Decodable (ctrlFrame command payloadData) :=
  .inl ⟨isControl_ctrlFrame command payloadData, rfl⟩

/-- All frames of an outbox are decodable. -/
def Outbox.AllDecodable (b : Outbox) : Prop := ∀ f ∈ b.sent ++ b.buffered, Decodable f

theorem Outbox.step_allDecodable {b : Outbox} (h : b.AllDecodable) {op : TcpOp} (hop : op.Fits) :
    (b.step op).AllDecodable := by
  have hsent : ∀ f ∈ b.sent, Decodable f := fun f hf => h f (List.mem_append_left _ hf)
  have hbuffered : ∀ f ∈ b.buffered, Decodable f := fun f hf => h f (List.mem_append_right _ hf)
  intro f hf
  cases op with
  | recvFrame => exact h f hf
  | setByteOrder order => exact h f hf
  | sendControl command payloadData =>
    replace hf : f ∈ (b.sent ++ [ctrlFrame command payloadData]) ++ b.buffered := hf
    rw [List.mem_append, List.mem_append, List.mem_singleton] at hf
    obtain (hf | rfl) | hf := hf
    · exact hsent f hf
    · exact ctrlFrame_decodable command payloadData
    · exact hbuffered f hf
  | sendMsg command payload =>
    replace hf : f ∈ (b.sent ++ [appFrame command payload]) ++ [appFrame command payload] := hf
    rw [List.mem_append, List.mem_append, List.mem_singleton] at hf
    obtain (hf | rfl) | rfl := hf
    · exact hsent f hf
    · exact appFrame_decodable hop
    · exact appFrame_decodable hop
  | bufferMsg command payload =>
    replace hf : f ∈ b.sent ++ (b.stale.toList ++ (b.unsent ++ [appFrame command payload])) := hf
    rw [← List.append_assoc b.stale.toList, List.mem_append, List.mem_append,
      List.mem_singleton] at hf
    obtain hf | hf | rfl := hf
    · exact hsent f hf
    · exact hbuffered f hf
    · exact appFrame_decodable hop
  | flushWrites =>
    replace hf : f ∈ (b.sent ++ b.buffered) ++ [] := hf
    rw [List.append_nil] at hf
    exact h f hf
  | clearWrites =>
    replace hf : f ∈ b.sent ++ [] := hf
    rw [List.append_nil] at hf
    exact hsent f hf

namespace PvaTcp

/-- The bytes of some frames. -/
def wire (frames : List PvaFrame) : List UInt8 := frames.flatMap encodeFrame

theorem wire_append (fs gs : List PvaFrame) : wire (fs ++ gs) = wire fs ++ wire gs :=
  List.flatMap_append

theorem wire_singleton (f : PvaFrame) : wire [f] = encodeFrame f := List.flatMap_singleton _ _

theorem wire_appFrame (command : UInt8) (payload : List UInt8) :
    wire [appFrame command payload] =
      (PvaHeader.app command (Int32.ofNat payload.length)).encode ++ payload := by
  rw [wire_singleton, encodeFrame_eq]
  rfl

theorem wire_ctrlFrame (command : UInt8) (payloadData : Int32) :
    wire [ctrlFrame command payloadData] = (PvaHeader.ctrl command payloadData).encode := by
  rw [wire_singleton, encodeFrame_eq]
  exact List.append_nil _

theorem eq_nil_of_wire_eq_nil {fs : List PvaFrame} (h : wire fs = []) : fs = [] := by
  cases fs with
  | nil => rfl
  | cons f fs =>
    have hlen := congrArg List.length h
    rw [wire, List.flatMap_cons, encodeFrame_eq] at hlen
    simp [headerSize] at hlen

section WriteAll

variable {s : TcpStream} {buf : List UInt8}

theorem writeAll_true (h : (s.writeAll buf).1 = true) :
    (s.writeAll buf).2.sent = s.sent ++ buf := by
  unfold TcpStream.writeAll at h ⊢
  cases hroom : s.room with
  | none => rfl
  | some k =>
    rw [hroom] at h
    dsimp only at h ⊢
    split_ifs at h ⊢
    rfl

theorem writeAll_false (h : (s.writeAll buf).1 = false) :
    (s.writeAll buf).2.room = some 0 ∧ ∃ k, (s.writeAll buf).2.sent = s.sent ++ buf.take k := by
  unfold TcpStream.writeAll at h ⊢
  cases hroom : s.room with
  | none => rw [hroom] at h; cases h
  | some k =>
    rw [hroom] at h
    dsimp only at h ⊢
    split_ifs at h ⊢
    exact ⟨rfl, k, rfl⟩

theorem writeAll_broken (buf : List UInt8) (h : s.room = some 0) :
    (s.writeAll buf).2.room = some 0 ∧ (s.writeAll buf).2.sent = s.sent ∧
      ((s.writeAll buf).1 = true → buf = []) := by
  unfold TcpStream.writeAll
  rw [h]
  dsimp only
  by_cases hbuf : buf = []
  · subst hbuf
    exact ⟨rfl, List.append_nil _, fun _ => rfl⟩
  · have hlt : ¬buf.length ≤ 0 := by
      rw [Nat.le_zero, List.length_eq_zero_iff]
      exact hbuf
    rw [if_neg hlt]
    exact ⟨rfl, List.append_nil _, fun htrue => absurd htrue Bool.false_ne_true⟩

theorem writeAll_unbounded (h : s.room = none) :
    (s.writeAll buf).1 = true ∧ (s.writeAll buf).2.room = none := by
  unfold TcpStream.writeAll
  rw [h]
  exact ⟨rfl, rfl⟩

end WriteAll

/-- What a connection wrote and holds, against its outbox: all of it, or the connection is
    broken and it wrote a first part. -/
def Carries (t : PvaTcp) (b : Outbox) : Prop :=
  (t.stream.sent = wire b.sent ∧ t.writeBuf = wire b.buffered ∧
    t.bytesWritten = t.stream.sent.length) ∨
  (t.stream.room = some 0 ∧ t.stream.sent <+: wire b.sent ∧
    t.bytesWritten ≤ t.stream.sent.length)

/-- Writing the bytes of `frames` carries them, if what is done to the buffer and the count
    afterwards fits the outbox. -/
theorem Carries.write {t t' : PvaTcp} {b b' : Outbox} {buf : List UInt8} (frames : List PvaFrame)
    (h : Carries t b) (hbuf : t.writeBuf = wire b.buffered → buf = wire frames)
    (hstream : t'.stream = (t.stream.writeAll buf).2) (hsent : b'.sent = b.sent ++ frames)
    (hok : (t.stream.writeAll buf).1 = true → t'.bytesWritten = t.bytesWritten + buf.length ∧
      (t.writeBuf = wire b.buffered → t'.writeBuf = wire b'.buffered))
    (hfail : (t.stream.writeAll buf).1 = false → t'.bytesWritten = t.bytesWritten) :
    Carries t' b' := by
  unfold Carries
  rw [hstream, hsent, wire_append]
  obtain ⟨hwrote, hholds, hcount⟩ | ⟨hbroken, hwrote, hcount⟩ := h
  · have hframes := hbuf hholds
    cases hres : (t.stream.writeAll buf).1 with
    | true =>
      obtain ⟨hbytes, hnext⟩ := hok hres
      have hall := writeAll_true hres
      refine .inl ⟨?_, hnext hholds, ?_⟩
      · rw [hall, hwrote, hframes]
      · rw [hall, List.length_append, hbytes, hcount]
    | false =>
      obtain ⟨hroom, k, hpart⟩ := writeAll_false hres
      refine .inr ⟨hroom, ?_, ?_⟩
      · rw [hpart, hwrote, hframes]
        exact List.prefix_append_right_inj _ |>.2 (List.take_prefix _ _)
      · rw [hpart, List.length_append, hfail hres, hcount]
        exact Nat.le_add_right _ _
  · obtain ⟨hroom, hsame, hempty⟩ := writeAll_broken buf hbroken
    refine .inr ⟨hroom, ?_, ?_⟩
    · rw [hsame]
      exact hwrote.trans (List.prefix_append _ _)
    · rw [hsame]
      cases hres : (t.stream.writeAll buf).1 with
      | true =>
        rw [(hok hres).1, hempty hres]
        exact hcount
      | false =>
        rw [hfail hres]
        exact hcount

theorem Carries.of_same {t t' : PvaTcp} {b : Outbox} (h : Carries t b) (hsame : SameWrites t t') :
    Carries t' b := by
  unfold Carries at h ⊢
  rw [hsame.sent, hsame.room, hsame.writeBuf, hsame.bytesWritten]
  exact h

theorem step_carries {t : PvaTcp} {b : Outbox} (h : Carries t b) (op : TcpOp) :
    Carries (t.step op) (b.step op) := by
  cases op with
  | recvFrame => exact h.of_same (recvFrame_spec t).writes
  | setByteOrder order => exact h
  | sendControl command payloadData =>
    refine h.write [ctrlFrame command payloadData]
      (fun _ => (wire_ctrlFrame command payloadData).symm) ?_ rfl (fun hok => ?_) (fun hfail => ?_)
    all_goals unfold step sendControl
    · dsimp only
      split_ifs <;> rfl
    · dsimp only
      rw [if_pos hok, PvaHeader.length_encode]
      exact ⟨rfl, fun hholds => hholds⟩
    · dsimp only
      rw [if_neg (by rw [hfail]; exact Bool.false_ne_true)]
  | sendMsg command payload =>
    refine h.write [appFrame command payload]
      (fun _ => (wire_appFrame command payload).symm) ?_ rfl (fun hok => ?_) (fun hfail => ?_)
    all_goals unfold step sendMsg
    · dsimp only
      split_ifs <;> rfl
    · dsimp only
      rw [if_pos hok]
      exact ⟨rfl, fun _ => (wire_appFrame command payload).symm⟩
    · dsimp only
      rw [if_neg (by rw [hfail]; exact Bool.false_ne_true)]
  | bufferMsg command payload =>
    obtain ⟨hwrote, hholds, hcount⟩ | hbroken := h
    · refine .inl ⟨hwrote, ?_, hcount⟩
      show t.writeBuf ++ _ ++ payload = wire (b.stale.toList ++ (b.unsent ++ [_]))
      rw [hholds, ← List.append_assoc, wire_append, wire_appFrame, List.append_assoc]
      rfl
    · exact .inr hbroken
  | flushWrites =>
    by_cases hempty : t.writeBuf = []
    · -- nothing is written: the buffer is empty, or the connection is broken
      have hsame : t.step .flushWrites = t := by
        show t.flushWrites.2 = t
        unfold flushWrites
        rw [if_pos hempty]
      rw [hsame]
      obtain ⟨hwrote, hholds, hcount⟩ | ⟨hbroken, hwrote, hcount⟩ := h
      · have hnone : b.buffered = [] := eq_nil_of_wire_eq_nil (hholds.symm.trans hempty)
        refine .inl ⟨?_, hempty, hcount⟩
        show t.stream.sent = wire (b.sent ++ b.buffered)
        rw [hnone, List.append_nil]
        exact hwrote
      · refine .inr ⟨hbroken, ?_, hcount⟩
        show t.stream.sent <+: wire (b.sent ++ b.buffered)
        rw [wire_append]
        exact hwrote.trans (List.prefix_append _ _)
    · refine h.write b.buffered (fun hholds => hholds) ?_ rfl (fun hok => ?_) (fun hfail => ?_)
      all_goals
        unfold step flushWrites
        rw [if_neg hempty]
      · dsimp only
        split_ifs <;> rfl
      · dsimp only
        rw [if_pos hok]
        exact ⟨rfl, fun _ => rfl⟩
      · dsimp only
        rw [if_neg (by rw [hfail]; exact Bool.false_ne_true)]
  | clearWrites =>
    obtain ⟨hwrote, -, hcount⟩ | hbroken := h
    · exact .inl ⟨hwrote, rfl, hcount⟩
    · exact .inr hbroken

section Unbounded

variable {t : PvaTcp} (h : t.stream.room = none)

include h

theorem sendControl_ok {command : UInt8} {payloadData : Int32} :
    (t.sendControl command payloadData).1 = true := by
  unfold sendControl
  dsimp only
  rw [if_pos (writeAll_unbounded h).1]

theorem sendMsg_ok {command : UInt8} {payload : List UInt8} :
    (t.sendMsg command payload).1 = true := by
  unfold sendMsg
  dsimp only
  rw [if_pos (writeAll_unbounded h).1]

theorem flushWrites_ok : t.flushWrites.1 = true := by
  unfold flushWrites
  split_ifs
  · rfl
  · dsimp only
    rw [if_pos (writeAll_unbounded h).1]

end Unbounded

/-- A connection that does not break before a call does not break in it. -/
theorem step_room {t : PvaTcp} (h : t.stream.room = none) (op : TcpOp) :
    (t.step op).stream.room = none := by
  cases op with
  | recvFrame => exact (recvFrame_spec t).writes.room.trans h
  | setByteOrder order => exact h
  | sendControl command payloadData =>
    unfold step sendControl
    dsimp only
    rw [if_pos (writeAll_unbounded h).1]
    exact (writeAll_unbounded h).2
  | sendMsg command payload =>
    unfold step sendMsg
    dsimp only
    rw [if_pos (writeAll_unbounded h).1]
    exact (writeAll_unbounded h).2
  | bufferMsg command payload => exact h
  | flushWrites =>
    unfold step flushWrites
    by_cases hempty : t.writeBuf = []
    · rw [if_pos hempty]
      exact h
    · rw [if_neg hempty]
      dsimp only
      rw [if_pos (writeAll_unbounded h).1]
      exact (writeAll_unbounded h).2
  | clearWrites => exact h

/-- What a peer decodes of the first bytes of some frames. -/
theorem decode_prefix {bytes : List UInt8} {frames : List PvaFrame}
    (hframes : ∀ f ∈ frames, Decodable f) (h : bytes <+: wire frames) :
    (decodeFrames PvaCodec.new bytes).error = none ∧
      (decodeFrames PvaCodec.new bytes).items <+: frames := by
  obtain ⟨rest, hrest⟩ := h
  obtain ⟨c', -, hwhole⟩ := (decodeFrames_encode PvaCodec.new rfl).1 frames hframes
  obtain ⟨hitems, herror⟩ := frameMachine.drain_append PvaCodec.new bytes rest
  have hsplit : decodeFrames PvaCodec.new (bytes ++ rest) = ⟨frames, none, c', []⟩ := by
    rw [hrest]
    exact hwhole
  have hitems' : frames = (decodeFrames PvaCodec.new bytes).items ++ _ :=
    (congrArg Drained.items hsplit).symm.trans hitems
  have herror' : none = (decodeFrames PvaCodec.new bytes).error.or _ :=
    (congrArg Drained.error hsplit).symm.trans herror
  refine ⟨?_, ?_⟩
  · exact (Option.or_eq_none_iff.1 herror'.symm).1
  · rw [hitems']
    exact List.prefix_append _ _

/-- The peer of a connection that does not break decodes what the connection sent. -/
theorem Carries.decode {t : PvaTcp} {b : Outbox} (h : Carries t b) (hroom : t.stream.room = none)
    (hsent : ∀ f ∈ b.sent, Decodable f) :
    ∃ c', decodeFrames PvaCodec.new t.stream.sent = ⟨b.sent, none, c', []⟩ ∧
      t.bytesWritten = t.stream.sent.length := by
  obtain ⟨hsame, -, hcount⟩ | ⟨hbroken, -⟩ := h
  · obtain ⟨c', -, hwhole⟩ := (decodeFrames_encode PvaCodec.new rfl).1 b.sent hsent
    refine ⟨c', ?_, hcount⟩
    rw [hsame]
    exact hwhole
  · rw [hroom] at hbroken
    cases hbroken

theorem run_carries (stream : TcpStream) (hnew : stream.sent = []) (ops : List TcpOp) :
    Carries (Runs.run step (connect stream) ops) (Runs.run Outbox.step .empty ops) := by
  refine Runs.run_related (R := Carries) (fun t b op h => step_carries h op) ?_ ops
  exact .inl ⟨hnew, rfl, by rw [show (connect stream).stream.sent = [] from hnew]; rfl⟩

theorem run_room {t : PvaTcp} (h : t.stream.room = none) (ops : List TcpOp) :
    (Runs.run step t ops).stream.room = none :=
  (Runs.alongStates_of_step (I := fun t : PvaTcp => t.stream.room = none)
    (fun _ op h => step_room h op) h ops).last

theorem run_allDecodable {ops : List TcpOp} (hfits : ∀ op ∈ ops, op.Fits) :
    (Runs.run Outbox.step .empty ops).AllDecodable :=
  ((Runs.alongSteps_of_mem hfits).invariant (I := Outbox.AllDecodable)
    (fun _ _ hop h => Outbox.step_allDecodable h hop) fun _ hf => absurd hf List.not_mem_nil).last

/-- **Main theorem**: let some calls be made on a new connection, with messages of at most the
    size a peer takes. The peer decodes the frames of the outbox, or the first of them if the
    connection breaks, and no error; what the connection counts it has written. Of the frames
    the calls were given every one was at all times sent once and in order or still buffered,
    exactly if no call sends past a buffered frame or drops one, and none flushes the frame
    `send_msg` left. -/
theorem send_run (stream : TcpStream) (hnew : stream.sent = []) (ops : List TcpOp)
    (hfits : ∀ op ∈ ops, op.Fits) :
    let t' := Runs.run step (connect stream) ops
    let b := Runs.run Outbox.step .empty ops
    let peer := decodeFrames PvaCodec.new t'.stream.sent
    (peer.error = none ∧ peer.items <+: b.sent ∧ t'.bytesWritten ≤ t'.stream.sent.length) ∧
      (stream.room = none →
        peer.items = b.sent ∧ peer.rest = [] ∧ t'.bytesWritten = t'.stream.sent.length) ∧
      (Runs.AlongStates Outbox.step Outbox.Faithful .empty ops ↔
        Runs.AlongSteps Outbox.step Outbox.Careful .empty ops) := by
  intro t' b peer
  have hsent : ∀ f ∈ b.sent, Decodable f :=
    fun f hf => run_allDecodable hfits f (List.mem_append_left _ hf)
  have hcarries : Carries t' b := run_carries stream hnew ops
  refine ⟨?_, fun hroom => ?_, ?_⟩
  · have hwrote : t'.stream.sent <+: wire b.sent ∧ t'.bytesWritten ≤ t'.stream.sent.length := by
      obtain ⟨hsame, -, hcount⟩ | ⟨-, hpart, hcount⟩ := hcarries
      · exact ⟨hsame ▸ List.prefix_refl _, Nat.le_of_eq hcount⟩
      · exact ⟨hpart, hcount⟩
    obtain ⟨herror, hitems⟩ := decode_prefix hsent hwrote.1
    exact ⟨herror, hitems, hwrote.2⟩
  · obtain ⟨c', hpeer, hcount⟩ := hcarries.decode (run_room hroom ops) hsent
    exact ⟨congrArg Drained.items hpeer, congrArg Drained.rest hpeer, hcount⟩
  · have hempty : Outbox.empty.BuffersApp := fun f hf => absurd hf List.not_mem_nil
    exact Runs.alongStates_iff_alongSteps_of_invariant (I := Outbox.Faithful)
      (fun _ op h => Outbox.step_buffersApp h op)
      (fun _ op hb h => Outbox.step_faithful_iff hb h op) hempty rfl ops

/-- A message sent at once, then one buffered and flushed: the peer gets the first twice. -/
theorem send_run_resent :
    let ops : List TcpOp :=
      [.sendControl 2 0, .sendMsg 1 [7], .bufferMsg 3 [8, 9], .flushWrites]
    let t' := Runs.run step (connect ⟨[], [], none⟩) ops
    (decodeFrames PvaCodec.new t'.stream.sent).items =
        [ctrlFrame 2 0, appFrame 1 [7], appFrame 1 [7], appFrame 3 [8, 9]] ∧
      ¬Runs.AlongStates Outbox.step Outbox.Faithful .empty ops := by
  intro ops t'
  have hfits : ∀ op ∈ ops, op.Fits := by
    intro op hop
    simp only [ops, List.mem_cons, List.not_mem_nil, or_false] at hop
    obtain rfl | rfl | rfl | rfl := hop
    · trivial
    · show 1 ≤ maxPayloadSize
      decide
    · show 2 ≤ maxPayloadSize
      decide
    · trivial
  obtain ⟨-, hwhole, hfaithful⟩ := send_run ⟨[], [], none⟩ rfl ops hfits
  exact ⟨(hwhole rfl).1, fun h => absurd (hfaithful.1 h) (by decide)⟩

end PvaTcp

end AuraEpics.Runtime
