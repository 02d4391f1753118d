import AuraEpics.Lib.Stoppable
import AuraEpics.Messages.Replies
import AuraEpics.Runtime.Tcp

/-!
# The handshake

Model of `perform_handshake` (`crates/aura-net/src/runtime/handshake.rs`, lines 54-119). The
server sends a control message with the byte order, the client echoes it; the server sends
CONNECTION_VALIDATION with its sizes, the client answers with its own and with anonymous
authentication; the server sends one more message, which the client takes for
CONNECTION_VALIDATED whatever it is.

The future of a handshake can be dropped with the future of a `recv_frame` it waits for, so a
handshake has a result or none.

* `Accepted`: the first two frames of a server and the result they give.

Results:
* `perform_handshake_iff`, a handshake succeeds exactly if three frames arrive of which the first
  two are accepted, however the stream is cut;
* `perform_handshake_server`, a client and a server that follow the protocol agree on the byte
  order and on the sizes of both, and what the server sends next is received next.
-/

namespace AuraEpics.Runtime

open Codec Codec.PvaCodec Incremental Incremental.Machine Messages

/-! ## Model -/

/-- `CTRL_SET_BYTE_ORDER`, `CMD_CONNECTION_VALIDATION` and `CMD_CONNECTION_VALIDATED`
    (`commands.rs`, lines 67 and 11). -/
def ctrlSetByteOrder : UInt8 := 0x02
def cmdConnectionValidation : UInt8 := 0x01

/-- `HandshakeError` (lines 20-25). -/
inductive HandshakeError where
  | transport (e : TransportError)
  | unexpectedMessage (expected : String) (got : UInt8)
  | protocol (msg : String)
  deriving DecidableEq, Repr

/-- `HandshakeResult` (lines 46-51). -/
structure HandshakeResult where
  byteOrder : ByteOrder
  serverBufferSize : Int32
  serverRegistrySize : Int16
  deriving DecidableEq, Repr

/-- `Display` of `DecodeError` (`codec/pvdata.rs`, lines 473-486). -/
def displayDecodeError : DecodeError → String
  | .unexpectedEnd needed available => s!"unexpected end: need {needed} bytes, have {available}"
  | .unexpectedNull => "unexpected null value"
  | .invalidSize size => s!"invalid size: {size}"
  | .invalidUtf8 message => s!"invalid UTF-8: {message}"
  | .unknownTypeCode code => s!"unknown type code: 0x{hexByte code}"
  | .protocol message => s!"protocol error: {message}"

/-- A task on a connection: it ends with a value or an error, or its future is dropped. -/
abbrev TcpM (ε α : Type) := ExceptT ε (Stoppable PvaTcp) α

namespace TcpM

variable {ε α β : Type}

/-- `tcp.recv_frame().await?`. -/
def recvFrame (conv : TransportError → ε) : TcpM ε PvaFrame := ExceptT.mk fun t =>
  ((Received.ofPulled t.recvFrame.1).map (Except.mapError conv), t.recvFrame.2)

/-- A send with `.await?`. -/
def send (conv : TransportError → ε) (f : PvaTcp → Bool × PvaTcp) : TcpM ε Unit :=
  ExceptT.mk fun t => (some (if (f t).1 then .ok () else .error (conv .io)), (f t).2)

/-- A call that cannot fail. -/
def update (f : PvaTcp → PvaTcp) : TcpM ε Unit := ExceptT.mk fun t => (some (.ok ()), f t)

theorem run_bind (m : TcpM ε α) (f : α → TcpM ε β) (t : PvaTcp) :
    (m >>= f) t =
      match m t with
      | (none, t') => (none, t')
      | (some (.error e), t') => (some (.error e), t')
      | (some (.ok a), t') => f a t' := by
  show @Bind.bind (Stoppable PvaTcp) _ (Except ε α) (Except ε β) m (ExceptT.bindCont f) t = _
  rw [Stoppable.bind_apply]
  rcases m t with ⟨_ | (e | a), t'⟩ <;> rfl

theorem run_pure (a : α) (t : PvaTcp) : (pure a : TcpM ε α) t = (some (.ok a), t) := rfl

theorem bind_of_ok {m : TcpM ε α} {f : α → TcpM ε β} {t t₁ : PvaTcp} {a : α}
    (h : m t = (some (.ok a), t₁)) : (m >>= f) t = f a t₁ := by
  rw [run_bind, h]

/-- A task that ends with a value went through each of its parts. -/
theorem bind_ok {m : TcpM ε α} {f : α → TcpM ε β} {t t' : PvaTcp} {b : β}
    (h : (m >>= f) t = (some (.ok b), t')) :
    ∃ a t₁, m t = (some (.ok a), t₁) ∧ f a t₁ = (some (.ok b), t') := by
  rw [run_bind] at h
  rcases hm : m t with ⟨_ | (e | a), t₁⟩
  · rw [hm] at h; cases h
  · rw [hm] at h; cases h
  · rw [hm] at h
    exact ⟨a, t₁, rfl, h⟩

theorem recvFrame_ok {conv : TransportError → ε} {t t' : PvaTcp} {frame : PvaFrame} :
    recvFrame conv t = (some (.ok frame), t') ↔ t.recvFrame = (.item frame, t') := by
  show ((Received.ofPulled t.recvFrame.1).map (Except.mapError conv), t.recvFrame.2) = _ ↔ _
  rcases t.recvFrame with ⟨p, t₁⟩
  cases p with
  | item f => simp [Received.ofPulled, Except.mapError]
  | failed e => simp [Received.ofPulled, Except.mapError]
  | stopped why => cases why <;> simp [Received.ofPulled, Except.mapError]
  | pending => simp [Received.ofPulled]

theorem send_ok {conv : TransportError → ε} {f : PvaTcp → Bool × PvaTcp} {t t' : PvaTcp} :
    send conv f t = (some (.ok ()), t') ↔ (f t).1 = true ∧ (f t).2 = t' := by
  show (some (if (f t).1 then Except.ok () else .error (conv .io)), (f t).2) = _ ↔ _
  cases (f t).1 <;> simp

end TcpM

/-- `order_flag` (lines 72-75). -/
def orderFlag : ByteOrder → Int32
  | .bigEndian => 0x80
  | .littleEndian => 0x00

/-- `perform_handshake` (lines 54-119). -/
def performHandshake (clientBufferSize : Int32) (clientRegistrySize : Int16) :
    TcpM HandshakeError HandshakeResult := do
  let frame ← TcpM.recvFrame .transport
  if frame.header.isControl = false ∨ frame.header.command ≠ ctrlSetByteOrder then
    throw (.unexpectedMessage "CTRL_SET_BYTE_ORDER" frame.header.command)
  else
    let byteOrder : ByteOrder :=
      if frame.header.flags &&& Flags.bigEndian ≠ 0 then .bigEndian else .littleEndian
    TcpM.update (·.setByteOrder byteOrder)
    TcpM.send .transport (·.sendControl ctrlSetByteOrder (orderFlag byteOrder))
    let frame ← TcpM.recvFrame .transport
    if frame.header.command ≠ cmdConnectionValidation then
      throw (.unexpectedMessage "CMD_CONNECTION_VALIDATION" frame.header.command)
    else
      match (ConnectionValidation.decode (.new frame.payload byteOrder)).1 with
      | .error e => throw (.protocol s!"decode CONNECTION_VALIDATION: {displayDecodeError e}")
      | .ok validation =>
        let validated := ConnectionValidated.anonymous clientBufferSize clientRegistrySize
        TcpM.send .transport (·.sendMsg cmdConnectionValidation (validated.encode byteOrder))
        -- a third frame of any command will do
        let _ ← TcpM.recvFrame .transport
        return { byteOrder
                 serverBufferSize := validation.serverBufferSize
                 serverRegistrySize := validation.serverRegistrySize }

/-! ## What succeeds -/

/-- The first two frames of a server are accepted with a result. -/
structure Accepted (first second : PvaFrame) (res : HandshakeResult) : Prop where
  isControl : first.header.isControl = true
  setByteOrder : first.header.command = ctrlSetByteOrder
  byteOrder : res.byteOrder = first.header.byteOrder
  validation : second.header.command = cmdConnectionValidation
  sizes : ∃ methods, (ConnectionValidation.decode (.new second.payload res.byteOrder)).1 =
    .ok ⟨res.serverBufferSize, res.serverRegistrySize, methods⟩

/-- Reads that bring enough bytes bring the next frame, and leave the others to the next
    call. -/
theorem recvFrame_enough {t : PvaTcp} {chunks : List (List UInt8)}
    {later : List (Wait UInt8 Ending)} {n : ℕ} {frame : PvaFrame}
    {as : List (PvaFrame ⊕ CodecError)} (hreads : t.stream.reads = chunks.map .data ++ later)
    (h : frameMachine.answers (n + 1) t.codec (t.readBuf ++ chunks.flatten) = .inl frame :: as) :
    ∃ (t' : PvaTcp) (rest : List (List UInt8)), t.recvFrame = (.item frame, t') ∧
      t'.stream.reads = rest.map .data ++ later ∧ t'.stream.room = t.stream.room ∧
      frameMachine.answers n t'.codec (t'.readBuf ++ rest.flatten) = as := by
  have hone : frameMachine.answers 1 t.codec (t.readBuf ++ chunks.flatten) = [.inl frame] := by
    rw [← frameMachine.answers_take 1 n, Nat.add_comm, h]
    rfl
  obtain ⟨codec, buf, rest, hpull, hnext⟩ := frameMachine.pull_enough hone later
  have heq : frameMachine.pull t.codec t.readBuf t.stream.reads =
      (t.recvFrame.1, (t.recvFrame.2.codec, t.recvFrame.2.readBuf), t.recvFrame.2.stream.reads) :=
    PvaTcp.recvLoop_pull t t.stream.reads
  rw [hreads, hpull] at heq
  simp only [Prod.mk.injEq] at heq
  obtain ⟨hitem, ⟨hcodec, hbuf⟩, hrest⟩ := heq
  refine ⟨t.recvFrame.2, rest, Prod.ext hitem.symm rfl, hrest.symm,
    (PvaTcp.recvFrame_spec t).writes.room, ?_⟩
  rw [← hcodec, ← hbuf]
  exact (List.cons.inj ((hnext n).symm.trans h)).2

section Handshake

variable {clientBufferSize : Int32} {clientRegistrySize : Int16}

/-- The calls of a handshake on the connection. -/
def handshakeCalls (clientBufferSize : Int32) (clientRegistrySize : Int16) (byteOrder : ByteOrder) :
    List TcpOp :=
  [.recvFrame, .setByteOrder byteOrder,
    .sendControl ctrlSetByteOrder (orderFlag byteOrder), .recvFrame,
    .sendMsg cmdConnectionValidation
      ((ConnectionValidated.anonymous clientBufferSize clientRegistrySize).encode byteOrder),
    .recvFrame]

theorem step_of_recvFrame {t t' : PvaTcp} {frame : PvaFrame} (h : t.recvFrame = (.item frame, t')) :
    t.step .recvFrame = t' ∧ t.answer .recvFrame = [.inl frame] := by
  refine ⟨congrArg Prod.snd h, ?_⟩
  show t.recvFrame.1.answer = _
  rw [h]
  rfl

/-- A handshake that succeeds made its calls, received three frames and found the first two to
    be accepted. -/
theorem performHandshake_ok {t t' : PvaTcp} {res : HandshakeResult}
    (h : performHandshake clientBufferSize clientRegistrySize t = (some (.ok res), t')) :
    ∃ first second third, Accepted first second res ∧
      t' = Runs.run PvaTcp.step t
        (handshakeCalls clientBufferSize clientRegistrySize res.byteOrder) ∧
      Runs.outputs PvaTcp.step PvaTcp.answer t
        (handshakeCalls clientBufferSize clientRegistrySize res.byteOrder) =
          [.inl first, .inl second, .inl third] := by
  unfold performHandshake at h
  obtain ⟨first, t₁, hfirst, h⟩ := TcpM.bind_ok h
  rw [TcpM.recvFrame_ok] at hfirst
  by_cases hexpected : first.header.isControl = false ∨ first.header.command ≠ ctrlSetByteOrder
  · rw [if_pos hexpected] at h
    cases h
  · rw [if_neg hexpected] at h
    obtain ⟨_, t₂, hupdate, h⟩ := TcpM.bind_ok h
    cases hupdate
    obtain ⟨_, t₃, hecho, h⟩ := TcpM.bind_ok h
    obtain ⟨second, t₄, hsecond, h⟩ := TcpM.bind_ok h
    rw [TcpM.recvFrame_ok] at hsecond
    by_cases hcommand : second.header.command ≠ cmdConnectionValidation
    · rw [if_pos hcommand] at h
      cases h
    · rw [if_neg hcommand] at h
      cases hdecode : (ConnectionValidation.decode
          (.new second.payload first.header.byteOrder)).1 with
      | error e =>
        rw [show (if first.header.flags &&& Flags.bigEndian ≠ 0 then ByteOrder.bigEndian
          else .littleEndian) = first.header.byteOrder from rfl, hdecode] at h
        cases h
      | ok validation =>
        rw [show (if first.header.flags &&& Flags.bigEndian ≠ 0 then ByteOrder.bigEndian
          else .littleEndian) = first.header.byteOrder from rfl] at hecho h
        rw [hdecode] at h
        obtain ⟨_, t₅, hanswer, h⟩ := TcpM.bind_ok h
        obtain ⟨third, t₆, hthird, h⟩ := TcpM.bind_ok h
        rw [TcpM.recvFrame_ok] at hthird
        cases h
        obtain ⟨-, rfl⟩ := TcpM.send_ok.1 hecho
        obtain ⟨-, rfl⟩ := TcpM.send_ok.1 hanswer
        obtain ⟨rfl, hgot₁⟩ := step_of_recvFrame hfirst
        obtain ⟨rfl, hgot₂⟩ := step_of_recvFrame hsecond
        obtain ⟨rfl, hgot₃⟩ := step_of_recvFrame hthird
        rw [not_or, Bool.not_eq_false, not_not] at hexpected
        refine ⟨first, second, third, ⟨hexpected.1, hexpected.2, rfl, not_not.1 hcommand,
          validation.authMethods, hdecode⟩, rfl, ?_⟩
        exact congrArg₂ (· ++ ·) hgot₁ (congrArg₂ (· ++ ·) hgot₂ (congrArg (· ++ []) hgot₃))

/-- Three frames of which the first two are accepted make a handshake succeed. -/
theorem performHandshake_of_frames {t : PvaTcp} {chunks : List (List UInt8)}
    {later : List (Wait UInt8 Ending)} {first second third : PvaFrame} {res : HandshakeResult}
    (hroom : t.stream.room = none) (hreads : t.stream.reads = chunks.map .data ++ later)
    (hanswers : frameMachine.answers 3 t.codec (t.readBuf ++ chunks.flatten) =
      [.inl first, .inl second, .inl third]) (haccepted : Accepted first second res) :
    ∃ t', performHandshake clientBufferSize clientRegistrySize t = (some (.ok res), t') := by
  obtain ⟨t₁, chunks₁, hrecv₁, hreads₁, hroom₁, hanswers₁⟩ := recvFrame_enough hreads hanswers
  -- neither the byte order nor the echo touches what is read
  let t₁' := t₁.setByteOrder res.byteOrder
  have hroom₁' : t₁'.stream.room = none := hroom₁.trans hroom
  let t₂ := (t₁'.sendControl ctrlSetByteOrder (orderFlag res.byteOrder)).2
  have hroom₂ : t₂.stream.room = none :=
    PvaTcp.step_room hroom₁' (.sendControl ctrlSetByteOrder (orderFlag res.byteOrder))
  have hsame := PvaTcp.sendControl_reads t₁' ctrlSetByteOrder (orderFlag res.byteOrder)
  have hanswers₂ : frameMachine.answers 2 t₂.codec (t₂.readBuf ++ chunks₁.flatten) =
      [.inl second, .inl third] := by
    rw [hsame.codec, hsame.readBuf]
    exact (answers_map (PvaTcp.ignores_byteOrder res.byteOrder) 2 t₁.codec _).trans hanswers₁
  obtain ⟨t₃, chunks₃, hrecv₃, hreads₃, hroom₃, hanswers₃⟩ :=
    recvFrame_enough (hsame.reads.trans hreads₁) hanswers₂
  let payload := (ConnectionValidated.anonymous clientBufferSize clientRegistrySize).encode
    res.byteOrder
  let t₄ := (t₃.sendMsg cmdConnectionValidation payload).2
  have hsame' := PvaTcp.sendMsg_reads t₃ cmdConnectionValidation payload
  have hanswers₄ : frameMachine.answers 1 t₄.codec (t₄.readBuf ++ chunks₃.flatten) =
      [.inl third] := by
    rw [hsame'.codec, hsame'.readBuf]
    exact hanswers₃
  obtain ⟨t₅, chunks₅, hrecv₅, -⟩ := recvFrame_enough (hsame'.reads.trans hreads₃) hanswers₄
  have hexpected : ¬(first.header.isControl = false ∨ first.header.command ≠ ctrlSetByteOrder) := by
    rw [not_or, Bool.not_eq_false, not_not]
    exact ⟨haccepted.isControl, haccepted.setByteOrder⟩
  have horder : (if first.header.flags &&& Flags.bigEndian ≠ 0 then ByteOrder.bigEndian
      else .littleEndian) = res.byteOrder := haccepted.byteOrder.symm
  obtain ⟨methods, hdecode⟩ := haccepted.sizes
  have hecho : (t₁'.sendControl ctrlSetByteOrder (orderFlag res.byteOrder)).1 = true :=
    PvaTcp.sendControl_ok hroom₁'
  have hanswer : (t₃.sendMsg cmdConnectionValidation payload).1 = true :=
    PvaTcp.sendMsg_ok (hroom₃.trans hroom₂)
  refine ⟨t₅, ?_⟩
  unfold performHandshake
  refine (TcpM.bind_of_ok (TcpM.recvFrame_ok.2 hrecv₁)).trans ?_
  rw [if_neg hexpected, horder]
  refine (TcpM.bind_of_ok (show TcpM.update _ t₁ = (some (.ok ()), t₁') from rfl)).trans ?_
  refine (TcpM.bind_of_ok (TcpM.send_ok.2 ⟨hecho, rfl⟩)).trans ?_
  refine (TcpM.bind_of_ok (TcpM.recvFrame_ok.2 hrecv₃)).trans ?_
  rw [if_neg (not_not.2 haccepted.validation), hdecode]
  refine (TcpM.bind_of_ok (TcpM.send_ok.2 ⟨hanswer, rfl⟩)).trans ?_
  exact TcpM.bind_of_ok (TcpM.recvFrame_ok.2 hrecv₅)

/-- **Main theorem**: on a new connection a handshake succeeds with a result exactly if the
    coming reads bring, in whatever pieces, three frames of which the first two are accepted with
    it. -/
theorem perform_handshake_iff (stream : TcpStream) (hroom : stream.room = none)
    (res : HandshakeResult) :
    (∃ t', performHandshake clientBufferSize clientRegistrySize (.connect stream) =
      (some (.ok res), t')) ↔
    ∃ (chunks : List (List UInt8)) (later : List (Wait UInt8 Ending))
      (first second third : PvaFrame),
      stream.reads = chunks.map .data ++ later ∧
        [first, second, third] <+: (decodeFrames PvaCodec.new chunks.flatten).items ∧
        Accepted first second res := by
  constructor
  · rintro ⟨t', h⟩
    obtain ⟨first, second, third, haccepted, -, hgot⟩ := performHandshake_ok h
    obtain ⟨used, ⟨hreads, hanswered, -⟩, hdata⟩ := PvaTcp.run_got (.connect stream)
      (handshakeCalls clientBufferSize clientRegistrySize res.byteOrder)
    rw [hgot] at hanswered hdata
    obtain ⟨chunks, rfl⟩ := hdata rfl
    refine ⟨chunks, _, first, second, third, hreads, ?_, haccepted⟩
    have hfirst := hanswered.answers_eq
    rw [Wait.inputs_data] at hfirst
    exact (frameMachine.answers_items_iff [first, second, third] _ _).1 hfirst
  · rintro ⟨chunks, later, first, second, third, hreads, hframes, haccepted⟩
    have hanswers := (frameMachine.answers_items_iff [first, second, third] _ _).2 hframes
    exact performHandshake_of_frames hroom hreads hanswers haccepted

/-! ## A server that follows the protocol -/

theorem length_anonymous (order : ByteOrder) :
    ((ConnectionValidated.anonymous clientBufferSize clientRegistrySize).encode order).length =
      19 := by
  have hname : (Write.string order "anonymous").length = 1 + 9 :=
    (PvaStatus.length_string order "anonymous").2.2 (by decide)
  unfold ConnectionValidated.encode ConnectionValidated.anonymous
  simp only [List.length_append, hname]
  simp [Write.i32, Write.i16, Write.u16, ByteOrder.writeI32]

theorem handshakeCalls_fits (order : ByteOrder) :
    ∀ op ∈ handshakeCalls clientBufferSize clientRegistrySize order, op.Fits := by
  intro op hop
  simp only [handshakeCalls, List.mem_cons, List.not_mem_nil, or_false] at hop
  obtain rfl | rfl | rfl | rfl | rfl | rfl := hop
  · trivial
  · trivial
  · trivial
  · trivial
  · show List.length _ ≤ maxPayloadSize
    rw [length_anonymous]
    decide
  · trivial

/-- The frames a server sends: the control message with the byte order, its sizes in that order,
    one more message, and then others. -/
structure ServerFrames (order : ByteOrder) (sizes : ConnectionValidation) (frames : List PvaFrame) :
    Prop where
  decodable : ∀ f ∈ frames, Decodable f
  hello : ∃ set validation validated more, frames = set :: validation :: validated :: more ∧
    set.header.isControl = true ∧ set.header.command = ctrlSetByteOrder ∧
    set.header.byteOrder = order ∧
    validation.header.command = cmdConnectionValidation ∧ validation.payload = sizes.encode order

/-- A handshake with a server that follows the protocol: its result, what was called on the
    connection, and what is received next. -/
theorem performHandshake_of_server {order : ByteOrder} {sizes : ConnectionValidation}
    (hfits : sizes.Fits) {frames : List PvaFrame} (hframes : ServerFrames order sizes frames)
    {chunks : List (List UInt8)} (hchunks : chunks.flatten = PvaTcp.wire frames) :
    let t : PvaTcp := .connect ⟨chunks.map .data, [], none⟩
    let t' := Runs.run PvaTcp.step t (handshakeCalls clientBufferSize clientRegistrySize order)
    performHandshake clientBufferSize clientRegistrySize t =
        (some (.ok ⟨order, sizes.serverBufferSize, sizes.serverRegistrySize⟩), t') ∧
      ∀ n, frameMachine.answers n t'.codec (t'.readBuf ++ Wait.inputs t'.stream.reads) =
        ((frames.drop 3).take n).map .inl := by
  obtain ⟨set, validation, validated, more, rfl, hcontrol, hset, horder, hcommand, hpayload⟩ :=
    hframes.hello
  intro t t'
  let calls := handshakeCalls clientBufferSize clientRegistrySize order
  let res : HandshakeResult := ⟨order, sizes.serverBufferSize, sizes.serverRegistrySize⟩
  obtain ⟨c', -, hwhole⟩ := (decodeFrames_encode PvaCodec.new rfl).1 _ hframes.decodable
  have hitems : decodeFrames PvaCodec.new chunks.flatten =
      ⟨set :: validation :: validated :: more, none, c', []⟩ := by
    rw [hchunks]
    exact hwhole
  have haccepted : Accepted set validation res := by
    refine ⟨hcontrol, hset, horder.symm, hcommand, sizes.authMethods, ?_⟩
    have hread := congrArg Prod.fst (hfits.yields order [] [])
    rw [List.append_nil] at hread
    rw [hpayload]
    exact hread
  have hanswers := (frameMachine.answers_items_iff [set, validation, validated] PvaCodec.new
    chunks.flatten).2 ⟨more, (congrArg Drained.items hitems).symm⟩
  have hreads : t.stream.reads = chunks.map .data ++ [] := (List.append_nil _).symm
  obtain ⟨t₁, ht₁⟩ : ∃ t₁, performHandshake clientBufferSize clientRegistrySize t =
      (some (.ok res), t₁) := performHandshake_of_frames rfl hreads hanswers haccepted
  obtain ⟨first, second, third, -, rfl, hgot⟩ := performHandshake_ok ht₁
  refine ⟨ht₁, fun n => ?_⟩
  obtain ⟨used, ⟨hreads, hanswered, -⟩, -⟩ := PvaTcp.run_got t calls
  have hinputs : Wait.inputs used ++ Wait.inputs t'.stream.reads = chunks.flatten := by
    rw [← Wait.inputs_append, ← hreads]
    exact Wait.inputs_data chunks
  have hall : frameMachine.answers (3 + n) PvaCodec.new chunks.flatten =
      ((decodeFrames PvaCodec.new chunks.flatten).items.take (3 + n)).map .inl :=
    frameMachine.answers_of_drained (congrArg Drained.error hitems) (3 + n)
  rw [hitems, Nat.add_comm, List.take_succ_cons, List.take_succ_cons, List.take_succ_cons,
    Nat.add_comm] at hall
  have hnext := hanswered n (Wait.inputs t'.stream.reads)
  rw [hgot, List.append_assoc, hinputs] at hnext
  exact congrArg (List.drop 3) (hnext.symm.trans hall)

/-- The frame with the sizes of the client. -/
def validatedFrame (clientBufferSize : Int32) (clientRegistrySize : Int16) (order : ByteOrder) :
    PvaFrame :=
  appFrame cmdConnectionValidation
    ((ConnectionValidated.anonymous clientBufferSize clientRegistrySize).encode order)

/-- What a handshake writes is written, and its last frame is left in the write buffer. -/
theorem outbox_handshakeCalls (order : ByteOrder) :
    let echo := ctrlFrame ctrlSetByteOrder (orderFlag order)
    let validated := validatedFrame clientBufferSize clientRegistrySize order
    Runs.run Outbox.step .empty (handshakeCalls clientBufferSize clientRegistrySize order) =
      ⟨[echo, validated], some validated, [], [echo, validated]⟩ := rfl

/-- **Main theorem**: let a server send its frames, cut in any way, to a new connection that does
    not break. The handshake succeeds with the byte order and the sizes of the server; the
    server decodes the echo of its byte order and then the sizes of the client in that order;
    and what is received next are the frames behind the first three. -/
theorem perform_handshake_server {order : ByteOrder} {sizes : ConnectionValidation}
    (hfits : sizes.Fits) {frames : List PvaFrame} (hframes : ServerFrames order sizes frames)
    {chunks : List (List UInt8)} (hchunks : chunks.flatten = PvaTcp.wire frames) :
    ∃ t', performHandshake clientBufferSize clientRegistrySize
        (.connect ⟨chunks.map .data, [], none⟩) =
          (some (.ok ⟨order, sizes.serverBufferSize, sizes.serverRegistrySize⟩), t') ∧
      (∃ payload, (decodeFrames PvaCodec.new t'.stream.sent).items =
          [ctrlFrame ctrlSetByteOrder (orderFlag order), appFrame cmdConnectionValidation payload] ∧
        (ConnectionValidated.decode (.new payload order)).1 =
          .ok (.anonymous clientBufferSize clientRegistrySize)) ∧
      ∀ n, frameMachine.answers n t'.codec (t'.readBuf ++ Wait.inputs t'.stream.reads) =
        ((frames.drop 3).take n).map .inl := by
  let stream : TcpStream := ⟨chunks.map .data, [], none⟩
  let calls := handshakeCalls clientBufferSize clientRegistrySize order
  have hserver : performHandshake clientBufferSize clientRegistrySize (.connect stream) = _ ∧ _ :=
    performHandshake_of_server hfits hframes hchunks
  obtain ⟨hresult, hnext⟩ := hserver
  refine ⟨_, hresult, ?_, hnext⟩
  have hcalls : ∀ op ∈ calls, op.Fits := handshakeCalls_fits order
  have hsent := PvaTcp.run_allDecodable hcalls
  obtain ⟨c, hpeer, -⟩ := (PvaTcp.run_carries stream rfl calls).decode
    (PvaTcp.run_room rfl calls) fun f hf => hsent f (List.mem_append_left _ hf)
  let m := ConnectionValidated.anonymous clientBufferSize clientRegistrySize
  have hname : m.authMethod.utf8ByteSize < 2 ^ 31 :=
    show "anonymous".utf8ByteSize < 2 ^ 31 by decide
  refine ⟨m.encode order, congrArg Drained.items hpeer, ?_⟩
  exact congrArg Prod.fst (yields_validatedFields order hname [] [0xFF])

end Handshake

/-- What a big-endian server with the sizes 65536 and 32 sends: the byte order, its sizes, a
    message of some command and an echo request. -/
def exampleSet : PvaFrame := ⟨⟨2, 0xC1, 0x02, 0⟩, []⟩
def exampleSizes : ConnectionValidation := ⟨65536, 32, ["anonymous", "ca"]⟩
def exampleValidation : PvaFrame := ⟨⟨2, 0xC0, 0x01, 20⟩, exampleSizes.encode .bigEndian⟩
def exampleThird (command : UInt8) : PvaFrame := ⟨⟨2, 0xC0, command, 0⟩, []⟩
def exampleEcho : PvaFrame := ⟨⟨2, 0xC0, 0x02, 4⟩, [97, 117, 114, 97]⟩
def exampleFrames (command : UInt8) : List PvaFrame :=
  [exampleSet, exampleValidation, exampleThird command, exampleEcho]

theorem exampleFrames_decodable (command : UInt8) :
    ∀ f ∈ exampleFrames command, Decodable f := by
  intro f hf
  simp only [exampleFrames, List.mem_cons, List.not_mem_nil, or_false] at hf
  obtain rfl | rfl | rfl | rfl := hf
  · exact .inl ⟨by decide, rfl⟩
  · exact .inr ⟨by decide, by decide, by decide +kernel, by decide +kernel⟩
  · have hthird : Decodable (exampleThird 0) :=
      .inr ⟨by decide, by decide, by decide, by decide⟩
    obtain hcontrol | h := hthird
    · exact absurd hcontrol.1 (by decide)
    · exact .inr ⟨h.app, h.segmentation, h.size, h.within⟩
  · exact .inr ⟨by decide, by decide, by decide, by decide⟩

theorem exampleSizes_fits : exampleSizes.Fits := by
  refine ⟨by decide, fun method hmethod => ?_⟩
  simp only [exampleSizes, List.mem_cons, List.not_mem_nil, or_false] at hmethod
  obtain rfl | rfl := hmethod <;> decide

/-- The frames are those of a server that follows the protocol, with more behind them. -/
theorem exampleFrames_hello {more : List PvaFrame} (hmore : ∀ f ∈ more, Decodable f) :
    ServerFrames .bigEndian exampleSizes (exampleFrames 0x09 ++ more) := by
  refine ⟨fun f hf => ?_, exampleSet, exampleValidation, exampleThird 0x09, exampleEcho :: more,
    rfl, by decide, rfl, by decide, rfl, rfl⟩
  obtain hf | hf := List.mem_append.1 hf
  · exact exampleFrames_decodable 0x09 f hf
  · exact hmore f hf

/-- A message of the server stands in for CONNECTION_VALIDATED. -/
theorem perform_handshake_iff_message :
    let stream : TcpStream := ⟨[.data (PvaTcp.wire (exampleFrames 0x12)), .stop .eof], [], none⟩
    ∃ t', performHandshake 16384 16 (.connect stream) =
      (some (.ok ⟨.bigEndian, 65536, 32⟩), t') := by
  intro stream
  obtain ⟨c', -, hwhole⟩ :=
    (decodeFrames_encode PvaCodec.new rfl).1 _ (exampleFrames_decodable 0x12)
  have haccepted : Accepted exampleSet exampleValidation ⟨.bigEndian, 65536, 32⟩ :=
    ⟨by decide, rfl, by decide, rfl, ["anonymous", "ca"], by decide +kernel⟩
  refine (perform_handshake_iff stream rfl ⟨.bigEndian, 65536, 32⟩).2
    ⟨[PvaTcp.wire (exampleFrames 0x12)], [.stop .eof], exampleSet, exampleValidation,
      exampleThird 0x12, rfl, ?_, haccepted⟩
  rw [List.flatten_singleton, PvaTcp.wire, hwhole]
  exact ⟨[exampleEcho], rfl⟩

/-- The server follows the protocol, and its bytes come in two pieces. -/
theorem perform_handshake_server_bigEndian :
    let bytes := PvaTcp.wire (exampleFrames 0x09)
    ∃ t', performHandshake 16384 16
        (.connect ⟨[bytes.take 11, bytes.drop 11].map .data, [], none⟩) =
      (some (.ok ⟨.bigEndian, 65536, 32⟩), t') := by
  intro bytes
  have hframes : ServerFrames .bigEndian exampleSizes (exampleFrames 0x09) :=
    exampleFrames_hello fun f hf => absurd hf List.not_mem_nil
  have hchunks : [bytes.take 11, bytes.drop 11].flatten = bytes := by simp
  obtain ⟨t', h, -⟩ : ∃ t', performHandshake 16384 16 _ = _ ∧ _ :=
    perform_handshake_server exampleSizes_fits hframes hchunks
  exact ⟨t', h⟩

end AuraEpics.Runtime
