import AuraEpics.Codec.Header
import AuraEpics.Lib.Incremental

/-!
# Stream framing

Model of `PvaCodec` (`crates/aura-net/src/codec/framing.rs`, lines 7-184 and
205-219): a `BytesMut` is the list of bytes it holds, and one pass of the `loop` in
`decode_frame` is a step of an incremental decoder. `total_bytes` and
`total_frames` are natural numbers: neither is read by the decoder.

Result: `feedFrames_eq_whole`, the frames and the first error of a stream do not
depend on how it is cut into chunks.
-/

namespace AuraEpics.Codec

open Incremental Incremental.Machine

/-- `PvaFrame` (lines 8-11). -/
structure PvaFrame where
  header : PvaHeader
  payload : List UInt8
  deriving DecidableEq, Repr

/-- `DecodeState` (lines 38-41). -/
inductive DecodeState where
  | header
  | payload (header : PvaHeader)
  deriving DecidableEq, Repr

/-- `SegmentBuffer` (lines 205-208). -/
structure SegmentBuffer where
  header : PvaHeader
  data : List UInt8
  deriving DecidableEq, Repr

/-- `PvaCodec` (lines 43-50). -/
structure PvaCodec where
  state : DecodeState
  byteOrder : ByteOrder
  maxPayload : UInt32
  segmentBuf : Option SegmentBuffer
  totalBytes : ℕ
  totalFrames : ℕ
  deriving DecidableEq, Repr

/-- `CodecError` (lines 211-217). -/
inductive CodecError where
  | badMagic (magic : UInt8)
  | negativePayload (size : Int32)
  | payloadTooLarge (size : UInt32)
  | segmentTooLarge
  | unexpectedSegment
  deriving DecidableEq, Repr

namespace PvaCodec

/-- `PvaCodec::new` (lines 53-62). -/
def new : PvaCodec where
  state := .header
  byteOrder := .littleEndian
  maxPayload := UInt32.ofNat maxPayloadSize
  segmentBuf := none
  totalBytes := 0
  totalFrames := 0

/-- `header.payload_size as usize` (line 123). -/
def payloadLen (header : PvaHeader) : ℕ := header.payloadSize.toInt64.toUInt64.toNat

/-- The `Header` arm of the loop (lines 100-121): the header is looked at without
    being consumed, except for a control message. -/
def headerStep (c : PvaCodec) (src : List UInt8) : Step PvaCodec UInt8 PvaFrame CodecError :=
  if src.length < headerSize then .more
  else
    let hdr := src.take headerSize
    match PvaHeader.decode hdr with
    | none => .fail (.badMagic (hdr.getD 0 0)) c src
    | some header =>
      if header.isControl then
        .emit ⟨header, []⟩
          { c with totalBytes := c.totalBytes + headerSize, totalFrames := c.totalFrames + 1 }
          (src.drop headerSize)
      else if header.payloadSize < 0 then .fail (.negativePayload header.payloadSize) c src
      else if c.maxPayload < header.payloadSize.toUInt32 then
        .fail (.payloadTooLarge header.payloadSize.toUInt32) c src
      else .next { c with state := .payload header } src

/-- What is done with a complete message, by its segmentation (lines 134-173);
    `c` has the message accounted for and is back in the `Header` state. -/
def segmentStep (c : PvaCodec) (header : PvaHeader) (payload rest : List UInt8) :
    Step PvaCodec UInt8 PvaFrame CodecError :=
  match header.segmentation with
  | .none => .emit ⟨header, payload⟩ { c with totalFrames := c.totalFrames + 1 } rest
  | .first => .next { c with segmentBuf := some ⟨header, payload⟩ } rest
  | .middle =>
    match c.segmentBuf with
    | none => .fail .unexpectedSegment c rest
    | some seg =>
      if c.maxPayload.toNat * 4 < seg.data.length + payload.length then .fail .segmentTooLarge c rest
      else .next { c with segmentBuf := some { seg with data := seg.data ++ payload } } rest
  | .last =>
    match c.segmentBuf with
    | none => .fail .unexpectedSegment c rest
    | some seg =>
      let c := { c with segmentBuf := none }
      if c.maxPayload.toNat * 4 < seg.data.length + payload.length then .fail .segmentTooLarge c rest
      else
        let data := seg.data ++ payload
        let finalH :=
          { seg.header with payloadSize := Int32.ofNat data.length }.withSegmentation .none
        .emit ⟨finalH, data⟩ { c with totalFrames := c.totalFrames + 1 } rest

/-- The `Payload` arm of the loop (lines 122-173). -/
def payloadStep (c : PvaCodec) (header : PvaHeader) (src : List UInt8) :
    Step PvaCodec UInt8 PvaFrame CodecError :=
  let psize := payloadLen header
  let needed := headerSize + psize
  if src.length < needed then .more
  else
    segmentStep { c with totalBytes := c.totalBytes + needed, state := .header } header
      ((src.drop headerSize).take psize) (src.drop needed)

/-- One pass of the `loop` of `decode_frame` (lines 98-175). -/
def decodeStep (c : PvaCodec) (src : List UInt8) : Step PvaCodec UInt8 PvaFrame CodecError :=
  match c.state with
  | .header => headerStep c src
  | .payload header => payloadStep c header src

/-! ## The step as an incremental decoder -/

theorem headerStep_append (c : PvaCodec) (src ys : List UInt8) (h : headerStep c src ≠ .more) :
    headerStep c (src ++ ys) = (headerStep c src).push ys := by
  unfold headerStep at h ⊢
  by_cases hlen : src.length < headerSize
  · rw [if_pos hlen] at h
    exact absurd rfl h
  · have hlen' : ¬(src ++ ys).length < headerSize := by rw [List.length_append]; omega
    rw [if_neg hlen, if_neg hlen', List.take_append_of_le_length (by omega),
      List.drop_append_of_le_length (by omega)]
    dsimp only
    split
    · rfl
    · split_ifs <;> rfl

theorem segmentStep_push (c : PvaCodec) (header : PvaHeader) (payload rest ys : List UInt8) :
    segmentStep c header payload (rest ++ ys) = (segmentStep c header payload rest).push ys := by
  unfold segmentStep
  split
  · rfl
  · rfl
  · split
    · rfl
    · split_ifs <;> rfl
  · split
    · rfl
    · dsimp only
      split_ifs <;> rfl

theorem payloadStep_append (c : PvaCodec) (header : PvaHeader) (src ys : List UInt8)
    (h : payloadStep c header src ≠ .more) :
    payloadStep c header (src ++ ys) = (payloadStep c header src).push ys := by
  unfold payloadStep at h ⊢
  dsimp only at h ⊢
  by_cases hlen : src.length < headerSize + payloadLen header
  · rw [if_pos hlen] at h
    exact absurd rfl h
  · have hlen' : ¬(src ++ ys).length < headerSize + payloadLen header := by
      rw [List.length_append]; omega
    rw [if_neg hlen, if_neg hlen', List.drop_append_of_le_length (by omega),
      List.drop_append_of_le_length (by omega), List.take_append_of_le_length (by simp; omega),
      segmentStep_push]

theorem segmentStep_left (c : PvaCodec) (header : PvaHeader) (payload rest : List UInt8) :
    (segmentStep c header payload rest).left? = some rest := by
  unfold segmentStep
  split
  · rfl
  · rfl
  · split
    · rfl
    · split_ifs <;> rfl
  · split
    · rfl
    · dsimp only
      split_ifs <;> rfl

/-- A step in the `Payload` state consumes at least a header. -/
theorem payloadStep_left {c : PvaCodec} {header : PvaHeader} {src rest : List UInt8}
    (h : (payloadStep c header src).left? = some rest) : rest.length < src.length := by
  unfold payloadStep at h
  dsimp only at h
  split_ifs at h with hlen
  · cases h
  · rw [segmentStep_left, Option.some.injEq] at h
    subst h
    simp only [List.length_drop, headerSize] at hlen ⊢
    omega

theorem headerStep_next {c c' : PvaCodec} {src rest : List UInt8}
    (h : headerStep c src = .next c' rest) :
    rest = src ∧ ∃ header, c' = { c with state := .payload header } := by
  unfold headerStep at h
  split_ifs at h
  dsimp only at h
  split at h
  · cases h
  · split_ifs at h
    cases h
    exact ⟨rfl, _, rfl⟩

theorem headerStep_emit {c c' : PvaCodec} {src rest : List UInt8} {f : PvaFrame}
    (h : headerStep c src = .emit f c' rest) : rest.length < src.length := by
  unfold headerStep at h
  split_ifs at h with hlen
  dsimp only at h
  split at h
  · cases h
  · split_ifs at h
    cases h
    simp only [List.length_drop, headerSize] at hlen ⊢
    omega

/-- `decode_frame`'s loop body as an incremental decoder. Between two consumed
    messages it passes once from `Header` to `Payload`. -/
def frameMachine : Machine PvaCodec UInt8 PvaFrame CodecError where
  step := decodeStep
  rank c := if c.state = .header then 1 else 0
  next_decreases := by
    intro c src c' rest h
    unfold decodeStep at h
    split at h
    · next hstate =>
      obtain ⟨rfl, header, rfl⟩ := headerStep_next h
      exact .inr ⟨rfl, by simp [hstate]⟩
    · exact .inl (payloadStep_left (by rw [h]; rfl))
  emit_shorter := by
    intro c src f c' rest h
    unfold decodeStep at h
    split at h
    · exact headerStep_emit h
    · exact payloadStep_left (by rw [h]; rfl)
  step_append := by
    intro c src ys h
    unfold decodeStep at h ⊢
    split
    · next hstate => exact headerStep_append c src ys (by simpa [hstate] using h)
    · next header hstate => exact payloadStep_append c header src ys (by simpa [hstate] using h)

/-- `PvaCodec::decode_frame` (lines 97-177): `more` is `Ok(None)`, `emit` is
    `Ok(Some(frame))` and `fail` is `Err`, each with the codec and the bytes left. -/
def decodeFrame (c : PvaCodec) (src : List UInt8) : Outcome PvaCodec UInt8 PvaFrame CodecError :=
  frameMachine.run c src

/-- The frames and the first error when the chunks are appended to the buffer one
    after another and `decode_frame` is called after each until it returns
    `Ok(None)` or an error. -/
def feedFrames (c : PvaCodec) (chunks : List (List UInt8)) : List PvaFrame × Option CodecError :=
  frameMachine.feed c [] chunks

/-- Calling `decode_frame` on the buffer `src` until it returns `Ok(None)` or an
    error: the frames, the error, and what is kept of codec and buffer. -/
def decodeFrames (c : PvaCodec) (src : List UInt8) : Drained PvaCodec UInt8 PvaFrame CodecError :=
  frameMachine.drain c src

/-- `PvaCodec::encode_frame` (lines 179-184): what is appended to `dst`. -/
def encodeFrame (frame : PvaFrame) : List UInt8 :=
  frame.header.encode ++ if frame.payload = [] then [] else frame.payload

/-- Without input there is nothing to decode. -/
theorem decodeFrame_nil (c : PvaCodec) : decodeFrame c [] = .more c [] := by
  refine Machine.run_more ?_
  show decodeStep c [] = .more
  unfold decodeStep
  split
  · rfl
  · next header _ =>
    unfold payloadStep
    rw [if_pos (by simp [headerSize])]

/-- **Main theorem**: however a stream is split, the frames up to and including the
    first error are those of the whole stream fed at once. -/
theorem feedFrames_eq_whole (c : PvaCodec) (chunks : List (List UInt8)) :
    feedFrames c chunks = feedFrames c [chunks.flatten] := by
  have hwait : ∃ s' rest, frameMachine.run c [] = .more s' rest := ⟨c, [], decodeFrame_nil c⟩
  unfold feedFrames
  rw [frameMachine.feed_eq_drain c [] chunks hwait, frameMachine.feed_eq_drain c [] _ hwait]
  simp

end PvaCodec

end AuraEpics.Codec
