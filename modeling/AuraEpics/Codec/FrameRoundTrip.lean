import AuraEpics.Codec.Framing

/-!
# Framing round trip

What `encode_frame` writes is what `decode_frame` reads. A frame on the wire is used
up by the decoder whatever follows it (`Machine.Consumes`), so that frames can be
taken one after another.

Result: `decodeFrames_encode`, well-formed frames come back as they were and leave
no bytes behind; a message cut into segments comes back as one frame, after the
control frames that were sent between its segments.
-/

namespace AuraEpics.Codec

open Incremental Incremental.Machine

namespace PvaFrame

/-- A control message: its payload size field carries a value, not a length. -/
def IsControl (f : PvaFrame) : Prop := f.header.isControl = true ∧ f.payload = []

/-- An application message whose header gives its length, within the limit `max`. -/
structure IsSegment (max : UInt32) (seg : Segmentation) (f : PvaFrame) : Prop where
  app : f.header.isControl = false
  segmentation : f.header.segmentation = seg
  size : f.header.payloadSize.toInt = f.payload.length
  within : f.payload.length ≤ max.toNat

/-- A frame as a sender makes it: a control message or a whole application message. -/
def WellFormed (max : UInt32) (f : PvaFrame) : Prop := f.IsControl ∨ f.IsSegment max .none

end PvaFrame

namespace PvaCodec

variable {c : PvaCodec} {f : PvaFrame} {seg : Segmentation}

/-! ## Lengths -/

theorem not_lt_zero_of_toInt {x : Int32} {n : ℕ} (h : x.toInt = n) : ¬x < 0 := by
  rw [Int32.lt_iff_toInt_lt, h]
  simp

theorem toUInt32_toNat_of_toInt {x : Int32} {n : ℕ} (h : x.toInt = n) : x.toUInt32.toNat = n := by
  show x.toBitVec.toNat = n
  have hint : x.toBitVec.toInt = n := h
  have hlt := x.toBitVec.isLt
  rw [BitVec.toInt_eq_toNat_cond] at hint
  split at hint <;> omega

theorem payloadLen_of_toInt {h : PvaHeader} {n : ℕ} (hn : h.payloadSize.toInt = n) :
    payloadLen h = n := by
  show h.payloadSize.toInt64.toBitVec.toNat = n
  have hint : h.payloadSize.toInt64.toBitVec.toInt = n := by
    rw [← hn, ← Int32.toInt_toInt64]
    rfl
  have hlt := h.payloadSize.toInt64.toBitVec.isLt
  rw [BitVec.toInt_eq_toNat_cond] at hint
  split at hint <;> omega

theorem encodeFrame_eq (f : PvaFrame) : encodeFrame f = f.header.encode ++ f.payload := by
  unfold encodeFrame
  split_ifs with h
  · rw [h]
  · rfl

/-! ## One frame -/

/-- The codec after the messages it has counted: the limit is the same, and it stands
    between two messages. -/
structure Between (c c' : PvaCodec) : Prop where
  state : c'.state = .header
  maxPayload : c'.maxPayload = c.maxPayload

theorem take_encode (h : PvaHeader) (xs : List UInt8) : (h.encode ++ xs).take headerSize = h.encode := by
  rw [List.take_append_of_le_length (by simp), List.take_of_length_le (by simp)]

theorem drop_encode (h : PvaHeader) (xs : List UInt8) : (h.encode ++ xs).drop headerSize = xs := by
  rw [List.drop_append_of_le_length (by simp), List.drop_of_length_le (by simp), List.nil_append]

theorem consumes_control (hc : c.state = .header) (hf : f.IsControl) :
    ∃ c', frameMachine.Consumes c (encodeFrame f) [f] c' ∧ Between c c' ∧
      c'.segmentBuf = c.segmentBuf := by
  refine ⟨{ c with totalBytes := c.totalBytes + headerSize, totalFrames := c.totalFrames + 1 },
    consumes_of_emit fun rest => run_emit ?_, ⟨hc, rfl⟩, rfl⟩
  show decodeStep c _ = _
  obtain ⟨hctrl, hpayload⟩ := hf
  have hframe : (⟨f.header, []⟩ : PvaFrame) = f := by rw [← hpayload]
  rw [encodeFrame_eq, hpayload, List.append_nil]
  unfold decodeStep headerStep
  rw [hc]
  dsimp only
  rw [if_neg (by simp), take_encode, drop_encode, PvaHeader.decode_encode_header]
  dsimp only
  rw [if_pos hctrl, hframe]

/-- The codec with the message `f` accounted for. -/
def counted (c : PvaCodec) (f : PvaFrame) : PvaCodec :=
  { c with totalBytes := c.totalBytes + (headerSize + f.payload.length), state := .header }

/-- The first pass over an application message accepts its header, the second hands
    its payload on. -/
theorem run_message (hc : c.state = .header) (hf : f.IsSegment c.maxPayload seg) (rest : List UInt8) :
    decodeStep c (encodeFrame f ++ rest) =
        .next { c with state := .payload f.header } (encodeFrame f ++ rest) ∧
      decodeStep { c with state := .payload f.header } (encodeFrame f ++ rest) =
        segmentStep (counted c f) f.header f.payload rest := by
  have hnonneg : ¬f.header.payloadSize < 0 := not_lt_zero_of_toInt hf.size
  have hmax : ¬c.maxPayload < f.header.payloadSize.toUInt32 := by
    rw [UInt32.lt_iff_toNat_lt, toUInt32_toNat_of_toInt hf.size]
    exact Nat.not_lt.2 hf.within
  have hlen : payloadLen f.header = f.payload.length := payloadLen_of_toInt hf.size
  rw [encodeFrame_eq, List.append_assoc]
  constructor
  · unfold decodeStep headerStep
    rw [hc]
    dsimp only
    rw [if_neg (by simp), take_encode, PvaHeader.decode_encode_header]
    dsimp only
    rw [hf.app, if_neg (by simp), if_neg hnonneg, if_neg hmax]
  · unfold decodeStep payloadStep
    dsimp only
    rw [hlen, if_neg (by simp), drop_encode, ← List.drop_drop, drop_encode, List.drop_left,
      List.take_left]
    rfl

theorem consumes_whole (hc : c.state = .header) (hf : f.IsSegment c.maxPayload .none) :
    ∃ c', frameMachine.Consumes c (encodeFrame f) [f] c' ∧ Between c c' := by
  refine ⟨{ counted c f with totalFrames := c.totalFrames + 1 }, consumes_of_emit fun rest => ?_,
    rfl, rfl⟩
  obtain ⟨hheader, hpayload⟩ := run_message hc hf rest
  rw [run_next hheader]
  refine run_emit (hpayload.trans ?_)
  unfold segmentStep
  rw [hf.segmentation]
  rfl

theorem consumes_first (hc : c.state = .header) (hf : f.IsSegment c.maxPayload .first) :
    ∃ c', frameMachine.Consumes c (encodeFrame f) [] c' ∧ Between c c' ∧
      c'.segmentBuf = some ⟨f.header, f.payload⟩ := by
  refine ⟨{ counted c f with segmentBuf := some ⟨f.header, f.payload⟩ },
    consumes_of_run fun rest => ?_, ⟨rfl, rfl⟩, rfl⟩
  obtain ⟨hheader, hpayload⟩ := run_message hc hf rest
  rw [run_next hheader]
  refine run_next (hpayload.trans ?_)
  unfold segmentStep
  rw [hf.segmentation]

theorem consumes_middle {sb : SegmentBuffer} (hc : c.state = .header)
    (hf : f.IsSegment c.maxPayload .middle) (hsb : c.segmentBuf = some sb)
    (hfits : sb.data.length + f.payload.length ≤ c.maxPayload.toNat * 4) :
    ∃ c', frameMachine.Consumes c (encodeFrame f) [] c' ∧ Between c c' ∧
      c'.segmentBuf = some ⟨sb.header, sb.data ++ f.payload⟩ := by
  refine ⟨{ counted c f with segmentBuf := some ⟨sb.header, sb.data ++ f.payload⟩ },
    consumes_of_run fun rest => ?_, ⟨rfl, rfl⟩, rfl⟩
  obtain ⟨hheader, hpayload⟩ := run_message hc hf rest
  rw [run_next hheader]
  refine run_next (hpayload.trans ?_)
  unfold segmentStep
  rw [hf.segmentation]
  dsimp only
  rw [show (counted c f).segmentBuf = some sb from hsb]
  exact if_neg (Nat.not_lt.2 hfits)

/-- The frame made of the segments: the header of the first one with the length and
    the flags of a whole message. -/
def assembled (header : PvaHeader) (data : List UInt8) : PvaFrame :=
  ⟨{ header with payloadSize := Int32.ofNat data.length }.withSegmentation .none, data⟩

theorem consumes_last {sb : SegmentBuffer} (hc : c.state = .header)
    (hf : f.IsSegment c.maxPayload .last) (hsb : c.segmentBuf = some sb)
    (hfits : sb.data.length + f.payload.length ≤ c.maxPayload.toNat * 4) :
    ∃ c', frameMachine.Consumes c (encodeFrame f) [assembled sb.header (sb.data ++ f.payload)] c' ∧
      Between c c' := by
  refine ⟨{ counted c f with segmentBuf := none, totalFrames := c.totalFrames + 1 },
    consumes_of_emit fun rest => ?_, rfl, rfl⟩
  obtain ⟨hheader, hpayload⟩ := run_message hc hf rest
  rw [run_next hheader]
  refine run_emit (hpayload.trans ?_)
  unfold segmentStep
  rw [hf.segmentation]
  dsimp only
  rw [show (counted c f).segmentBuf = some sb from hsb]
  exact if_neg (Nat.not_lt.2 hfits)

/-! ## Lists of frames -/

theorem consumes_frames (hc : c.state = .header) {fs : List PvaFrame}
    (hfs : ∀ f ∈ fs, f.WellFormed c.maxPayload) :
    ∃ c', frameMachine.Consumes c (fs.flatMap encodeFrame) fs c' ∧ Between c c' := by
  induction fs generalizing c with
  | nil => exact ⟨c, Consumes.nil c, hc, rfl⟩
  | cons f fs ih =>
    obtain ⟨c₁, hhead, hbetween⟩ : ∃ c₁, frameMachine.Consumes c (encodeFrame f) [f] c₁ ∧
        Between c c₁ := by
      rcases hfs f List.mem_cons_self with hf | hf
      · obtain ⟨c₁, hcons, hb, -⟩ := consumes_control hc hf
        exact ⟨c₁, hcons, hb⟩
      · exact consumes_whole hc hf
    have hrest : ∀ g ∈ fs, g.WellFormed c₁.maxPayload := by
      intro g hg
      rw [hbetween.maxPayload]
      exact hfs g (List.mem_cons_of_mem f hg)
    obtain ⟨c₂, htail, hb⟩ := ih hbetween.state hrest
    exact ⟨c₂, hhead.append htail, hb.state, hb.maxPayload.trans hbetween.maxPayload⟩

/-- The payload bytes of the segments among the frames. -/
def segmentData (fs : List PvaFrame) : List UInt8 :=
  (fs.filter fun f => !f.header.isControl).flatMap PvaFrame.payload

/-- Middle segments go into the buffer, control frames pass by. -/
theorem consumes_body (hc : c.state = .header) {sb : SegmentBuffer} {fs : List PvaFrame}
    (hfs : ∀ f ∈ fs, f.IsControl ∨ f.IsSegment c.maxPayload .middle)
    (hsb : c.segmentBuf = some sb)
    (hfits : sb.data.length + (segmentData fs).length ≤ c.maxPayload.toNat * 4) :
    ∃ c', frameMachine.Consumes c (fs.flatMap encodeFrame) (fs.filter (·.header.isControl)) c' ∧
      Between c c' ∧ c'.segmentBuf = some ⟨sb.header, sb.data ++ segmentData fs⟩ := by
  induction fs generalizing c sb with
  | nil => exact ⟨c, Consumes.nil c, ⟨hc, rfl⟩, by simp [hsb, segmentData]⟩
  | cons f fs ih =>
    rcases hfs f List.mem_cons_self with hf | hf
    · have hdata : segmentData (f :: fs) = segmentData fs := by simp [segmentData, hf.1]
      obtain ⟨c₁, hhead, hb₁, hsb₁⟩ := consumes_control hc hf
      rw [hdata] at hfits ⊢
      obtain ⟨c₂, htail, hb₂, hsb₂⟩ := ih hb₁.state
        (by rw [hb₁.maxPayload]; exact fun g hg => hfs g (List.mem_cons_of_mem f hg))
        (hsb₁.trans hsb) (by rw [hb₁.maxPayload]; exact hfits)
      refine ⟨c₂, ?_, ⟨hb₂.state, hb₂.maxPayload.trans hb₁.maxPayload⟩, hsb₂⟩
      have hfilter : (f :: fs).filter (·.header.isControl) = f :: fs.filter (·.header.isControl) := by
        simp [hf.1]
      rw [hfilter]
      exact hhead.append htail
    · have hdata : segmentData (f :: fs) = f.payload ++ segmentData fs := by
        simp [segmentData, hf.app]
      rw [hdata, List.length_append] at hfits
      obtain ⟨c₁, hhead, hb₁, hsb₁⟩ := consumes_middle hc hf hsb (by omega)
      obtain ⟨c₂, htail, hb₂, hsb₂⟩ := ih hb₁.state
        (by rw [hb₁.maxPayload]; exact fun g hg => hfs g (List.mem_cons_of_mem f hg))
        hsb₁ (by rw [hb₁.maxPayload, List.length_append]; omega)
      refine ⟨c₂, ?_, ⟨hb₂.state, hb₂.maxPayload.trans hb₁.maxPayload⟩, ?_⟩
      · rw [List.filter_cons_of_neg (by simp [hf.app])]
        exact hhead.append htail
      · rw [hsb₂, hdata, List.append_assoc]

theorem decodeFrames_of_consumes {c' : PvaCodec} {xs : List UInt8} {fs : List PvaFrame}
    (h : frameMachine.Consumes c xs fs c') : decodeFrames c xs = ⟨fs, none, c', []⟩ :=
  h.drain (decodeFrame_nil c')

/-! ## The assembled frame -/

theorem segmentation_withSegmentation (h : PvaHeader) :
    (h.withSegmentation .none).segmentation = .none := by
  have hzero : (h.flags &&& ~~~Flags.segMask ||| Flags.segNone) &&& Flags.segMask = Flags.segNone := by
    generalize h.flags = f
    revert f
    decide +kernel
  unfold PvaHeader.segmentation PvaHeader.withSegmentation Segmentation.fromFlags
  dsimp only [Segmentation.toBits]
  rw [hzero]
  rfl

theorem isControl_withSegmentation (h : PvaHeader) :
    (h.withSegmentation .none).isControl = h.isControl := by
  have hbit : ∀ f : UInt8, (f &&& ~~~Flags.segMask ||| Flags.segNone) &&& Flags.control ≠ 0 ↔
      f &&& Flags.control ≠ 0 := by
    decide +kernel
  exact decide_eq_decide.2 (hbit h.flags)

/-! ## Main theorem -/

/-- **Main theorem**: a codec that stands between two messages decodes what
    `encode_frame` wrote, without an error and without bytes left over. Well-formed
    frames come back as they were. Of a first, any middle and a last segment, with
    control frames anywhere between them, come the control frames and one application
    frame with all the bytes and the command of the first segment. -/
theorem decodeFrames_encode (c : PvaCodec) (hc : c.state = .header) :
    (∀ fs : List PvaFrame, (∀ f ∈ fs, f.WellFormed c.maxPayload) →
      ∃ c', c'.state = .header ∧ decodeFrames c (fs.flatMap encodeFrame) = ⟨fs, none, c', []⟩) ∧
    (∀ (first last : PvaFrame) (body : List PvaFrame), first.IsSegment c.maxPayload .first →
      (∀ f ∈ body, f.IsControl ∨ f.IsSegment c.maxPayload .middle) →
      last.IsSegment c.maxPayload .last →
      let data := first.payload ++ segmentData body ++ last.payload
      data.length ≤ c.maxPayload.toNat * 4 → data.length < 2 ^ 31 →
      ∃ c' app, c'.state = .header ∧
        decodeFrames c ((first :: body ++ [last]).flatMap encodeFrame) =
          ⟨body.filter (·.header.isControl) ++ [app], none, c', []⟩ ∧
        app.payload = data ∧ app.header.command = first.header.command ∧
        app.header.isControl = false ∧ app.header.segmentation = .none ∧
        app.header.payloadSize.toInt = (data.length : ℤ)) := by
  constructor
  · intro fs hfs
    obtain ⟨c', hcons, hb⟩ := consumes_frames hc hfs
    exact ⟨c', hb.state, decodeFrames_of_consumes hcons⟩
  · intro first last body hfirst hbody hlast data hfits hsmall
    have hlen : data.length =
        first.payload.length + (segmentData body).length + last.payload.length := by
      simp [data]
      omega
    obtain ⟨c₁, h₁, hb₁, hsb₁⟩ := consumes_first hc hfirst
    obtain ⟨c₂, h₂, hb₂, hsb₂⟩ := consumes_body hb₁.state
      (by rw [hb₁.maxPayload]; exact hbody) hsb₁ (by rw [hb₁.maxPayload]; dsimp only; omega)
    have hmax : c₂.maxPayload = c.maxPayload := hb₂.maxPayload.trans hb₁.maxPayload
    obtain ⟨c₃, h₃, hb₃⟩ := consumes_last hb₂.state (by rw [hmax]; exact hlast) hsb₂
      (by rw [hmax]; simp only [List.length_append]; omega)
    refine ⟨c₃, assembled first.header data, hb₃.state, ?_, rfl, rfl, ?_, ?_, ?_⟩
    · apply decodeFrames_of_consumes
      rw [List.flatMap_append, List.flatMap_cons, List.flatMap_singleton, List.append_assoc]
      exact h₁.append (h₂.append h₃)
    · exact (isControl_withSegmentation _).trans hfirst.app
    · exact segmentation_withSegmentation _
    · exact Int32.toInt_ofNat_of_lt hsmall

/-- A big-endian echo and a byte-order message, then one application message in three
    segments with a control message before the last. -/
theorem decodeFrames_encode_mixed :
    let echo : PvaFrame := ⟨⟨2, 0x80, 2, 4⟩, [97, 117, 114, 97]⟩
    let ctrl : PvaFrame := ⟨⟨2, 0x01, 2, -1⟩, []⟩
    let first : PvaFrame := ⟨⟨2, 0x50, 13, 2⟩, [1, 2]⟩
    let middle : PvaFrame := ⟨⟨2, 0x70, 13, 1⟩, [3]⟩
    let last : PvaFrame := ⟨⟨2, 0x60, 13, 0⟩, []⟩
    (∃ c', c'.state = .header ∧
      decodeFrames new ([echo, ctrl].flatMap encodeFrame) = ⟨[echo, ctrl], none, c', []⟩) ∧
    ∃ c' app, c'.state = .header ∧
      decodeFrames new ((first :: [middle, ctrl] ++ [last]).flatMap encodeFrame) =
        ⟨[ctrl, app], none, c', []⟩ ∧
      app.payload = [1, 2, 3] ∧ app.header.command = 13 := by
  intro echo ctrl first middle last
  have hctrl : ctrl.IsControl := ⟨by decide, rfl⟩
  constructor
  · refine (decodeFrames_encode new rfl).1 [echo, ctrl] fun f hf => ?_
    simp only [List.mem_cons, List.not_mem_nil, or_false] at hf
    rcases hf with rfl | rfl
    · exact .inr ⟨by decide, by decide, by decide, by decide⟩
    · exact .inl hctrl
  · obtain ⟨c', app, hstate, hframes, hpayload, hcommand, -⟩ := (decodeFrames_encode new rfl).2
      first last [middle, ctrl] ⟨by decide, by decide, by decide, by decide⟩ (fun f hf => by
        simp only [List.mem_cons, List.not_mem_nil, or_false] at hf
        rcases hf with rfl | rfl
        · exact .inr ⟨by decide, by decide, by decide, by decide⟩
        · exact .inl hctrl)
      ⟨by decide, by decide, by decide, by decide⟩ (by decide) (by decide)
    have hctrls : [middle, ctrl].filter (·.header.isControl) = [ctrl] := by decide +kernel
    have hdata : first.payload ++ segmentData [middle, ctrl] ++ last.payload = [1, 2, 3] := by
      decide +kernel
    rw [hctrls] at hframes
    exact ⟨c', app, hstate, hframes, hpayload.trans hdata, hcommand⟩

end PvaCodec

end AuraEpics.Codec
