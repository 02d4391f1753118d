import AuraEpics.Codec.Framing
import AuraEpics.Lib.Runs

/-!
# Conservation of payload bytes in the frame decoder

To follow single bytes through the decoder, `decode_frame` is run on bytes that carry
their position in the stream (`Cell`). Forgetting the positions gives the decoder
itself (`CellCodec.erase_decodeStep`), so that they move exactly as the bytes do.

Result: `conserved_along_iff`, every payload byte taken since the last error is in an
emitted frame or in the assembly buffer, exactly along the runs in which no `First`
segment is taken while the buffer holds such bytes.
-/

namespace AuraEpics.Codec

open Incremental Runs

/-! ## The decoder on bytes with positions -/

/-- A byte of the stream with its position. -/
abbrev Cell := ℕ × UInt8

/-- The bytes of the cells. -/
def bytes (cs : List Cell) : List UInt8 := cs.map Prod.snd

/-- The positions of the cells. -/
def positions (cs : List Cell) : List ℕ := cs.map Prod.fst

/-- `PvaCodec` with the assembly buffer made of cells. -/
structure CellCodec where
  base : PvaCodec
  assembly : Option (PvaHeader × List Cell)

namespace CellCodec

/-- The codec without the positions. -/
def erase (c : CellCodec) : PvaCodec :=
  { c.base with segmentBuf := c.assembly.map fun a => ⟨a.1, bytes a.2⟩ }

/-- The cells in the assembly buffer. -/
def held (c : CellCodec) : List Cell := c.assembly.elim [] Prod.snd

/-- `headerStep` on cells. -/
def headerStep (c : CellCodec) (src : List Cell) :
    Step CellCodec Cell (PvaHeader × List Cell) CodecError :=
  if src.length < headerSize then .more
  else
    let hdr := bytes (src.take headerSize)
    match PvaHeader.decode hdr with
    | none => .fail (.badMagic (hdr.getD 0 0)) c src
    | some header =>
      if header.isControl then
        .emit (header, [])
          { c with base := { c.base with
              totalBytes := c.base.totalBytes + headerSize
              totalFrames := c.base.totalFrames + 1 } }
          (src.drop headerSize)
      else if header.payloadSize < 0 then .fail (.negativePayload header.payloadSize) c src
      else if c.base.maxPayload < header.payloadSize.toUInt32 then
        .fail (.payloadTooLarge header.payloadSize.toUInt32) c src
      else .next { c with base := { c.base with state := .payload header } } src

/-- `segmentStep` on cells. -/
def segmentStep (c : CellCodec) (header : PvaHeader) (payload rest : List Cell) :
    Step CellCodec Cell (PvaHeader × List Cell) CodecError :=
  match header.segmentation with
  | .none =>
    .emit (header, payload) { c with base := { c.base with totalFrames := c.base.totalFrames + 1 } }
      rest
  | .first => .next { c with assembly := some (header, payload) } rest
  | .middle =>
    match c.assembly with
    | none => .fail .unexpectedSegment c rest
    | some seg =>
      if c.base.maxPayload.toNat * 4 < seg.2.length + payload.length then
        .fail .segmentTooLarge c rest
      else .next { c with assembly := some (seg.1, seg.2 ++ payload) } rest
  | .last =>
    match c.assembly with
    | none => .fail .unexpectedSegment c rest
    | some seg =>
      let c := { c with assembly := none }
      if c.base.maxPayload.toNat * 4 < seg.2.length + payload.length then
        .fail .segmentTooLarge c rest
      else
        let data := seg.2 ++ payload
        let finalH :=
          { seg.1 with payloadSize := Int32.ofNat data.length }.withSegmentation .none
        .emit (finalH, data) { c with base := { c.base with totalFrames := c.base.totalFrames + 1 } }
          rest

/-- `payloadStep` on cells. -/
def payloadStep (c : CellCodec) (header : PvaHeader) (src : List Cell) :
    Step CellCodec Cell (PvaHeader × List Cell) CodecError :=
  let psize := PvaCodec.payloadLen header
  let needed := headerSize + psize
  if src.length < needed then .more
  else
    segmentStep
      { c with base := { c.base with totalBytes := c.base.totalBytes + needed, state := .header } }
      header ((src.drop headerSize).take psize) (src.drop needed)

/-- `decodeStep` on cells. -/
def decodeStep (c : CellCodec) (src : List Cell) :
    Step CellCodec Cell (PvaHeader × List Cell) CodecError :=
  match c.base.state with
  | .header => headerStep c src
  | .payload header => payloadStep c header src

/-- The step without the positions. -/
def eraseStep :
    Step CellCodec Cell (PvaHeader × List Cell) CodecError →
      Step PvaCodec UInt8 PvaFrame CodecError
  | .more => .more
  | .next c rest => .next c.erase (bytes rest)
  | .emit f c rest => .emit ⟨f.1, bytes f.2⟩ c.erase (bytes rest)
  | .fail e c rest => .fail e c.erase (bytes rest)

@[simp] theorem length_bytes (cs : List Cell) : (bytes cs).length = cs.length := by simp [bytes]

theorem erase_headerStep (c : CellCodec) (src : List Cell) :
    eraseStep (headerStep c src) = PvaCodec.headerStep c.erase (bytes src) := by
  have htake : (bytes src).take headerSize = bytes (src.take headerSize) := by simp [bytes]
  have hdrop : (bytes src).drop headerSize = bytes (src.drop headerSize) := by simp [bytes]
  have hmax : c.erase.maxPayload = c.base.maxPayload := rfl
  unfold headerStep PvaCodec.headerStep
  rw [length_bytes, htake, hdrop, hmax]
  dsimp only
  split_ifs
  · rfl
  · cases PvaHeader.decode (bytes (src.take headerSize)) with
    | none => rfl
    | some header => dsimp only; split_ifs <;> rfl

theorem erase_segmentStep (c : CellCodec) (header : PvaHeader) (payload rest : List Cell) :
    eraseStep (segmentStep c header payload rest) =
      PvaCodec.segmentStep c.erase header (bytes payload) (bytes rest) := by
  unfold segmentStep PvaCodec.segmentStep
  cases header.segmentation with
  | none => rfl
  | first => rfl
  | middle =>
    cases hseg : c.assembly with
    | none => simp [erase, hseg, eraseStep]
    | some seg =>
      simp only [erase, hseg, Option.map_some, length_bytes]
      split_ifs
      · simp [eraseStep, erase, hseg]
      · simp [eraseStep, erase, bytes]
  | last =>
    cases hseg : c.assembly with
    | none => simp [erase, hseg, eraseStep]
    | some seg =>
      simp only [erase, hseg, Option.map_some, length_bytes]
      split_ifs
      · simp [eraseStep, erase]
      · simp [eraseStep, erase, bytes]

/-- Positions do not influence the decoder and move with their bytes. -/
theorem erase_decodeStep (c : CellCodec) (src : List Cell) :
    eraseStep (decodeStep c src) = PvaCodec.decodeStep c.erase (bytes src) := by
  unfold decodeStep PvaCodec.decodeStep
  show _ = match c.base.state with
    | .header => PvaCodec.headerStep c.erase (bytes src)
    | .payload header => PvaCodec.payloadStep c.erase header (bytes src)
  split
  · exact erase_headerStep c src
  · unfold payloadStep PvaCodec.payloadStep
    dsimp only
    rw [length_bytes]
    split_ifs
    · rfl
    · rw [erase_segmentStep]
      simp [bytes, erase, List.map_take, List.map_drop]

/-- What a pass in the `Header` state can do. -/
theorem headerStep_cases (c : CellCodec) (src : List Cell) :
    headerStep c src = .more ∨ (∃ e, headerStep c src = .fail e c src) ∨
      (∃ c', headerStep c src = .next c' src ∧ c'.held = c.held) ∨
      ∃ header c', headerStep c src = .emit (header, []) c' (src.drop headerSize) ∧
        c'.held = c.held ∧ headerSize ≤ src.length := by
  unfold headerStep
  by_cases hlen : src.length < headerSize
  · exact .inl (if_pos hlen)
  · rw [if_neg hlen]
    dsimp only
    cases PvaHeader.decode (bytes (src.take headerSize)) with
    | none => exact .inr (.inl ⟨_, rfl⟩)
    | some header =>
      dsimp only
      split_ifs
      · exact .inr (.inr (.inr ⟨header, _, rfl, rfl, Nat.not_lt.1 hlen⟩))
      · exact .inr (.inl ⟨_, rfl⟩)
      · exact .inr (.inl ⟨_, rfl⟩)
      · exact .inr (.inr (.inl ⟨_, rfl, rfl⟩))

theorem segmentStep_first {header : PvaHeader} (h : header.segmentation = .first) (c : CellCodec)
    (payload rest : List Cell) :
    ∃ c', segmentStep c header payload rest = .next c' rest ∧ c'.held = payload := by
  unfold segmentStep
  rw [h]
  exact ⟨_, rfl, rfl⟩

/-- What is done with a message that is not a `First` segment: an error, or its
    payload and the assembly buffer are divided between a frame and the buffer. -/
theorem segmentStep_cases {header : PvaHeader} (h : header.segmentation ≠ .first) (c : CellCodec)
    (payload rest : List Cell) :
    (∃ e c', segmentStep c header payload rest = .fail e c' rest ∧ (c'.held = c.held ∨ c'.held = [])) ∨
      (∃ c', segmentStep c header payload rest = .next c' rest ∧ c'.held = c.held ++ payload) ∨
      ∃ f c', segmentStep c header payload rest = .emit f c' rest ∧
        (f.2 ++ c'.held).Perm (c.held ++ payload) := by
  unfold segmentStep
  cases hseg : header.segmentation with
  | none => exact .inr (.inr ⟨_, _, rfl, List.perm_append_comm⟩)
  | first => exact absurd hseg h
  | middle =>
    cases ha : c.assembly with
    | none => exact .inl ⟨_, c, rfl, .inl rfl⟩
    | some seg =>
      dsimp only
      split_ifs
      · exact .inl ⟨_, c, rfl, .inl rfl⟩
      · exact .inr (.inl ⟨_, rfl, by simp [held, ha]⟩)
  | last =>
    cases ha : c.assembly with
    | none => exact .inl ⟨_, c, rfl, .inl rfl⟩
    | some seg =>
      dsimp only
      split_ifs
      · exact .inl ⟨_, _, rfl, .inr rfl⟩
      · exact .inr (.inr ⟨_, _, rfl, by simp [held, ha]⟩)

end CellCodec

/-! ## Following the bytes -/

/-- A decoder at work on a stream: the codec, the `BytesMut` it reads, the number of
    bytes received, the positions of the application payload bytes it has consumed
    since it last returned an error, and those in the frames it has emitted. -/
structure Tracer where
  codec : CellCodec
  buf : List Cell
  received : ℕ
  consumed : List ℕ
  emitted : List ℕ

namespace Tracer

/-- A chunk arrives, or the decoder makes one pass of the `loop` of `decode_frame`. -/
inductive Op where
  | recv (chunk : List UInt8)
  | pass

/-- A codec with the limit `maxPayload` before the first byte. -/
def start (maxPayload : UInt32) : Tracer :=
  ⟨⟨{ PvaCodec.new with maxPayload }, none⟩, [], 0, [], []⟩

/-- The positions in the assembly buffer. -/
def held (t : Tracer) : List ℕ := positions t.codec.held

/-- The chunk with the positions that follow the `n` bytes received before. -/
def label (n : ℕ) (chunk : List UInt8) : List Cell := (List.range' n chunk.length).zip chunk

/-- The payload a pass takes off the buffer: what it removes after the header. -/
def taken (buf rest : List Cell) : List ℕ :=
  positions ((buf.take (buf.length - rest.length)).drop headerSize)

/-- One pass of the loop. An error excuses all that was consumed before it. -/
def pass (t : Tracer) : Tracer :=
  match t.codec.decodeStep t.buf with
  | .more => t
  | .next c rest => { t with codec := c, buf := rest, consumed := t.consumed ++ taken t.buf rest }
  | .emit f c rest =>
    { t with
      codec := c
      buf := rest
      consumed := t.consumed ++ taken t.buf rest
      emitted := t.emitted ++ positions f.2 }
  | .fail _ c rest => { t with codec := c, buf := rest, consumed := [] }

def step (t : Tracer) : Op → Tracer
  | .recv chunk =>
    { t with buf := t.buf ++ label t.received chunk, received := t.received + chunk.length }
  | .pass => t.pass

/-- Each payload byte consumed since the last error is in an emitted frame or in the
    assembly buffer. -/
def Conserved (t : Tracer) : Prop := ∀ k ∈ t.consumed, k ∈ t.emitted ∨ k ∈ t.held

/-- The next pass takes a complete message that is a `First` segment. -/
def TakesFirst (t : Tracer) : Prop :=
  ∃ header, t.codec.base.state = .payload header ∧ header.segmentation = .first ∧
    headerSize + PvaCodec.payloadLen header ≤ t.buf.length

/-- The operation does not take a `First` segment while the assembly buffer holds
    bytes consumed since the last error. -/
def SparesAssembly (t : Tracer) (op : Op) : Prop :=
  op = .pass → t.TakesFirst → ∀ k ∈ t.held, k ∉ t.consumed

variable {t : Tracer}

/-! ## What a pass does -/

@[simp] theorem positions_nil : positions [] = [] := rfl

@[simp] theorem positions_append (xs ys : List Cell) :
    positions (xs ++ ys) = positions xs ++ positions ys := by
  simp [positions]

theorem taken_self (buf : List Cell) : taken buf buf = [] := by simp [taken]

theorem taken_drop {buf : List Cell} {n : ℕ} (hn : headerSize + n ≤ buf.length) :
    taken buf (buf.drop (headerSize + n)) = positions ((buf.drop headerSize).take n) := by
  have hlen : buf.length - (buf.drop (headerSize + n)).length = headerSize + n := by
    rw [List.length_drop]
    omega
  rw [taken, hlen, List.drop_take]
  simp

/-- A complete message splits the buffer into header, payload and rest. -/
theorem positions_message (buf : List Cell) (n : ℕ) :
    positions buf = positions (buf.take headerSize) ++ positions ((buf.drop headerSize).take n) ++
      positions (buf.drop (headerSize + n)) := by
  rw [← positions_append, ← positions_append, ← List.drop_drop, List.append_assoc,
    List.take_append_drop, List.take_append_drop]

/-- The codec a complete message with payload length `n` is handed to. -/
def accounted (c : CellCodec) (n : ℕ) : CellCodec :=
  { c with base := { c.base with
      totalBytes := c.base.totalBytes + (headerSize + n)
      state := .header } }

theorem decodeStep_message {header : PvaHeader} (hstate : t.codec.base.state = .payload header)
    (hlen : headerSize + PvaCodec.payloadLen header ≤ t.buf.length) :
    t.codec.decodeStep t.buf =
      (accounted t.codec (PvaCodec.payloadLen header)).segmentStep header
        ((t.buf.drop headerSize).take (PvaCodec.payloadLen header))
        (t.buf.drop (headerSize + PvaCodec.payloadLen header)) := by
  unfold CellCodec.decodeStep
  rw [hstate]
  show (if _ then _ else _) = _
  rw [if_neg (by omega)]
  rfl

section Equations

variable {c : CellCodec} {rest : List Cell}

theorem pass_more (h : t.codec.decodeStep t.buf = .more) : t.pass = t := by
  rw [pass, h]

theorem pass_next (h : t.codec.decodeStep t.buf = .next c rest) :
    t.pass = { t with codec := c, buf := rest, consumed := t.consumed ++ taken t.buf rest } := by
  rw [pass, h]

theorem pass_emit {f : PvaHeader × List Cell} (h : t.codec.decodeStep t.buf = .emit f c rest) :
    t.pass =
      { t with
        codec := c
        buf := rest
        consumed := t.consumed ++ taken t.buf rest
        emitted := t.emitted ++ positions f.2 } := by
  rw [pass, h]

theorem pass_fail {e : CodecError} (h : t.codec.decodeStep t.buf = .fail e c rest) :
    t.pass = { t with codec := c, buf := rest, consumed := [] } := by
  rw [pass, h]

end Equations

theorem pass_first (h : t.TakesFirst) :
    ∃ hdr p, positions t.buf = hdr ++ p ++ positions t.pass.buf ∧
      t.pass.consumed = t.consumed ++ p ∧ t.pass.emitted = t.emitted ∧ t.pass.held = p := by
  obtain ⟨header, hstate, hfirst, hlen⟩ := h
  obtain ⟨c', hr, hheld⟩ := CellCodec.segmentStep_first hfirst
    (accounted t.codec (PvaCodec.payloadLen header))
    ((t.buf.drop headerSize).take (PvaCodec.payloadLen header))
    (t.buf.drop (headerSize + PvaCodec.payloadLen header))
  rw [pass_next ((decodeStep_message hstate hlen).trans hr)]
  refine ⟨_, _, positions_message t.buf (PvaCodec.payloadLen header), ?_, rfl,
    congrArg positions hheld⟩
  rw [taken_drop hlen]

/-- A pass that takes no `First` segment leaves the payload bytes where they are,
    returns an error, or divides what it takes and what is held. -/
theorem pass_other (h : ¬t.TakesFirst) :
    (∃ hdr, positions t.buf = hdr ++ positions t.pass.buf ∧ t.pass.emitted = t.emitted ∧
      (t.pass.consumed = t.consumed ∧ t.pass.held = t.held ∨
        t.pass.consumed = [] ∧ (t.pass.held = t.held ∨ t.pass.held = []))) ∨
    ∃ hdr p, positions t.buf = hdr ++ p ++ positions t.pass.buf ∧
      t.pass.consumed = t.consumed ++ p ∧
      (t.pass.emitted ++ t.pass.held).Perm (t.emitted ++ t.held ++ p) := by
  cases hstate : t.codec.base.state with
  | header =>
    have hstep : t.codec.decodeStep t.buf = t.codec.headerStep t.buf := by
      unfold CellCodec.decodeStep
      rw [hstate]
    left
    rcases t.codec.headerStep_cases t.buf with hr | ⟨e, hr⟩ | ⟨c', hr, hheld⟩ | ⟨hd, c', hr, hheld, hlen⟩
    · rw [pass_more (hstep.trans hr)]
      exact ⟨[], rfl, rfl, .inl ⟨rfl, rfl⟩⟩
    · rw [pass_fail (hstep.trans hr)]
      exact ⟨[], rfl, rfl, .inr ⟨rfl, .inl rfl⟩⟩
    · rw [pass_next (hstep.trans hr), taken_self, List.append_nil]
      exact ⟨[], rfl, rfl, .inl ⟨rfl, congrArg positions hheld⟩⟩
    · rw [pass_emit (hstep.trans hr)]
      refine ⟨positions (t.buf.take headerSize), ?_, ?_, .inl ⟨?_, congrArg positions hheld⟩⟩
      · rw [← positions_append, List.take_append_drop]
      · exact List.append_nil _
      · have htaken := taken_drop (n := 0) hlen
        rw [List.take_zero, Nat.add_zero] at htaken
        rw [htaken]
        exact List.append_nil _
  | payload header =>
    by_cases hlen : headerSize + PvaCodec.payloadLen header ≤ t.buf.length
    · have hfirst : header.segmentation ≠ .first := fun hf => h ⟨header, hstate, hf, hlen⟩
      have hmsg := positions_message t.buf (PvaCodec.payloadLen header)
      have hstep := decodeStep_message hstate hlen
      rcases CellCodec.segmentStep_cases hfirst (accounted t.codec (PvaCodec.payloadLen header))
          ((t.buf.drop headerSize).take (PvaCodec.payloadLen header))
          (t.buf.drop (headerSize + PvaCodec.payloadLen header))
        with ⟨e, c', hr, hheld⟩ | ⟨c', hr, hheld⟩ | ⟨f, c', hr, hperm⟩
      · left
        rw [pass_fail (hstep.trans hr)]
        exact ⟨_, hmsg, rfl, .inr ⟨rfl, hheld.imp (congrArg positions) (congrArg positions)⟩⟩
      · right
        rw [pass_next (hstep.trans hr), taken_drop hlen]
        refine ⟨_, _, hmsg, rfl, ?_⟩
        show (t.emitted ++ positions c'.held).Perm _
        rw [hheld, positions_append, ← List.append_assoc]
        rfl
      · right
        rw [pass_emit (hstep.trans hr), taken_drop hlen]
        refine ⟨_, _, hmsg, rfl, ?_⟩
        show (t.emitted ++ positions f.2 ++ positions c'.held).Perm _
        rw [List.append_assoc, List.append_assoc, ← positions_append]
        refine List.Perm.append_left t.emitted ?_
        rw [held, ← positions_append]
        exact hperm.map Prod.fst
    · have hmore : t.codec.decodeStep t.buf = .more := by
        unfold CellCodec.decodeStep
        rw [hstate]
        exact if_pos (Nat.not_le.1 hlen)
      rw [pass_more hmore]
      exact .inl ⟨[], rfl, rfl, .inl ⟨rfl, rfl⟩⟩

/-! ## No byte is in two places -/

/-- In how many places the position `k` is found. -/
def copies (t : Tracer) (k : ℕ) : ℕ := t.emitted.count k + t.held.count k + (positions t.buf).count k

/-- A position is in one place at most, and has been received. -/
def Distinct (t : Tracer) : Prop := ∀ k, t.copies k ≤ 1 ∧ (0 < t.copies k → k < t.received)

theorem pass_copies (t : Tracer) (k : ℕ) : t.pass.copies k ≤ t.copies k := by
  unfold copies
  by_cases hfirst : t.TakesFirst
  · obtain ⟨hdr, p, hbuf, -, hemitted, hheld⟩ := pass_first hfirst
    rw [hbuf, hemitted, hheld]
    simp only [List.count_append]
    omega
  · rcases pass_other hfirst with ⟨hdr, hbuf, hemitted, ⟨-, hheld⟩ | ⟨-, hheld | hheld⟩⟩ |
        ⟨hdr, p, hbuf, -, hperm⟩
    · rw [hbuf, hemitted, hheld]
      simp only [List.count_append]
      omega
    · rw [hbuf, hemitted, hheld]
      simp only [List.count_append]
      omega
    · rw [hbuf, hemitted, hheld]
      simp only [List.count_append, List.count_nil]
      omega
    · have hcount := hperm.count_eq k
      rw [hbuf]
      simp only [List.count_append] at hcount ⊢
      omega

theorem pass_received (t : Tracer) : t.pass.received = t.received := by
  unfold pass
  split <;> rfl

theorem positions_label (n : ℕ) (chunk : List UInt8) :
    positions (label n chunk) = List.range' n chunk.length :=
  List.map_fst_zip (by simp)

theorem Distinct.step (h : t.Distinct) (op : Op) : (t.step op).Distinct := by
  intro k
  obtain ⟨hone, hreceived⟩ := h k
  cases op with
  | recv chunk =>
    have hlabel : (List.range' t.received chunk.length).count k ≤ 1 :=
      List.nodup_iff_count_le_one.1 List.nodup_range' k
    have hmem : 0 < (List.range' t.received chunk.length).count k →
        t.received ≤ k ∧ k < t.received + chunk.length := by
      intro hpos
      simpa using List.count_pos_iff.1 hpos
    have hcopies : (t.step (.recv chunk)).copies k =
        t.copies k + (List.range' t.received chunk.length).count k := by
      unfold copies
      show t.emitted.count k + t.held.count k + (positions (t.buf ++ _)).count k = _
      rw [positions_append, positions_label, List.count_append]
      omega
    show _ ≤ 1 ∧ (_ → k < t.received + chunk.length)
    rw [hcopies]
    omega
  | pass =>
    have hle := t.pass_copies k
    show t.pass.copies k ≤ 1 ∧ (_ → k < t.pass.received)
    rw [pass_received]
    exact ⟨le_trans hle hone, fun hpos => hreceived (lt_of_lt_of_le hpos hle)⟩

/-! ## Main theorem -/

theorem conserved_pass_iff (hd : t.Distinct) (hc : t.Conserved) :
    t.pass.Conserved ↔ (t.TakesFirst → ∀ k ∈ t.held, k ∉ t.consumed) := by
  by_cases hfirst : t.TakesFirst
  · obtain ⟨hdr, p, hbuf, hconsumed, hemitted, hheld⟩ := pass_first hfirst
    unfold Conserved
    rw [hconsumed, hemitted, hheld]
    constructor
    · intro h _ k hk hkc
      -- `k` is in the assembly buffer, so neither in a frame nor in the new payload
      have hone := (hd k).1
      have hpos : 0 < t.held.count k := List.count_pos_iff.2 hk
      rw [copies, hbuf] at hone
      simp only [List.count_append] at hone
      rcases h k (List.mem_append_left p hkc) with hk' | hk'
      · have := List.count_pos_iff.2 hk'
        omega
      · have := List.count_pos_iff.2 hk'
        omega
    · intro h k hk
      rcases List.mem_append.1 hk with hk | hk
      · rcases hc k hk with hk' | hk'
        · exact .inl hk'
        · exact absurd hk (h hfirst k hk')
      · exact .inr hk
  · refine ⟨fun _ h => absurd h hfirst, fun _ k hk => ?_⟩
    rcases pass_other hfirst with ⟨hdr, hbuf, hemitted, ⟨hconsumed, hheld⟩ | ⟨hconsumed, -⟩⟩ |
        ⟨hdr, p, hbuf, hconsumed, hperm⟩
    · rw [hconsumed] at hk
      rw [hemitted, hheld]
      exact hc k hk
    · rw [hconsumed] at hk
      cases hk
    · rw [← List.mem_append, hperm.mem_iff, List.mem_append, List.mem_append]
      rw [hconsumed] at hk
      rcases List.mem_append.1 hk with hk | hk
      · exact .inl (hc k hk)
      · exact .inr hk

theorem conserved_step_iff (hd : t.Distinct) (hc : t.Conserved) (op : Op) :
    (t.step op).Conserved ↔ t.SparesAssembly op := by
  cases op with
  | recv chunk =>
    refine ⟨fun _ h => ?_, fun _ => hc⟩
    cases h
  | pass => exact (conserved_pass_iff hd hc).trans ⟨fun h _ => h, fun h => h rfl⟩

/-- **Main theorem**: along a run of arriving chunks and passes of `decode_frame`, every
    payload byte consumed since the last error is in an emitted frame or in the assembly
    buffer, exactly if no `First` segment is taken while the buffer holds such bytes. -/
theorem conserved_along_iff (maxPayload : UInt32) (ops : List Op) :
    AlongStates step Conserved (start maxPayload) ops ↔
      AlongSteps step SparesAssembly (start maxPayload) ops := by
  have hdistinct : (start maxPayload).Distinct := by
    intro k
    simp [copies, start, held, CellCodec.held]
  have hconserved : (start maxPayload).Conserved := by
    intro k hk
    cases hk
  refine alongStates_iff_alongSteps_of_invariant (J := Distinct) ?_ ?_ hdistinct hconserved ops
  · intro t op ht
    exact ht.step op
  · intro t op hd hc
    exact conserved_step_iff hd hc op

instance (t : Tracer) : Decidable t.Conserved :=
  inferInstanceAs (Decidable (∀ k ∈ t.consumed, k ∈ t.emitted ∨ k ∈ t.held))

/-- Two `First` segments of one byte each. -/
def twoFirsts : List UInt8 :=
  let header : PvaHeader := ⟨2, 0x50, 13, 1⟩
  header.encode ++ [1] ++ header.encode ++ [2]

/-- The second `First` replaces the assembly buffer: the byte at position 8 is gone,
    without an error. -/
theorem secondFirst_discards :
    let ops := .recv twoFirsts :: List.replicate 4 .pass
    8 ∈ (run step (start 1024) ops).consumed ∧
      ¬AlongStates step Conserved (start 1024) ops := by
  decide +kernel

/-! ## Passes and calls -/

theorem pass_erase (t : Tracer) :
    match PvaCodec.decodeStep t.codec.erase (bytes t.buf) with
    | .more => t.pass = t
    | .next c rest | .emit _ c rest | .fail _ c rest =>
      t.pass.codec.erase = c ∧ bytes t.pass.buf = rest := by
  rw [← CellCodec.erase_decodeStep]
  cases h : t.codec.decodeStep t.buf with
  | more => exact pass_more h
  | next c rest => rw [pass_next h]; exact ⟨rfl, rfl⟩
  | emit f c rest => rw [pass_emit h]; exact ⟨rfl, rfl⟩
  | fail e c rest => rw [pass_fail h]; exact ⟨rfl, rfl⟩

/-- A call of `decode_frame` is a number of passes. -/
theorem decodeFrame_eq_passes (t : Tracer) :
    ∃ n, let t' := run step t (List.replicate n .pass)
      (PvaCodec.decodeFrame t.codec.erase (bytes t.buf)).left = (t'.codec.erase, bytes t'.buf) := by
  unfold PvaCodec.decodeFrame
  generalize hs : t.codec.erase = s
  generalize hxs : bytes t.buf = xs
  induction s, xs using PvaCodec.frameMachine.run_induction generalizing t with
  | answer s xs hanswer =>
    refine ⟨1, ?_⟩
    show _ = (t.pass.codec.erase, bytes t.pass.buf)
    have hpass := t.pass_erase
    rw [hs, hxs] at hpass
    have hstep : PvaCodec.frameMachine.step s xs = PvaCodec.decodeStep s xs := rfl
    cases h : PvaCodec.decodeStep s xs with
    | more =>
      rw [h] at hpass
      dsimp only at hpass
      rw [Machine.run_more (hstep.trans h), hpass, hs, hxs]
      rfl
    | next s' rest => exact absurd h (hanswer s' rest)
    | emit f s' rest =>
      rw [h] at hpass
      rw [Machine.run_emit (hstep.trans h), hpass.1, hpass.2]
      rfl
    | fail e s' rest =>
      rw [h] at hpass
      rw [Machine.run_fail (hstep.trans h), hpass.1, hpass.2]
      rfl
  | next s xs s' rest h ih =>
    have hpass := t.pass_erase
    rw [hs, hxs, show PvaCodec.decodeStep s xs = .next s' rest from h] at hpass
    obtain ⟨n, hn⟩ := ih t.pass hpass.1 hpass.2
    refine ⟨n + 1, ?_⟩
    rw [Machine.run_next h]
    exact hn

end Tracer

end AuraEpics.Codec
