import AuraEpics.Store.Writer
import AuraEpics.Lib.Runs

/-!
# Byte accounting of the writers

The String, Array, Json and Image writers keep a counter of the bytes they hold,
against which `push` checks the limit. `push`, `discard` and a completed `flush`
keep it equal to the sum of the row sizes; `take_flush_bundle` moves the rows out
and leaves it as it was, and so does an array flush that stops between its two
COPYs.

Result: `byteAccounting_along_iff`, the runs along which all four counters are
right, and backpressure is only reported for bytes that are there.
-/

namespace AuraEpics.Store

open AuraEpics.Core Runs

/-! ## One buffer -/

namespace RowWriter

variable {ρ : Type} {size : ρ → ℕ} {w : RowWriter ρ}

/-- Bytes of the rows really buffered. -/
def bufferedBytes (size : ρ → ℕ) (w : RowWriter ρ) : ℕ := (w.buffer.map size).sum

/-- The counter is the sum of the sizes of the buffered rows. -/
def Counted (size : ρ → ℕ) (w : RowWriter ρ) : Prop := w.currentBytes = w.bufferedBytes size

theorem push_counted (h : w.Counted size) (row : ρ) : (w.push size row).2.Counted size := by
  unfold push
  split
  · exact h
  · unfold Counted bufferedBytes at h ⊢
    simp [h]

theorem flush_counted (h : w.Counted size) (name : String)
    (send : ℕ → List ρ → Option (Except CopyError Unit)) : (flush name send w).2.Counted size := by
  unfold flush
  repeat' split
  all_goals first | exact h | rfl

/-- Moving the rows out of a buffer whose counter was right leaves it right only if
    there was nothing to move. -/
theorem take_counted_iff (hpos : ∀ r, 0 < size r) (h : w.Counted size) :
    ({ w with buffer := [] } : RowWriter ρ).Counted size ↔ w.buffer = [] := by
  unfold Counted bufferedBytes at h ⊢
  simp only [h, List.map_nil, List.sum_nil]
  rw [List.sum_eq_zero_iff]
  constructor
  · intro hz
    rw [List.eq_nil_iff_forall_not_mem]
    intro r hr
    have := hz (size r) (List.mem_map_of_mem hr)
    have := hpos r
    omega
  · intro hnil
    simp [hnil]

/-- Backpressure means that the rows and the new one really exceed the limit. -/
theorem push_backpressure (h : w.Counted size) {row : ρ}
    (hp : (w.push size row).1 = .backpressureExceeded) :
    w.maxBufferBytes < w.bufferedBytes size + size row := by
  unfold push at hp
  split_ifs at hp with hfull
  · rw [← h]
    exact hfull.2
  · dsimp only at hp
    split_ifs at hp

end RowWriter

theorem StringRow.memSize_pos (r : StringRow) : 0 < r.memSize := by unfold memSize; omega

theorem JsonRow.memSize_pos (r : JsonRow) : 0 < r.memSize := by unfold memSize; omega

theorem ImageRow.memSize_pos (r : ImageRow) : 0 < r.memSize := by unfold memSize; omega

/-! ## The array writer's two buffers -/

namespace ArrayWriter

variable {w : ArrayWriter}

/-- Bytes of the element rows really buffered. -/
def bufferedBytes (w : ArrayWriter) : ℕ :=
  w.numBuffer.length * numWireSize + (w.strBuffer.map ArrayStrRow.wireSize).sum

/-- The counter is the sum of the sizes of the buffered element rows. -/
def Counted (w : ArrayWriter) : Prop := w.currentBytes = w.bufferedBytes

theorem length_numRows (c : ArrayCapture) (aid : Int64) (values : List Numeric.Binary64) :
    (numRows c aid values).length = values.length := by simp [numRows]

theorem wireSize_strRows (c : ArrayCapture) (aid : Int64) (values : List String) :
    ((strRows c aid values).map ArrayStrRow.wireSize).sum =
      (values.map fun s => strWireBase + s.utf8ByteSize).sum := by
  have hmap : (strRows c aid values).map ArrayStrRow.wireSize =
      (values.zipIdx.map Prod.fst).map fun s => strWireBase + s.utf8ByteSize := by
    rw [strRows, List.map_map, List.map_map]
    rfl
  rw [hmap, List.zipIdx_map_fst]

theorem push_counted (h : w.Counted) (c : ArrayCapture) : (w.push c).2.Counted := by
  unfold push
  split_ifs with hempty hfull
  · exact h
  · exact h
  · rcases c with ⟨time, pvId, sev, st, values | values⟩ <;>
      unfold Counted bufferedBytes at h ⊢
    · simp only [h, ArrayCapture.estBytes, List.length_append, length_numRows]
      ring
    · simp only [h, ArrayCapture.estBytes, List.map_append, List.sum_append, wireSize_strRows]
      ring

/-- The flush stops between its two COPYs: the numeric one has committed, the string
    one has not. -/
def SplitFlush (io : CopyIO) (w : ArrayWriter) : Prop :=
  ∃ conns, w.copyPool = some conns ∧ w.numBuffer ≠ [] ∧ w.strBuffer ≠ [] ∧
    sendRows io .arrayNum conns w.numBuffer = some (.ok ()) ∧
    sendCopyClassified conns io .arrayStr 0 ≠ some (.ok ())

/-- What a flush can leave behind: the writer as it was, an empty one with the
    counter reset, or, when it stops in between, the numeric buffer gone. -/
theorem flush_cases (io : CopyIO) (w : ArrayWriter) :
    (¬SplitFlush io w ∧ ((flush io w).2 = w ∨
      ((flush io w).2.isEmpty ∧ (flush io w).2.currentBytes = 0))) ∨
    (SplitFlush io w ∧ (flush io w).2 = { w with numBuffer := [] }) := by
  by_cases hempty : w.isEmpty
  · refine .inl ⟨fun ⟨_, _, hnum, _⟩ => hnum hempty.1, .inl ?_⟩
    simp [flush, Stoppable.bind_apply, hempty]
  · cases hpool : w.copyPool with
    | none =>
      refine .inl ⟨?_, .inl (by simp [flush, Stoppable.bind_apply, hempty, hpool])⟩
      rintro ⟨conns, hconns, -⟩
      rw [hpool] at hconns
      cases hconns
    | some conns =>
      have hsplit : SplitFlush io w ↔ w.numBuffer ≠ [] ∧ w.strBuffer ≠ [] ∧
          sendRows io .arrayNum conns w.numBuffer = some (.ok ()) ∧
          sendCopyClassified conns io .arrayStr 0 ≠ some (.ok ()) := by
        unfold SplitFlush
        rw [hpool]
        simp
      rw [hsplit]
      by_cases hn : w.numBuffer = []
      · -- only strings: one COPY, all or nothing
        have hs : w.strBuffer ≠ [] := fun hs => hempty ⟨hn, hs⟩
        rcases hr : sendCopyClassified conns io .arrayStr 0 with _ | e | ⟨⟨⟩⟩ <;>
          simp [flush, flushNum, flushStr, Stoppable.bind_apply, isEmpty, hpool, hn, hs, hr]
      · rcases hr : sendRows io .arrayNum conns w.numBuffer with _ | e | ⟨⟨⟩⟩
        · simp [flush, flushNum, Stoppable.bind_apply, isEmpty, hpool, hn, hr]
        · simp [flush, flushNum, Stoppable.bind_apply, isEmpty, hpool, hn, hr]
        · by_cases hs : w.strBuffer = []
          · simp [flush, flushNum, flushStr, Stoppable.bind_apply, isEmpty, hpool, hn, hs, hr]
          · rcases hr' : sendCopyClassified conns io .arrayStr 0 with _ | e | ⟨⟨⟩⟩ <;>
              simp [flush, flushNum, flushStr, Stoppable.bind_apply, isEmpty, hpool, hn, hs, hr, hr']

theorem ArrayStrRow.wireSize_pos (r : ArrayStrRow) : 0 < r.wireSize := by
  unfold ArrayStrRow.wireSize strWireBase; omega

theorem sum_wireSize_eq_zero (rows : List ArrayStrRow) :
    (rows.map ArrayStrRow.wireSize).sum = 0 ↔ rows = [] := by
  cases rows with
  | nil => simp
  | cons r rs =>
    have := ArrayStrRow.wireSize_pos r
    simp only [List.map_cons, List.sum_cons, reduceCtorEq, iff_false]
    omega

theorem take_counted_iff (h : w.Counted) :
    ({ w with numBuffer := [], strBuffer := [] } : ArrayWriter).Counted ↔ w.isEmpty := by
  unfold Counted bufferedBytes at h ⊢
  simp only [h, List.length_nil, List.map_nil, List.sum_nil, Nat.zero_mul, Nat.add_zero, isEmpty,
    numWireSize]
  rw [Nat.add_eq_zero_iff, sum_wireSize_eq_zero, Nat.mul_eq_zero, List.length_eq_zero_iff]
  simp

/-- A flush leaves the counter right unless it stops between its two COPYs. -/
theorem flush_counted_iff (h : w.Counted) (io : CopyIO) :
    (flush io w).2.Counted ↔ ¬SplitFlush io w := by
  rcases flush_cases io w with ⟨hsplit, hsame | ⟨hempty, hzero⟩⟩ | ⟨hsplit, hgone⟩
  · rw [hsame]
    exact ⟨fun _ => hsplit, fun _ => h⟩
  · refine ⟨fun _ => hsplit, fun _ => ?_⟩
    unfold Counted bufferedBytes
    rw [hzero, hempty.1, hempty.2]
    rfl
  · rw [hgone]
    refine ⟨fun hc => ?_, fun hns => absurd hsplit hns⟩
    obtain ⟨_, _, hnum, _⟩ := hsplit
    unfold Counted bufferedBytes at h hc
    have hpos : 0 < w.numBuffer.length := List.length_pos_of_ne_nil hnum
    simp only [List.length_nil, numWireSize] at h hc
    omega

theorem push_backpressure (h : w.Counted) {c : ArrayCapture}
    (hp : (w.push c).1 = .backpressureExceeded) : w.maxBufferBytes < w.bufferedBytes + c.estBytes := by
  unfold push at hp
  split_ifs at hp with hempty hfull
  · rw [← h]
    exact hfull.2
  · dsimp only at hp
    split_ifs at hp

end ArrayWriter

/-! ## The batch writer -/

namespace BatchWriter

variable {b : BatchWriter}

/-- Each counter is the sum of the sizes of the rows its writer buffers. -/
structure ByteAccounting (b : BatchWriter) : Prop where
  string : b.string.Counted StringRow.memSize
  array : b.array.Counted
  json : b.json.Counted JsonRow.memSize
  image : b.image.Counted ImageRow.memSize

/-- A push answers `BackpressureExceeded` only when the bytes really buffered and
    the new row exceed the limit. -/
structure HonestBackpressure (b : BatchWriter) : Prop where
  string : ∀ r, (b.string.push r).1 = .backpressureExceeded →
    b.string.maxBufferBytes < b.string.bufferedBytes StringRow.memSize + r.memSize
  array : ∀ c, (b.array.push c).1 = .backpressureExceeded →
    b.array.maxBufferBytes < b.array.bufferedBytes + c.estBytes
  json : ∀ r, (b.json.push r).1 = .backpressureExceeded →
    b.json.maxBufferBytes < b.json.bufferedBytes JsonRow.memSize + r.memSize
  image : ∀ r, (b.image.push r).1 = .backpressureExceeded →
    b.image.maxBufferBytes < b.image.bufferedBytes ImageRow.memSize + r.memSize

theorem ByteAccounting.honestBackpressure (h : b.ByteAccounting) : b.HonestBackpressure where
  string _ := RowWriter.push_backpressure h.string
  array _ := ArrayWriter.push_backpressure h.array
  json _ := RowWriter.push_backpressure h.json
  image _ := RowWriter.push_backpressure h.image

theorem pushOther_accounting (h : b.ByteAccounting) (r : WriterRow) :
    (b.pushOther r).2.ByteAccounting := by
  cases r with
  | string r => exact ⟨RowWriter.push_counted h.string r, h.array, h.json, h.image⟩
  | array c => exact ⟨h.string, ArrayWriter.push_counted h.array c, h.json, h.image⟩
  | json r => exact ⟨h.string, h.array, RowWriter.push_counted h.json r, h.image⟩
  | image r => exact ⟨h.string, h.array, h.json, RowWriter.push_counted h.image r⟩

theorem pushOthers_accounting (h : b.ByteAccounting) (rows : List WriterRow) :
    (b.pushOthers rows).ByteAccounting := by
  unfold pushOthers
  induction rows generalizing b with
  | nil => exact h
  | cons r rs ih => exact ih (pushOther_accounting h r)

theorem pushRow_accounting (h : b.ByteAccounting) (r : StoredRow) :
    (b.pushRow r).2.ByteAccounting := by
  cases r with
  | scalar r => exact ⟨h.string, h.array, h.json, h.image⟩
  | other r => exact pushOther_accounting h r

theorem dispatchWithId_accounting (h : b.ByteAccounting) (f : Formats) (u : PvUpdate) (pvId : Int32)
    (reason : StoreReason) : (b.dispatchWithId f u pvId reason).ByteAccounting := by
  have h' : ByteAccounting { b with totalDispatched := b.totalDispatched + 1 } :=
    ⟨h.string, h.array, h.json, h.image⟩
  unfold dispatchWithId
  dsimp only
  split
  · exact pushRow_accounting h' _
  · exact ⟨h.string, h.array, h.json, h.image⟩

theorem flushAll_accounting_iff (h : b.ByteAccounting) (io : CopyIO) :
    (b.flushAll io).ByteAccounting ↔ ¬b.array.SplitFlush io := by
  rw [← ArrayWriter.flush_counted_iff h.array io]
  exact ⟨fun h' => h'.array, fun h' => ⟨RowWriter.flush_counted h.string _ _, h',
    RowWriter.flush_counted h.json _ _, RowWriter.flush_counted h.image _ _⟩⟩

/-- The four byte-counted writers hold nothing. -/
def CountedBuffersEmpty (b : BatchWriter) : Prop :=
  b.string.buffer = [] ∧ b.array.isEmpty ∧ b.json.buffer = [] ∧ b.image.buffer = []

theorem takeFlushBundle_accounting_iff (h : b.ByteAccounting) :
    b.takeFlushBundle.2.ByteAccounting ↔ b.CountedBuffersEmpty := by
  have hstring := RowWriter.take_counted_iff StringRow.memSize_pos h.string
  have harray := ArrayWriter.take_counted_iff h.array
  have hjson := RowWriter.take_counted_iff JsonRow.memSize_pos h.json
  have himage := RowWriter.take_counted_iff ImageRow.memSize_pos h.image
  unfold takeFlushBundle
  split_ifs with hpending
  · constructor
    · intro h'
      exact ⟨hstring.1 h'.string, harray.1 h'.array, hjson.1 h'.json, himage.1 h'.image⟩
    · rintro ⟨h₁, h₂, h₃, h₄⟩
      exact ⟨hstring.2 h₁, harray.2 h₂, hjson.2 h₃, himage.2 h₄⟩
  · refine ⟨fun _ => ?_, fun _ => h⟩
    simp only [hasPending, not_or, not_not] at hpending
    exact ⟨hpending.2.1, hpending.2.2.1, hpending.2.2.2.1, hpending.2.2.2.2⟩

end BatchWriter

/-! ## Runs -/

/-- An operation on the batch writer. -/
inductive WriterOp where
  | ingestScalars (rows : List ScalarRow)
  | ingestOtherRows (rows : List WriterRow)
  | dispatchWithId (f : Formats) (u : PvUpdate) (pvId : Int32) (reason : StoreReason)
  | takeFlushBundle
  | discardAll
  | flushAll (io : CopyIO)

namespace WriterOp

/-- The operation carried out. -/
def apply (b : BatchWriter) : WriterOp → BatchWriter
  | ingestScalars rows => b.ingestScalars rows
  | ingestOtherRows rows => b.ingestOtherRows rows
  | dispatchWithId f u pvId reason => b.dispatchWithId f u pvId reason
  | takeFlushBundle => b.takeFlushBundle.2
  | discardAll => b.discardAll
  | flushAll io => b.flushAll io

/-- The operation does not take rows away behind a counter: a bundle is only taken
    while the four byte-counted buffers are empty, and no array flush stops between
    its two COPYs. -/
def RestoresCounters (b : BatchWriter) : WriterOp → Prop
  | takeFlushBundle => b.CountedBuffersEmpty
  | flushAll io => ¬b.array.SplitFlush io
  | _ => True

theorem apply_accounting_iff (b : BatchWriter) (op : WriterOp) (h : b.ByteAccounting) :
    (apply b op).ByteAccounting ↔ op.RestoresCounters b := by
  cases op with
  | ingestScalars rows =>
    refine iff_of_true ?_ trivial
    show (b.ingestScalars rows).ByteAccounting
    unfold BatchWriter.ingestScalars
    split_ifs
    · exact h
    · exact ⟨h.string, h.array, h.json, h.image⟩
  | ingestOtherRows rows =>
    have h' := BatchWriter.pushOthers_accounting h rows
    exact iff_of_true ⟨h'.string, h'.array, h'.json, h'.image⟩ trivial
  | dispatchWithId f u pvId reason =>
    exact iff_of_true (BatchWriter.dispatchWithId_accounting h f u pvId reason) trivial
  | takeFlushBundle => exact BatchWriter.takeFlushBundle_accounting_iff h
  | discardAll => exact iff_of_true ⟨rfl, rfl, rfl, rfl⟩ trivial
  | flushAll io => exact BatchWriter.flushAll_accounting_iff h io

end WriterOp

/-- A fresh batch writer, with the COPY pool distributed if there is one. -/
def BatchWriter.start (config : BatchWriterConfig) (pool : Option ℕ) : BatchWriter :=
  match pool with
  | none => .new config
  | some conns => (BatchWriter.new config).withPool conns

theorem BatchWriter.start_accounting (config : BatchWriterConfig) (pool : Option ℕ) :
    (BatchWriter.start config pool).ByteAccounting := by
  cases pool <;> exact ⟨rfl, rfl, rfl, rfl⟩

/-- **Main theorem**: along a run of the batch writer every byte counter equals the
    bytes buffered, and backpressure is honest, exactly when no step takes rows away
    behind a counter. -/
theorem byteAccounting_along_iff (config : BatchWriterConfig) (pool : Option ℕ)
    (ops : List WriterOp) :
    AlongStates WriterOp.apply (fun b => b.ByteAccounting ∧ b.HonestBackpressure)
        (.start config pool) ops ↔
      AlongSteps WriterOp.apply (fun b op => op.RestoresCounters b) (.start config pool) ops := by
  refine alongStates_iff_alongSteps (fun b op hb => ?_)
    ⟨BatchWriter.start_accounting config pool,
      (BatchWriter.start_accounting config pool).honestBackpressure⟩ ops
  rw [← WriterOp.apply_accounting_iff b op hb.1]
  exact ⟨fun h => h.1, fun h => ⟨h, h.honestBackpressure⟩⟩

/-- One string row and one bundle taken: the counter still says 40 bytes for an empty
    buffer. -/
theorem takeFlushBundle_keeps_counter :
    ¬AlongStates WriterOp.apply (fun b => b.ByteAccounting ∧ b.HonestBackpressure)
      (.start .default none)
      [.ingestOtherRows [.string ⟨.epoch, 1, "", 0, 0⟩], .takeFlushBundle] := by
  rintro ⟨-, -, h, -⟩
  have hstale : (40 : ℕ) = 0 := h.string
  omega

end AuraEpics.Store
