import AuraEpics.Store.Rows
import AuraEpics.Lib.Chunks
import AuraEpics.Lib.Stoppable

/-!
# Batch writers

Model of the five writers of `crates/aura-store/src/writer` and of the
`BatchWriter` that owns them (`mod.rs`, lines 71-383 and 881-903). What a COPY
answers is an input (`CopyIO`); timing counters are left out. The PV cache is an
input as well: an update is dispatched with the id its name resolved to.
-/

namespace AuraEpics.Store

open Numeric AuraEpics.Core AuraEpics.Types

/-! ## COPY -/

/-- `CopyError` (copy_pool.rs, lines 31-34). -/
structure CopyError where
  message : String
  transient : Bool
  deriving DecidableEq, Repr

namespace CopyError

/-- `CopyError::pool_empty` (copy_pool.rs, lines 38-43). -/
def poolEmpty : CopyError := ⟨"CopyPool is empty — no COPY connections established", false⟩

/-- The `Display` text (copy_pool.rs, lines 53-65). -/
def display (e : CopyError) : String :=
  let kind := if e.transient then "transient" else "permanent"
  s!"{e.message} [{kind}]"

end CopyError

/-- The table a COPY statement writes to. -/
inductive CopyTarget where
  | samples | string | arrayNum | arrayStr
  | json (t : JsonTable)
  | image
  deriving DecidableEq, Repr

/-- What the `i`-th COPY into a table during one flush comes to: it commits, fails,
    or is still pending when the flush is panicked, aborted or dropped (`none`). -/
def CopyIO := CopyTarget → ℕ → Option (Except CopyError Unit)

/-- `CopyPool::send_copy_classified` (copy_pool.rs, lines 156-180) on a pool of
    `conns` connections. -/
def sendCopyClassified (conns : ℕ) (io : CopyIO) (target : CopyTarget) (i : ℕ) :
    Option (Except CopyError Unit) :=
  if conns = 0 then some (.error .poolEmpty) else io target i

/-- `CopyPool::send_parallel` (copy_pool.rs, lines 252-263) of `n` payloads: all of
    them are awaited, the first error wins. -/
def sendParallel (conns : ℕ) (io : CopyIO) (target : CopyTarget) (n : ℕ) :
    Option (Except CopyError Unit) := do
  let results ← (List.range n).mapM fun i => sendCopyClassified conns io target i
  return results.foldr (fun r rest => match r with
    | .error e => .error e
    | .ok () => rest) (.ok ())

/-- `PARALLEL_THRESHOLD` (string.rs, line 35, array.rs, line 39, scalar.rs, line 273
    and mod.rs, line 632). -/
def parallelThreshold : ℕ := 10000

/-- `count.div_ceil(n)`. -/
def divCeil (count n : ℕ) : ℕ := (count + n - 1) / n

/-- How `ScalarWriter::flush`, `StringWriter::flush` and the numeric part of
    `ArrayWriter::flush` send their rows: in parallel chunks from the threshold on. -/
def sendRows {ρ : Type} (io : CopyIO) (target : CopyTarget) (conns : ℕ) (rows : List ρ) :
    Option (Except CopyError Unit) :=
  if parallelThreshold ≤ rows.length ∧ 1 < conns then
    sendParallel conns io target (Chunks.chunks (divCeil rows.length conns) rows).length
  else sendCopyClassified conns io target 0

/-! ## Writers with one byte-counted buffer -/

/-- The fields `StringWriter`, `JsonWriter` and `ImageWriter` have in common
    (string.rs, lines 143-156, json.rs, lines 304-316, image.rs, lines 137-148). -/
structure RowWriter (ρ : Type) where
  batchSize : ℕ
  maxBufferBytes : ℕ
  buffer : List ρ
  currentBytes : ℕ
  copyPool : Option ℕ
  totalWritten : ℕ
  totalFlushes : ℕ
  totalBackpressure : ℕ

namespace RowWriter

variable {ρ : Type}

/-- `with_limits`, with the writer's own lower bound for the limit. -/
def withLimits (floor batchSize maxBufferBytes : ℕ) : RowWriter ρ where
  batchSize := max batchSize 1
  maxBufferBytes := max maxBufferBytes floor
  buffer := []
  currentBytes := 0
  copyPool := none
  totalWritten := 0
  totalFlushes := 0
  totalBackpressure := 0

/-- `push` (string.rs, lines 189-205, json.rs, lines 348-361, image.rs,
    lines 179-195). -/
def push (size : ρ → ℕ) (w : RowWriter ρ) (row : ρ) : PushResult × RowWriter ρ :=
  if w.buffer ≠ [] ∧ w.maxBufferBytes < w.currentBytes + size row then
    (.backpressureExceeded, { w with totalBackpressure := w.totalBackpressure + 1 })
  else
    let w := { w with currentBytes := w.currentBytes + size row, buffer := w.buffer ++ [row] }
    (if w.batchSize ≤ w.buffer.length then .full else .accepted, w)

/-- `flush` (string.rs, lines 208-248, json.rs, lines 364-414, image.rs,
    lines 197-219): nothing changes unless every COPY it sends commits. -/
def flush (name : String) (send : ℕ → List ρ → Option (Except CopyError Unit)) :
    Stoppable (RowWriter ρ) (Except String ℕ) := fun w =>
  if w.buffer = [] then (some (.ok 0), w)
  else
    match w.copyPool with
    | none => (some (.error (name ++ ": no copy pool configured")), w)
    | some conns =>
      match send conns w.buffer with
      | none => (none, w)
      | some (.error e) => (some (.error e.message), w)
      | some (.ok ()) =>
        let count := w.buffer.length
        (some (.ok count), { w with
          totalWritten := w.totalWritten + count
          totalFlushes := w.totalFlushes + 1
          buffer := []
          currentBytes := 0 })

/-- `discard` (string.rs, lines 330-333, json.rs, lines 794-797, image.rs,
    lines 347-350). -/
def discard (w : RowWriter ρ) : RowWriter ρ := { w with buffer := [], currentBytes := 0 }

/-- `is_full`. -/
def isFull (w : RowWriter ρ) : Bool := w.batchSize ≤ w.buffer.length

end RowWriter

/-- `StringWriter` (string.rs, lines 143-156). -/
abbrev StringWriter := RowWriter StringRow

/-- `JsonWriter` (json.rs, lines 304-316). -/
abbrev JsonWriter := RowWriter JsonRow

/-- `ImageWriter` (image.rs, lines 137-148), without the byte total for statistics. -/
abbrev ImageWriter := RowWriter ImageRow

namespace StringWriter

/-- `StringWriter::new` (string.rs, lines 159-161) with the default limit (line 29). -/
def new (batchSize : ℕ) : StringWriter := .withLimits 1024 batchSize (32 * 1024 * 1024)

/-- `StringWriter::push`. -/
def push (w : StringWriter) (row : StringRow) : PushResult × StringWriter :=
  RowWriter.push StringRow.memSize w row

/-- `StringWriter::flush`. -/
def flush (io : CopyIO) : Stoppable StringWriter (Except String ℕ) :=
  RowWriter.flush "StringWriter" fun conns rows => sendRows io .string conns rows

end StringWriter

namespace JsonWriter

/-- `JsonWriter::new` (json.rs, lines 319-321) with the default limit (line 36). -/
def new (batchSize : ℕ) : JsonWriter := .withLimits 64 batchSize (32 * 1024 * 1024)

/-- `JsonWriter::push`. -/
def push (w : JsonWriter) (row : JsonRow) : PushResult × JsonWriter :=
  RowWriter.push JsonRow.memSize w row

/-- The six COPYs of `JsonWriter::flush` (json.rs, lines 376-406), one after another
    for the tables that have a payload; which tables have one does not depend on the
    capture ids. -/
def sendTables (io : CopyIO) (conns : ℕ) (rows : List JsonRow) :
    List JsonTable → Option (Except CopyError Unit)
  | [] => some (.ok ())
  | t :: ts =>
    match (t.build 0 rows).1 with
    | none => sendTables io conns rows ts
    | some _ =>
      match sendCopyClassified conns io (.json t) 0 with
      | some (.ok ()) => sendTables io conns rows ts
      | r => r

/-- `JsonWriter::flush`. -/
def flush (io : CopyIO) : Stoppable JsonWriter (Except String ℕ) :=
  RowWriter.flush "JsonWriter" fun conns rows =>
    sendTables io conns rows [.table, .custom, .nameValue, .histogram, .continuum, .multi]

end JsonWriter

namespace ImageWriter

/-- `ImageWriter::new` (image.rs, lines 151-153) with the default limit (line 19). -/
def new (batchSize : ℕ) : ImageWriter := .withLimits 1024 batchSize (128 * 1024 * 1024)

/-- `ImageWriter::push`. -/
def push (w : ImageWriter) (row : ImageRow) : PushResult × ImageWriter :=
  RowWriter.push ImageRow.memSize w row

/-- `ImageWriter::flush`. -/
def flush (io : CopyIO) : Stoppable ImageWriter (Except String ℕ) :=
  RowWriter.flush "ImageWriter" fun conns _ => sendCopyClassified conns io .image 0

end ImageWriter

/-! ## Scalar writer -/

/-- `ScalarWriter` (scalar.rs, lines 191-205). It has no byte counter: rows have one
    size. -/
structure ScalarWriter where
  batchSize : ℕ
  maxBufferBytes : ℕ
  buffer : List ScalarRow
  copyPool : Option ℕ
  totalWritten : ℕ
  totalFlushes : ℕ
  totalBackpressure : ℕ

namespace ScalarWriter

/-- `ScalarWriter::new` (scalar.rs, lines 208-228) with the default limit (line 32). -/
def new (batchSize : ℕ) : ScalarWriter where
  batchSize := max batchSize 1
  maxBufferBytes := max (64 * 1024 * 1024) scalarRowMemSize
  buffer := []
  copyPool := none
  totalWritten := 0
  totalFlushes := 0
  totalBackpressure := 0

/-- `ScalarWriter::push` (scalar.rs, lines 240-258). -/
def push (w : ScalarWriter) (row : ScalarRow) : PushResult × ScalarWriter :=
  if w.buffer ≠ [] ∧ w.maxBufferBytes < w.buffer.length * scalarRowMemSize + scalarRowMemSize then
    (.backpressureExceeded, { w with totalBackpressure := w.totalBackpressure + 1 })
  else
    let w := { w with buffer := w.buffer ++ [row] }
    (if w.batchSize ≤ w.buffer.length then .full else .accepted, w)

/-- `ScalarWriter::flush` (scalar.rs, lines 261-305). -/
def flush (io : CopyIO) : Stoppable ScalarWriter (Except String ℕ) := fun w =>
  if w.buffer = [] then (some (.ok 0), w)
  else
    match w.copyPool with
    | none => (some (.error "ScalarWriter: no copy pool configured"), w)
    | some conns =>
      match sendRows io .samples conns w.buffer with
      | none => (none, w)
      | some (.error e) => (some (.error e.message), w)
      | some (.ok ()) =>
        let count := w.buffer.length
        (some (.ok count), { w with
          totalWritten := w.totalWritten + count
          totalFlushes := w.totalFlushes + 1
          buffer := [] })

/-- `ScalarWriter::discard` (scalar.rs, lines 421-423). -/
def discard (w : ScalarWriter) : ScalarWriter := { w with buffer := [] }

/-- `ScalarWriter::is_full` (scalar.rs, lines 345-347). -/
def isFull (w : ScalarWriter) : Bool := w.batchSize ≤ w.buffer.length

end ScalarWriter

/-! ## Array writer -/

/-- `ArrayWriter` (array.rs, lines 180-197). `nextArrayId` is the process-wide
    `NEXT_ARRAY_ID` (line 45), which only this writer draws from. -/
structure ArrayWriter where
  batchSize : ℕ
  maxBufferBytes : ℕ
  numBuffer : List ArrayNumRow
  strBuffer : List ArrayStrRow
  currentBytes : ℕ
  copyPool : Option ℕ
  nextArrayId : Int64
  totalWritten : ℕ
  totalCaptures : ℕ
  totalElements : ℕ
  totalFlushes : ℕ
  totalBackpressure : ℕ

namespace ArrayWriter

/-- `ArrayWriter::new` (array.rs, lines 200-222) with the default limit (line 35). -/
def new (batchSize : ℕ) : ArrayWriter where
  batchSize := max batchSize 1
  maxBufferBytes := max (64 * 1024 * 1024) 1024
  numBuffer := []
  strBuffer := []
  currentBytes := 0
  copyPool := none
  nextArrayId := 1
  totalWritten := 0
  totalCaptures := 0
  totalElements := 0
  totalFlushes := 0
  totalBackpressure := 0

/-- `ArrayWriter::len` (array.rs, lines 380-382). -/
def len (w : ArrayWriter) : ℕ := w.numBuffer.length + w.strBuffer.length

/-- `ArrayWriter::is_empty` (array.rs, lines 384-386). -/
def isEmpty (w : ArrayWriter) : Prop := w.numBuffer = [] ∧ w.strBuffer = []

instance (w : ArrayWriter) : Decidable w.isEmpty := by unfold isEmpty; infer_instance

/-- The rows `push` makes of a numeric capture (array.rs, lines 259-270). -/
def numRows (c : ArrayCapture) (aid : Int64) (values : List Binary64) : List ArrayNumRow :=
  values.zipIdx.map fun p =>
    ⟨pgMicros c.time, c.pvId, aid, .ofNat p.2, p.1, c.severity, c.status⟩

/-- The rows `push` makes of a string capture (array.rs, lines 273-284). -/
def strRows (c : ArrayCapture) (aid : Int64) (values : List String) : List ArrayStrRow :=
  values.zipIdx.map fun p =>
    ⟨pgMicros c.time, c.pvId, aid, .ofNat p.2, p.1, c.severity, c.status⟩

/-- `ArrayWriter::push` (array.rs, lines 232-292). An empty capture is accepted
    without a trace. -/
def push (w : ArrayWriter) (c : ArrayCapture) : PushResult × ArrayWriter :=
  if c.len = 0 then (.accepted, w)
  else if ¬w.isEmpty ∧ w.maxBufferBytes < w.currentBytes + c.estBytes then
    (.backpressureExceeded, { w with totalBackpressure := w.totalBackpressure + 1 })
  else
    let aid := w.nextArrayId
    let w := { w with
      nextArrayId := w.nextArrayId + 1
      currentBytes := w.currentBytes + c.estBytes
      totalCaptures := w.totalCaptures + 1
      totalElements := w.totalElements + c.len }
    let w : ArrayWriter := match c.data with
      | .numeric values => { w with numBuffer := w.numBuffer ++ numRows c aid values }
      | .string values => { w with strBuffer := w.strBuffer ++ strRows c aid values }
    (if w.batchSize ≤ w.len then .full else .accepted, w)

/-- The numeric part of `flush` (array.rs, lines 307-335): the buffer is cleared as
    soon as its COPY has committed. -/
def flushNum (io : CopyIO) (conns : ℕ) : Stoppable ArrayWriter (Except String ℕ) := fun w =>
  if w.numBuffer = [] then (some (.ok 0), w)
  else
    match sendRows io .arrayNum conns w.numBuffer with
    | none => (none, w)
    | some (.error e) => (some (.error e.message), w)
    | some (.ok ()) => (some (.ok w.numBuffer.length), { w with numBuffer := [] })

/-- The string part of `flush` (array.rs, lines 337-346). -/
def flushStr (io : CopyIO) (conns : ℕ) : Stoppable ArrayWriter (Except String ℕ) := fun w =>
  if w.strBuffer = [] then (some (.ok 0), w)
  else
    match sendCopyClassified conns io .arrayStr 0 with
    | none => (none, w)
    | some (.error e) => (some (.error e.message), w)
    | some (.ok ()) => (some (.ok w.strBuffer.length), { w with strBuffer := [] })

/-- `ArrayWriter::flush` (array.rs, lines 294-352): numbers first, then strings; the
    byte counter is reset at the end. -/
def flush (io : CopyIO) : Stoppable ArrayWriter (Except String ℕ) := do
  let w ← Stoppable.get
  if w.isEmpty then return .ok 0
  match w.copyPool with
  | none => return .error "ArrayWriter: no copy pool configured"
  | some conns =>
    match ← flushNum io conns with
    | .error e => return .error e
    | .ok n =>
      match ← flushStr io conns with
      | .error e => return .error e
      | .ok k =>
        Stoppable.modify fun w => { w with
          totalWritten := w.totalWritten + (n + k)
          totalFlushes := w.totalFlushes + 1
          currentBytes := 0 }
        return .ok (n + k)

/-- `ArrayWriter::discard` (array.rs, lines 435-439). -/
def discard (w : ArrayWriter) : ArrayWriter :=
  { w with numBuffer := [], strBuffer := [], currentBytes := 0 }

/-- `ArrayWriter::is_full` (array.rs, lines 388-390). -/
def isFull (w : ArrayWriter) : Bool := w.batchSize ≤ w.len

end ArrayWriter

/-! ## Batch writer -/

/-- `BatchWriterConfig` (mod.rs, lines 71-77). -/
structure BatchWriterConfig where
  scalarBatchSize : ℕ
  stringBatchSize : ℕ
  arrayBatchSize : ℕ
  jsonBatchSize : ℕ
  imageBatchSize : ℕ

/-- `BatchWriterConfig::default` (mod.rs, lines 79-89). -/
def BatchWriterConfig.default : BatchWriterConfig := ⟨500, 500, 200, 200, 50⟩

/-- `BatchWriter` (mod.rs, lines 94-104); `copyPool` is the number of connections. -/
structure BatchWriter where
  scalar : ScalarWriter
  string : StringWriter
  array : ArrayWriter
  json : JsonWriter
  image : ImageWriter
  copyPool : ℕ
  totalDispatched : ℕ
  totalErrors : ℕ

/-- `FlushBundle` (mod.rs, lines 491-499). -/
structure FlushBundle where
  scalarRows : List ScalarRow
  stringRows : List StringRow
  arrayNumRows : List ArrayNumRow
  arrayStrRows : List ArrayStrRow
  jsonRows : List JsonRow
  imageRows : List ImageRow
  pool : ℕ

/-- What `serde_json` and `{:?}` make of a value; both are outside the repository. -/
structure Formats where
  toVec : NormativeType → Except String (List UInt8)
  toValue : NormativeType → Except String Json
  debugScalar : ScalarValue → String

/-- A row on its way into one of the five buffers. -/
inductive StoredRow where
  | scalar (r : ScalarRow)
  | other (r : WriterRow)

/-- The `pv_id` of a row. -/
def StoredRow.pvId : StoredRow → Int32
  | scalar r => r.pvId
  | other r => r.pvId

namespace BatchWriter

/-- `BatchWriter::new` (mod.rs, lines 107-119). -/
def new (config : BatchWriterConfig) : BatchWriter where
  scalar := .new config.scalarBatchSize
  string := .new config.stringBatchSize
  array := .new config.arrayBatchSize
  json := .new config.jsonBatchSize
  image := .new config.imageBatchSize
  copyPool := 0
  totalDispatched := 0
  totalErrors := 0

/-- `Pipeline::add_copy_connection` called `conns` times and
    `Pipeline::finalize_copy_pool` (pipeline.rs, lines 187-199). -/
def withPool (conns : ℕ) (b : BatchWriter) : BatchWriter := { b with
  copyPool := conns
  scalar := { b.scalar with copyPool := some conns }
  string := { b.string with copyPool := some conns }
  array := { b.array with copyPool := some conns }
  json := { b.json with copyPool := some conns }
  image := { b.image with copyPool := some conns } }

/-- The push of one row of `ingest_other_rows` (mod.rs, lines 155-170). -/
def pushOther (b : BatchWriter) : WriterRow → PushResult × BatchWriter
  | .string r => let (p, w) := b.string.push r; (p, { b with string := w })
  | .array r => let (p, w) := b.array.push r; (p, { b with array := w })
  | .json r => let (p, w) := b.json.push r; (p, { b with json := w })
  | .image r => let (p, w) := b.image.push r; (p, { b with image := w })

/-- The push of the row `dispatch_with_id` has made. -/
def pushRow (b : BatchWriter) : StoredRow → PushResult × BatchWriter
  | .scalar r => let (p, w) := b.scalar.push r; (p, { b with scalar := w })
  | .other r => b.pushOther r

/-- `BatchWriter::ingest_scalars` (mod.rs, lines 141-150): no limit applies. -/
def ingestScalars (b : BatchWriter) (rows : List ScalarRow) : BatchWriter :=
  if rows = [] then b
  else { b with
    scalar := { b.scalar with buffer := b.scalar.buffer ++ rows }
    totalDispatched := b.totalDispatched + rows.length }

/-- The rows pushed one after another, whatever the pushes answer. -/
def pushOthers (b : BatchWriter) (rows : List WriterRow) : BatchWriter :=
  rows.foldl (fun b r => (b.pushOther r).2) b

/-- `BatchWriter::ingest_other_rows` (mod.rs, lines 153-173). -/
def ingestOtherRows (b : BatchWriter) (rows : List WriterRow) : BatchWriter :=
  let b := b.pushOthers rows
  { b with totalDispatched := b.totalDispatched + rows.length }

/-- `extract_string` (mod.rs, lines 881-889). -/
def extractString (f : Formats) : NormativeType → String
  | .ntScalar s =>
    match s.value with
    | .string v => v
    | other => f.debugScalar other
  | _ => ""

/-- `extract_array_f64` (mod.rs, lines 891-896). -/
def extractArrayF64 : NormativeType → List Binary64
  | .ntScalarArray a => a.value.asF64Vec.getD []
  | _ => []

/-- `extract_matrix` (mod.rs, lines 898-903); the dimensions are not stored. -/
def extractMatrix : NormativeType → List Binary64
  | .ntMatrix m => m.value
  | _ => []

/-- The JSON row for a value of the JSON family (mod.rs, lines 268-315). -/
def jsonRow (f : Formats) (u : PvUpdate) (pvId : Int32) : Except String JsonRow :=
  let row (t : JsonTable) (data : JsonData) (ntType : Option String) : JsonRow :=
    ⟨u.timestamp, pvId, t, data, ntType, u.severity, u.status⟩
  match u.dataType with
  | .table => do return row .table (.bytes (← f.toVec u.data)) none
  | .histogram => do return row .histogram (.parsed (← f.toValue u.data)) none
  | .continuum => do return row .continuum (.parsed (← f.toValue u.data)) none
  | .nameValue => do return row .nameValue (.parsed (← f.toValue u.data)) none
  | .multiChannel => do return row .multi (.parsed (← f.toValue u.data)) none
  | _ => do return row .custom (.bytes (← f.toVec u.data)) (some u.data.typeName)

/-- The row `dispatch_with_id` makes of an update (mod.rs, lines 214-315). The first
    case is the fast path, which takes every `NTScalar`. -/
def rowOf (f : Formats) (u : PvUpdate) (pvId : Int32) (reason : StoreReason) :
    Except String StoredRow :=
  match u.data with
  | .ntScalar nt =>
    .ok (.scalar (.new nt.timestamp.toDatetime pvId (nt.value.asF64.getD .zero)
      nt.alarm.severity.toI16 nt.alarm.status.toI16 reason))
  | data =>
    match u.dataType with
    | .scalar | .aggregate =>
      .ok (.scalar (.new u.timestamp pvId (u.asF64.getD .zero) u.severity u.status reason))
    | .string =>
      .ok (.other (.string ⟨u.timestamp, pvId, extractString f data, u.severity, u.status⟩))
    | .array =>
      .ok (.other (.array
        ⟨u.timestamp, pvId, u.severity, u.status, .numeric (extractArrayF64 data)⟩))
    | .matrix =>
      .ok (.other (.array ⟨u.timestamp, pvId, u.severity, u.status, .numeric (extractMatrix data)⟩))
    | .image => .ok (.other (.image (.fromUpdate u.timestamp pvId data u.severity u.status)))
    | _ => do return .other (.json (← jsonRow f u pvId))

/-- `BatchWriter::dispatch_with_id` (mod.rs, lines 206-323); whether a writer is full
    is not used by the store loop and is not returned. -/
def dispatchWithId (f : Formats) (u : PvUpdate) (pvId : Int32) (reason : StoreReason)
    (b : BatchWriter) : BatchWriter :=
  let b := { b with totalDispatched := b.totalDispatched + 1 }
  match rowOf f u pvId reason with
  | .ok row => (b.pushRow row).2
  | .error _ => { b with totalErrors := b.totalErrors + 1 }

/-- `BatchWriter::flush_all` (mod.rs, lines 326-341). `try_join!` drops the flushes
    that are still pending when one fails: their COPYs are `none` in `io`. -/
def flushAll (io : CopyIO) (b : BatchWriter) : BatchWriter := { b with
  scalar := (ScalarWriter.flush io b.scalar).2
  string := (StringWriter.flush io b.string).2
  array := (ArrayWriter.flush io b.array).2
  json := (JsonWriter.flush io b.json).2
  image := (ImageWriter.flush io b.image).2 }

/-- `BatchWriter::has_pending` (mod.rs, lines 377-383). -/
def hasPending (b : BatchWriter) : Prop :=
  b.scalar.buffer ≠ [] ∨ b.string.buffer ≠ [] ∨ ¬b.array.isEmpty ∨ b.json.buffer ≠ [] ∨
    b.image.buffer ≠ []

instance (b : BatchWriter) : Decidable b.hasPending := by unfold hasPending; infer_instance

/-- `BatchWriter::take_flush_bundle` (mod.rs, lines 344-358): the six buffers are
    moved out. -/
def takeFlushBundle (b : BatchWriter) : Option FlushBundle × BatchWriter :=
  if b.hasPending then
    (some ⟨b.scalar.buffer, b.string.buffer, b.array.numBuffer, b.array.strBuffer, b.json.buffer,
      b.image.buffer, b.copyPool⟩,
    { b with
      scalar := { b.scalar with buffer := [] }
      string := { b.string with buffer := [] }
      array := { b.array with numBuffer := [], strBuffer := [] }
      json := { b.json with buffer := [] }
      image := { b.image with buffer := [] } })
  else (none, b)

/-- `BatchWriter::discard_all` (mod.rs, lines 361-367). -/
def discardAll (b : BatchWriter) : BatchWriter := { b with
  scalar := b.scalar.discard
  string := b.string.discard
  array := b.array.discard
  json := b.json.discard
  image := b.image.discard }

/-- `BatchWriter::total_buffered` (mod.rs, lines 369-375). -/
def totalBuffered (b : BatchWriter) : ℕ :=
  b.scalar.buffer.length + b.string.buffer.length + b.array.len + b.json.buffer.length +
    b.image.buffer.length

/-- `Pipeline::any_writer_full` (pipeline.rs, lines 122-128). -/
def anyWriterFull (b : BatchWriter) : Bool :=
  b.scalar.isFull || b.string.isFull || b.array.isFull || b.json.isFull || b.image.isFull

end BatchWriter

end AuraEpics.Store
