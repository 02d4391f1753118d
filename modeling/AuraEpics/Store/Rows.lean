import AuraEpics.Core.Normative

/-!
# Rows of the batch writers

Model of the row types of `crates/aura-store/src/writer` (`scalar.rs`,
`string.rs`, `array.rs`, `json.rs`, `image.rs`, `shared_buf.rs`) with the sizes
the writers account for, and of the six COPY builders of the JSON family
(`json.rs`, lines 416-740). A payload is the list of rows it carries; the bytes
are in `Store/CopyFormat.lean`. `usize` and `u64` counters are natural numbers.

Result: `JsonTable.build_rows`, a builder's payload has for every row of its table
the COPY rows that row expands to, which may be none.
-/

namespace AuraEpics.Store

open Numeric AuraEpics.Core AuraEpics.Types

/-- `PG_EPOCH_OFFSET_US` (copy_pool.rs, line 358). -/
def pgEpochOffsetUs : ℤ := 946684800 * 1000000

/-- `time.timestamp_micros() - PG_EPOCH_OFFSET_US`. -/
def pgMicros (time : DateTime) : Int64 := .ofInt (time.timestampMicros - pgEpochOffsetUs)

/-- `PushResult` (copy_pool.rs, lines 362-366). -/
inductive PushResult where
  | accepted
  | full
  | backpressureExceeded
  deriving DecidableEq, Repr

/-- `PushResult::is_accepted` (copy_pool.rs, lines 374-376). -/
def PushResult.isAccepted : PushResult → Bool
  | backpressureExceeded => false
  | _ => true

/-! ## Scalar, string, array and image rows -/

/-- `ScalarRow` (scalar.rs, lines 46-54). -/
structure ScalarRow where
  pgUs : Int64
  pvId : Int32
  value : Binary64
  severity : Int16
  status : Int16
  reason : Int16
  deriving DecidableEq, Repr

/-- `ScalarRow::new` (scalar.rs, lines 58-74). -/
def ScalarRow.new (time : DateTime) (pvId : Int32) (value : Binary64) (severity status : Int16)
    (reason : StoreReason) : ScalarRow :=
  ⟨pgMicros time, pvId, value, severity, status, reason.toI16⟩

/-- `ScalarRow::from_epoch` (scalar.rs, lines 77-95). -/
def ScalarRow.fromEpoch (seconds : Int64) (nanos : Int32) (pvId : Int32) (value : Binary64)
    (severity status : Int16) (reason : StoreReason) : ScalarRow :=
  ⟨seconds * 1000000 + (nanos / 1000).toInt64 - .ofInt pgEpochOffsetUs, pvId, value, severity, status,
    reason.toI16⟩

/-- `ROW_MEM_SIZE` (scalar.rs, line 35). -/
def scalarRowMemSize : ℕ := 32

/-- `StringRow` (string.rs, lines 43-49). -/
structure StringRow where
  time : DateTime
  pvId : Int32
  value : String
  severity : Int16
  status : Int16
  deriving DecidableEq, Repr

/-- `StringRow::from_epoch` (string.rs, lines 65-80). -/
def StringRow.fromEpoch (seconds : Int64) (nanos : Int32) (pvId : Int32) (value : String)
    (severity status : Int16) : StringRow :=
  ⟨(DateTime.fromTimestamp seconds.toInt nanos.toUInt32.toNat).getD .epoch, pvId, value, severity,
    status⟩

/-- `StringRow::mem_size` (string.rs, lines 93-95). -/
def StringRow.memSize (r : StringRow) : ℕ := 40 + r.value.utf8ByteSize

/-- `NUM_WIRE_SIZE` (array.rs, line 36). -/
def numWireSize : ℕ := 66

/-- `STR_WIRE_BASE` (array.rs, line 37). -/
def strWireBase : ℕ := 58

/-- `ArrayNumRow` (array.rs, lines 53-61). -/
structure ArrayNumRow where
  pgUs : Int64
  pvId : Int32
  arrayId : Int64
  idx : Int32
  value : Binary64
  severity : Int16
  status : Int16
  deriving DecidableEq, Repr

/-- `ArrayStrRow` (array.rs, lines 113-121). -/
structure ArrayStrRow where
  pgUs : Int64
  pvId : Int32
  arrayId : Int64
  idx : Int32
  value : String
  severity : Int16
  status : Int16
  deriving DecidableEq, Repr

/-- `ArrayStrRow::wire_size` (array.rs, lines 125-127). -/
def ArrayStrRow.wireSize (r : ArrayStrRow) : ℕ := strWireBase + r.value.utf8ByteSize

/-- `ArrayData` (array.rs, lines 159-162). -/
inductive ArrayData where
  | numeric (v : List Binary64)
  | string (v : List String)

/-- `ArrayCapture` (array.rs, lines 150-156). -/
structure ArrayCapture where
  time : DateTime
  pvId : Int32
  severity : Int16
  status : Int16
  data : ArrayData

namespace ArrayCapture

/-- `ArrayCapture::len` (array.rs, lines 165-170). -/
def len (c : ArrayCapture) : ℕ :=
  match c.data with
  | .numeric v => v.length
  | .string v => v.length

/-- `est_bytes` of `push` (array.rs, lines 238-241). -/
def estBytes (c : ArrayCapture) : ℕ :=
  match c.data with
  | .numeric v => v.length * numWireSize
  | .string v => (v.map fun s => strWireBase + s.utf8ByteSize).sum

end ArrayCapture

/-- `ImageRow` (image.rs, lines 26-38) without its `attributes`, which `ImageRow.attributes`
    gives: they are the same in every row the program builds. -/
structure ImageRow where
  time : DateTime
  pvId : Int32
  data : List UInt8
  codec : String
  compressedSize : Int64
  uncompressedSize : Int64
  dimensions : List Int32
  uniqueId : Int32
  severity : Int16
  status : Int16
  deriving DecidableEq, Repr

namespace ImageRow

/-- The `attributes` of a row, which `ImageRow::new` (line 63) makes the empty object. -/
def attributes (_ : ImageRow) : Json := .object []

/-- `ImageRow::mem_size` (image.rs, lines 116-118) with `ROW_OVERHEAD` (line 22). -/
def memSize (r : ImageRow) : ℕ :=
  200 + r.data.length + r.codec.utf8ByteSize + r.dimensions.length * 4

/-- `ImageRow::from_update` (image.rs, lines 70-112). -/
def fromUpdate (time : DateTime) (pvId : Int32) (nt : NormativeType) (severity status : Int16) :
    ImageRow :=
  match nt with
  | .ntNDArray img =>
    let data := match img.value with
      | .ubyteArray v => v
      | _ => []
    ⟨time, pvId, data, img.codecName, img.compressedSize, img.uncompressedSize,
      img.dimension.map Dimension.size, img.uniqueId, severity, status⟩
  | _ => ⟨time, pvId, [], "", 0, 0, [], 0, severity, status⟩

end ImageRow

/-! ## JSON rows -/

/-- `JsonData` (json.rs, lines 53-58). -/
inductive JsonData where
  | bytes (b : List UInt8)
  | parsed (v : Json)

namespace JsonData

/-- `JsonData::as_value` (json.rs, lines 70-75). -/
def asValue : JsonData → Option Json
  | parsed v => some v
  | bytes _ => none

/-- `JsonData::mem_size` (json.rs, lines 78-83). -/
def memSize : JsonData → ℕ
  | bytes b => 24 + b.length
  | parsed v => v.estimateJsonSize

end JsonData

/-- `JsonTable` (json.rs, lines 113-120). -/
inductive JsonTable where
  | table | custom | nameValue | histogram | continuum | multi
  deriving DecidableEq, Repr

/-- `JsonRow` (json.rs, lines 155-164); `estimated_size` is the function `memSize`. -/
structure JsonRow where
  time : DateTime
  pvId : Int32
  table : JsonTable
  data : JsonData
  ntType : Option String
  severity : Int16
  status : Int16

namespace JsonRow

/-- `estimated_size` as `JsonRow::create` computes it (json.rs, line 177). -/
def memSize (r : JsonRow) : ℕ :=
  64 + r.data.memSize + r.ntType.elim 0 fun s => 24 + s.utf8ByteSize

/-- The COPY row of a destructured JSON row in one of the four element tables, or
    the COPY row of a table or custom row. -/
inductive CopyRow where
  | table (pgUs : Int64) (pvId : Int32) (data : JsonData) (severity status : Int16)
  | custom (pgUs : Int64) (pvId : Int32) (ntType : String) (data : JsonData)
      (severity status : Int16)
  | nv (pgUs : Int64) (pvId : Int32) (captureId : Int64) (idx : Int16) (name : String)
      (value : Binary64) (severity status : Int16)
  | hist (pgUs : Int64) (pvId : Int32) (captureId : Int64) (idx : Int16) (range : Binary64)
      (count : Int64) (severity status : Int16)
  | cont (pgUs : Int64) (pvId : Int32) (captureId : Int64) (idx : Int16) (base trace : Binary64)
      (severity status : Int16)
  | mch (pgUs : Int64) (pvId : Int32) (captureId : Int64) (idx : Int16) (name : String)
      (value : Binary64) (chSeverity severity status : Int16)

/-- One pass of the `for row in rows` loop of a destructuring builder: `cols` finds
    the two arrays in the parsed tree and `mk` makes the COPY row of element `i`; a
    row without them is skipped. The loop `for i in 0..n` runs to the shorter
    length. -/
def destructure (cols : Json → Option (List Json × List Json))
    (mk : Json → ℕ → Json → Json → CopyRow) (r : JsonRow) : List CopyRow :=
  match r.data.asValue with
  | none => []
  | some v =>
    match cols v with
    | none => []
    | some (xs, ys) => (xs.zip ys).zipIdx.map fun p => mk v p.2 p.1.1 p.1.2

/-- The row `build_table_payload` writes (json.rs, lines 428-444). -/
def expandTable (r : JsonRow) : List CopyRow :=
  [.table (pgMicros r.time) r.pvId r.data r.severity r.status]

/-- The row `build_custom_payload` writes (json.rs, lines 462-481). -/
def expandCustom (r : JsonRow) : List CopyRow :=
  [.custom (pgMicros r.time) r.pvId (r.ntType.getD "Custom") r.data r.severity r.status]

/-- `names` and `values` of `build_nv_payload` (json.rs, lines 507-514). -/
def nvColumns (v : Json) : Option (List Json × List Json) := do
  let names ← v.arrayAt "name"
  let values ← v.arrayAt "value"
  return (names, values)

/-- The rows `build_nv_payload` writes for `r` (json.rs, lines 500-539). -/
def expandNv (cid : Int64) (r : JsonRow) : List CopyRow :=
  r.destructure nvColumns fun _ i name value =>
    .nv (pgMicros r.time) r.pvId cid (.ofNat i) (name.asStr.getD "") (value.asF64.getD .zero)
      r.severity r.status

/-- `ranges` and `counts` of `build_hist_payload` (json.rs, lines 568-579). -/
def histColumns (v : Json) : Option (List Json × List Json) := do
  let ranges ← v.arrayAt "ranges"
  let counts ← (v.arrayAt "value").or (v.arrayAt "counts")
  return (ranges, counts)

/-- The rows `build_hist_payload` writes for `r` (json.rs, lines 561-604). -/
def expandHist (cid : Int64) (r : JsonRow) : List CopyRow :=
  r.destructure histColumns fun _ i range count =>
    .hist (pgMicros r.time) r.pvId cid (.ofNat i) (range.asF64.getD .zero) (count.asI64.getD 0)
      r.severity r.status

/-- `base` and `values` of `build_cont_payload` (json.rs, lines 633-640). -/
def contColumns (v : Json) : Option (List Json × List Json) := do
  let base ← v.arrayAt "base"
  let values ← v.arrayAt "value"
  return (base, values)

/-- The rows `build_cont_payload` writes for `r` (json.rs, lines 626-665). -/
def expandCont (cid : Int64) (r : JsonRow) : List CopyRow :=
  r.destructure contColumns fun _ i base trace =>
    .cont (pgMicros r.time) r.pvId cid (.ofNat i) (base.asF64.getD .zero) (trace.asF64.getD .zero)
      r.severity r.status

/-- `names` and `values` of `build_mch_payload` (json.rs, lines 694-701). -/
def mchColumns (v : Json) : Option (List Json × List Json) := do
  let names ← v.arrayAt "channel_names"
  let values ← v.arrayAt "channel_values"
  return (names, values)

/-- The rows `build_mch_payload` writes for `r` (json.rs, lines 687-733). -/
def expandMch (cid : Int64) (r : JsonRow) : List CopyRow :=
  r.destructure mchColumns fun v i name value =>
    let chSev := (((v.arrayAt "severities").bind (·[i]?)).bind Json.asI64).getD 0
    .mch (pgMicros r.time) r.pvId cid (.ofNat i) (name.asStr.getD "") (value.asF64.getD .zero)
      chSev.toInt16 r.severity r.status

/-- The COPY rows of `r` in the table it belongs to, with the capture id `cid`. -/
def expand (cid : Int64) (r : JsonRow) : List CopyRow :=
  match r.table with
  | .table => r.expandTable
  | .custom => r.expandCustom
  | .nameValue => r.expandNv cid
  | .histogram => r.expandHist cid
  | .continuum => r.expandCont cid
  | .multi => r.expandMch cid

/-- Number of COPY rows row `r` expands to. -/
def copyRows (r : JsonRow) : ℕ := (r.expand 0).length

end JsonRow

open JsonRow (CopyRow)

/-- The `for row in rows` loop of a builder with its payload and the next value of
    `NEXT_CAPTURE_ID`; a destructuring builder draws an id before it looks at the
    row. -/
def expandRows (draws : Bool) (expand : Int64 → JsonRow → List CopyRow) :
    Int64 → List JsonRow → List CopyRow × Int64
  | cid, [] => ([], cid)
  | cid, r :: rs =>
    let (rest, cid') := expandRows draws expand (if draws then cid + 1 else cid) rs
    (expand cid r ++ rest, cid')

/-- The shape of the six builders: the payload for the rows of table `t`, `None`
    when it would be empty. -/
def buildPayload (t : JsonTable) (draws : Bool) (expand : Int64 → JsonRow → List CopyRow)
    (cid : Int64) (buffer : List JsonRow) : Option (List CopyRow) × Int64 :=
  let rows := buffer.filter fun r => r.table = t
  if rows = [] then (none, cid)
  else
    let (payload, cid') := expandRows draws expand cid rows
    if payload = [] then (none, cid') else (some payload, cid')

/-- `JsonWriter::build_table_payload` (json.rs, lines 416-448). -/
def buildTablePayload : Int64 → List JsonRow → Option (List CopyRow) × Int64 :=
  buildPayload .table false fun _ => JsonRow.expandTable

/-- `JsonWriter::build_custom_payload` (json.rs, lines 450-485). -/
def buildCustomPayload : Int64 → List JsonRow → Option (List CopyRow) × Int64 :=
  buildPayload .custom false fun _ => JsonRow.expandCustom

/-- `JsonWriter::build_nv_payload` (json.rs, lines 487-546). -/
def buildNvPayload : Int64 → List JsonRow → Option (List CopyRow) × Int64 :=
  buildPayload .nameValue true JsonRow.expandNv

/-- `JsonWriter::build_hist_payload` (json.rs, lines 548-611). -/
def buildHistPayload : Int64 → List JsonRow → Option (List CopyRow) × Int64 :=
  buildPayload .histogram true JsonRow.expandHist

/-- `JsonWriter::build_cont_payload` (json.rs, lines 613-672). -/
def buildContPayload : Int64 → List JsonRow → Option (List CopyRow) × Int64 :=
  buildPayload .continuum true JsonRow.expandCont

/-- `JsonWriter::build_mch_payload` (json.rs, lines 674-740). -/
def buildMchPayload : Int64 → List JsonRow → Option (List CopyRow) × Int64 :=
  buildPayload .multi true JsonRow.expandMch

/-- The builder the flush plan has for table `t` (mod.rs, lines 703-734). -/
def JsonTable.build : JsonTable → Int64 → List JsonRow → Option (List CopyRow) × Int64
  | table => buildTablePayload
  | custom => buildCustomPayload
  | nameValue => buildNvPayload
  | histogram => buildHistPayload
  | continuum => buildContPayload
  | multi => buildMchPayload

/-! ## Counting COPY rows -/

theorem JsonRow.length_destructure (cols : Json → Option (List Json × List Json))
    (mk : Json → ℕ → Json → Json → CopyRow) (r : JsonRow) :
    (r.destructure cols mk).length =
      ((r.data.asValue.bind cols).elim 0 fun p => min p.1.length p.2.length) := by
  unfold destructure
  cases r.data.asValue with
  | none => rfl
  | some v =>
    dsimp only [Option.bind_some]
    cases cols v with
    | none => rfl
    | some p => simp

/-- The number of COPY rows does not depend on the capture id. -/
theorem JsonRow.length_expand (cid : Int64) (r : JsonRow) : (r.expand cid).length = r.copyRows := by
  unfold copyRows expand
  cases r.table <;>
    simp only [expandNv, expandHist, expandCont, expandMch, length_destructure]

theorem length_expandRows (draws : Bool) (expand : Int64 → JsonRow → List CopyRow)
    (rows : List JsonRow) (h : ∀ r ∈ rows, ∀ cid, expand cid r = r.expand cid) (cid : Int64) :
    (expandRows draws expand cid rows).1.length = (rows.map JsonRow.copyRows).sum := by
  induction rows generalizing cid with
  | nil => rfl
  | cons r rs ih =>
    simp only [expandRows, List.length_append, h r List.mem_cons_self, JsonRow.length_expand,
      ih fun r' hr' => h r' (List.mem_cons_of_mem _ hr'), List.map_cons, List.sum_cons]

/-- COPY rows the buffer has for table `t`. -/
def tableCopyRows (t : JsonTable) (buffer : List JsonRow) : ℕ :=
  ((buffer.filter fun r => r.table = t).map JsonRow.copyRows).sum

theorem buildPayload_length (t : JsonTable) (draws : Bool)
    (expand : Int64 → JsonRow → List CopyRow)
    (h : ∀ r : JsonRow, r.table = t → ∀ cid, expand cid r = r.expand cid) (cid : Int64)
    (buffer : List JsonRow) :
    (((buildPayload t draws expand cid buffer).1).elim 0 List.length = tableCopyRows t buffer) ∧
      (buildPayload t draws expand cid buffer).1 ≠ some [] := by
  have hlen := length_expandRows draws expand (buffer.filter fun r => r.table = t)
    (fun r hr => h r (by simpa using (List.mem_filter.1 hr).2)) cid
  unfold buildPayload tableCopyRows
  dsimp only
  split_ifs with hrows hpayload
  · exact ⟨by rw [hrows]; rfl, by simp⟩
  · rw [hpayload] at hlen
    exact ⟨hlen, by simp⟩
  · exact ⟨hlen, by simpa using hpayload⟩

/-- The payload of a table has the COPY rows of the table's rows, and there is no
    payload when these expand to nothing. -/
theorem JsonTable.build_rows (t : JsonTable) (cid : Int64) (buffer : List JsonRow) :
    ((t.build cid buffer).1 = none ∧ tableCopyRows t buffer = 0) ∨
    ∃ payload, (t.build cid buffer).1 = some payload ∧
      payload.length = tableCopyRows t buffer ∧ 0 < tableCopyRows t buffer := by
  have hbuild : ((t.build cid buffer).1.elim 0 List.length = tableCopyRows t buffer) ∧
      (t.build cid buffer).1 ≠ some [] := by
    cases t <;> refine buildPayload_length _ _ _ (fun r hr cid => ?_) cid buffer <;>
      simp only [JsonRow.expand, hr]
  cases hp : (t.build cid buffer).1 with
  | none =>
    rw [hp] at hbuild
    exact .inl ⟨rfl, hbuild.1.symm⟩
  | some payload =>
    rw [hp] at hbuild
    refine .inr ⟨payload, rfl, hbuild.1, ?_⟩
    rw [← hbuild.1]
    exact List.length_pos_of_ne_nil fun hnil => hbuild.2 (by rw [hnil])

/-- `WriterRow` (shared_buf.rs, lines 16-21). -/
inductive WriterRow where
  | string (r : StringRow)
  | array (r : ArrayCapture)
  | json (r : JsonRow)
  | image (r : ImageRow)

/-- The `pv_id` of a row. -/
def WriterRow.pvId : WriterRow → Int32
  | string r => r.pvId
  | array r => r.pvId
  | json r => r.pvId
  | image r => r.pvId

end AuraEpics.Store
