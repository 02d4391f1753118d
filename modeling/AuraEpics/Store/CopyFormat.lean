import AuraEpics.Lib.PgCopy
import AuraEpics.Store.Rows

/-!
# The COPY payloads

Model of the builders of `crates/aura-store/src/writer` that write the bytes of a binary COPY:
`scalar.rs` (lines 128-173, 308-330), `array.rs` (lines 63-147, 354-377), `string.rs` (lines 98-115,
251-263), `image.rs` (lines 221-297) and the two of `json.rs` that write documents (lines 416-485).

* The rows without a variable column are written over a template at fixed offsets;
  `copy_from_slice` panics unless the lengths agree, which is `none`.
* The others are appended column by column. `serde_json::to_vec` is a parameter `toVec`.
* `values` are the columns of a row in the order of the `COPY` statement.

Result: `payloads_read`, every payload is read as exactly its rows by the grammar of
`Lib/PgCopy.lean`. A field of 2^31 bytes or more has no length that fits the format; the version
byte of a `jsonb` and the dimensions of an array count as data of their fields.
-/

namespace AuraEpics.Store

open Numeric AuraEpics.Core
open PgCopy (Value ColumnType beI16 beI32 beI64 beF64 encodeTuple tupleOf readCopy)

/-- `PGCOPY_HEADER` (copy_pool.rs, lines 348-352). -/
def pgcopyHeader : List UInt8 :=
  [0x50, 0x47, 0x43, 0x4F, 0x50, 0x59, 0x0A, 0xFF, 0x0D, 0x0A, 0x00, 0, 0, 0, 0, 0, 0, 0, 0]

/-- `PGCOPY_TRAILER` (copy_pool.rs, line 355). -/
def pgcopyTrailer : List UInt8 := [0xFF, 0xFF]

/-- `buf[lo..hi].copy_from_slice(src)`; `none` is a panic. -/
def copyFromSlice (buf : List UInt8) (lo hi : ℕ) (src : List UInt8) : Option (List UInt8) :=
  if hi ≤ buf.length ∧ lo + src.length = hi then some (buf.take lo ++ (src ++ buf.drop hi))
  else none

/-- `str::as_bytes`. -/
def asBytes (s : String) : List UInt8 := s.toByteArray.data.toList

theorem copyFromSlice_append (front old back src : List UInt8) (h : old.length = src.length) :
    copyFromSlice (front ++ (old ++ back)) front.length (front.length + src.length) src =
      some (front ++ (src ++ back)) := by
  unfold copyFromSlice
  rw [if_pos ⟨by simp only [List.length_append]; omega, rfl⟩, List.take_left, ← h,
    List.drop_append, List.drop_eq_nil_of_le (by omega), Nat.add_sub_cancel_left, List.drop_left]
  rfl

/-! ## Templates -/

/-- Writes the data of the fields that start at `off` one after the other, each behind its
    length of four bytes. -/
def fill : List UInt8 → ℕ → List (List UInt8) → Option (List UInt8)
  | out, _, [] => some out
  | out, off, d :: ds => do
    let out ← copyFromSlice out (off + 4) (off + 4 + d.length) d
    fill out (off + 4 + d.length) ds

/-- The fields of a row with zeros for the data. -/
def blankFields (row : List Value) : List UInt8 :=
  row.flatMap fun v => beI32 (.ofNat v.bytes.length) ++ List.replicate v.bytes.length 0

theorem fill_blankFields (front : List UInt8) (row : List Value) :
    fill (front ++ blankFields row) front.length (row.map Value.bytes) =
      some (front ++ row.flatMap fun v => PgCopy.encodeField (some v.bytes)) := by
  induction row generalizing front with
  | nil => rfl
  | cons v row ih =>
    have hlen : (front ++ beI32 (.ofNat v.bytes.length)).length = front.length + 4 := by
      rw [List.length_append, PgCopy.length_beI32]
    have hwrite := copyFromSlice_append (front ++ beI32 (.ofNat v.bytes.length))
      (List.replicate v.bytes.length 0) (blankFields row) v.bytes List.length_replicate
    have hnext := ih (front ++ beI32 (.ofNat v.bytes.length) ++ v.bytes)
    rw [hlen] at hwrite
    rw [List.length_append, hlen] at hnext
    have hblank : front ++ blankFields (v :: row) = front ++ beI32 (.ofNat v.bytes.length) ++
        (List.replicate v.bytes.length 0 ++ blankFields row) := by
      unfold blankFields
      rw [List.flatMap_cons]
      simp only [List.append_assoc]
    rw [hblank, List.map_cons, fill, hwrite, Option.bind_eq_bind, Option.bind_some,
      ← List.append_assoc, hnext, List.flatMap_cons, PgCopy.encodeField_some]
    simp only [List.append_assoc]

theorem fill_template {t : List UInt8} {row : List Value}
    (h : t = beBytes 2 row.length ++ blankFields row) :
    fill t 2 (row.map Value.bytes) = some (encodeTuple (tupleOf row)) := by
  have hfill := fill_blankFields (beBytes 2 row.length) row
  rw [← h, length_beBytes] at hfill
  rw [hfill, PgCopy.encodeTuple_tupleOf]

/-! ## Payloads -/

theorem encodeRows_eq (rows : List (List Value)) :
    PgCopy.encodeRows rows =
      pgcopyHeader ++ (rows.flatMap fun row => encodeTuple (tupleOf row)) ++ pgcopyTrailer := by
  unfold PgCopy.encodeRows PgCopy.encode
  rw [List.flatMap_map, List.append_assoc]
  rfl

/-- A loop that appends the tuple of every row. -/
theorem foldl_encodeCopy {ρ : Type*} {encodeCopy : List UInt8 → ρ → List UInt8}
    {values : ρ → List Value}
    (h : ∀ buf r, encodeCopy buf r = buf ++ encodeTuple (tupleOf (values r)))
    (rows : List ρ) (buf : List UInt8) :
    rows.foldl encodeCopy buf =
      buf ++ (rows.map values).flatMap fun row => encodeTuple (tupleOf row) := by
  induction rows generalizing buf with
  | nil => exact (List.append_nil buf).symm
  | cons r rows ih =>
    rw [List.foldl_cons, ih, h, List.map_cons, List.flatMap_cons, List.append_assoc]

/-- A payload whose loop appends the tuple of every row is read back. -/
theorem readCopy_foldl {ρ : Type*} (encodeCopy : List UInt8 → ρ → List UInt8)
    (values : ρ → List Value) {columns : List ColumnType}
    (h : ∀ buf r, encodeCopy buf r = buf ++ encodeTuple (tupleOf (values r)))
    (hcolumns : ∀ r, (values r).map Value.type = columns) (hcount : columns.length < 2 ^ 15)
    {rows : List ρ} (hfits : ∀ r ∈ rows, ∀ v ∈ values r, v.bytes.length < 2 ^ 31) :
    readCopy columns (rows.foldl encodeCopy pgcopyHeader ++ pgcopyTrailer) =
      some (rows.map values) := by
  rw [foldl_encodeCopy h, ← encodeRows_eq]
  apply PgCopy.readCopy_encodeRows hcount
  · intro row hrow
    obtain ⟨r, -, rfl⟩ := List.mem_map.1 hrow
    exact hcolumns r
  · intro row hrow
    obtain ⟨r, hr, rfl⟩ := List.mem_map.1 hrow
    exact hfits r hr

/-! ## Scalar rows -/

/-- `WIRE_ROW_SIZE` (scalar.rs, line 38). -/
def wireRowSize : ℕ := 52

namespace ScalarRow

/-- `TEMPLATE` of `encode_copy` (scalar.rs, lines 133-163). -/
def template : List UInt8 :=
  let t := List.replicate wireRowSize 0
  let t := t.set 1 6
  let t := t.set 5 8
  let t := t.set 17 4
  let t := t.set 25 8
  let t := t.set 37 2
  let t := t.set 43 2
  t.set 49 2

/-- `ScalarRow::encode_copy` (scalar.rs, lines 132-172). -/
def encodeCopy (r : ScalarRow) : Option (List UInt8) := do
  let out := template
  let out ← copyFromSlice out 6 14 (beI64 r.pgUs)
  let out ← copyFromSlice out 18 22 (beI32 r.pvId)
  let out ← copyFromSlice out 26 34 (beF64 r.value)
  let out ← copyFromSlice out 38 40 (beI16 r.severity)
  let out ← copyFromSlice out 44 46 (beI16 r.status)
  copyFromSlice out 50 52 (beI16 r.reason)

/-- The columns of `samples`. -/
def columns : List ColumnType := [.timestamptz, .int4, .float8, .int2, .int2, .int2]

/-- The values of the columns. -/
def values (r : ScalarRow) : List Value :=
  [.timestamptz r.pgUs, .int4 r.pvId, .float8 r.value, .int2 r.severity, .int2 r.status,
    .int2 r.reason]

theorem encodeCopy_eq (r : ScalarRow) : r.encodeCopy = some (encodeTuple (tupleOf r.values)) := by
  have htemplate : template = beBytes 2 r.values.length ++ blankFields r.values := by
    simp only [blankFields, values, List.flatMap_cons, List.flatMap_nil,
      Value.length_bytes_timestamptz, Value.length_bytes_int4, Value.length_bytes_float8,
      Value.length_bytes_int2, List.length_cons, List.length_nil]
    rfl
  rw [← fill_template htemplate]
  simp only [values, List.map_cons, List.map_nil, fill,
    Value.length_bytes_timestamptz, Value.length_bytes_int4, Value.length_bytes_float8,
    Value.length_bytes_int2, Nat.reduceAdd, Option.bind_eq_bind, Option.bind_fun_some]
  rfl

theorem length_encodeTuple (r : ScalarRow) :
    (encodeTuple (tupleOf r.values)).length = wireRowSize := by
  rw [PgCopy.encodeTuple_tupleOf]
  simp only [values, List.flatMap_cons, List.flatMap_nil, PgCopy.encodeField_some,
    List.length_append, length_beBytes, PgCopy.length_beI32, Value.length_bytes_timestamptz,
    Value.length_bytes_int4, Value.length_bytes_float8, Value.length_bytes_int2, List.length_nil]
  rfl

theorem fits (r : ScalarRow) : ∀ v ∈ r.values, v.bytes.length < 2 ^ 31 := by simp [values]

end ScalarRow

namespace ScalarWriter

/-- The loop of `build_copy_into` (scalar.rs, lines 314-318). -/
def writeRows : List UInt8 → ℕ → List ScalarRow → Option (List UInt8 × ℕ)
  | buf, off, [] => some (buf, off)
  | buf, off, row :: rows => do
    let out ← row.encodeCopy
    let buf ← copyFromSlice buf off (off + wireRowSize) out
    writeRows buf (off + wireRowSize) rows

/-- `ScalarWriter::build_copy_into` (scalar.rs, lines 308-321), with which `build_copy_payload`
    fills a new buffer (lines 324-330). -/
def buildCopyPayload (rows : List ScalarRow) : Option (List UInt8) := do
  let total := pgcopyHeader.length + rows.length * wireRowSize + pgcopyTrailer.length
  let buf ← copyFromSlice (List.replicate total 0) 0 pgcopyHeader.length pgcopyHeader
  let (buf, off) ← writeRows buf pgcopyHeader.length rows
  copyFromSlice buf off buf.length pgcopyTrailer

theorem writeRows_append (front : List UInt8) (rows : List ScalarRow) (n : ℕ) :
    writeRows (front ++ List.replicate (rows.length * wireRowSize + n) 0) front.length rows =
      some (front ++ (rows.flatMap fun r => encodeTuple (tupleOf r.values)) ++ List.replicate n 0,
        front.length + rows.length * wireRowSize) := by
  induction rows generalizing front with
  | nil => simp [writeRows]
  | cons r rows ih =>
    have hblank : List.replicate ((r :: rows).length * wireRowSize + n) (0 : UInt8) =
        List.replicate wireRowSize 0 ++ List.replicate (rows.length * wireRowSize + n) 0 := by
      rw [List.replicate_append_replicate, List.length_cons]
      congr 1
      ring
    have hwrite := copyFromSlice_append front (List.replicate wireRowSize 0)
      (List.replicate (rows.length * wireRowSize + n) 0) (encodeTuple (tupleOf r.values))
      (by rw [List.length_replicate, r.length_encodeTuple])
    rw [r.length_encodeTuple] at hwrite
    have hnext := ih (front ++ encodeTuple (tupleOf r.values))
    rw [List.length_append, r.length_encodeTuple] at hnext
    unfold writeRows
    simp only [r.encodeCopy_eq, hblank, hwrite, Option.bind_eq_bind, Option.bind_some]
    rw [← List.append_assoc, hnext, List.flatMap_cons, List.length_cons, Nat.succ_mul]
    simp only [List.append_assoc, Option.some.injEq, Prod.mk.injEq, true_and]
    omega

theorem buildCopyPayload_eq (rows : List ScalarRow) :
    buildCopyPayload rows = some (PgCopy.encodeRows (rows.map ScalarRow.values)) := by
  have hblank : List.replicate
        (pgcopyHeader.length + rows.length * wireRowSize + pgcopyTrailer.length) (0 : UInt8) =
      [] ++ (List.replicate pgcopyHeader.length 0 ++
        List.replicate (rows.length * wireRowSize + pgcopyTrailer.length) 0) := by
    rw [List.nil_append, List.replicate_append_replicate, Nat.add_assoc]
  have hheader := copyFromSlice_append [] (List.replicate pgcopyHeader.length 0)
    (List.replicate (rows.length * wireRowSize + pgcopyTrailer.length) 0) pgcopyHeader
    List.length_replicate
  rw [← hblank, List.nil_append, List.length_nil, Nat.zero_add] at hheader
  set front := pgcopyHeader ++ rows.flatMap fun r => encodeTuple (tupleOf r.values) with hfront
  have hlen : front.length = pgcopyHeader.length + rows.length * wireRowSize := by
    rw [hfront, List.length_append, List.length_flatMap]
    simp [ScalarRow.length_encodeTuple]
  have htrailer := copyFromSlice_append front (List.replicate pgcopyTrailer.length 0) []
    pgcopyTrailer List.length_replicate
  rw [List.append_nil, List.append_nil] at htrailer
  have hend : (front ++ List.replicate pgcopyTrailer.length (0 : UInt8)).length =
      front.length + pgcopyTrailer.length := by
    rw [List.length_append, List.length_replicate]
  unfold buildCopyPayload
  simp only [hheader, writeRows_append, Option.bind_eq_bind, Option.bind_some]
  rw [← hfront, ← hlen, hend, htrailer, encodeRows_eq, List.flatMap_map, hfront]

theorem readCopy_payload (rows : List ScalarRow) :
    ∃ payload, buildCopyPayload rows = some payload ∧
      readCopy ScalarRow.columns payload = some (rows.map ScalarRow.values) := by
  refine ⟨_, buildCopyPayload_eq rows, PgCopy.readCopy_encodeRows (by decide) ?_ ?_⟩
  · intro row hrow
    obtain ⟨r, -, rfl⟩ := List.mem_map.1 hrow
    rfl
  · intro row hrow v hv
    obtain ⟨r, -, rfl⟩ := List.mem_map.1 hrow
    exact r.fits v hv

end ScalarWriter

/-! ## Array rows -/

namespace ArrayNumRow

/-- `TEMPLATE` of `encode_copy` (array.rs, lines 66-98). -/
def template : List UInt8 :=
  let t := List.replicate numWireSize 0
  let t := t.set 1 7
  let t := t.set 5 8
  let t := t.set 17 4
  let t := t.set 25 8
  let t := t.set 37 4
  let t := t.set 45 8
  let t := t.set 57 2
  t.set 63 2

/-- `ArrayNumRow::encode_copy` (array.rs, lines 65-107). -/
def encodeCopy (r : ArrayNumRow) : Option (List UInt8) := do
  let out := template
  let out ← copyFromSlice out 6 14 (beI64 r.pgUs)
  let out ← copyFromSlice out 18 22 (beI32 r.pvId)
  let out ← copyFromSlice out 26 34 (beI64 r.arrayId)
  let out ← copyFromSlice out 38 42 (beI32 r.idx)
  let out ← copyFromSlice out 46 54 (beF64 r.value)
  let out ← copyFromSlice out 58 60 (beI16 r.severity)
  copyFromSlice out 64 66 (beI16 r.status)

/-- The columns of `samples_array_num`. -/
def columns : List ColumnType := [.timestamptz, .int4, .int8, .int4, .float8, .int2, .int2]

/-- The values of the columns. -/
def values (r : ArrayNumRow) : List Value :=
  [.timestamptz r.pgUs, .int4 r.pvId, .int8 r.arrayId, .int4 r.idx, .float8 r.value,
    .int2 r.severity, .int2 r.status]

theorem encodeCopy_eq (r : ArrayNumRow) : r.encodeCopy = some (encodeTuple (tupleOf r.values)) := by
  have htemplate : template = beBytes 2 r.values.length ++ blankFields r.values := by
    simp only [blankFields, values, List.flatMap_cons, List.flatMap_nil,
      Value.length_bytes_timestamptz, Value.length_bytes_int4, Value.length_bytes_int8,
      Value.length_bytes_float8, Value.length_bytes_int2, List.length_cons, List.length_nil]
    rfl
  rw [← fill_template htemplate]
  simp only [values, List.map_cons, List.map_nil, fill,
    Value.length_bytes_timestamptz, Value.length_bytes_int4, Value.length_bytes_int8,
    Value.length_bytes_float8, Value.length_bytes_int2, Nat.reduceAdd, Option.bind_eq_bind,
    Option.bind_fun_some]
  rfl

theorem fits (r : ArrayNumRow) : ∀ v ∈ r.values, v.bytes.length < 2 ^ 31 := by simp [values]

end ArrayNumRow

namespace ArrayStrRow

/-- `ArrayStrRow::encode_copy` (array.rs, lines 129-146) with `NUM_COLUMNS_STR` (line 38). -/
def encodeCopy (buf : List UInt8) (r : ArrayStrRow) : List UInt8 :=
  let valBytes := asBytes r.value
  let buf := buf ++ beI16 7
  let buf := buf ++ beI32 8
  let buf := buf ++ beI64 r.pgUs
  let buf := buf ++ beI32 4
  let buf := buf ++ beI32 r.pvId
  let buf := buf ++ beI32 8
  let buf := buf ++ beI64 r.arrayId
  let buf := buf ++ beI32 4
  let buf := buf ++ beI32 r.idx
  let buf := buf ++ beI32 (.ofNat valBytes.length)
  let buf := buf ++ valBytes
  let buf := buf ++ beI32 2
  let buf := buf ++ beI16 r.severity
  let buf := buf ++ beI32 2
  buf ++ beI16 r.status

/-- The columns of `samples_array_str`. -/
def columns : List ColumnType := [.timestamptz, .int4, .int8, .int4, .text, .int2, .int2]

/-- The values of the columns. -/
def values (r : ArrayStrRow) : List Value :=
  [.timestamptz r.pgUs, .int4 r.pvId, .int8 r.arrayId, .int4 r.idx, .text r.value,
    .int2 r.severity, .int2 r.status]

/-- The data of the field `value` is shorter than 2^31 bytes. -/
def Fits (r : ArrayStrRow) : Prop := r.value.utf8ByteSize < 2 ^ 31

theorem encodeCopy_eq (buf : List UInt8) (r : ArrayStrRow) :
    encodeCopy buf r = buf ++ encodeTuple (tupleOf r.values) := by
  rw [PgCopy.encodeTuple_tupleOf]
  simp only [encodeCopy, values, List.flatMap_cons, List.flatMap_nil,
    PgCopy.encodeField_timestamptz, PgCopy.encodeField_int4, PgCopy.encodeField_int8,
    PgCopy.encodeField_text, PgCopy.encodeField_int2, List.append_assoc, List.append_nil]
  rfl

end ArrayStrRow

namespace ArrayWriter

/-- `ArrayWriter::build_num_payload` (array.rs, lines 354-365). -/
def buildNumPayload (rows : List ArrayNumRow) : Option (List UInt8) := do
  let buf ← rows.foldlM (fun buf row => do return buf ++ (← row.encodeCopy)) pgcopyHeader
  return buf ++ pgcopyTrailer

/-- `ArrayWriter::build_str_payload` (array.rs, lines 367-377). -/
def buildStrPayload (rows : List ArrayStrRow) : List UInt8 :=
  rows.foldl ArrayStrRow.encodeCopy pgcopyHeader ++ pgcopyTrailer

theorem foldlM_encodeCopy (rows : List ArrayNumRow) (buf : List UInt8) :
    rows.foldlM (fun buf row => do return buf ++ (← row.encodeCopy)) buf =
      some (rows.foldl (fun buf row => buf ++ encodeTuple (tupleOf row.values)) buf) := by
  induction rows generalizing buf with
  | nil => rfl
  | cons r rows ih =>
    rw [List.foldlM_cons, r.encodeCopy_eq, List.foldl_cons]
    exact ih _

theorem readCopy_numPayload (rows : List ArrayNumRow) :
    ∃ payload, buildNumPayload rows = some payload ∧
      readCopy ArrayNumRow.columns payload = some (rows.map ArrayNumRow.values) := by
  refine ⟨rows.foldl (fun buf row => buf ++ encodeTuple (tupleOf row.values)) pgcopyHeader ++
    pgcopyTrailer, ?_, ?_⟩
  · unfold buildNumPayload
    rw [foldlM_encodeCopy]
    rfl
  · exact readCopy_foldl _ ArrayNumRow.values (fun _ _ => rfl) (fun _ => rfl) (by decide)
      fun r _ => r.fits

theorem readCopy_strPayload {rows : List ArrayStrRow} (h : ∀ r ∈ rows, r.Fits) :
    readCopy ArrayStrRow.columns (buildStrPayload rows) = some (rows.map ArrayStrRow.values) := by
  apply readCopy_foldl _ _ ArrayStrRow.encodeCopy_eq (fun _ => rfl) (by decide)
  intro r hr
  have hvalue : r.value.utf8ByteSize < 2 ^ 31 := h r hr
  simpa [ArrayStrRow.values] using hvalue

end ArrayWriter

/-! ## String rows -/

namespace StringRow

/-- `StringRow::encode_copy` (string.rs, lines 105-120) with `NUM_COLUMNS` (line 33). -/
def encodeCopy (buf : List UInt8) (r : StringRow) : List UInt8 :=
  let pgUs := pgMicros r.time
  let valBytes := asBytes r.value
  let buf := buf ++ beI16 5
  let buf := buf ++ beI32 8
  let buf := buf ++ beI64 pgUs
  let buf := buf ++ beI32 4
  let buf := buf ++ beI32 r.pvId
  let buf := buf ++ beI32 (.ofNat valBytes.length)
  let buf := buf ++ valBytes
  let buf := buf ++ beI32 2
  let buf := buf ++ beI16 r.severity
  let buf := buf ++ beI32 2
  buf ++ beI16 r.status

/-- The columns of `samples_string`. -/
def columns : List ColumnType := [.timestamptz, .int4, .text, .int2, .int2]

/-- The values of the columns. -/
def values (r : StringRow) : List Value :=
  [.timestamptz (pgMicros r.time), .int4 r.pvId, .text r.value, .int2 r.severity, .int2 r.status]

/-- The data of the field `value` is shorter than 2^31 bytes. -/
def Fits (r : StringRow) : Prop := r.value.utf8ByteSize < 2 ^ 31

theorem encodeCopy_eq (buf : List UInt8) (r : StringRow) :
    encodeCopy buf r = buf ++ encodeTuple (tupleOf r.values) := by
  rw [PgCopy.encodeTuple_tupleOf]
  simp only [encodeCopy, values, List.flatMap_cons, List.flatMap_nil,
    PgCopy.encodeField_timestamptz, PgCopy.encodeField_int4, PgCopy.encodeField_text,
    PgCopy.encodeField_int2, List.append_assoc, List.append_nil]
  rfl

end StringRow

/-- `StringWriter::build_copy_payload` (string.rs, lines 251-263). -/
def StringWriter.buildCopyPayload (rows : List StringRow) : List UInt8 :=
  rows.foldl StringRow.encodeCopy pgcopyHeader ++ pgcopyTrailer

theorem StringWriter.readCopy_payload {rows : List StringRow} (h : ∀ r ∈ rows, r.Fits) :
    readCopy StringRow.columns (buildCopyPayload rows) = some (rows.map StringRow.values) := by
  apply readCopy_foldl _ _ StringRow.encodeCopy_eq (fun _ => rfl) (by decide)
  intro r hr
  have hvalue : r.value.utf8ByteSize < 2 ^ 31 := h r hr
  simpa [StringRow.values] using hvalue

/-! ## Image rows -/

section Documents

variable (toVec : Json → Option (List UInt8))

/-- `to_vec` of a value, the empty object where it fails. -/
def jsonBytes (v : Json) : List UInt8 := (toVec v).getD [0x7B, 0x7D]

namespace ImageRow

/-- The field `dimensions` (image.rs, lines 249-275), an array in the binary format of PostgreSQL,
    with `INT4_OID` (line 17). -/
def pushDimensions (buf : List UInt8) (dimensions : List Int32) : List UInt8 :=
  let ndims : Int32 := if dimensions = [] then 0 else 1
  let arrayLen := 4 + 4 + 4 + if ndims > 0 then 4 + 4 + dimensions.length * 8 else 0
  let buf := buf ++ beI32 (.ofNat arrayLen)
  let buf := buf ++ beI32 ndims
  let buf := buf ++ beI32 0
  let buf := buf ++ beI32 23
  if ndims > 0 then
    let buf := buf ++ beI32 (.ofNat dimensions.length)
    let buf := buf ++ beI32 1
    dimensions.foldl (fun buf dim => buf ++ beI32 4 ++ beI32 dim) buf
  else buf

/-- One pass of the loop of `build_copy_payload` (image.rs, lines 230-292) with `NUM_COLUMNS`
    (line 16), for a row and its `attributes`. -/
def encodeCopy (buf : List UInt8) (row : ImageRow × Json) : List UInt8 :=
  let (r, attributes) := row
  let pgUs := pgMicros r.time
  let codecBytes := asBytes r.codec
  let attrBytes := jsonBytes toVec attributes
  let buf := buf ++ beI16 11
  -- time
  let buf := buf ++ beI32 8
  let buf := buf ++ beI64 pgUs
  -- pv_id
  let buf := buf ++ beI32 4
  let buf := buf ++ beI32 r.pvId
  -- data
  let buf := buf ++ beI32 (.ofNat r.data.length)
  let buf := buf ++ r.data
  -- codec
  let buf := buf ++ beI32 (.ofNat codecBytes.length)
  let buf := buf ++ codecBytes
  -- compressed_size
  let buf := buf ++ beI32 8
  let buf := buf ++ beI64 r.compressedSize
  -- uncompressed_size
  let buf := buf ++ beI32 8
  let buf := buf ++ beI64 r.uncompressedSize
  -- dimensions
  let buf := pushDimensions buf r.dimensions
  -- unique_id
  let buf := buf ++ beI32 4
  let buf := buf ++ beI32 r.uniqueId
  -- attributes
  let jsonbLen := 1 + attrBytes.length
  let buf := buf ++ beI32 (.ofNat jsonbLen)
  let buf := buf ++ [0x01]
  let buf := buf ++ attrBytes
  -- severity
  let buf := buf ++ beI32 2
  let buf := buf ++ beI16 r.severity
  -- status
  let buf := buf ++ beI32 2
  buf ++ beI16 r.status

/-- The columns of `samples_image`. -/
def columns : List ColumnType :=
  [.timestamptz, .int4, .bytea, .text, .int8, .int8, .int4Array, .int4, .jsonb, .int2, .int2]

/-- The values of the columns. -/
def values (row : ImageRow × Json) : List Value :=
  [.timestamptz (pgMicros row.1.time), .int4 row.1.pvId, .bytea row.1.data, .text row.1.codec,
    .int8 row.1.compressedSize, .int8 row.1.uncompressedSize, .int4Array row.1.dimensions,
    .int4 row.1.uniqueId, .jsonb (jsonBytes toVec row.2), .int2 row.1.severity, .int2 row.1.status]

/-- The data of the fields `data`, `codec`, `dimensions` and `attributes` is shorter than 2^31
    bytes. -/
def Fits (row : ImageRow × Json) : Prop :=
  row.1.data.length < 2 ^ 31 ∧ row.1.codec.utf8ByteSize < 2 ^ 31 ∧
    20 + row.1.dimensions.length * 8 < 2 ^ 31 ∧ (jsonBytes toVec row.2).length + 1 < 2 ^ 31

theorem foldl_dimensions (dims : List Int32) (buf : List UInt8) :
    dims.foldl (fun buf dim => buf ++ beI32 4 ++ beI32 dim) buf =
      buf ++ dims.flatMap fun dim => beBytes 4 4 ++ beI32 dim := by
  induction dims generalizing buf with
  | nil => exact (List.append_nil buf).symm
  | cons dim dims ih =>
    rw [List.foldl_cons, ih, List.flatMap_cons]
    simp only [List.append_assoc]
    rfl

theorem pushDimensions_eq (buf : List UInt8) (dims : List Int32) :
    pushDimensions buf dims = buf ++ PgCopy.encodeField (some (Value.int4Array dims).bytes) := by
  rw [PgCopy.encodeField_some, Value.length_bytes_int4Array]
  show _ = buf ++ (_ ++ PgCopy.arrayBytes dims)
  unfold pushDimensions PgCopy.arrayBytes
  by_cases hnil : dims = []
  · simp only [if_pos hnil, List.append_assoc]
    rfl
  · have hdims : (1 : Int32) > 0 := by decide
    have hlen : 4 + 4 + 4 + (4 + 4 + dims.length * 8) = 12 + (8 + dims.length * 8) := by omega
    simp only [if_neg hnil, if_pos hdims, foldl_dimensions, hlen]
    simp only [PgCopy.beI32_ofNat, List.append_assoc]
    rfl

theorem encodeCopy_eq (buf : List UInt8) (row : ImageRow × Json) :
    encodeCopy toVec buf row = buf ++ encodeTuple (tupleOf (values toVec row)) := by
  rw [PgCopy.encodeTuple_tupleOf]
  simp only [encodeCopy, values, pushDimensions_eq, List.flatMap_cons, List.flatMap_nil,
    PgCopy.encodeField_timestamptz, PgCopy.encodeField_int4, PgCopy.encodeField_int8,
    PgCopy.encodeField_bytea, PgCopy.encodeField_text, PgCopy.encodeField_jsonb,
    PgCopy.encodeField_int2, List.append_assoc, List.append_nil]
  rfl

end ImageRow

/-- `ImageWriter::build_copy_payload` (image.rs, lines 221-296). -/
def ImageWriter.buildCopyPayload (rows : List (ImageRow × Json)) : List UInt8 :=
  rows.foldl (ImageRow.encodeCopy toVec) pgcopyHeader ++ pgcopyTrailer

theorem ImageWriter.readCopy_payload {rows : List (ImageRow × Json)}
    (h : ∀ r ∈ rows, ImageRow.Fits toVec r) :
    readCopy ImageRow.columns (buildCopyPayload toVec rows) =
      some (rows.map (ImageRow.values toVec)) := by
  apply readCopy_foldl _ _ (ImageRow.encodeCopy_eq toVec) (fun _ => rfl) (by decide)
  intro r hr
  obtain ⟨hdata, hcodec, hdims, hattributes⟩ := h r hr
  have harray : (Value.int4Array r.1.dimensions).bytes.length < 2 ^ 31 := by
    rw [Value.length_bytes_int4Array]
    split <;> omega
  simpa [ImageRow.values] using ⟨hdata, hcodec, harray, hattributes⟩

/-! ## Documents -/

/-- `JsonData::as_json_bytes` (json.rs, lines 62-67). -/
def JsonData.asJsonBytes : JsonData → List UInt8
  | .bytes b => b
  | .parsed v => jsonBytes toVec v

namespace JsonRow

/-- One pass of the loop of `build_table_payload` (json.rs, lines 428-444). -/
def encodeTable (buf : List UInt8) (r : JsonRow) : List UInt8 :=
  let pgUs := pgMicros r.time
  let bytes := r.data.asJsonBytes toVec
  let buf := buf ++ beI16 5
  let buf := buf ++ beI32 8
  let buf := buf ++ beI64 pgUs
  let buf := buf ++ beI32 4
  let buf := buf ++ beI32 r.pvId
  let jsonbLen := 1 + bytes.length
  let buf := buf ++ beI32 (.ofNat jsonbLen)
  let buf := buf ++ [0x01]
  let buf := buf ++ bytes
  let buf := buf ++ beI32 2
  let buf := buf ++ beI16 r.severity
  let buf := buf ++ beI32 2
  buf ++ beI16 r.status

/-- One pass of the loop of `build_custom_payload` (json.rs, lines 462-481). -/
def encodeCustom (buf : List UInt8) (r : JsonRow) : List UInt8 :=
  let pgUs := pgMicros r.time
  let ntBytes := asBytes (r.ntType.getD "Custom")
  let bytes := r.data.asJsonBytes toVec
  let buf := buf ++ beI16 6
  let buf := buf ++ beI32 8
  let buf := buf ++ beI64 pgUs
  let buf := buf ++ beI32 4
  let buf := buf ++ beI32 r.pvId
  let buf := buf ++ beI32 (.ofNat ntBytes.length)
  let buf := buf ++ ntBytes
  let jsonbLen := 1 + bytes.length
  let buf := buf ++ beI32 (.ofNat jsonbLen)
  let buf := buf ++ [0x01]
  let buf := buf ++ bytes
  let buf := buf ++ beI32 2
  let buf := buf ++ beI16 r.severity
  let buf := buf ++ beI32 2
  buf ++ beI16 r.status

/-- The columns of `samples_table`. -/
def tableColumns : List ColumnType := [.timestamptz, .int4, .jsonb, .int2, .int2]

/-- The values of the columns. -/
def tableValues (r : JsonRow) : List Value :=
  [.timestamptz (pgMicros r.time), .int4 r.pvId, .jsonb (r.data.asJsonBytes toVec),
    .int2 r.severity, .int2 r.status]

/-- The columns of `samples_custom`. -/
def customColumns : List ColumnType := [.timestamptz, .int4, .text, .jsonb, .int2, .int2]

/-- The values of the columns. -/
def customValues (r : JsonRow) : List Value :=
  [.timestamptz (pgMicros r.time), .int4 r.pvId, .text (r.ntType.getD "Custom"),
    .jsonb (r.data.asJsonBytes toVec), .int2 r.severity, .int2 r.status]

/-- The data of the field `data` is shorter than 2^31 bytes. -/
def TableFits (r : JsonRow) : Prop := (r.data.asJsonBytes toVec).length + 1 < 2 ^ 31

/-- The data of the fields `nt_type` and `data` is shorter than 2^31 bytes. -/
def CustomFits (r : JsonRow) : Prop :=
  (r.ntType.getD "Custom").utf8ByteSize < 2 ^ 31 ∧ (r.data.asJsonBytes toVec).length + 1 < 2 ^ 31

theorem encodeTable_eq (buf : List UInt8) (r : JsonRow) :
    encodeTable toVec buf r = buf ++ encodeTuple (tupleOf (r.tableValues toVec)) := by
  rw [PgCopy.encodeTuple_tupleOf]
  simp only [encodeTable, tableValues, List.flatMap_cons, List.flatMap_nil,
    PgCopy.encodeField_timestamptz, PgCopy.encodeField_int4, PgCopy.encodeField_jsonb,
    PgCopy.encodeField_int2, List.append_assoc, List.append_nil]
  rfl

theorem encodeCustom_eq (buf : List UInt8) (r : JsonRow) :
    encodeCustom toVec buf r = buf ++ encodeTuple (tupleOf (r.customValues toVec)) := by
  rw [PgCopy.encodeTuple_tupleOf]
  simp only [encodeCustom, customValues, List.flatMap_cons, List.flatMap_nil,
    PgCopy.encodeField_timestamptz, PgCopy.encodeField_int4, PgCopy.encodeField_text,
    PgCopy.encodeField_jsonb, PgCopy.encodeField_int2, List.append_assoc, List.append_nil]
  rfl

end JsonRow

namespace JsonWriter

/-- The builders of the two tables of documents: the payload of the rows of table `t` with their
    number, `None` without such rows. -/
def buildDocuments (t : JsonTable) (encode : List UInt8 → JsonRow → List UInt8)
    (buffer : List JsonRow) : Option (List UInt8 × ℕ) :=
  let rows := buffer.filter fun r => r.table = t
  if rows = [] then none
  else some (rows.foldl encode pgcopyHeader ++ pgcopyTrailer, rows.length)

/-- `JsonWriter::build_table_payload` (json.rs, lines 416-448), in bytes. -/
def buildTablePayload : List JsonRow → Option (List UInt8 × ℕ) :=
  buildDocuments .table (JsonRow.encodeTable toVec)

/-- `JsonWriter::build_custom_payload` (json.rs, lines 450-485), in bytes. -/
def buildCustomPayload : List JsonRow → Option (List UInt8 × ℕ) :=
  buildDocuments .custom (JsonRow.encodeCustom toVec)

/-- The rows of table `t` in `buffer` are the ones `built` is read as, if there are any. -/
def ReadAs (t : JsonTable) (columns : List ColumnType) (values : JsonRow → List Value)
    (buffer : List JsonRow) (built : Option (List UInt8 × ℕ)) : Prop :=
  let rows := buffer.filter fun r => r.table = t
  if rows = [] then built = none
  else ∃ payload, built = some (payload, rows.length) ∧
    readCopy columns payload = some (rows.map values)

theorem readAs_documents {t : JsonTable} {encode : List UInt8 → JsonRow → List UInt8}
    {values : JsonRow → List Value} {columns : List ColumnType}
    (h : ∀ buf r, encode buf r = buf ++ encodeTuple (tupleOf (values r)))
    (hcolumns : ∀ r, (values r).map Value.type = columns) (hcount : columns.length < 2 ^ 15)
    {buffer : List JsonRow}
    (hfits : ∀ r ∈ buffer, r.table = t → ∀ v ∈ values r, v.bytes.length < 2 ^ 31) :
    ReadAs t columns values buffer (buildDocuments t encode buffer) := by
  unfold ReadAs buildDocuments
  by_cases hnil : (buffer.filter fun r => r.table = t) = []
  · rw [if_pos hnil, if_pos hnil]
  · rw [if_neg hnil, if_neg hnil]
    refine ⟨_, rfl, readCopy_foldl encode values h hcolumns hcount ?_⟩
    intro r hr
    obtain ⟨hbuffer, htable⟩ := List.mem_filter.1 hr
    exact hfits r hbuffer (of_decide_eq_true htable)

theorem readAs_tablePayload {buffer : List JsonRow}
    (h : ∀ r ∈ buffer, r.table = .table → r.TableFits toVec) :
    ReadAs .table JsonRow.tableColumns (JsonRow.tableValues toVec) buffer
      (buildTablePayload toVec buffer) := by
  apply readAs_documents (JsonRow.encodeTable_eq toVec) (fun _ => rfl) (by decide)
  intro r hr ht
  have hdata : (r.data.asJsonBytes toVec).length + 1 < 2 ^ 31 := h r hr ht
  simpa [JsonRow.tableValues] using hdata

theorem readAs_customPayload {buffer : List JsonRow}
    (h : ∀ r ∈ buffer, r.table = .custom → r.CustomFits toVec) :
    ReadAs .custom JsonRow.customColumns (JsonRow.customValues toVec) buffer
      (buildCustomPayload toVec buffer) := by
  apply readAs_documents (JsonRow.encodeCustom_eq toVec) (fun _ => rfl) (by decide)
  intro r hr ht
  obtain ⟨hname, hdata⟩ := h r hr ht
  simpa [JsonRow.customValues] using ⟨hname, hdata⟩

end JsonWriter

end Documents

/-! ## Every payload -/

/-- **Main theorem.** For rows whose fields have lengths that fit the format, every builder makes a
    payload that is read, to its last byte, as the values of exactly these rows in their order;
    the builders of the tables of documents do so for the rows of their table. -/
theorem payloads_read (toVec : Json → Option (List UInt8)) :
    (∀ rows, ∃ payload, ScalarWriter.buildCopyPayload rows = some payload ∧
      readCopy ScalarRow.columns payload = some (rows.map ScalarRow.values)) ∧
    (∀ rows, ∃ payload, ArrayWriter.buildNumPayload rows = some payload ∧
      readCopy ArrayNumRow.columns payload = some (rows.map ArrayNumRow.values)) ∧
    (∀ rows : List ArrayStrRow, (∀ r ∈ rows, r.Fits) →
      readCopy ArrayStrRow.columns (ArrayWriter.buildStrPayload rows) =
        some (rows.map ArrayStrRow.values)) ∧
    (∀ rows : List StringRow, (∀ r ∈ rows, r.Fits) →
      readCopy StringRow.columns (StringWriter.buildCopyPayload rows) =
        some (rows.map StringRow.values)) ∧
    (∀ rows, (∀ r ∈ rows, ImageRow.Fits toVec r) →
      readCopy ImageRow.columns (ImageWriter.buildCopyPayload toVec rows) =
        some (rows.map (ImageRow.values toVec))) ∧
    (∀ buffer : List JsonRow, (∀ r ∈ buffer, r.table = .table → r.TableFits toVec) →
      JsonWriter.ReadAs .table JsonRow.tableColumns (JsonRow.tableValues toVec) buffer
        (JsonWriter.buildTablePayload toVec buffer)) ∧
    (∀ buffer : List JsonRow, (∀ r ∈ buffer, r.table = .custom → r.CustomFits toVec) →
      JsonWriter.ReadAs .custom JsonRow.customColumns (JsonRow.customValues toVec) buffer
        (JsonWriter.buildCustomPayload toVec buffer)) :=
  ⟨ScalarWriter.readCopy_payload, ArrayWriter.readCopy_numPayload,
    fun _ => ArrayWriter.readCopy_strPayload, fun _ => StringWriter.readCopy_payload,
    fun _ => ImageWriter.readCopy_payload toVec, fun _ => JsonWriter.readAs_tablePayload toVec,
    fun _ => JsonWriter.readAs_customPayload toVec⟩

/-- A frame of two dimensions, and a custom structure without the name of its type. -/
theorem payloads_read_frame :
    readCopy ImageRow.columns (ImageWriter.buildCopyPayload (fun _ => some [0x7B, 0x7D])
        [(⟨.epoch, 7, [1, 2], "jpeg", 2, 8, [4, 2], 9, 0, 0⟩, .object [])]) =
      some [[.timestamptz (-946684800000000), .int4 7, .bytea [1, 2], .text "jpeg", .int8 2,
        .int8 8, .int4Array [4, 2], .int4 9, .jsonb [0x7B, 0x7D], .int2 0, .int2 0]] ∧
    ∃ payload,
      JsonWriter.buildCustomPayload (fun _ => some [0x7B, 0x7D])
        [⟨.epoch, 7, .custom, .parsed (.object []), none, 1, 0⟩] = some (payload, 1) ∧
      readCopy JsonRow.customColumns payload =
        some [[.timestamptz (-946684800000000), .int4 7, .text "Custom", .jsonb [0x7B, 0x7D],
          .int2 1, .int2 0]] := by
  have hread := payloads_read fun _ => some [0x7B, 0x7D]
  refine ⟨hread.2.2.2.2.1 _ ?_, hread.2.2.2.2.2.2
    [⟨.epoch, 7, .custom, .parsed (.object []), none, 1, 0⟩] ?_⟩
  · intro r hr
    rw [List.mem_singleton.1 hr]
    exact ⟨by decide, by decide, by decide, by decide⟩
  · intro r hr _
    rw [List.mem_singleton.1 hr]
    exact ⟨by decide, by decide⟩

end AuraEpics.Store
