import AuraEpics.Store.Writer

/-!
# Storage routing

Two functions choose the row a Normative Type value is stored as: the slow path of the
ingest thread (`crates/aura-ingest/src/thread.rs`, lines 187-313) and
`BatchWriter::dispatch_with_id` (`BatchWriter.rowOf`). Both are compared with the
classification of `crates/aura-core/src/pva/classify.rs`, lines 89-130, which names the
table, and with the content of the value.

The content of a matrix is its elements: neither path stores the dimensions. The content of
an image is what `samples_image` has columns for; its attributes are told by their names.

Result: `routed_iff`, both paths store a value where the classification puts it, with its
content, alarm severity and status, exactly for the values of `Storable`.
-/

namespace AuraEpics.Store

open Numeric AuraEpics.Core AuraEpics.Types

/-! ## Tables -/

/-- `PvDataType::table_name` (classify.rs, lines 114-130). -/
def tableName : PvDataType → String
  | .scalar => "samples"
  | .string => "samples_string"
  | .array => "samples_array_num"
  | .matrix => "samples_array_num"
  | .histogram => "samples_hist"
  | .continuum => "samples_cont"
  | .nameValue => "samples_nv"
  | .table => "samples_table"
  | .image => "samples_image"
  | .multiChannel => "samples_mch"
  | .aggregate => "samples"
  | .union => "samples_custom"
  | .custom => "samples_custom"

/-- The table of the COPY statement a row is written with (scalar.rs, line 332, string.rs,
    line 39, array.rs, lines 41-42, json.rs, lines 39-44, image.rs, line 14). -/
def StoredRow.table : StoredRow → String
  | scalar _ => "samples"
  | other (.string _) => "samples_string"
  | other (.array c) =>
    match c.data with
    | .numeric _ => "samples_array_num"
    | .string _ => "samples_array_str"
  | other (.json r) =>
    match r.table with
    | .table => "samples_table"
    | .custom => "samples_custom"
    | .nameValue => "samples_nv"
    | .histogram => "samples_hist"
    | .continuum => "samples_cont"
    | .multi => "samples_mch"
  | other (.image _) => "samples_image"

/-! ## The slow path -/

/-- The row the slow path of `run_ingest_shard` pushes (thread.rs, lines 187-313), `none`
    where it pushes none. -/
def slowPathRow (f : Formats) (u : PvUpdate) (pvId : Int32) : Option StoredRow :=
  let time := u.timestamp
  let severity := u.severity
  let status := u.status
  let json (t : JsonTable) (ntType : Option String) (data : JsonData) : StoredRow :=
    .other (.json ⟨time, pvId, t, data, ntType, severity, status⟩)
  match u.data with
  | .ntScalar nt =>
    some (.scalar (.new nt.timestamp.toDatetime pvId (nt.value.asF64.getD .zero)
      nt.alarm.severity.toI16 nt.alarm.status.toI16 .valueChanged))
  | .ntEnum nt =>
    some (.scalar (.new nt.timestamp.toDatetime pvId (.ofInt nt.index.toInt)
      nt.alarm.severity.toI16 nt.alarm.status.toI16 .valueChanged))
  | .ntScalarArray a =>
    some (.other (.array ⟨time, pvId, severity, status, .numeric (a.value.asF64Vec.getD [])⟩))
  | .ntMatrix m => some (.other (.array ⟨time, pvId, severity, status, .numeric m.value⟩))
  | .ntNDArray img =>
    let data := match img.value with
      | .ubyteArray v => v
      | _ => []
    some (.other (.image ⟨time, pvId, data, img.codecName, img.compressedSize,
      img.uncompressedSize, img.dimension.map Dimension.size, img.uniqueId, severity, status⟩))
  | data =>
    match PvDataType.fromNt data with
    | .table => (f.toVec data).toOption.map fun bytes => json .table none (.bytes bytes)
    | .custom | .union =>
      (f.toVec data).toOption.map fun bytes => json .custom (some data.typeName) (.bytes bytes)
    | dataType =>
      (f.toValue data).toOption.bind fun v =>
        match dataType with
        | .histogram => some (json .histogram none (.parsed v))
        | .continuum => some (json .continuum none (.parsed v))
        | .nameValue => some (json .nameValue none (.parsed v))
        | .multiChannel => some (json .multi none (.parsed v))
        | _ => none

/-! ## What a sample is -/

/-- The elements of an array, numbers as `f64`. -/
def arrayElements : ArrayValue → List (Binary64 ⊕ String)
  | .stringArray v => v.map .inr
  | a => (a.asF64Vec.getD []).map .inl

/-- The names of the members of a JSON object. -/
def memberNames : Json → List String
  | .object ms => ms.map Prod.fst
  | _ => []

/-- The content of a sample or of a row. -/
inductive Content where
  | number (x : Binary64)
  | text (s : String)
  | elements (xs : List (Binary64 ⊕ String))
  | image (pixels : List (Binary64 ⊕ String)) (codec : String)
      (compressedSize uncompressedSize : Int64) (dimensions : List Int32) (uniqueId : Int32)
      (attributes : List String)
  | document (data : JsonData)

/-- The content of a value; documents are as `serde_json` writes them. -/
def content (f : Formats) (nt : NormativeType) : Option Content :=
  match nt with
  | .ntScalar s =>
    match s.value with
    | .string text => some (.text text)
    | v => v.asF64.map .number
  | .ntEnum e => some (.number (.ofInt e.index.toInt))
  | .ntAggregate a => some (.number a.value)
  | .ntScalarArray a => some (.elements (arrayElements a.value))
  | .ntMatrix m => some (.elements (m.value.map .inl))
  | .ntNDArray img =>
    some (.image (arrayElements img.value) img.codecName img.compressedSize img.uncompressedSize
      (img.dimension.map Dimension.size) img.uniqueId (img.attributes.map NdAttribute.name))
  | .ntTable _ | .ntUnion _ | .custom _ => (f.toVec nt).toOption.map fun b => .document (.bytes b)
  | .ntHistogram _ | .ntContinuum _ | .ntNameValue _ | .ntMultiChannel _ =>
    (f.toValue nt).toOption.map fun v => .document (.parsed v)

/-- The content of a row. -/
def StoredRow.content : StoredRow → Content
  | scalar r => .number r.value
  | other (.string r) => .text r.value
  | other (.array c) =>
    match c.data with
    | .numeric v => .elements (v.map .inl)
    | .string v => .elements (v.map .inr)
  | other (.json r) => .document r.data
  | other (.image r) =>
    .image (r.data.map fun b => .inl (.ofInt b.toNat)) r.codec r.compressedSize r.uncompressedSize
      r.dimensions r.uniqueId (memberNames r.attributes)

/-- Alarm severity and status of a row. -/
def StoredRow.alarm : StoredRow → Int16 × Int16
  | scalar r => (r.severity, r.status)
  | other (.string r) => (r.severity, r.status)
  | other (.array c) => (c.severity, c.status)
  | other (.json r) => (r.severity, r.status)
  | other (.image r) => (r.severity, r.status)

/-- Table, content and alarm of a row. -/
def StoredRow.view (r : StoredRow) : String × Content × Int16 × Int16 := (r.table, r.content, r.alarm)

/-- Table, content and alarm an update is to be stored with. -/
def expectedView (f : Formats) (u : PvUpdate) : Option (String × Content × Int16 × Int16) :=
  (content f u.data).map fun c => (tableName u.dataType, c, u.severity, u.status)

/-- The update is stored, in the table its classification names and with its content. -/
def Routed (f : Formats) (u : PvUpdate) (row : Option StoredRow) : Prop :=
  row.isSome ∧ row.map StoredRow.view = expectedView f u

/-- The values both paths store as they should: no string scalar, no array of strings, no
    image with attributes or of other elements than bytes, and no aggregate. -/
def Storable : NormativeType → Prop
  | .ntScalar nt => ∀ s, nt.value ≠ .string s
  | .ntScalarArray a => ∀ v, a.value = .stringArray v → v = []
  | .ntNDArray img =>
    img.attributes = [] ∧ ((∃ v, img.value = .ubyteArray v) ∨ arrayElements img.value = [])
  | .ntAggregate _ => False
  | _ => True

/-! ## The two paths -/

/-- Serialisation to JSON, which `serde_json` fails for no value of these types: it fails
    only where a map has keys that are not strings, or where `Serialize` itself fails. -/
def Formats.Total (f : Formats) : Prop :=
  ∀ nt, (∃ bytes, f.toVec nt = .ok bytes) ∧ ∃ v, f.toValue nt = .ok v

variable {f : Formats}

theorem toOption_map_json {α : Type} (x : Except String α) (k : α → JsonRow) :
    (x.toOption.map fun a => StoredRow.other (.json (k a))) =
      ((x >>= fun a => pure (k a)) >>= fun r => pure (StoredRow.other (.json r))).toOption := by
  cases x <;> rfl

theorem toOption_bind_json {α : Type} (x : Except String α) (k : α → JsonRow) :
    (x.toOption.bind fun a => some (StoredRow.other (.json (k a)))) =
      ((x >>= fun a => pure (k a)) >>= fun r => pure (StoredRow.other (.json r))).toOption := by
  cases x <;> rfl

/-- Only for an aggregate do the paths make different rows. -/
theorem slowPathRow_eq_rowOf {u : PvUpdate} (h : ∀ nt, u.data ≠ .ntAggregate nt) (pvId : Int32) :
    slowPathRow f u pvId = (BatchWriter.rowOf f u pvId .valueChanged).toOption := by
  obtain ⟨name, id, data⟩ := u
  cases data with
  | ntAggregate nt => exact absurd rfl (h nt)
  | ntTable nt => exact toOption_map_json (f.toVec _) _
  | ntUnion nt => exact toOption_map_json (f.toVec _) _
  | custom nt => exact toOption_map_json (f.toVec _) _
  | ntHistogram nt => exact toOption_bind_json (f.toValue _) _
  | ntContinuum nt => exact toOption_bind_json (f.toValue _) _
  | ntNameValue nt => exact toOption_bind_json (f.toValue _) _
  | ntMultiChannel nt => exact toOption_bind_json (f.toValue _) _
  | _ => rfl

/-- A row with the expected view is all that is asked for. -/
theorem routed_some {u : PvUpdate} {row : StoredRow} {c : Content} (hc : content f u.data = some c) :
    Routed f u (some row) ↔ row.view = (tableName u.dataType, c, u.severity, u.status) := by
  unfold Routed expectedView
  rw [hc, Option.map_some, Option.map_some, Option.some.injEq]
  exact ⟨fun h => h.2, fun h => ⟨rfl, h⟩⟩

/-- Bytes are stored as they are. -/
theorem arrayElements_ubyteArray (v : List UInt8) :
    arrayElements (.ubyteArray v) = v.map fun b => .inl (.ofInt b.toNat) := by
  simp only [arrayElements, ArrayValue.asF64Vec, Option.getD_some, List.map_map]
  rfl

theorem scalarArray_routed_iff (name : String) (id : Option Int32) (a : NTScalarArray) (pvId : Int32)
    (reason : StoreReason) :
    Routed f ⟨name, id, .ntScalarArray a⟩
        (BatchWriter.rowOf f ⟨name, id, .ntScalarArray a⟩ pvId reason).toOption ↔
      Storable (.ntScalarArray a) := by
  obtain ⟨value, alarm, timestamp⟩ := a
  refine (routed_some rfl).trans ?_
  cases value with
  | stringArray v =>
    constructor
    · intro hview v' hv'
      have hlost : Content.elements [] = .elements (v.map .inr) := congrArg (fun w => w.2.1) hview
      cases hv'
      exact List.map_eq_nil_iff.mp (Content.elements.inj hlost).symm
    · intro hnil
      rw [hnil v rfl]
      rfl
  | _ => exact ⟨fun _ v hv => (by cases hv), fun _ => rfl⟩

theorem ndArray_routed_iff (name : String) (id : Option Int32) (img : NTNDArray) (pvId : Int32)
    (reason : StoreReason) :
    Routed f ⟨name, id, .ntNDArray img⟩
        (BatchWriter.rowOf f ⟨name, id, .ntNDArray img⟩ pvId reason).toOption ↔
      Storable (.ntNDArray img) := by
  obtain ⟨value, codecName, compressedSize, uncompressedSize, dimension, uniqueId, dataTimestamp,
    alarm, timestamp, attributes⟩ := img
  refine (routed_some rfl).trans ?_
  cases value with
  | ubyteArray v =>
    constructor
    · intro hview
      have hlost := Content.image.inj (congrArg (fun w => w.2.1) hview)
      exact ⟨List.map_eq_nil_iff.mp hlost.2.2.2.2.2.2.symm, .inl ⟨v, rfl⟩⟩
    · rintro ⟨rfl, -⟩
      rw [arrayElements_ubyteArray]
      rfl
  | _ =>
    constructor
    · intro hview
      have hlost := Content.image.inj (congrArg (fun w => w.2.1) hview)
      exact ⟨List.map_eq_nil_iff.mp hlost.2.2.2.2.2.2.symm, .inr hlost.1.symm⟩
    · rintro ⟨rfl, ⟨v, hv⟩ | hnil⟩
      · cases hv
      · rw [hnil]
        rfl

theorem rowOf_routed_iff (hf : f.Total) {u : PvUpdate} (h : ∀ nt, u.data ≠ .ntAggregate nt)
    (pvId : Int32) (reason : StoreReason) :
    Routed f u (BatchWriter.rowOf f u pvId reason).toOption ↔ Storable u.data := by
  obtain ⟨name, id, data⟩ := u
  obtain ⟨⟨bytes, hbytes⟩, ⟨v, hv⟩⟩ := hf data
  cases data with
  | ntScalar nt =>
    obtain ⟨value, alarm, timestamp⟩ := nt
    cases value with
    | string text =>
      refine (routed_some rfl).trans ?_
      constructor
      · intro hview
        have htable : "samples" = "samples_string" := congrArg Prod.fst hview
        exact absurd htable (by decide)
      · intro hnot
        exact absurd rfl (hnot text)
    | _ => exact ⟨fun _ s hs => (by cases hs), fun _ => (routed_some rfl).mpr rfl⟩
  | ntScalarArray a => exact scalarArray_routed_iff name id a pvId reason
  | ntNDArray img => exact ndArray_routed_iff name id img pvId reason
  | ntAggregate nt => exact absurd rfl (h nt)
  | ntEnum nt => exact ⟨fun _ => trivial, fun _ => (routed_some rfl).mpr rfl⟩
  | ntMatrix m => exact ⟨fun _ => trivial, fun _ => (routed_some rfl).mpr rfl⟩
  | ntTable nt | ntUnion nt | custom nt =>
    refine ⟨fun _ => trivial, fun _ => ?_⟩
    simp only [BatchWriter.rowOf, BatchWriter.jsonRow, PvUpdate.dataType, PvDataType.fromNt, hbytes]
    exact (routed_some (by simp only [content, hbytes]; rfl)).mpr rfl
  | _ =>
    refine ⟨fun _ => trivial, fun _ => ?_⟩
    simp only [BatchWriter.rowOf, BatchWriter.jsonRow, PvUpdate.dataType, PvDataType.fromNt, hv]
    exact (routed_some (by simp only [content, hv]; rfl)).mpr rfl

/-! ## Main theorem -/

/-- **Main theorem**: both paths store an update where its classification puts it, with its
    content, severity and status, and agree with each other, exactly if its value is
    storable. -/
theorem routed_iff (hf : f.Total) (u : PvUpdate) (pvId : Int32) (reason : StoreReason) :
    (Routed f u (slowPathRow f u pvId) ∧
      Routed f u (BatchWriter.rowOf f u pvId reason).toOption ∧
      (slowPathRow f u pvId).map StoredRow.view =
        (BatchWriter.rowOf f u pvId reason).toOption.map StoredRow.view) ↔
    Storable u.data := by
  by_cases haggregate : ∃ nt, u.data = .ntAggregate nt
  · -- The slow path goes on to the next event without a row.
    obtain ⟨nt, hnt⟩ := haggregate
    obtain ⟨name, id, data⟩ := u
    subst hnt
    refine ⟨fun ⟨hslow, _⟩ => ?_, fun hstorable => hstorable.elim⟩
    obtain ⟨v, hv⟩ := (hf (.ntAggregate nt)).2
    simp only [slowPathRow, PvDataType.fromNt, hv] at hslow
    cases hslow.1
  · have hother : ∀ nt, u.data ≠ .ntAggregate nt := fun nt hnt => haggregate ⟨nt, hnt⟩
    rw [slowPathRow_eq_rowOf hother pvId, rowOf_routed_iff hf hother, rowOf_routed_iff hf hother]
    refine ⟨fun h => h.1, fun h => ⟨h, h, ?_⟩⟩
    have hchanged := (rowOf_routed_iff hf hother pvId .valueChanged).mpr h
    have hreason := (rowOf_routed_iff hf hother pvId reason).mpr h
    rw [hchanged.2, hreason.2]

/-- Formats that write every value as the same text. -/
def constantFormats : Formats := ⟨fun _ => .ok [], fun _ => .ok .null, fun _ => ""⟩

/-- A waveform of two numbers is stored by both paths. -/
theorem routed_iff_waveform :
    let a : NTScalarArray := ⟨.intArray [1, -2], .default, ⟨0, 0, 0⟩, none, none, none⟩
    let u : PvUpdate := ⟨"WAVE", none, .ntScalarArray a⟩
    Storable u.data ∧
      (Routed constantFormats u (slowPathRow constantFormats u 7) ∧
        Routed constantFormats u (BatchWriter.rowOf constantFormats u 7 .initial).toOption ∧
        (slowPathRow constantFormats u 7).map StoredRow.view =
          (BatchWriter.rowOf constantFormats u 7 .initial).toOption.map StoredRow.view) := by
  intro a u
  have hstorable : Storable u.data := fun v hv => by cases hv
  have htotal : constantFormats.Total := fun nt => ⟨⟨_, rfl⟩, ⟨_, rfl⟩⟩
  exact ⟨hstorable, (routed_iff htotal u 7 .initial).mpr hstorable⟩

/-- A string PV that arrives as a value, such as its first update: both paths put the
    number 0 into `samples`. -/
theorem stringScalar_stored_as_zero :
    let u : PvUpdate :=
      ⟨"STATE", none, .ntScalar ⟨.string "OPEN", .default, ⟨0, 0, 0⟩, none, none, none⟩⟩
    tableName u.dataType = "samples_string" ∧
      (slowPathRow constantFormats u 7).map StoredRow.view =
        some ("samples", .number .zero, 0, 0) ∧
      ¬∀ (f : Formats) (u : PvUpdate) (pvId : Int32) (reason : StoreReason), f.Total →
        Routed f u (slowPathRow f u pvId) ∧
        Routed f u (BatchWriter.rowOf f u pvId reason).toOption := by
  intro u
  refine ⟨rfl, rfl, fun hstated => ?_⟩
  have htotal : constantFormats.Total := fun nt => ⟨⟨_, rfl⟩, ⟨_, rfl⟩⟩
  obtain ⟨hslow, -⟩ := hstated constantFormats u 7 .valueChanged htotal
  have htable := congrArg (Option.map Prod.fst) hslow.2
  exact absurd (Option.some.inj htable) (by decide)

end AuraEpics.Store
