import AuraEpics.Types.JsonForm
import AuraEpics.Types.Positional

/-!
# Conversion by descriptor and by shape

Model of the rest of `crates/aura-net/src/types/to_normative.rs`: `to_normative` (lines 32-49),
which converts by the type id of the descriptor, with the conversions only it uses (lines 177-245
and 436-478). `to_normative_from_value` has no descriptor and goes by the `value` field alone: a
scalar, a structure with an `index`, an array (`ValueShape`).

`to_normative` converts a table to an NTTable and an image to an NTNDArray, or to nothing; by
shape neither comes out. For the other three type ids the two agree where the shape is the one
the type id stands for, or where neither makes anything of the value.

Results: `toNormativeFromValue_eq_toNormative_iff`, and `agrees_of_conforms` for descriptors as
the Normative Types have them.
-/

namespace AuraEpics.Types

open AuraEpics.Codec AuraEpics.Core

/-! ## Tables, images and custom types -/

/-- `convert_nt_table` (lines 177-199): the columns are the array fields of `value`. -/
def convertNtTable (value : PvaValue) : Option NormativeType :=
  let labels := extractStringArray (value.field "labels")
  let columns :=
    match value.field "value" with
    | some (.struct fields) =>
      fields.filterMap fun f => (extractArrayValue f.2).map fun arr => (f.1, arr)
    | _ => []
  some (.ntTable ⟨labels, columns, extractAlarm value, extractTimestamp value⟩)

/-- The closure of `extract_dimensions` (lines 441-455). -/
def extractDimension (dim : PvaValue) : Option Dimension := do
  let size ← dim.fieldI32 "size"
  return {
    size
    offset := (dim.fieldI32 "offset").getD 0
    fullSize := (dim.fieldI32 "fullSize").getD 0
    binning := (dim.fieldI32 "binning").getD 1
    reverse := (((dim.field "reverse").bind PvaValue.asScalar).map fun s =>
      decide (s = .boolean true)).getD false }

/-- `extract_dimensions` (lines 437-459). -/
def extractDimensions : Option PvaValue → List Dimension
  | some (.struct fields) => fields.filterMap fun f => extractDimension f.2
  | _ => []

/-- The closure of `extract_nd_attributes` (lines 466-476). -/
def extractNdAttribute (attr : PvaValue) : Option NdAttribute := do
  let name ← attr.fieldString "name"
  let value ← (← attr.field "value").asScalar
  return {
    name
    value
    source := (attr.fieldString "source").getD ""
    sourceType := .driver
    description := (attr.fieldString "description").getD "" }

/-- `extract_nd_attributes` (lines 462-479). -/
def extractNdAttributes : Option PvaValue → List NdAttribute
  | some (.struct attrs) => attrs.filterMap fun f => extractNdAttribute f.2
  | _ => []

/-- `convert_nt_ndarray` (lines 201-238). -/
def convertNtNDArray (value : PvaValue) : Option NormativeType := do
  let imageData ← extractArrayValue (← value.field "value")
  let codecName :=
    match value.field "codec" with
    | some c => (c.fieldString "name").getD ""
    | none => ""
  let dataTimestamp := (value.field "dataTimeStamp").map extractTimestampFrom
  return .ntNDArray {
    value := imageData
    codecName
    compressedSize := (value.fieldI64 "compressedSize").getD 0
    uncompressedSize := (value.fieldI64 "uncompressedSize").getD 0
    dimension := extractDimensions (value.field "dimension")
    uniqueId := (value.fieldI32 "uniqueId").getD 0
    dataTimestamp := some (dataTimestamp.getD .default)
    alarm := extractAlarm value
    timestamp := extractTimestamp value
    attributes := extractNdAttributes (value.field "attribute") }

/-- `convert_custom` (lines 240-247). -/
def convertCustom (value : PvaValue) : Option NormativeType :=
  some (.custom ⟨pvaValueToJson value, extractAlarm value, extractTimestamp value⟩)

/-- `to_normative` (lines 32-49). -/
def toNormative (desc : FieldDesc) (value : PvaValue) : Option NormativeType :=
  if value.isNull then none
  else if desc.typeId = "epics:nt/NTScalar:1.0" then convertNtScalar value
  else if desc.typeId = "epics:nt/NTEnum:1.0" then convertNtEnum value
  else if desc.typeId = "epics:nt/NTScalarArray:1.0" then convertNtScalarArray value
  else if desc.typeId = "epics:nt/NTTable:1.0" then convertNtTable value
  else if desc.typeId = "epics:nt/NTNDArray:1.0" then convertNtNDArray value
  else convertCustom value

/-! ## Shapes -/

/-- What `to_normative_from_value` tells apart in the `value` field. -/
inductive ValueShape where
  | missing | scalar | indexed | array | other
  deriving DecidableEq, Repr

/-- The shape of a field (lines 66-80). -/
def fieldShape (w : PvaValue) : ValueShape :=
  if w.asScalar.isSome then .scalar
  else if (w.field "index").isSome then .indexed
  else if w.isArray then .array
  else .other

/-- The shape of the `value` field of a structure. -/
def valueShape (v : PvaValue) : ValueShape := (v.field "value").elim .missing fieldShape

theorem toNormativeFromValue_struct (fs : List (String × PvaValue)) :
    toNormativeFromValue (.struct fs) =
      match valueShape (.struct fs) with
      | .scalar => convertNtScalar (.struct fs)
      | .indexed => convertNtEnum (.struct fs)
      | .array => convertNtScalarArray (.struct fs)
      | .missing | .other => none := by
  unfold toNormativeFromValue valueShape
  rw [if_neg (by simp [PvaValue.isNull])]
  cases PvaValue.field (.struct fs) "value" with
  | none => rfl
  | some w =>
    simp only [Option.bind_eq_bind, Option.bind_some, Option.elim_some]
    unfold fieldShape
    split_ifs <;> rfl

/-! ## What each conversion makes of a shape -/

theorem fieldShape_eq_scalar_iff (w : PvaValue) :
    fieldShape w = .scalar ↔ w.asScalar.isSome = true := by
  unfold fieldShape
  split_ifs <;> simp_all

theorem fieldShape_eq_array_iff (w : PvaValue) :
    fieldShape w = .array ↔ w.asScalarArray.isSome = true := by
  cases w with
  | struct fs =>
    unfold fieldShape
    rw [if_neg (by simp [PvaValue.asScalar])]
    split_ifs <;> simp_all [PvaValue.isArray, PvaValue.asScalarArray]
  | scalarArray vs => exact iff_of_true rfl rfl
  | _ => simp [fieldShape, PvaValue.asScalar, PvaValue.field, PvaValue.isArray,
      PvaValue.asScalarArray]

theorem fieldShape_ne_missing (w : PvaValue) : fieldShape w ≠ .missing := by
  unfold fieldShape
  split_ifs <;> simp

theorem valueShape_eq_scalar_iff (v : PvaValue) :
    valueShape v = .scalar ↔ ((v.field "value").bind PvaValue.asScalar).isSome = true := by
  unfold valueShape
  cases v.field "value" with
  | none => simp
  | some w => exact fieldShape_eq_scalar_iff w

theorem valueShape_eq_array_iff (v : PvaValue) :
    valueShape v = .array ↔ ((v.field "value").bind extractArrayValue).isSome = true := by
  unfold valueShape
  cases v.field "value" with
  | none => simp
  | some w =>
    rw [Option.elim_some, Option.bind_some, extractArrayValue, Option.isSome_map]
    exact fieldShape_eq_array_iff w

theorem valueShape_eq_missing_iff (v : PvaValue) :
    valueShape v = .missing ↔ v.field "value" = none := by
  unfold valueShape
  cases v.field "value" with
  | none => simp
  | some w => simpa using fieldShape_ne_missing w

theorem convertNtScalar_eq_none_iff (v : PvaValue) :
    convertNtScalar v = none ↔ valueShape v ≠ .scalar ∧ ¬ReadByPosition v := by
  by_cases hpos : ReadByPosition v
  · obtain ⟨s, hs⟩ := Option.isSome_iff_exists.1 hpos.1
    rw [convertNtScalar_of_readByPosition hpos, hs]
    simp [hpos]
  · rw [convertNtScalar_of_not_readByPosition hpos, convertNtScalarFallback_eq,
      Option.map_eq_none_iff, ne_eq, valueShape_eq_scalar_iff, Option.not_isSome_iff_eq_none]
    exact (and_iff_left hpos).symm

theorem convertNtEnum_eq_none_iff (v : PvaValue) :
    convertNtEnum v = none ↔ valueShape v = .missing := by
  rw [valueShape_eq_missing_iff]
  unfold convertNtEnum
  cases v.field "value" <;> simp

theorem convertNtScalarArray_eq_none_iff (v : PvaValue) :
    convertNtScalarArray v = none ↔ valueShape v ≠ .array := by
  rw [ne_eq, valueShape_eq_array_iff, Option.not_isSome_iff_eq_none]
  unfold convertNtScalarArray
  cases v.field "value" with
  | none => simp
  | some w => cases hw : extractArrayValue w <;> simp [hw]

theorem convertNtNDArray_eq_none_iff (v : PvaValue) :
    convertNtNDArray v = none ↔ valueShape v ≠ .array := by
  rw [ne_eq, valueShape_eq_array_iff, Option.not_isSome_iff_eq_none]
  unfold convertNtNDArray
  cases v.field "value" with
  | none => simp
  | some w => cases hw : extractArrayValue w <;> simp [hw]

theorem typeName_convertNtScalar {v : PvaValue} {nt : NormativeType}
    (h : convertNtScalar v = some nt) : nt.typeName = "NTScalar" := by
  obtain ⟨s, a, t, rfl⟩ := convertNtScalar_cases h
  rfl

theorem typeName_convertNtEnum {v : PvaValue} {nt : NormativeType}
    (h : convertNtEnum v = some nt) : nt.typeName = "NTEnum" := by
  obtain ⟨e, rfl⟩ := convertNtEnum_cases h
  rfl

theorem typeName_convertNtScalarArray {v : PvaValue} {nt : NormativeType}
    (h : convertNtScalarArray v = some nt) : nt.typeName = "NTScalarArray" := by
  obtain ⟨s, a, t, rfl⟩ := convertNtScalarArray_cases h
  rfl

theorem typeName_convertNtNDArray {v : PvaValue} {nt : NormativeType}
    (h : convertNtNDArray v = some nt) : nt.typeName = "NTNDArray" := by
  unfold convertNtNDArray at h
  simp only [Option.bind_eq_bind, Option.bind_eq_some_iff] at h
  obtain ⟨w, -, a, -, ha⟩ := h
  rw [← Option.some.inj ha]
  rfl

/-! ## Where they agree -/

/-- The five supported Normative Types. -/
inductive NtKind where
  | scalar | enum | scalarArray | table | ndArray
  deriving DecidableEq, Repr

/-- The type ids of `to_normative` (lines 37-42). -/
def NtKind.typeId : NtKind → String
  | scalar => "epics:nt/NTScalar:1.0"
  | enum => "epics:nt/NTEnum:1.0"
  | scalarArray => "epics:nt/NTScalarArray:1.0"
  | table => "epics:nt/NTTable:1.0"
  | ndArray => "epics:nt/NTNDArray:1.0"

/-- The conversion of a type. -/
def NtKind.convert : NtKind → PvaValue → Option NormativeType
  | scalar => convertNtScalar
  | enum => convertNtEnum
  | scalarArray => convertNtScalarArray
  | table => convertNtTable
  | ndArray => convertNtNDArray

theorem toNormative_struct {desc : FieldDesc} {k : NtKind} (h : desc.typeId = k.typeId)
    (fs : List (String × PvaValue)) : toNormative desc (.struct fs) = k.convert (.struct fs) := by
  unfold toNormative
  rw [if_neg (by simp [PvaValue.isNull]), h]
  cases k <;> rfl

/-- When shape and type id lead to the same result. -/
def Agrees (k : NtKind) (v : PvaValue) : Prop :=
  match k with
  | .scalar => valueShape v = .scalar ∨
      ((valueShape v = .missing ∨ valueShape v = .other) ∧ ¬ReadByPosition v)
  | .enum => valueShape v = .indexed ∨ valueShape v = .missing
  | .scalarArray => valueShape v = .array ∨ valueShape v = .missing ∨ valueShape v = .other
  | .table => False
  | .ndArray => valueShape v = .missing ∨ valueShape v = .other

/-- A value with nothing to convert by shape is converted to nothing. -/
theorem none_eq_convert_iff (k : NtKind) {v : PvaValue}
    (h : valueShape v = .missing ∨ valueShape v = .other) :
    none = k.convert v ↔ Agrees k v := by
  rw [eq_comm]
  cases k with
  | scalar =>
    show convertNtScalar v = none ↔ _
    rw [convertNtScalar_eq_none_iff]
    unfold Agrees
    obtain h | h := h <;> simp [h]
  | enum =>
    show convertNtEnum v = none ↔ _
    rw [convertNtEnum_eq_none_iff]
    unfold Agrees
    obtain h | h := h <;> simp [h]
  | scalarArray =>
    show convertNtScalarArray v = none ↔ _
    rw [convertNtScalarArray_eq_none_iff]
    unfold Agrees
    obtain h | h := h <;> simp [h]
  | table => exact iff_of_false nofun id
  | ndArray =>
    show convertNtNDArray v = none ↔ _
    rw [convertNtNDArray_eq_none_iff]
    unfold Agrees
    obtain h | h := h <;> simp [h]

/-- The name of the type `k` converts to. -/
def NtKind.typeName : NtKind → String
  | scalar => "NTScalar"
  | enum => "NTEnum"
  | scalarArray => "NTScalarArray"
  | table => "NTTable"
  | ndArray => "NTNDArray"

theorem typeName_convert (k : NtKind) {v : PvaValue} {nt : NormativeType}
    (h : k.convert v = some nt) : nt.typeName = k.typeName := by
  cases k with
  | scalar => exact typeName_convertNtScalar h
  | enum => exact typeName_convertNtEnum h
  | scalarArray => exact typeName_convertNtScalarArray h
  | table =>
    rw [← Option.some.inj h]
    rfl
  | ndArray => exact typeName_convertNtNDArray h

/-- A value that becomes something of one type by shape agrees with that type only. -/
theorem convert_eq_convert_iff {j k : NtKind} {v : PvaValue} (h : j.convert v ≠ none) :
    j.convert v = k.convert v ↔ j = k := by
  constructor
  · intro heq
    obtain ⟨nt, hnt⟩ := Option.ne_none_iff_exists'.1 h
    have hj := typeName_convert j hnt
    rw [heq] at hnt
    have hk := typeName_convert k hnt
    rw [hj] at hk
    cases j <;> cases k <;> first | rfl | exact absurd hk (by decide)
  · rintro rfl
    rfl

theorem toNormativeFromValue_eq_convert_iff (k : NtKind) (fs : List (String × PvaValue)) :
    toNormativeFromValue (.struct fs) = k.convert (.struct fs) ↔ Agrees k (.struct fs) := by
  rw [toNormativeFromValue_struct]
  generalize PvaValue.struct fs = v
  cases hshape : valueShape v with
  | missing => exact none_eq_convert_iff k (.inl hshape)
  | other => exact none_eq_convert_iff k (.inr hshape)
  | scalar =>
    have hsome : NtKind.scalar.convert v ≠ none := by
      show convertNtScalar v ≠ none
      simp [convertNtScalar_eq_none_iff, hshape]
    refine (convert_eq_convert_iff hsome).trans ?_
    cases k <;> simp [Agrees, hshape]
  | indexed =>
    have hsome : NtKind.enum.convert v ≠ none := by
      show convertNtEnum v ≠ none
      simp [convertNtEnum_eq_none_iff, hshape]
    refine (convert_eq_convert_iff hsome).trans ?_
    cases k <;> simp [Agrees, hshape]
  | array =>
    have hsome : NtKind.scalarArray.convert v ≠ none := by
      show convertNtScalarArray v ≠ none
      simp [convertNtScalarArray_eq_none_iff, hshape]
    refine (convert_eq_convert_iff hsome).trans ?_
    cases k <;> simp [Agrees, hshape]

/-! ## Decoded values -/

/-- The member `value` is what the Normative Type has there: a scalar, an enumeration with its
    index, an array of scalars, the union of an image. A table has a structure of columns, which
    no shape stands for. -/
def Conforms (k : NtKind) (desc : FieldDesc) : Prop :=
  ∃ d, desc.findField "value" = some d ∧
    match k with
    | .scalar => ∃ st, d.fieldType = .scalar st
    | .enum => d.fieldType = .struct ∧ (d.findField "index").isSome = true
    | .scalarArray => ∃ st, d.fieldType = .scalarArray st
    | .table => False
    | .ndArray => d.fieldType = .union

theorem decodeFields_field {fs : List (String × FieldDesc)} {vs : List (String × PvaValue)}
    {r r' : PvaReader} (h : decodeFields fs r = (.ok vs, r')) {name : String} {d : FieldDesc}
    (hd : (fs.find? fun f => f.1 == name).map Prod.snd = some d) :
    ∃ w r₁ r₂, PvaValue.field (.struct vs) name = some w ∧ decodeFrom d r₁ = (.ok w, r₂) := by
  induction fs generalizing vs r with
  | nil => simp at hd
  | cons f fs ih =>
    obtain ⟨n, e⟩ := f
    rw [decodeFields, Read.bind_eq_ok] at h
    obtain ⟨w, r₁, hw, h⟩ := h
    obtain ⟨ws, r₂, hws, h⟩ := Read.bind_eq_ok.1 h
    obtain ⟨rfl, rfl⟩ := Read.pure_eq_ok.1 h
    by_cases hn : n = name
    · have he : e = d := by simpa [hn] using hd
      subst he
      exact ⟨w, r, r₁, by simp [PvaValue.field, hn], hw⟩
    · have htail : (fs.find? fun f => f.1 == name).map Prod.snd = some d := by
        simpa [List.find?_cons, hn] using hd
      obtain ⟨x, s₁, s₂, hx, hdec⟩ := ih hws htail
      exact ⟨x, s₁, s₂, by simpa [PvaValue.field, List.find?_cons, hn] using hx, hdec⟩

theorem decodeFrom_struct_field {d : FieldDesc} (hd : d.fieldType = .struct) {v : PvaValue}
    {r r' : PvaReader} (h : decodeFrom d r = (.ok v, r')) {name : String} {e : FieldDesc}
    (he : d.findField name = some e) :
    ∃ w r₁ r₂, v.field name = some w ∧ decodeFrom e r₁ = (.ok w, r₂) := by
  obtain ⟨ft, id, fs⟩ := d
  obtain rfl : ft = .struct := hd
  rw [decodeFrom_struct, Read.map_eq_ok] at h
  obtain ⟨vs, hvs, rfl⟩ := h
  exact decodeFields_field hvs he

theorem decodeSelected_eq_union {n idx i : ℕ} {fs : List (String × FieldDesc)} {v : PvaValue}
    {r r' : PvaReader} (h : decodeSelected n idx i fs r = (.ok v, r')) :
    ∃ name w, v = .union name w := by
  induction fs generalizing i with
  | nil =>
    rw [decodeSelected] at h
    cases h
  | cons f fs ih =>
    obtain ⟨name, d⟩ := f
    cases i with
    | zero =>
      rw [decodeSelected, Read.map_eq_ok] at h
      obtain ⟨w, -, rfl⟩ := h
      exact ⟨name, w, rfl⟩
    | succ i =>
      rw [decodeSelected] at h
      exact ih h

theorem fieldShape_union {d : FieldDesc} (hd : d.fieldType = .union) {v : PvaValue}
    {r r' : PvaReader} (h : decodeFrom d r = (.ok v, r')) : fieldShape v = .other := by
  obtain ⟨ft, id, fs⟩ := d
  obtain rfl : ft = .union := hd
  rw [decodeFrom, Read.bind_eq_ok] at h
  obtain ⟨selector, r₁, -, h⟩ := h
  split_ifs at h
  · obtain ⟨rfl, -⟩ := Read.pure_eq_ok.1 h
    rfl
  · obtain ⟨name, w, rfl⟩ := decodeSelected_eq_union h
    rfl

theorem agrees_of_conforms {k : NtKind} {desc : FieldDesc} (hdesc : desc.fieldType = .struct)
    (hk : Conforms k desc) {v : PvaValue} {r r' : PvaReader}
    (h : decodeFrom desc r = (.ok v, r')) : Agrees k v := by
  obtain ⟨d, hd, hk⟩ := hk
  obtain ⟨w, r₁, r₂, hw, hdec⟩ := decodeFrom_struct_field hdesc h hd
  have hshape : valueShape v = fieldShape w := by rw [valueShape, hw, Option.elim_some]
  cases k with
  | scalar =>
    obtain ⟨st, hst⟩ := hk
    obtain ⟨ft, id, fs⟩ := d
    obtain rfl : ft = .scalar st := hst
    rw [decodeFrom_scalar, Read.map_eq_ok] at hdec
    obtain ⟨s, -, rfl⟩ := hdec
    exact .inl hshape
  | enum =>
    obtain ⟨hst, hindex⟩ := hk
    obtain ⟨e, he⟩ := Option.isSome_iff_exists.1 hindex
    obtain ⟨x, -, -, hx, -⟩ := decodeFrom_struct_field hst hdec he
    refine .inl (hshape.trans ?_)
    cases w with
    | struct ws => simp [fieldShape, PvaValue.asScalar, hx]
    | _ => cases hx
  | scalarArray =>
    obtain ⟨st, hst⟩ := hk
    obtain ⟨ft, id, fs⟩ := d
    obtain rfl : ft = .scalarArray st := hst
    rw [decodeFrom_scalarArray, Read.map_eq_ok] at hdec
    obtain ⟨vs, -, rfl⟩ := hdec
    exact .inl hshape
  | table => exact hk.elim
  | ndArray => exact .inr (hshape.trans (fieldShape_union hk hdec))

/-! ## Main theorem -/

/-- **Main theorem**: for every structure decoded from a descriptor with one of the five type
    ids, the conversion by shape is that by descriptor exactly if the `value` field has the shape
    the type id stands for, or both make nothing of it. So it is for a descriptor whose `value`
    is what its type has there, a table apart. -/
theorem toNormativeFromValue_eq_toNormative_iff {k : NtKind} {desc : FieldDesc}
    (htype : desc.typeId = k.typeId) {fs : List (String × PvaValue)} {r r' : PvaReader}
    (hdecode : decodeFrom desc r = (.ok (.struct fs), r')) :
    (toNormativeFromValue (.struct fs) = toNormative desc (.struct fs) ↔ Agrees k (.struct fs)) ∧
      (desc.fieldType = .struct → Conforms k desc →
        toNormativeFromValue (.struct fs) = toNormative desc (.struct fs)) := by
  have hiff : toNormativeFromValue (.struct fs) = toNormative desc (.struct fs) ↔
      Agrees k (.struct fs) := by
    rw [toNormative_struct htype]
    exact toNormativeFromValue_eq_convert_iff k fs
  exact ⟨hiff, fun hdesc hk => hiff.mpr (agrees_of_conforms hdesc hk hdecode)⟩

/-- The descriptor of a boolean NTScalar without alarm and time. -/
def booleanScalar : FieldDesc := .struct "epics:nt/NTScalar:1.0" [("value", .scalar .boolean)]

theorem decodeFrom_booleanScalar :
    decodeFrom booleanScalar (.new [1] .littleEndian) =
      (.ok (.struct [("value", .scalar (.boolean true))]),
        ⟨[1], 1, .littleEndian, by decide⟩) := rfl

theorem toNormativeFromValue_eq_toNormative_booleanScalar :
    toNormativeFromValue (.struct [("value", .scalar (.boolean true))]) =
      toNormative booleanScalar (.struct [("value", .scalar (.boolean true))]) :=
  (toNormativeFromValue_eq_toNormative_iff (k := .scalar) rfl
    decodeFrom_booleanScalar).2 rfl ⟨.scalar .boolean, rfl, .boolean, rfl⟩

/-- A table without columns: an NTTable by its descriptor, dropped by its shape. -/
theorem table_dropped :
    ¬∀ (k : NtKind) (desc : FieldDesc) (fs : List (String × PvaValue)) (r r' : PvaReader),
      desc.typeId = k.typeId → decodeFrom desc r = (.ok (.struct fs), r') →
      toNormativeFromValue (.struct fs) = toNormative desc (.struct fs) := by
  intro h
  let desc : FieldDesc := .struct "epics:nt/NTTable:1.0" [("value", .struct "" [])]
  have hdecode : decodeFrom desc (.new [] .littleEndian) =
      (.ok (.struct [("value", .struct [])]), .new [] .littleEndian) := rfl
  have heq := congrArg Option.isSome (h .table desc _ _ _ rfl hdecode)
  have hshape : (toNormativeFromValue (.struct [("value", .struct [])])).isSome = false := by
    decide +kernel
  have hdesc : (toNormative desc (.struct [("value", .struct [])])).isSome = true := by
    decide +kernel
  rw [hshape, hdesc] at heq
  cases heq

end AuraEpics.Types
