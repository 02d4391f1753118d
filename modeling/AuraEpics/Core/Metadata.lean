import AuraEpics.Codec.FieldDesc
import AuraEpics.Core.Serialize
import AuraEpics.Types.ToNormative

/-!
# PV metadata

Model of `PvMetadata` (`crates/aura-core/src/metadata.rs`, lines 20-213 and 299-367) and of the
row `StoredMetadata` makes of it (`crates/aura-store/src/metadata.rs`, lines 79-128). `pv_id` is
`None` throughout, and the times are not compared.

Of the row the columns that `apply_display`, `apply_control` and `apply_value_alarm` set are left
out, and `dimensions`: `to_normative_from_value` reads none of the three structures and produces
neither NTMatrix nor NTNDArray, so that these columns keep the values of `PvMetadata::empty`.

Result: `rowOf_units`, metadata read from the wire has no unit.
-/

namespace AuraEpics.Core

open Numeric AuraEpics.Codec AuraEpics.Types

/-- `ScalarValue::type_tag` (scalars.rs, lines 255-270). -/
def typeTag : ScalarValue → ScalarType
  | .boolean _ => .boolean
  | .byte _ => .byte
  | .ubyte _ => .ubyte
  | .short _ => .short
  | .ushort _ => .ushort
  | .int _ => .int
  | .uint _ => .uint
  | .long _ => .long
  | .ulong _ => .ulong
  | .float _ => .float
  | .double _ => .double
  | .string _ => .string

/-- `ArrayValue::element_type` (arrays.rs, lines 84-99). -/
def elementType : ArrayValue → ScalarType
  | .booleanArray _ => .boolean
  | .byteArray _ => .byte
  | .ubyteArray _ => .ubyte
  | .shortArray _ => .short
  | .ushortArray _ => .ushort
  | .intArray _ => .int
  | .uintArray _ => .uint
  | .longArray _ => .long
  | .ulongArray _ => .ulong
  | .floatArray _ => .float
  | .doubleArray _ => .double
  | .stringArray _ => .string

/-- `HistogramValue::len` (table.rs, lines 77-83). -/
def binCount : HistogramValue → ℕ
  | .short v => v.length
  | .int v => v.length
  | .long v => v.length

/-- `DimensionInfo` (metadata.rs, lines 25-30). -/
structure DimensionInfo where
  size : Int32
  fullSize : Int32
  deriving DecidableEq, Repr

/-- `DimensionInfo::from_dimension` (lines 35-40). -/
def DimensionInfo.fromDimension (d : Dimension) : DimensionInfo := ⟨d.size, d.fullSize⟩

/-- `PvMetadata` (metadata.rs, lines 52-114). -/
structure PvMetadata where
  pvName : String
  dataType : PvDataType
  scalarType : Option ScalarType
  arraySize : Option ℕ
  description : String
  units : String
  precision : Int32
  displayForm : DisplayForm
  displayLow : Binary64
  displayHigh : Binary64
  controlLow : Binary64
  controlHigh : Binary64
  minStep : Binary64
  alarmLolo : Binary64
  alarmLow : Binary64
  alarmHigh : Binary64
  alarmHihi : Binary64
  alarmHysteresis : Binary64
  enumChoices : List String
  dimensions : List DimensionInfo
  deriving DecidableEq

namespace PvMetadata

/-- `PvMetadata::empty` (lines 299-324). -/
def empty (pvName : String) (dataType : PvDataType) : PvMetadata where
  pvName := pvName
  dataType := dataType
  scalarType := none
  arraySize := none
  description := ""
  units := ""
  precision := 0
  displayForm := .default
  displayLow := .zero
  displayHigh := .zero
  controlLow := .zero
  controlHigh := .zero
  minStep := .zero
  alarmLolo := .zero
  alarmLow := .zero
  alarmHigh := .zero
  alarmHihi := .zero
  alarmHysteresis := .zero
  enumChoices := []
  dimensions := []

/-- `PvMetadata::apply_display` (lines 344-353). -/
def applyDisplay (m : PvMetadata) (d : Display) : PvMetadata :=
  { m with
    description := if d.description = "" then m.description else d.description
    units := d.units
    precision := d.precision
    displayForm := d.form
    displayLow := d.limitLow
    displayHigh := d.limitHigh }

/-- `PvMetadata::apply_control` (lines 355-359). -/
def applyControl (m : PvMetadata) (c : Control) : PvMetadata :=
  { m with controlLow := c.limitLow, controlHigh := c.limitHigh, minStep := c.minStep }

/-- `PvMetadata::apply_value_alarm` (lines 361-367). -/
def applyValueAlarm (m : PvMetadata) (va : ValueAlarm) : PvMetadata :=
  { m with
    alarmLolo := va.lowAlarmLimit
    alarmLow := va.lowWarningLimit
    alarmHigh := va.highWarningLimit
    alarmHihi := va.highAlarmLimit
    alarmHysteresis := va.hysteresis }

/-- `apply_optional_display_control_alarm` (lines 327-342). -/
def applyOptionalDisplayControlAlarm (m : PvMetadata) (display : Option Display)
    (control : Option Control) (valueAlarm : Option ValueAlarm) : PvMetadata :=
  let m := display.elim m m.applyDisplay
  let m := control.elim m m.applyControl
  valueAlarm.elim m m.applyValueAlarm

/-- `PvMetadata::from_initial_update` (lines 121-213). -/
def fromInitialUpdate (pvName : String) (nt : NormativeType) : PvMetadata :=
  let new := empty pvName (PvDataType.fromNt nt)
  match nt with
  | .ntScalar s =>
    { new with scalarType := some (typeTag s.value) }.applyOptionalDisplayControlAlarm
      s.display s.control s.valueAlarm
  | .ntEnum e => { new with scalarType := some .int, enumChoices := e.choices }
  | .ntScalarArray a =>
    { new with
      scalarType := some (elementType a.value)
      arraySize := some a.value.len }.applyOptionalDisplayControlAlarm
        a.display a.control a.valueAlarm
  | .ntMatrix m =>
    let new := { new with
      scalarType := some .double, arraySize := some m.value.length, description := m.descriptor }
    let new := m.display.elim new new.applyDisplay
    if 2 ≤ m.dim.length then { new with dimensions := m.dim.map fun s => ⟨s, s⟩ } else new
  | .ntHistogram h => { new with description := h.descriptor, arraySize := some (binCount h.value) }
  | .ntContinuum c =>
    { new with
      scalarType := some .double
      description := c.descriptor
      arraySize := some c.base.length
      units := c.units.headD "" }
  | .ntNameValue nv =>
    { new with
      description := nv.descriptor
      arraySize := some nv.name.length
      scalarType := some (elementType nv.value) }
  | .ntTable t => { new with arraySize := some (t.columns.head?.elim 0 fun c => c.2.len) }
  | .ntNDArray img =>
    { new with
      scalarType := some (elementType img.value)
      dimensions := img.dimension.map .fromDimension }
  | .ntMultiChannel mc => { new with arraySize := some mc.channelName.length }
  | .ntAggregate _ => { new with scalarType := some .double }
  | .ntUnion u =>
    let new := { new with description := u.descriptor }
    match u.value with
    | .scalar s => { new with scalarType := some (typeTag s) }
    | _ => new
  | .custom _ => new

theorem pvName_applyOptional (m : PvMetadata) (d : Option Display) (c : Option Control)
    (va : Option ValueAlarm) :
    (m.applyOptionalDisplayControlAlarm d c va).pvName = m.pvName := by
  cases d <;> cases c <;> cases va <;> rfl

theorem pvName_fromInitialUpdate (pvName : String) (nt : NormativeType) :
    (fromInitialUpdate pvName nt).pvName = pvName := by
  cases nt with
  | ntScalar s => exact pvName_applyOptional ..
  | ntScalarArray a => exact pvName_applyOptional ..
  | ntMatrix m =>
    simp only [fromInitialUpdate]
    split_ifs <;> cases hd : m.display <;> rfl
  | ntUnion u =>
    simp only [fromInitialUpdate]
    split <;> rfl
  | _ => rfl

end PvMetadata

/-- `StoredMetadata` (aura-store/src/metadata.rs, lines 79-102); the two texts made of
    `data_type` and `scalar_type` are kept as what they are made of. -/
structure StoredMetadata where
  pvName : String
  dataType : PvDataType
  scalarType : Option ScalarType
  arraySize : Option Int32
  description : String
  units : String
  enumChoices : List String
  deriving DecidableEq

/-- `StoredMetadata::from_core` (lines 106-129). -/
def StoredMetadata.fromCore (m : PvMetadata) : StoredMetadata where
  pvName := m.pvName
  dataType := m.dataType
  scalarType := m.scalarType
  arraySize := m.arraySize.map Int32.ofNat
  description := m.description
  units := m.units
  enumChoices := m.enumChoices

/-- The row of what the converter hands over as metadata. -/
def StoredMetadata.ofInitial (initial : String × NormativeType) : StoredMetadata :=
  .fromCore (.fromInitialUpdate initial.1 initial.2)

/-- The row for a full update. -/
def StoredMetadata.rowOf (pvName : String) (value : PvaValue) : Option StoredMetadata :=
  (toNormativeFromValue value).map fun nt => .ofInitial (pvName, nt)

namespace StoredMetadata

theorem pvName_ofInitial (initial : String × NormativeType) :
    (ofInitial initial).pvName = initial.1 := PvMetadata.pvName_fromInitialUpdate ..

theorem pvName_of_rowOf {pvName : String} {value : PvaValue} {row : StoredMetadata}
    (h : rowOf pvName value = some row) : row.pvName = pvName := by
  obtain ⟨nt, -, rfl⟩ := Option.map_eq_some_iff.1 h
  exact pvName_ofInitial (pvName, nt)

/-- Whatever `display` says: no unit and no description reach the row of an update. -/
theorem rowOf_units {pvName : String} {value : PvaValue} {row : StoredMetadata}
    (h : rowOf pvName value = some row) : row.units = "" ∧ row.description = "" := by
  unfold rowOf at h
  obtain ⟨nt, hnt, rfl⟩ := Option.map_eq_some_iff.1 h
  obtain ⟨s, a, t, rfl⟩ | ⟨e, rfl⟩ | ⟨v, a, t, rfl⟩ := toNormativeFromValue_cases hnt
  · exact ⟨rfl, rfl⟩
  · exact ⟨rfl, rfl⟩
  · exact ⟨rfl, rfl⟩

end StoredMetadata

end AuraEpics.Core
