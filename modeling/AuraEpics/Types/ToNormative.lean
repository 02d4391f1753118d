import AuraEpics.Core.Normative

/-!
# From wire values to Normative Types

Model of the descriptor-free conversion of a decoded value
(`crates/aura-net/src/types/to_normative.rs`, lines 51-173 and 247-421), which the ingest
converter uses. It recognises NTScalar, NTEnum and NTScalarArray by the shape of the
`value` field.

Result: `toNormativeFromValue_cases`, nothing else comes out of it.
-/

namespace AuraEpics.Types

open Numeric AuraEpics.Core

namespace PvaValue

/-- `PvaValue::field_i32` (pva_value.rs, lines 175-177). -/
def fieldI32 (v : PvaValue) (name : String) : Option Int32 := (v.field name).bind asI32

/-- `PvaValue::field_i64` (pva_value.rs, lines 178-180). -/
def fieldI64 (v : PvaValue) (name : String) : Option Int64 := (v.field name).bind asI64

/-- `PvaValue::field_string` (pva_value.rs, lines 181-183). -/
def fieldString (v : PvaValue) (name : String) : Option String := (v.field name).bind asString

/-- `PvaValue::is_null` (pva_value.rs, lines 186-188). -/
def isNull : PvaValue → Bool
  | null => true
  | _ => false

/-- `PvaValue::is_array` (pva_value.rs, lines 198-200). -/
def isArray : PvaValue → Bool
  | scalarArray _ => true
  | _ => false

end PvaValue

/-! ## Fields -/

/-- `extract_alarm` (lines 248-257). -/
def extractAlarm (value : PvaValue) : Alarm :=
  match value.field "alarm" with
  | some a =>
    ⟨.ofI16 ((a.fieldI32 "severity").getD 0).toInt16, .ofI16 ((a.fieldI32 "status").getD 0).toInt16,
      (a.fieldString "message").getD ""⟩
  | none => .default

/-- `extract_timestamp_from` (lines 268-277). -/
def extractTimestampFrom (ts : PvaValue) : TimeStamp :=
  ⟨(ts.fieldI64 "secondsPastEpoch").getD 0, ((ts.fieldI32 "nanoseconds").getD 0).toUInt32,
    (ts.fieldI32 "userTag").getD 0⟩

/-- `extract_timestamp` (lines 260-265). -/
def extractTimestamp (value : PvaValue) : TimeStamp :=
  ((value.field "timeStamp").map extractTimestampFrom).getD .default

/-- `extract_string_array` (lines 280-294). -/
def extractStringArray : Option PvaValue → List String
  | some (.scalarArray arr) => arr.filterMap fun
    | .string s => some s
    | _ => none
  | _ => []

/-- `extract_array_value` (lines 297-421): the first element decides the type; elements of
    other types are left out, in a boolean array they are `false`. -/
def extractArrayValue (val : PvaValue) : Option ArrayValue :=
  val.asScalarArray.map fun arr =>
    match arr.head? with
    | none => .doubleArray []
    | some (.boolean _) => .booleanArray (arr.map fun s => s = .boolean true)
    | some (.byte _) => .byteArray (arr.filterMap fun | .byte v => some v | _ => none)
    | some (.ubyte _) => .ubyteArray (arr.filterMap fun | .ubyte v => some v | _ => none)
    | some (.short _) => .shortArray (arr.filterMap fun | .short v => some v | _ => none)
    | some (.ushort _) => .ushortArray (arr.filterMap fun | .ushort v => some v | _ => none)
    | some (.int _) => .intArray (arr.filterMap fun | .int v => some v | _ => none)
    | some (.uint _) => .uintArray (arr.filterMap fun | .uint v => some v | _ => none)
    | some (.long _) => .longArray (arr.filterMap fun | .long v => some v | _ => none)
    | some (.ulong _) => .ulongArray (arr.filterMap fun | .ulong v => some v | _ => none)
    | some (.float _) => .floatArray (arr.filterMap fun | .float v => some v | _ => none)
    | some (.double _) => .doubleArray (arr.filterMap fun | .double v => some v | _ => none)
    | some (.string _) => .stringArray (arr.filterMap fun | .string v => some v | _ => none)

/-! ## Conversions -/

/-- `convert_nt_scalar_fallback` (lines 140-151). -/
def convertNtScalarFallback (value : PvaValue) : Option NormativeType := do
  let scalarVal ← (← value.field "value").asScalar
  return .ntScalar ⟨scalarVal, extractAlarm value, extractTimestamp value, none, none, none⟩

/-- The alarm at index 1 (lines 95-117): its fields are taken by position. -/
def alarmByPosition : PvaValue → Alarm
  | .struct fs =>
    ⟨.ofI16 ((fs[0]?.bind fun f => f.2.asI32).getD 0).toInt16,
      .ofI16 ((fs[1]?.bind fun f => f.2.asI32).getD 0).toInt16,
      (fs[2]?.bind fun f => f.2.asString).getD ""⟩
  | _ => .default

/-- The timestamp at index 2 (lines 120-128). -/
def timestampByPosition : PvaValue → TimeStamp
  | .struct fs =>
    ⟨(fs[0]?.bind fun f => f.2.asI64).getD 0, ((fs[1]?.bind fun f => f.2.asI32).getD 0).toUInt32,
      (fs[2]?.bind fun f => f.2.asI32).getD 0⟩
  | _ => .default

/-- `convert_nt_scalar` (lines 83-141): a structure of three fields or more is read by
    position if its first field is a scalar. -/
def convertNtScalar (value : PvaValue) : Option NormativeType :=
  match value with
  | .struct ((_, .scalar scalarVal) :: (_, alarm) :: (_, timestamp) :: _) =>
    some (.ntScalar ⟨scalarVal, alarmByPosition alarm, timestampByPosition timestamp, none, none,
      none⟩)
  | _ => convertNtScalarFallback value

/-- `convert_nt_enum` (lines 153-163). -/
def convertNtEnum (value : PvaValue) : Option NormativeType := do
  let enumStruct ← value.field "value"
  let index := (enumStruct.fieldI32 "index").getD 0
  let choices := extractStringArray (enumStruct.field "choices")
  return .ntEnum ⟨index, choices, extractAlarm value, extractTimestamp value⟩

/-- `convert_nt_scalar_array` (lines 165-175). -/
def convertNtScalarArray (value : PvaValue) : Option NormativeType := do
  let arrayVal ← extractArrayValue (← value.field "value")
  return .ntScalarArray ⟨arrayVal, extractAlarm value, extractTimestamp value, none, none, none⟩

/-- `to_normative_from_value` (lines 58-81). -/
def toNormativeFromValue (value : PvaValue) : Option NormativeType :=
  if value.isNull then none
  else do
    let valField ← value.field "value"
    if valField.asScalar.isSome then convertNtScalar value
    else if (valField.field "index").isSome then convertNtEnum value
    else if valField.isArray then convertNtScalarArray value
    else none

/-! ## What comes out -/

theorem convertNtScalar_cases {value : PvaValue} {nt : NormativeType}
    (h : convertNtScalar value = some nt) : ∃ v a t, nt = .ntScalar ⟨v, a, t, none, none, none⟩ := by
  unfold convertNtScalar at h
  split at h
  · exact ⟨_, _, _, (Option.some.inj h).symm⟩
  · unfold convertNtScalarFallback at h
    simp only [Option.bind_eq_bind, Option.bind_eq_some_iff] at h
    obtain ⟨v, -, s, -, hs⟩ := h
    exact ⟨_, _, _, (Option.some.inj hs).symm⟩

theorem convertNtEnum_cases {value : PvaValue} {nt : NormativeType}
    (h : convertNtEnum value = some nt) : ∃ e, nt = .ntEnum e := by
  unfold convertNtEnum at h
  simp only [Option.bind_eq_bind, Option.bind_eq_some_iff] at h
  obtain ⟨v, -, hv⟩ := h
  exact ⟨_, (Option.some.inj hv).symm⟩

theorem convertNtScalarArray_cases {value : PvaValue} {nt : NormativeType}
    (h : convertNtScalarArray value = some nt) :
    ∃ v a t, nt = .ntScalarArray ⟨v, a, t, none, none, none⟩ := by
  unfold convertNtScalarArray at h
  simp only [Option.bind_eq_bind, Option.bind_eq_some_iff] at h
  obtain ⟨v, -, a, -, ha⟩ := h
  exact ⟨_, _, _, (Option.some.inj ha).symm⟩

/-- A value converts to an NTScalar, an NTEnum or an NTScalarArray, if at all; none of them has
    display, control or alarm limits. -/
theorem toNormativeFromValue_cases {value : PvaValue} {nt : NormativeType}
    (h : toNormativeFromValue value = some nt) :
    (∃ v a t, nt = .ntScalar ⟨v, a, t, none, none, none⟩) ∨ (∃ e, nt = .ntEnum e) ∨
      ∃ v a t, nt = .ntScalarArray ⟨v, a, t, none, none, none⟩ := by
  unfold toNormativeFromValue at h
  split_ifs at h
  simp only [Option.bind_eq_bind, Option.bind_eq_some_iff] at h
  obtain ⟨valField, -, h⟩ := h
  split_ifs at h
  · exact .inl (convertNtScalar_cases h)
  · exact .inr (.inl (convertNtEnum_cases h))
  · exact .inr (.inr (convertNtScalarArray_cases h))

end AuraEpics.Types
