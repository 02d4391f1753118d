import AuraEpics.Core.Normative

/-!
# JSON form of the structured Normative Types

What `serde_json::to_value` makes of the four Normative Types that are stored element by
element, as the `Serialize` attributes of `crates/aura-core/src/pva` (`normative.rs`,
`scalars.rs`, `arrays.rs`, `table.rs`, `alarm.rs`, `time.rs`) direct it: a structure is an
object of its fields, `ScalarValue`, `ArrayValue` and `HistogramValue` are objects with the
variant under `type` and its content under `v`, and `NormativeType` puts its variant under
`nt_type` beside the fields. Members are in the order of declaration; no function here
depends on it.
-/

namespace AuraEpics.Core

open Numeric AuraEpics.Types

namespace Json

/-- A signed integer: `Number::from` of an `i64`. -/
def ofI64 (x : Int64) : Json :=
  if x < 0 then number (.negInt x) else number (.posInt x.toUInt64)

/-- An unsigned integer. -/
def ofU64 (x : UInt64) : Json := number (.posInt x)

/-- A float: `Value::from` of an `f64` is `Null` for a NaN or an infinity. -/
def ofF64 (x : Binary64) : Json := if x.isFinite then number (.float x) else null

/-- `#[serde(tag = "type", content = "v")]`. -/
def tagged (variant : String) (content : Json) : Json :=
  object [("type", string variant), ("v", content)]

end Json

open Json

/-- `Serialize` of `ScalarValue` (scalars.rs, lines 161-176). -/
def serializeScalar : ScalarValue → Json
  | .boolean v => tagged "Boolean" (bool v)
  | .byte v => tagged "Byte" (ofI64 v.toInt64)
  | .ubyte v => tagged "UByte" (ofU64 v.toUInt64)
  | .short v => tagged "Short" (ofI64 v.toInt64)
  | .ushort v => tagged "UShort" (ofU64 v.toUInt64)
  | .int v => tagged "Int" (ofI64 v.toInt64)
  | .uint v => tagged "UInt" (ofU64 v.toUInt64)
  | .long v => tagged "Long" (ofI64 v)
  | .ulong v => tagged "ULong" (ofU64 v)
  | .float v => tagged "Float" (ofF64 (.ofBinary32 v))
  | .double v => tagged "Double" (ofF64 v)
  | .string v => tagged "String" (string v)

namespace ArrayValue

/-- `ArrayValue::len` (arrays.rs, lines 59-74). -/
def len : ArrayValue → ℕ
  | booleanArray v => v.length
  | byteArray v => v.length
  | ubyteArray v => v.length
  | shortArray v => v.length
  | ushortArray v => v.length
  | intArray v => v.length
  | uintArray v => v.length
  | longArray v => v.length
  | ulongArray v => v.length
  | floatArray v => v.length
  | doubleArray v => v.length
  | stringArray v => v.length

/-- `Serialize` of `ArrayValue` (arrays.rs, lines 17-32). -/
def toValue : ArrayValue → Json
  | booleanArray v => tagged "BooleanArray" (array (v.map bool))
  | byteArray v => tagged "ByteArray" (array (v.map fun x => ofI64 x.toInt64))
  | ubyteArray v => tagged "UByteArray" (array (v.map fun x => ofU64 x.toUInt64))
  | shortArray v => tagged "ShortArray" (array (v.map fun x => ofI64 x.toInt64))
  | ushortArray v => tagged "UShortArray" (array (v.map fun x => ofU64 x.toUInt64))
  | intArray v => tagged "IntArray" (array (v.map fun x => ofI64 x.toInt64))
  | uintArray v => tagged "UIntArray" (array (v.map fun x => ofU64 x.toUInt64))
  | longArray v => tagged "LongArray" (array (v.map ofI64))
  | ulongArray v => tagged "ULongArray" (array (v.map ofU64))
  | floatArray v => tagged "FloatArray" (array (v.map fun x => ofF64 (.ofBinary32 x)))
  | doubleArray v => tagged "DoubleArray" (array (v.map ofF64))
  | stringArray v => tagged "StringArray" (array (v.map string))

end ArrayValue

namespace HistogramValue

/-- `HistogramValue::as_i64_vec` (table.rs, lines 91-97). -/
def asI64Vec : HistogramValue → List Int64
  | short v => v.map Int16.toInt64
  | int v => v.map Int32.toInt64
  | long v => v

/-- `Serialize` of `HistogramValue` (table.rs, lines 66-72). -/
def toValue : HistogramValue → Json
  | short v => tagged "Short" (array (v.map fun x => ofI64 x.toInt64))
  | int v => tagged "Int" (array (v.map fun x => ofI64 x.toInt64))
  | long v => tagged "Long" (array (v.map ofI64))

end HistogramValue

/-- `Serialize` of `AlarmSeverity` (alarm.rs, lines 75-91): the variant's name. -/
def AlarmSeverity.toValue : AlarmSeverity → Json
  | none => string "None"
  | minor => string "Minor"
  | major => string "Major"
  | invalid => string "Invalid"
  | undefined => string "Undefined"

/-- `Serialize` of `AlarmStatus` (alarm.rs, lines 140-160). -/
def AlarmStatus.toValue : AlarmStatus → Json
  | none => string "None"
  | device => string "Device"
  | driver => string "Driver"
  | record => string "Record"
  | db => string "Db"
  | conf => string "Conf"
  | undefined => string "Undefined"
  | client => string "Client"

/-- `Serialize` of `Alarm` (alarm.rs, lines 15-24). -/
def Alarm.toValue (a : Alarm) : Json :=
  object [("severity", a.severity.toValue), ("status", a.status.toValue),
    ("message", string a.message)]

/-- `Serialize` of `TimeStamp` (time.rs, lines 17-26). -/
def TimeStamp.toValue (t : TimeStamp) : Json :=
  object [("seconds", ofI64 t.seconds), ("nanoseconds", ofU64 t.nanoseconds.toUInt64),
    ("user_tag", ofI64 t.userTag.toInt64)]

/-- `Serialize` of `NormativeType::NTHistogram` (normative.rs, lines 102-112, 288-303). -/
def NTHistogram.toValue (nt : NTHistogram) : Json :=
  object [("nt_type", string "NTHistogram"),
    ("ranges", array (nt.ranges.map ofF64)),
    ("value", nt.value.toValue),
    ("descriptor", string nt.descriptor),
    ("alarm", nt.alarm.toValue),
    ("timestamp", nt.timestamp.toValue)]

namespace NTContinuum

/-- `NTContinuum::trace_count` (normative.rs, lines 138-144). -/
def traceCount (nt : NTContinuum) : ℕ :=
  if nt.base = [] then 0 else nt.value.length / nt.base.length

/-- `NTContinuum::get` (normative.rs, lines 145-151). -/
def get (nt : NTContinuum) (point trace : ℕ) : Option Binary64 :=
  if nt.traceCount = 0 then none else nt.value[point * nt.traceCount + trace]?

/-- `Serialize` of `NormativeType::NTContinuum` (normative.rs, lines 121-132, 288-303). -/
def toValue (nt : NTContinuum) : Json :=
  object [("nt_type", string "NTContinuum"),
    ("base", array (nt.base.map ofF64)),
    ("value", array (nt.value.map ofF64)),
    ("units", array (nt.units.map string)),
    ("descriptor", string nt.descriptor),
    ("alarm", nt.alarm.toValue),
    ("timestamp", nt.timestamp.toValue)]

end NTContinuum

/-- `Serialize` of `NormativeType::NTNameValue` (normative.rs, lines 155-165, 288-303). -/
def NTNameValue.toValue (nt : NTNameValue) : Json :=
  object [("nt_type", string "NTNameValue"),
    ("name", array (nt.name.map string)),
    ("value", nt.value.toValue),
    ("descriptor", string nt.descriptor),
    ("alarm", nt.alarm.toValue),
    ("timestamp", nt.timestamp.toValue)]

/-- `Serialize` of `NormativeType::NTMultiChannel` (normative.rs, lines 220-240, 288-303). -/
def NTMultiChannel.toValue (nt : NTMultiChannel) : Json :=
  object [("nt_type", string "NTMultiChannel"),
    ("values", array (nt.values.map serializeScalar)),
    ("channel_name", array (nt.channelName.map string)),
    ("is_connected", array (nt.isConnected.map bool)),
    ("severity", array (nt.severity.map AlarmSeverity.toValue)),
    ("status", array (nt.status.map AlarmStatus.toValue)),
    ("message", array (nt.message.map string)),
    ("seconds_past_epoch", array (nt.secondsPastEpoch.map ofI64)),
    ("nanoseconds", array (nt.nanoseconds.map fun x => ofI64 x.toInt64)),
    ("alarm", nt.alarm.toValue),
    ("timestamp", nt.timestamp.toValue)]

/-! ## Reading the trees back -/

theorem Json.tagged_asArray (variant : String) (content : Json) :
    (tagged variant content).asArray = Option.none := rfl

theorem ArrayValue.toValue_asArray (v : ArrayValue) : v.toValue.asArray = Option.none := by
  cases v <;> exact tagged_asArray _ _

theorem HistogramValue.toValue_asArray (v : HistogramValue) : v.toValue.asArray = Option.none := by
  cases v <;> exact tagged_asArray _ _

/-- A float comes back from its tree as it was exactly if it is finite: else it is lost to
    `Null`, which reads as 0. -/
theorem Json.asF64_ofF64 (x : Binary64) :
    (ofF64 x).asF64.getD .zero = if x.isFinite then x else .zero := by
  unfold ofF64
  split_ifs
  · rfl
  · rfl

end AuraEpics.Core
