import AuraEpics.Core.Json
import AuraEpics.Types.PvaValue

/-!
# Normative Types and monitor updates

Model of `crates/aura-core/src/pva` (`normative.rs`, `alarm.rs`, `time.rs`,
`arrays.rs`, `table.rs`, `classify.rs`) and of `PvUpdate` and `StoreReason`
(`crates/aura-core/src/sample.rs`), and of the display, control and alarm limits the
metadata is made of (`display.rs`). `active` and the four severities of a value alarm and
the parameters of a codec are read by no modelled function and are left out.
-/

namespace AuraEpics.Core

open Numeric AuraEpics.Types

/-! ## Alarm and time -/

/-- `AlarmSeverity` (alarm.rs, lines 79-91). -/
inductive AlarmSeverity where
  | none | minor | major | invalid | undefined
  deriving DecidableEq, Repr

/-- `severity as i16`. -/
def AlarmSeverity.toI16 : AlarmSeverity → Int16
  | none => 0
  | minor => 1
  | major => 2
  | invalid => 3
  | undefined => 4

/-- `AlarmSeverity::from` (alarm.rs, lines 105-115). -/
def AlarmSeverity.ofI16 (v : Int16) : AlarmSeverity :=
  if v = 0 then none
  else if v = 1 then minor
  else if v = 2 then major
  else if v = 3 then invalid
  else undefined

/-- `AlarmStatus` (alarm.rs, lines 142-160). -/
inductive AlarmStatus where
  | none | device | driver | record | db | conf | undefined | client
  deriving DecidableEq, Repr

/-- `status as i16`. -/
def AlarmStatus.toI16 : AlarmStatus → Int16
  | none => 0
  | device => 1
  | driver => 2
  | record => 3
  | db => 4
  | conf => 5
  | undefined => 6
  | client => 7

/-- `AlarmStatus::from` (alarm.rs, lines 176-189). -/
def AlarmStatus.ofI16 (v : Int16) : AlarmStatus :=
  if v = 0 then none
  else if v = 1 then device
  else if v = 2 then driver
  else if v = 3 then record
  else if v = 4 then db
  else if v = 5 then conf
  else if v = 7 then client
  else undefined

/-- `Alarm` (alarm.rs, lines 16-24). -/
structure Alarm where
  severity : AlarmSeverity
  status : AlarmStatus
  message : String
  deriving DecidableEq, Repr

/-- `Alarm::default` (alarm.rs, lines 46-53). -/
def Alarm.default : Alarm := ⟨.none, .none, ""⟩

/-- `chrono::DateTime<Utc>`: seconds since the epoch and nanoseconds, which reach
    up to `2 * 10^9` in a leap second. -/
structure DateTime where
  seconds : ℤ
  nanos : ℕ
  deriving DecidableEq, Repr

namespace DateTime

/-- `DateTime::default`: the epoch. -/
def epoch : DateTime := ⟨0, 0⟩

/-- `DateTime::from_timestamp`: `None` outside the years -262143 to 262142 and for
    nanoseconds that are not those of the second. -/
def fromTimestamp (secs : ℤ) (nsecs : ℕ) : Option DateTime :=
  if -8334601228800 ≤ secs ∧ secs ≤ 8210266876799 ∧
      (nsecs < 1000000000 ∨ (nsecs < 2000000000 ∧ secs % 60 = 59)) then
    some ⟨secs, nsecs⟩
  else none

/-- `DateTime::timestamp_micros`. -/
def timestampMicros (t : DateTime) : ℤ := t.seconds * 1000000 + (t.nanos / 1000 : ℕ)

end DateTime

/-- `TimeStamp` (time.rs, lines 18-26). -/
structure TimeStamp where
  seconds : Int64
  nanoseconds : UInt32
  userTag : Int32
  deriving DecidableEq, Repr

/-- `TimeStamp::default` (time.rs, lines 116-120). -/
def TimeStamp.default : TimeStamp := ⟨0, 0, 0⟩

/-- `TimeStamp::to_datetime` (time.rs, lines 55-57). -/
def TimeStamp.toDatetime (ts : TimeStamp) : DateTime :=
  (DateTime.fromTimestamp ts.seconds.toInt ts.nanoseconds.toNat).getD .epoch

/-! ## Display, control and value alarm -/

/-- `DisplayForm` (display.rs, lines 95-105). -/
inductive DisplayForm where
  | default | string | binary | decimal | hex | exponential | engineering
  deriving DecidableEq, Repr

/-- `Display` (display.rs, lines 24-43). -/
structure Display where
  limitLow : Binary64
  limitHigh : Binary64
  description : String
  units : String
  precision : Int32
  form : DisplayForm
  deriving DecidableEq, Repr

/-- `Control` (display.rs, lines 140-150). -/
structure Control where
  limitLow : Binary64
  limitHigh : Binary64
  minStep : Binary64
  deriving DecidableEq, Repr

/-- `ValueAlarm` (display.rs, lines 210-241). -/
structure ValueAlarm where
  lowAlarmLimit : Binary64
  lowWarningLimit : Binary64
  highWarningLimit : Binary64
  highAlarmLimit : Binary64
  hysteresis : Binary64
  deriving DecidableEq, Repr

/-! ## Normative Types -/

/-- `ArrayValue` (arrays.rs, lines 19-32). -/
inductive ArrayValue where
  | booleanArray (v : List Bool)
  | byteArray (v : List Int8)
  | ubyteArray (v : List UInt8)
  | shortArray (v : List Int16)
  | ushortArray (v : List UInt16)
  | intArray (v : List Int32)
  | uintArray (v : List UInt32)
  | longArray (v : List Int64)
  | ulongArray (v : List UInt64)
  | floatArray (v : List Binary32)
  | doubleArray (v : List Binary64)
  | stringArray (v : List String)

/-- `ArrayValue::as_f64_vec` (arrays.rs, lines 40-55). -/
def ArrayValue.asF64Vec : ArrayValue → Option (List Binary64)
  | booleanArray v => some (v.map fun b => if b then .one else .zero)
  | byteArray v => some (v.map fun x => .ofInt x.toInt)
  | ubyteArray v => some (v.map fun x => .ofInt x.toNat)
  | shortArray v => some (v.map fun x => .ofInt x.toInt)
  | ushortArray v => some (v.map fun x => .ofInt x.toNat)
  | intArray v => some (v.map fun x => .ofInt x.toInt)
  | uintArray v => some (v.map fun x => .ofInt x.toNat)
  | longArray v => some (v.map fun x => .ofInt x.toInt)
  | ulongArray v => some (v.map fun x => .ofInt x.toNat)
  | floatArray v => some (v.map .ofBinary32)
  | doubleArray v => some v
  | stringArray _ => none

/-- `HistogramValue` (table.rs, lines 68-72). -/
inductive HistogramValue where
  | short (v : List Int16)
  | int (v : List Int32)
  | long (v : List Int64)

/-- `UnionValue` (union.rs, lines 20-27). -/
inductive UnionValue where
  | scalar (v : ScalarValue)
  | array (v : ArrayValue)
  | structure_ (v : Json)

/-- `UnionValue::as_f64` (union.rs, lines 33-38). -/
def UnionValue.asF64 : UnionValue → Option Binary64
  | scalar s => s.asF64
  | _ => none

/-- `NTScalar` (normative.rs, lines 23-35). -/
structure NTScalar where
  value : ScalarValue
  alarm : Alarm
  timestamp : TimeStamp
  display : Option Display
  control : Option Control
  valueAlarm : Option ValueAlarm

/-- `NTEnum` (lines 39-45) with the fields of its `EnumValue`. -/
structure NTEnum where
  index : Int32
  choices : List String
  alarm : Alarm
  timestamp : TimeStamp

/-- `NTScalarArray` (lines 49-61). -/
structure NTScalarArray where
  value : ArrayValue
  alarm : Alarm
  timestamp : TimeStamp
  display : Option Display
  control : Option Control
  valueAlarm : Option ValueAlarm

/-- `NTMatrix` (lines 65-77). -/
structure NTMatrix where
  value : List Binary64
  dim : List Int32
  descriptor : String
  alarm : Alarm
  timestamp : TimeStamp
  display : Option Display

/-- `NTHistogram` (lines 103-112). -/
structure NTHistogram where
  ranges : List Binary64
  value : HistogramValue
  descriptor : String
  alarm : Alarm
  timestamp : TimeStamp

/-- `NTContinuum` (lines 122-132). -/
structure NTContinuum where
  base : List Binary64
  value : List Binary64
  units : List String
  descriptor : String
  alarm : Alarm
  timestamp : TimeStamp

/-- `NTNameValue` (lines 156-165). -/
structure NTNameValue where
  name : List String
  value : ArrayValue
  descriptor : String
  alarm : Alarm
  timestamp : TimeStamp

/-- `NTTable` (lines 178-185); a column is its name and its values. -/
structure NTTable where
  labels : List String
  columns : List (String × ArrayValue)
  alarm : Alarm
  timestamp : TimeStamp

/-- `Dimension` (ndarray.rs, lines 94-109). -/
structure Dimension where
  size : Int32
  offset : Int32
  fullSize : Int32
  binning : Int32
  reverse : Bool
  deriving DecidableEq, Repr

/-- `AttributeSourceType` (ndarray.rs, lines 174-182). -/
inductive AttributeSourceType where
  | driver | param | epicsPv
  deriving DecidableEq, Repr

/-- `NdAttribute` (ndarray.rs, lines 217-231). -/
structure NdAttribute where
  name : String
  value : ScalarValue
  source : String
  sourceType : AttributeSourceType
  description : String
  deriving DecidableEq, Repr

/-- `NTNDArray` (lines 198-217): of the codec the name. -/
structure NTNDArray where
  value : ArrayValue
  codecName : String
  compressedSize : Int64
  uncompressedSize : Int64
  dimension : List Dimension
  uniqueId : Int32
  dataTimestamp : Option TimeStamp
  alarm : Alarm
  timestamp : TimeStamp
  attributes : List NdAttribute

/-- `NTMultiChannel` (lines 221-240). -/
structure NTMultiChannel where
  values : List ScalarValue
  channelName : List String
  isConnected : List Bool
  severity : List AlarmSeverity
  status : List AlarmStatus
  message : List String
  secondsPastEpoch : List Int64
  nanoseconds : List Int32
  alarm : Alarm
  timestamp : TimeStamp

/-- `NTAggregate` (lines 244-262): the statistics beside `value` are not stored. -/
structure NTAggregate where
  value : Binary64
  alarm : Alarm
  timestamp : TimeStamp

/-- `NTUnion` (lines 266-274). -/
structure NTUnion where
  value : UnionValue
  descriptor : String
  alarm : Alarm
  timestamp : TimeStamp

/-- `CustomStructure` (lines 278-284). -/
structure CustomStructure where
  data : Json
  alarm : Alarm
  timestamp : TimeStamp

/-- `NormativeType` (lines 289-303). -/
inductive NormativeType where
  | ntScalar (nt : NTScalar)
  | ntEnum (nt : NTEnum)
  | ntScalarArray (nt : NTScalarArray)
  | ntMatrix (nt : NTMatrix)
  | ntHistogram (nt : NTHistogram)
  | ntContinuum (nt : NTContinuum)
  | ntNameValue (nt : NTNameValue)
  | ntTable (nt : NTTable)
  | ntNDArray (nt : NTNDArray)
  | ntMultiChannel (nt : NTMultiChannel)
  | ntAggregate (nt : NTAggregate)
  | ntUnion (nt : NTUnion)
  | custom (nt : CustomStructure)

namespace NormativeType

/-- `NormativeType::alarm` (lines 306-322). -/
def alarm : NormativeType → Alarm
  | ntScalar nt => nt.alarm
  | ntEnum nt => nt.alarm
  | ntScalarArray nt => nt.alarm
  | ntMatrix nt => nt.alarm
  | ntHistogram nt => nt.alarm
  | ntContinuum nt => nt.alarm
  | ntNameValue nt => nt.alarm
  | ntTable nt => nt.alarm
  | ntNDArray nt => nt.alarm
  | ntMultiChannel nt => nt.alarm
  | ntAggregate nt => nt.alarm
  | ntUnion nt => nt.alarm
  | custom nt => nt.alarm

/-- `NormativeType::timestamp` (lines 324-340). -/
def timestamp : NormativeType → TimeStamp
  | ntScalar nt => nt.timestamp
  | ntEnum nt => nt.timestamp
  | ntScalarArray nt => nt.timestamp
  | ntMatrix nt => nt.timestamp
  | ntHistogram nt => nt.timestamp
  | ntContinuum nt => nt.timestamp
  | ntNameValue nt => nt.timestamp
  | ntTable nt => nt.timestamp
  | ntNDArray nt => nt.timestamp
  | ntMultiChannel nt => nt.timestamp
  | ntAggregate nt => nt.timestamp
  | ntUnion nt => nt.timestamp
  | custom nt => nt.timestamp

/-- `NormativeType::as_f64` (lines 343-351). -/
def asF64 : NormativeType → Option Binary64
  | ntScalar nt => nt.value.asF64
  | ntEnum nt => some (.ofInt nt.index.toInt)
  | ntAggregate nt => some nt.value
  | ntUnion nt => nt.value.asF64
  | _ => none

/-- `NormativeType::type_name` (lines 354-370). -/
def typeName : NormativeType → String
  | ntScalar _ => "NTScalar"
  | ntEnum _ => "NTEnum"
  | ntScalarArray _ => "NTScalarArray"
  | ntMatrix _ => "NTMatrix"
  | ntHistogram _ => "NTHistogram"
  | ntContinuum _ => "NTContinuum"
  | ntNameValue _ => "NTNameValue"
  | ntTable _ => "NTTable"
  | ntNDArray _ => "NTNDArray"
  | ntMultiChannel _ => "NTMultiChannel"
  | ntAggregate _ => "NTAggregate"
  | ntUnion _ => "NTUnion"
  | custom _ => "Custom"

end NormativeType

/-- `PvDataType` (classify.rs, lines 37-64). -/
inductive PvDataType where
  | scalar | string | array | matrix | histogram | continuum | nameValue | table | image
  | multiChannel | aggregate | union | custom
  deriving DecidableEq, Repr

/-- `PvDataType::from_nt` (classify.rs, lines 89-111). -/
def PvDataType.fromNt : NormativeType → PvDataType
  | .ntScalar nt =>
    match nt.value with
    | .string _ => string
    | _ => scalar
  | .ntEnum _ => scalar
  | .ntScalarArray _ => array
  | .ntMatrix _ => matrix
  | .ntHistogram _ => histogram
  | .ntContinuum _ => continuum
  | .ntNameValue _ => nameValue
  | .ntTable _ => table
  | .ntNDArray _ => image
  | .ntMultiChannel _ => multiChannel
  | .ntAggregate _ => aggregate
  | .ntUnion _ => union
  | .custom _ => custom

/-! ## Updates -/

/-- `PvUpdate` (sample.rs, lines 18-26). -/
structure PvUpdate where
  pvName : String
  pvId : Option Int32
  data : NormativeType

namespace PvUpdate

/-- `PvUpdate::timestamp` (lines 51-53). -/
def timestamp (u : PvUpdate) : DateTime := u.data.timestamp.toDatetime

/-- `PvUpdate::as_f64` (lines 59-61). -/
def asF64 (u : PvUpdate) : Option Binary64 := u.data.asF64

/-- `PvUpdate::data_type` (lines 65-67). -/
def dataType (u : PvUpdate) : PvDataType := .fromNt u.data

/-- `PvUpdate::severity` (lines 77-79). -/
def severity (u : PvUpdate) : Int16 := u.data.alarm.severity.toI16

/-- `PvUpdate::status` (lines 83-85). -/
def status (u : PvUpdate) : Int16 := u.data.alarm.status.toI16

end PvUpdate

/-- `StoreReason` (sample.rs, lines 115-138). -/
inductive StoreReason where
  | valueChanged | heartbeat | initial | disconnected | reconnected | alarmChange | arrayChanged
  | tableChanged | imageFrame | customChanged | timeout
  deriving DecidableEq, Repr

/-- `reason as i16`: the position in the enumeration. -/
def StoreReason.toI16 : StoreReason → Int16
  | valueChanged => 0
  | heartbeat => 1
  | initial => 2
  | disconnected => 3
  | reconnected => 4
  | alarmChange => 5
  | arrayChanged => 6
  | tableChanged => 7
  | imageFrame => 8
  | customChanged => 9
  | timeout => 10

end AuraEpics.Core
