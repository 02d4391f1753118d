import AuraEpics.Codec.BitSet
import AuraEpics.Session.FastLayout

/-!
# Fast paths

Model of the three hand-unrolled loops of `handle_monitor_update`
(`crates/aura-net/src/runtime/session.rs`, lines 1318-1546) and of the readers
`read_value` and `read_array` they call. A loop runs over `changed.iter_set()` and
reads each known field where its bit comes up.
-/

namespace AuraEpics.Session

open AuraEpics.Codec AuraEpics.Types Numeric

/-! ## The loops -/

/-- `severity`, `status`, `seconds` and `nanos`, zero until their bit comes up. -/
structure AlarmTime where
  severity : Int32 := 0
  status : Int32 := 0
  seconds : Int64 := 0
  nanos : Int32 := 0
  deriving DecidableEq, Repr

/-- The branches for `alarm` and `timeStamp`, which the three loops share
    (lines 1350-1362, 1429-1441 and 1502-1514); other bits carry no data. -/
def AlarmTimeBits.read (b : AlarmTimeBits) (bit : UInt8) (s : AlarmTime) : Read AlarmTime :=
  if bit = b.severityBit then (fun v => { s with severity := v }) <$> Read.i32
  else if bit = b.statusBit then (fun v => { s with status := v }) <$> Read.i32
  else if bit = b.messageBit then (fun _ => s) <$> Read.string
  else if bit = b.secondsBit then (fun v => { s with seconds := v }) <$> Read.i64
  else if bit = b.nanosBit then (fun v => { s with nanos := v }) <$> Read.i32
  else if bit = b.userTagBit then (fun _ => s) <$> Read.i32
  else return s

/-- The locals of a loop: those of its value and the shared ones. -/
structure FastFields (α : Type) where
  value : α
  alarmTime : AlarmTime
  deriving DecidableEq

/-- The loop `for bit_usize in changed.iter_set()` (lines 1336-1343): bit 0 is
    passed over and a bit above the layout's ends the loop. -/
def fastLoop {σ : Type} (maxKnownBit : UInt8) (step : UInt8 → σ → Read σ) : List ℕ → σ → Read σ
  | [], s => return s
  | bitUsize :: rest, s =>
    let bit := UInt8.ofNat bitUsize
    if bit = 0 then fastLoop maxKnownBit step rest s
    else if maxKnownBit < bit then return s
    else do
      let s ← step bit s
      fastLoop maxKnownBit step rest s

/-- `FastScalarLayout::read_value` (lines 296-314). -/
def FastScalarLayout.readValue (l : FastScalarLayout) : Read Binary64 :=
  match l.valueType with
  | .double => Read.f64
  | .float => Binary64.ofBinary32 <$> Read.f32
  | .int => (fun v => Binary64.ofInt v.toInt) <$> Read.i32
  | .long => (fun v => Binary64.ofInt v.toInt) <$> Read.i64
  | .short => (fun v => Binary64.ofInt v.toInt) <$> Read.i16
  | .byte => (fun v => Binary64.ofInt v.toInt) <$> Read.i8
  | .uint => (fun v => Binary64.ofInt v.toNat) <$> Read.u32
  | .ulong => (fun v => Binary64.ofInt v.toNat) <$> Read.u64
  | .ushort => (fun v => Binary64.ofInt v.toNat) <$> Read.u16
  | .ubyte => (fun v => Binary64.ofInt v.toNat) <$> Read.u8
  | .boolean => (fun v => if v ≠ 0 then Binary64.one else Binary64.zero) <$> Read.u8
  | .string => Read.fail (.invalidUtf8 "string value in NTScalar")

/-- `value` and `string_value` (lines 1327-1328). -/
structure ScalarVars where
  value : Binary64 := .zero
  stringValue : Option String := none
  deriving DecidableEq

/-- The body of the scalar loop (lines 1344-1362). -/
def FastScalarLayout.step (l : FastScalarLayout) (bit : UInt8) (s : FastFields ScalarVars) :
    Read (FastFields ScalarVars) :=
  if bit = l.valueBit then
    if l.valueType = .string then
      (fun v => { s with value.stringValue := some v }) <$> Read.string
    else (fun v => { s with value.value := v }) <$> l.readValue
  else (fun t => { s with alarmTime := t }) <$> l.toAlarmTimeBits.read bit s.alarmTime

/-- `fast_ok` of the scalar path (lines 1327-1366). -/
def FastScalarLayout.decode (l : FastScalarLayout) (changed : PvaBitSet) :
    Read (FastFields ScalarVars) :=
  fastLoop l.maxKnownBit l.step changed.iterSet ⟨{}, {}⟩

/-- `FastArrayLayout::read_array` (lines 392-466). -/
def FastArrayLayout.readArray (l : FastArrayLayout) : Read (List Binary64) := do
  let len ← Read.sizeNonNull
  if len = 0 then return []
  match l.elementType with
  | .double => Read.many Read.f64 len
  | .float => Read.many (Binary64.ofBinary32 <$> Read.f32) len
  | .int => Read.many ((fun v => Binary64.ofInt v.toInt) <$> Read.i32) len
  | .long => Read.many ((fun v => Binary64.ofInt v.toInt) <$> Read.i64) len
  | .short => Read.many ((fun v => Binary64.ofInt v.toInt) <$> Read.i16) len
  | .byte => Read.many ((fun v => Binary64.ofInt v.toInt) <$> Read.i8) len
  | .uint => Read.many ((fun v => Binary64.ofInt v.toNat) <$> Read.u32) len
  | .ulong => Read.many ((fun v => Binary64.ofInt v.toNat) <$> Read.u64) len
  | .ushort => Read.many ((fun v => Binary64.ofInt v.toNat) <$> Read.u16) len
  | .ubyte => (fun bs : List UInt8 => bs.map fun b => Binary64.ofInt b.toNat) <$> Read.bytes len
  | .boolean => Read.many ((fun v => if v ≠ 0 then Binary64.one else Binary64.zero) <$> Read.u8) len
  | .string => Read.fail (.protocol "string array in FastArrayLayout")

/-- The body of the array loop (lines 1427-1441). -/
def FastArrayLayout.step (l : FastArrayLayout) (bit : UInt8) (s : FastFields (List Binary64)) :
    Read (FastFields (List Binary64)) :=
  if bit = l.valueBit then (fun vs => { s with value := vs }) <$> l.readArray
  else (fun t => { s with alarmTime := t }) <$> l.toAlarmTimeBits.read bit s.alarmTime

/-- `fast_ok` of the array path (lines 1412-1444). -/
def FastArrayLayout.decode (l : FastArrayLayout) (changed : PvaBitSet) :
    Read (FastFields (List Binary64)) :=
  fastLoop l.maxKnownBit l.step changed.iterSet ⟨[], {}⟩

/-- Skipping the choices (lines 1497-1501). -/
def skipChoices : Read Unit := do
  let len ← Read.sizeNonNull
  let _ ← Read.many Read.string len

/-- The body of the enum loop (lines 1492-1514). -/
def FastEnumLayout.step (l : FastEnumLayout) (bit : UInt8) (s : FastFields Int32) :
    Read (FastFields Int32) :=
  if bit = l.valueStructBit then return s
  else if bit = l.indexBit then (fun v => { s with value := v }) <$> Read.i32
  else if bit = l.choicesBit then (fun _ => s) <$> skipChoices
  else (fun t => { s with alarmTime := t }) <$> l.toAlarmTimeBits.read bit s.alarmTime

/-- `fast_ok` of the enum path (lines 1477-1517). -/
def FastEnumLayout.decode (l : FastEnumLayout) (changed : PvaBitSet) : Read (FastFields Int32) :=
  fastLoop l.maxKnownBit l.step changed.iterSet ⟨0, {}⟩

/-- `has_unknown` (lines 1322-1324): some set bit is above the layout's. -/
def hasUnknown (changed : PvaBitSet) (maxKnownBit : UInt8) : Bool :=
  changed.iterSet.any fun b => maxKnownBit.toNat < b

end AuraEpics.Session
