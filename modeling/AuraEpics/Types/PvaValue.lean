import AuraEpics.Codec.FieldDesc

/-!
# Runtime PVA values

Model of `ScalarValue` (`crates/aura-core/src/pva/scalars.rs`, lines 159-223) and
of `PvaValue` with its full decoder (`crates/aura-net/src/types/pva_value.rs`,
lines 17-112). `f32` and `f64` values are bit patterns, so equality of values is
equality of what was read off the wire, NaNs included.
-/

namespace AuraEpics.Types

open AuraEpics.Codec Numeric

/-- `ScalarValue` (scalars.rs, lines 163-176). -/
inductive ScalarValue where
  | boolean (v : Bool)
  | byte (v : Int8)
  | ubyte (v : UInt8)
  | short (v : Int16)
  | ushort (v : UInt16)
  | int (v : Int32)
  | uint (v : UInt32)
  | long (v : Int64)
  | ulong (v : UInt64)
  | float (v : Binary32)
  | double (v : Binary64)
  | string (v : String)
  deriving DecidableEq, Repr

namespace ScalarValue

/-- `ScalarValue::as_f64` (lines 185-200). -/
def asF64 : ScalarValue → Option Binary64
  | boolean v => some (if v then .one else .zero)
  | byte v => some (.ofInt v.toInt)
  | ubyte v => some (.ofInt v.toNat)
  | short v => some (.ofInt v.toInt)
  | ushort v => some (.ofInt v.toNat)
  | int v => some (.ofInt v.toInt)
  | uint v => some (.ofInt v.toNat)
  | long v => some (.ofInt v.toInt)
  | ulong v => some (.ofInt v.toNat)
  | float v => some (.ofBinary32 v)
  | double v => some v
  | string _ => none

/-- `v as i64` for a float: towards zero, saturating, NaN to 0. -/
def f64ToI64 (v : Binary64) : Int64 := Int64.ofInt (v.truncSat (-(2 ^ 63)) (2 ^ 63 - 1))

/-- `ScalarValue::as_i64` (lines 203-218). -/
def asI64 : ScalarValue → Option Int64
  | boolean v => some (if v then 1 else 0)
  | byte v => some v.toInt64
  | ubyte v => some v.toUInt64.toInt64
  | short v => some v.toInt64
  | ushort v => some v.toUInt64.toInt64
  | int v => some v.toInt64
  | uint v => some v.toUInt64.toInt64
  | long v => some v
  | ulong v => some v.toInt64
  | float v => some (f64ToI64 (.ofBinary32 v))
  | double v => some (f64ToI64 v)
  | string _ => none

/-- `ScalarValue::as_i32` (lines 221-223): the wrapping `as i32`. -/
def asI32 (s : ScalarValue) : Option Int32 := s.asI64.map Int64.toInt32

end ScalarValue

/-- `decode_scalar` (pva_value.rs, lines 18-36). -/
def decodeScalar : ScalarType → Read ScalarValue
  | .boolean => ScalarValue.boolean <$> Read.bool
  | .byte => ScalarValue.byte <$> Read.i8
  | .ubyte => ScalarValue.ubyte <$> Read.u8
  | .short => ScalarValue.short <$> Read.i16
  | .ushort => ScalarValue.ushort <$> Read.u16
  | .int => ScalarValue.int <$> Read.i32
  | .uint => ScalarValue.uint <$> Read.u32
  | .long => ScalarValue.long <$> Read.i64
  | .ulong => ScalarValue.ulong <$> Read.u64
  | .float => ScalarValue.float <$> Read.f32
  | .double => ScalarValue.double <$> Read.f64
  | .string => ScalarValue.string <$> Read.string

/-- `PvaValue` (lines 39-45). -/
inductive PvaValue where
  | scalar (v : ScalarValue)
  | scalarArray (vs : List ScalarValue)
  | struct (fields : List (String × PvaValue))
  | union (name : String) (v : PvaValue)
  | null

namespace PvaValue

/-- `PvaValue::as_scalar` (lines 115-120). -/
def asScalar : PvaValue → Option ScalarValue
  | scalar s => some s
  | _ => none

/-- `PvaValue::as_f64` (lines 122-124). -/
def asF64 (v : PvaValue) : Option Binary64 := v.asScalar.bind ScalarValue.asF64

/-- `PvaValue::as_i64` (lines 126-128). -/
def asI64 (v : PvaValue) : Option Int64 := v.asScalar.bind ScalarValue.asI64

/-- `PvaValue::as_i32` (lines 130-132). -/
def asI32 (v : PvaValue) : Option Int32 := v.asScalar.bind ScalarValue.asI32

/-- `PvaValue::as_string` (lines 133-138). -/
def asString : PvaValue → Option String
  | scalar (.string s) => some s
  | _ => none

/-- `PvaValue::as_scalar_array` (lines 139-144). -/
def asScalarArray : PvaValue → Option (List ScalarValue)
  | scalarArray a => some a
  | _ => none

/-- `PvaValue::field` (lines 146-151): the first field of that name. -/
def field (v : PvaValue) (name : String) : Option PvaValue :=
  match v with
  | struct fs => (fs.find? fun f => f.1 == name).map Prod.snd
  | _ => none

/-- `PvaValue::field_by_index` (lines 153-158). -/
def fieldByIndex (v : PvaValue) (idx : ℕ) : Option PvaValue :=
  match v with
  | struct fs => fs[idx]?.map Prod.snd
  | _ => none

end PvaValue

/-! ## Decoding -/

/-- The `ScalarArray` branch, which `decode_from` (lines 51-67) and
    `decode_delta_structure` (session.rs, lines 85-104) write out identically:
    byte arrays are read in bulk, other element types one by one. -/
def decodeScalarArray (st : ScalarType) : Read (List ScalarValue) := do
  let len ← Read.sizeNonNull
  if len = 0 then return []
  if st = .ubyte then
    let bs ← Read.bytes len
    return bs.map ScalarValue.ubyte
  Read.many (decodeScalar st) len

mutual

/-- `PvaValue::decode_from` (lines 48-112). -/
def decodeFrom : FieldDesc → Read PvaValue
  | .mk ft _ fs =>
    match ft with
    | .scalar st => PvaValue.scalar <$> decodeScalar st
    | .scalarArray st => PvaValue.scalarArray <$> decodeScalarArray st
    | .struct | .structArray => PvaValue.struct <$> decodeFields fs
    | .boundedString maxLen => do
      let s ← Read.string
      if maxLen < s.utf8ByteSize then
        Read.fail (.protocol s!"bounded string exceeds max {maxLen}: got {s.utf8ByteSize}")
      return .scalar (.string s)
    | .variantUnion => do
      let selector ← Read.i32
      if selector < 0 then return .null
      let tag ← Read.u8
      match ScalarType.fromWire (tag &&& 0x07).toNat with
      | some st => PvaValue.scalar <$> decodeScalar st
      | none => return .null
    | .union => do
      let selector ← Read.i32
      if selector < 0 then return .null
      decodeSelected fs.length selector.toInt.toNat selector.toInt.toNat fs
    | .unionArray | .variantUnionArray => return .null

/-- The loop over `desc.fields` of the structure branch. -/
def decodeFields : List (String × FieldDesc) → Read (List (String × PvaValue))
  | [] => return []
  | (name, d) :: fs => do
    let v ← decodeFrom d
    let vs ← decodeFields fs
    return (name, v) :: vs

/-- `desc.fields[idx]` of a union of `n` members and the decoding of that
    member; `i` counts down to it along the list. -/
def decodeSelected (n idx : ℕ) : ℕ → List (String × FieldDesc) → Read PvaValue
  | _, [] => Read.fail (.protocol s!"union selector {idx} out of range (max {n})")
  | 0, (name, d) :: _ => PvaValue.union name <$> decodeFrom d
  | i + 1, _ :: fs => decodeSelected n idx i fs

end

section Equations

variable (id : String) (fs : List (String × FieldDesc))

theorem decodeFrom_scalar (st : ScalarType) :
    decodeFrom (.mk (.scalar st) id fs) = PvaValue.scalar <$> decodeScalar st := by
  rw [decodeFrom]

theorem decodeFrom_scalarArray (st : ScalarType) :
    decodeFrom (.mk (.scalarArray st) id fs) = PvaValue.scalarArray <$> decodeScalarArray st := by
  rw [decodeFrom]

theorem decodeFrom_struct :
    decodeFrom (.mk .struct id fs) = PvaValue.struct <$> decodeFields fs := by
  rw [decodeFrom]

end Equations

end AuraEpics.Types
