import AuraEpics.Codec.PvWriter

/-!
# Sequences of reads and writes

The reads of `PvaReader` (`crates/aura-net/src/codec/pvdata.rs`, lines 54-233) as operations
(`ReadOp`), the values they return (`WireValue`), and runs of them. Each value but that of `peek`
is written by one write of `PvaWriter` (lines 307-454) and read back by one operation, the
matching one.

Result: `readAll_writeAll`, what a sequence of writes appends is read back by the matching
sequence of reads.
-/

namespace AuraEpics.Codec

open Numeric

/-- The reads of `PvaReader`. -/
inductive ReadOp where
  | peek
  | skip (n : ℕ)
  | bytes (n : ℕ)
  | u8 | i8 | bool | i16 | u16 | i32 | u32 | i64 | u64 | f32 | f64
  | size | sizeNonNull
  | string | stringOpt
  | f64Array | i32Array | byteArray | stringArray
  deriving DecidableEq, Repr

/-- What a read returns. -/
inductive WireValue where
  | unit
  | raw (v : List UInt8)
  | u8 (v : UInt8)
  | i8 (v : Int8)
  | bool (v : Bool)
  | i16 (v : Int16)
  | u16 (v : UInt16)
  | i32 (v : Int32)
  | u32 (v : UInt32)
  | i64 (v : Int64)
  | u64 (v : UInt64)
  | f32 (v : Binary32)
  | f64 (v : Binary64)
  | size (v : Option ℕ)
  | length (v : ℕ)
  | string (v : String)
  | stringOpt (v : Option String)
  | f64Array (v : List Binary64)
  | i32Array (v : List Int32)
  | byteArray (v : List UInt8)
  | stringArray (v : List String)
  deriving DecidableEq, Repr

/-- The read an operation stands for. -/
def ReadOp.read : ReadOp → Read WireValue
  | peek => WireValue.u8 <$> Read.peek
  | skip n => (fun _ => WireValue.unit) <$> Read.skip n
  | bytes n => WireValue.raw <$> Read.bytes n
  | u8 => WireValue.u8 <$> Read.u8
  | i8 => WireValue.i8 <$> Read.i8
  | bool => WireValue.bool <$> Read.bool
  | i16 => WireValue.i16 <$> Read.i16
  | u16 => WireValue.u16 <$> Read.u16
  | i32 => WireValue.i32 <$> Read.i32
  | u32 => WireValue.u32 <$> Read.u32
  | i64 => WireValue.i64 <$> Read.i64
  | u64 => WireValue.u64 <$> Read.u64
  | f32 => WireValue.f32 <$> Read.f32
  | f64 => WireValue.f64 <$> Read.f64
  | size => WireValue.size <$> Read.size
  | sizeNonNull => WireValue.length <$> Read.sizeNonNull
  | string => WireValue.string <$> Read.string
  | stringOpt => WireValue.stringOpt <$> Read.stringOpt
  | f64Array => WireValue.f64Array <$> Read.f64Array
  | i32Array => WireValue.i32Array <$> Read.i32Array
  | byteArray => WireValue.byteArray <$> Read.byteArray
  | stringArray => WireValue.stringArray <$> Read.stringArray

namespace WireValue

/-- The read that matches the write of a value. -/
def op : WireValue → ReadOp
  | unit => .skip 0
  | raw v => .bytes v.length
  | u8 _ => .u8
  | i8 _ => .i8
  | bool _ => .bool
  | i16 _ => .i16
  | u16 _ => .u16
  | i32 _ => .i32
  | u32 _ => .u32
  | i64 _ => .i64
  | u64 _ => .u64
  | f32 _ => .f32
  | f64 _ => .f64
  | size _ => .size
  | length _ => .sizeNonNull
  | string _ => .string
  | stringOpt _ => .stringOpt
  | f64Array _ => .f64Array
  | i32Array _ => .i32Array
  | byteArray _ => .byteArray
  | stringArray _ => .stringArray

/-- The write of a value; no size is written as `write_size_null`. -/
def write (order : ByteOrder) : WireValue → List UInt8
  | unit => []
  | raw v => v
  | u8 v => Write.u8 v
  | i8 v => Write.i8 v
  | bool v => Write.bool v
  | i16 v => Write.i16 order v
  | u16 v => Write.u16 order v
  | i32 v => Write.i32 order v
  | u32 v => Write.u32 order v
  | i64 v => Write.i64 order v
  | u64 v => Write.u64 order v
  | f32 v => Write.f32 order v
  | f64 v => Write.f64 order v
  | size (some n) => Write.size order n
  | size none => Write.sizeNull
  | length n => Write.size order n
  | string v => Write.string order v
  | stringOpt v => Write.stringOpt order v
  | f64Array v => Write.f64Array order v
  | i32Array v => Write.i32Array order v
  | byteArray v => Write.byteArray order v
  | stringArray v => Write.stringArray order v

/-- Sizes, lengths of texts and lengths of arrays are below `2^31`. -/
def SizesFit : WireValue → Prop
  | size v => ∀ n, v = some n → n < 2 ^ 31
  | length n => n < 2 ^ 31
  | string v => v.utf8ByteSize < 2 ^ 31
  | stringOpt v => ∀ s, v = some s → s.utf8ByteSize < 2 ^ 31
  | f64Array v => v.length < 2 ^ 31
  | i32Array v => v.length < 2 ^ 31
  | byteArray v => v.length < 2 ^ 31
  | stringArray v => v.length < 2 ^ 31 ∧ ∀ s ∈ v, s.utf8ByteSize < 2 ^ 31
  | _ => True

/-- A value that was written is read back. -/
theorem yields_write (order : ByteOrder) (v : WireValue) (h : v.SizesFit) :
    Yields order v.op.read (v.write order) v := by
  cases v with
  | unit => exact ((yields_bytes order []).last (Yields.pure ())).map fun _ => unit
  | raw v => exact (yields_bytes order v).map raw
  | u8 v => exact (yields_u8 order v).map u8
  | i8 v => exact (yields_i8 order v).map i8
  | bool v => exact (yields_bool order v).map bool
  | i16 v => exact (yields_i16 order v).map i16
  | u16 v => exact (yields_u16 order v).map u16
  | i32 v => exact (yields_i32 order v).map i32
  | u32 v => exact (yields_u32 order v).map u32
  | i64 v => exact (yields_i64 order v).map i64
  | u64 v => exact (yields_u64 order v).map u64
  | f32 v => exact (yields_f32 order v).map f32
  | f64 v => exact (yields_f64 order v).map f64
  | size v =>
    cases v with
    | some n => exact (yields_size order (h n rfl)).map size
    | none => exact (yields_sizeNull order).map size
  | length n => exact (yields_sizeNonNull order h).map length
  | string v => exact (yields_string order h).map string
  | stringOpt v => exact (yields_stringOpt order h).map stringOpt
  | f64Array v => exact (yields_array order h fun x _ => yields_f64 order x).map f64Array
  | i32Array v => exact (yields_array order h fun x _ => yields_i32 order x).map i32Array
  | byteArray v => exact (yields_byteArray order h).map byteArray
  | stringArray v =>
    exact (yields_array order h.1 fun s hs => yields_string order (h.2 s hs)).map stringArray

end WireValue

/-! ## Sequences -/

/-- One read after another; the first that fails ends the sequence. -/
def readAll : List ReadOp → Read (List WireValue)
  | [] => return []
  | op :: ops => do
    let v ← op.read
    let vs ← readAll ops
    return v :: vs

/-- The bytes a sequence of writes appends. -/
def writeAll (order : ByteOrder) (vs : List WireValue) : List UInt8 := vs.flatMap (·.write order)

theorem yields_writeAll (order : ByteOrder) {vs : List WireValue} (h : ∀ v ∈ vs, v.SizesFit) :
    Yields order (readAll (vs.map WireValue.op)) (writeAll order vs) vs := by
  induction vs with
  | nil => exact Yields.pure []
  | cons v vs ih =>
    have hhead := WireValue.yields_write order v (h v List.mem_cons_self)
    have htail := ih fun w hw => h w (List.mem_cons_of_mem v hw)
    exact hhead.bind (htail.last (Yields.pure (v :: vs)))

/-- **Main theorem**: read back with the matching reads, what a sequence of writes appended gives
    the values that were written, and the reader stops at the bytes that follow. -/
theorem readAll_writeAll (order : ByteOrder) (vs : List WireValue) (h : ∀ v ∈ vs, v.SizesFit)
    (rest : List UInt8) :
    readAll (vs.map WireValue.op) (.new (writeAll order vs ++ rest) order) =
      (.ok vs, .at order (writeAll order vs) rest) := by
  have hread := yields_writeAll order h [] rest
  exact hread

/-- A size of each class, a text, an absent text and an array. -/
theorem readAll_writeAll_sizes :
    let vs : List WireValue := [.size (some 7), .size (some 300), .size none, .string "SR:DCCT",
      .stringOpt none, .i32Array [-1, 2]]
    readAll (vs.map WireValue.op) (.new (writeAll .bigEndian vs ++ [1, 2]) .bigEndian) =
      (.ok vs, .at .bigEndian (writeAll .bigEndian vs) [1, 2]) := by
  intro vs
  have htext : "SR:DCCT".utf8ByteSize < 2 ^ 31 := by decide +kernel
  refine readAll_writeAll .bigEndian vs ?_ [1, 2]
  simpa [vs, WireValue.SizesFit] using htext

end AuraEpics.Codec
