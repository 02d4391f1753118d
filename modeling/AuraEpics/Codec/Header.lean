import AuraEpics.Lib.Numeric

/-!
# PVA message header

Model of `crates/aura-net/src/codec/header.rs`: byte order, segmentation flags
and the fixed 8-byte header. Byte strings are `List UInt8`; a `[u8; 8]` is a
list of length 8, which the only caller establishes before decoding.
-/

namespace AuraEpics.Codec

open Numeric

/-- `PVA_MAGIC` (line 26). -/
def pvaMagic : UInt8 := 0xCA

/-- `PVA_VERSION` (line 29). -/
def pvaVersion : UInt8 := 2

/-- `HEADER_SIZE` (line 35). -/
def headerSize : ℕ := 8

/-- `MAX_PAYLOAD_SIZE` (line 38). -/
def maxPayloadSize : ℕ := 16 * 1024 * 1024

namespace Flags

/-- `flags::CONTROL`, bit 0. -/
def control : UInt8 := 0x01

/-- `flags::SEG_MASK`, bits 4-5, and its four values. -/
def segMask : UInt8 := 0x30
def segNone : UInt8 := 0x00
def segFirst : UInt8 := 0x10
def segLast : UInt8 := 0x20
def segMiddle : UInt8 := 0x30

/-- `flags::BIG_ENDIAN`, bit 7. -/
def bigEndian : UInt8 := 0x80

end Flags

/-! ## Segmentation -/

/-- `Segmentation` (lines 58-63). -/
inductive Segmentation where
  | none
  | first
  | last
  | middle
  deriving DecidableEq, Repr

/-- `Segmentation::from_flags` (lines 66-74). -/
def Segmentation.fromFlags (f : UInt8) : Segmentation :=
  let m := f &&& Flags.segMask
  if m = Flags.segNone then .none
  else if m = Flags.segFirst then .first
  else if m = Flags.segLast then .last
  else if m = Flags.segMiddle then .middle
  else .none

/-- `Segmentation::to_bits` (lines 76-83). -/
def Segmentation.toBits : Segmentation → UInt8
  | .none => Flags.segNone
  | .first => Flags.segFirst
  | .last => Flags.segLast
  | .middle => Flags.segMiddle

/-! ## Byte order -/

/-- `ByteOrder` (lines 103-106). -/
inductive ByteOrder where
  | littleEndian
  | bigEndian
  deriving DecidableEq, Repr

namespace ByteOrder

/-- `ByteOrder::from_flags` (lines 110-116). -/
def fromFlags (f : UInt8) : ByteOrder :=
  if f &&& Flags.bigEndian ≠ 0 then .bigEndian else .littleEndian

/-- The unsigned number `from_le_bytes` or `from_be_bytes` reads; the typed
    reads below reinterpret it at their own width. -/
def readNat (order : ByteOrder) (bytes : List UInt8) : ℕ :=
  match order with
  | .littleEndian => leNat bytes
  | .bigEndian => beNat bytes

/-- The `w` bytes `to_le_bytes` or `to_be_bytes` write. -/
def writeNat (order : ByteOrder) (w n : ℕ) : List UInt8 :=
  match order with
  | .littleEndian => leBytes w n
  | .bigEndian => beBytes w n

/-- `ByteOrder::write_i32` (lines 136-141). -/
def writeI32 (order : ByteOrder) (val : Int32) : List UInt8 := order.writeNat 4 val.toUInt32.toNat

/-- `ByteOrder::read_u16` (lines 145-150). -/
def readU16 (order : ByteOrder) (bytes : List UInt8) : UInt16 := UInt16.ofNat (order.readNat bytes)

/-- `ByteOrder::read_i16` (lines 154-159). -/
def readI16 (order : ByteOrder) (bytes : List UInt8) : Int16 := (order.readU16 bytes).toInt16

/-- `ByteOrder::read_u32` (lines 163-168). -/
def readU32 (order : ByteOrder) (bytes : List UInt8) : UInt32 := UInt32.ofNat (order.readNat bytes)

/-- `ByteOrder::read_i32` (lines 127-132). -/
def readI32 (order : ByteOrder) (bytes : List UInt8) : Int32 := (order.readU32 bytes).toInt32

/-- `ByteOrder::read_u64` (lines 181-186). -/
def readU64 (order : ByteOrder) (bytes : List UInt8) : UInt64 := UInt64.ofNat (order.readNat bytes)

/-- `ByteOrder::read_i64` (lines 172-177). -/
def readI64 (order : ByteOrder) (bytes : List UInt8) : Int64 := (order.readU64 bytes).toInt64

/-- `ByteOrder::read_f32` (lines 190-195). -/
def readF32 (order : ByteOrder) (bytes : List UInt8) : Binary32 := ⟨order.readU32 bytes⟩

/-- `ByteOrder::read_f64` (lines 199-204). -/
def readF64 (order : ByteOrder) (bytes : List UInt8) : Binary64 := ⟨order.readU64 bytes⟩

@[simp] theorem length_writeNat (order : ByteOrder) (w n : ℕ) : (order.writeNat w n).length = w := by
  cases order <;> simp [writeNat]

theorem readNat_writeNat (order : ByteOrder) (w n : ℕ) :
    order.readNat (order.writeNat w n) = n % 256 ^ w := by
  cases order
  · exact leNat_leBytes w n
  · exact beNat_beBytes w n

theorem readI32_writeI32 (order : ByteOrder) (val : Int32) :
    order.readI32 (order.writeI32 val) = val := by
  have hlt : val.toUInt32.toNat < 256 ^ 4 := val.toUInt32.toNat_lt
  unfold readI32 readU32 writeI32
  rw [readNat_writeNat, Nat.mod_eq_of_lt hlt, UInt32.ofNat_toNat]
  rfl

end ByteOrder

/-! ## Header -/

/-- `PvaHeader` (lines 218-223). -/
structure PvaHeader where
  version : UInt8
  flags : UInt8
  command : UInt8
  payloadSize : Int32
  deriving DecidableEq, Repr

namespace PvaHeader

/-- `PvaHeader::app` (lines 227-234). -/
def app (command : UInt8) (payloadSize : Int32) : PvaHeader :=
  ⟨pvaVersion, 0, command, payloadSize⟩

/-- `PvaHeader::ctrl` (lines 247-254). -/
def ctrl (command : UInt8) (payloadValue : Int32) : PvaHeader :=
  ⟨pvaVersion, Flags.control, command, payloadValue⟩

/-- `PvaHeader::is_control` (line 269). -/
def isControl (h : PvaHeader) : Bool := h.flags &&& Flags.control ≠ 0

/-- `PvaHeader::segmentation` (line 289). -/
def segmentation (h : PvaHeader) : Segmentation := Segmentation.fromFlags h.flags

/-- `PvaHeader::byte_order` (line 285). -/
def byteOrder (h : PvaHeader) : ByteOrder := ByteOrder.fromFlags h.flags

/-- `PvaHeader::with_segmentation` (lines 263-266). -/
def withSegmentation (h : PvaHeader) (seg : Segmentation) : PvaHeader :=
  { h with flags := (h.flags &&& ~~~Flags.segMask) ||| seg.toBits }

/-- `PvaHeader::decode` (lines 298-316) on the 8 bytes `buf`: `none` if the
    magic byte is wrong. -/
def decode (buf : List UInt8) : Option PvaHeader :=
  if buf.getD 0 0 ≠ pvaMagic then none
  else
    let f := buf.getD 2 0
    some
      { version := buf.getD 1 0
        flags := f
        command := buf.getD 3 0
        payloadSize := (ByteOrder.fromFlags f).readI32 ((buf.drop 4).take 4) }

/-- `PvaHeader::encode` (lines 319-333). -/
def encode (h : PvaHeader) : List UInt8 :=
  pvaMagic :: h.version :: h.flags :: h.command :: h.byteOrder.writeI32 h.payloadSize

@[simp] theorem length_encode (h : PvaHeader) : h.encode.length = headerSize := by
  simp [encode, ByteOrder.writeI32, headerSize]

theorem decode_encode_header (h : PvaHeader) : decode h.encode = some h := by
  have hlen : (h.byteOrder.writeI32 h.payloadSize).length = 4 := by simp [ByteOrder.writeI32]
  simp only [decode, encode, List.getD_cons_zero, List.getD_cons_succ, List.drop_succ_cons,
    List.drop_zero]
  rw [List.take_of_length_le (by omega)]
  simp [ByteOrder.readI32_writeI32, byteOrder]

end PvaHeader

end AuraEpics.Codec
