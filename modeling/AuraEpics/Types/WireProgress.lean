import AuraEpics.Codec.BitSet
import AuraEpics.Codec.FieldDescProgress
import AuraEpics.Types.PvaValue

/-!
# Progress of the wire decoders

The decoders of bytes from the network on a machine with 64-bit positions: reads one after another
(`crates/aura-net/src/codec/pvdata.rs`, lines 28-255), `FieldDesc::decode` (`codec/field_desc.rs`,
lines 232-427), `PvaValue::decode_from` (`types/pva_value.rs`, lines 48-112) and
`PvaBitSet::decode` (`codec/bitset.rs`, lines 206-249).

Result: `wireReads_progress`, none of them stops the machine, whatever the bytes are, and the
nested calls of `decode_full` end with the bytes.
-/

namespace AuraEpics.Types

open CursorProgram Codec FieldDesc

/-! ## On the machine -/

namespace Machine

/-- `decode_scalar` (pva_value.rs, lines 18-36). -/
def decodeScalar : ScalarType → MachineRead ScalarValue
  | .boolean => ScalarValue.boolean <$> MachineRead.bool
  | .byte => ScalarValue.byte <$> MachineRead.i8
  | .ubyte => ScalarValue.ubyte <$> MachineRead.u8
  | .short => ScalarValue.short <$> MachineRead.fixed 2 ByteOrder.readI16
  | .ushort => ScalarValue.ushort <$> MachineRead.fixed 2 ByteOrder.readU16
  | .int => ScalarValue.int <$> MachineRead.fixed 4 ByteOrder.readI32
  | .uint => ScalarValue.uint <$> MachineRead.fixed 4 ByteOrder.readU32
  | .long => ScalarValue.long <$> MachineRead.fixed 8 ByteOrder.readI64
  | .ulong => ScalarValue.ulong <$> MachineRead.fixed 8 ByteOrder.readU64
  | .float => ScalarValue.float <$> MachineRead.fixed 4 ByteOrder.readF32
  | .double => ScalarValue.double <$> MachineRead.fixed 8 ByteOrder.readF64
  | .string => ScalarValue.string <$> MachineRead.string

/-- The `ScalarArray` branch of `decode_from` (lines 51-67). -/
def decodeScalarArray (st : ScalarType) : MachineRead (List ScalarValue) := do
  let len ← MachineRead.sizeNonNull
  if len = 0 then return []
  else if st = .ubyte then
    let bs ← MachineRead.bytes len
    return bs.map ScalarValue.ubyte
  else MachineRead.many (decodeScalar st) len

mutual

/-- `PvaValue::decode_from` (lines 48-112). -/
def decodeFrom : FieldDesc → MachineRead PvaValue
  | .mk ft _ fs =>
    match ft with
    | .scalar st => PvaValue.scalar <$> decodeScalar st
    | .scalarArray st => PvaValue.scalarArray <$> decodeScalarArray st
    | .struct | .structArray => PvaValue.struct <$> decodeFields fs
    | .boundedString maxLen => do
      let s ← MachineRead.string
      if maxLen < s.utf8ByteSize then
        MachineRead.fail
          (.protocol s!"bounded string exceeds max {maxLen}: got {s.utf8ByteSize}")
      else return .scalar (.string s)
    | .variantUnion => do
      let selector ← MachineRead.fixed 4 ByteOrder.readI32
      if selector < 0 then return .null
      else
        let tag ← MachineRead.u8
        match ScalarType.fromWire (tag &&& 0x07).toNat with
        | some st => PvaValue.scalar <$> decodeScalar st
        | none => return .null
    | .union => do
      let selector ← MachineRead.fixed 4 ByteOrder.readI32
      if selector < 0 then return .null
      else decodeSelected fs.length selector.toInt.toNat selector.toInt.toNat fs
    | .unionArray | .variantUnionArray => return .null

/-- The loop over `desc.fields` of the structure branch. -/
def decodeFields : List (String × FieldDesc) → MachineRead (List (String × PvaValue))
  | [] => return []
  | (name, d) :: fs => do
    let v ← decodeFrom d
    let vs ← decodeFields fs
    return (name, v) :: vs

/-- `desc.fields[idx]` of a union of `n` members and the decoding of that member; `i` counts down
    to it along the list. -/
def decodeSelected (n idx : ℕ) : ℕ → List (String × FieldDesc) → MachineRead PvaValue
  | _, [] => MachineRead.fail (.protocol s!"union selector {idx} out of range (max {n})")
  | 0, (name, d) :: _ => PvaValue.union name <$> decodeFrom d
  | i + 1, _ :: fs => decodeSelected n idx i fs

end

/-- `PvaBitSet::decode` (bitset.rs, lines 206-249). -/
def decodeBitSet : MachineRead PvaBitSet := do
  let byteCount ← MachineRead.sizeNonNull
  if byteCount = 0 then return .new
  else
    let raw ← MachineRead.bytes byteCount
    let l := raw.foldl PvaBitSet.WordLoop.push ⟨.withCapacity (byteCount * 8), 0, 0, 0⟩
    return if 0 < l.byteInWord then l.bs.storeWord l.wordIdx l.currentWord else l.bs

end Machine

/-! ## Values -/

theorem implements_decodeScalar (st : ScalarType) :
    Implements (Machine.decodeScalar st) (decodeScalar st) fun _ => True := by
  cases st with
  | boolean => exact Implements.bool.map _
  | byte => exact Implements.i8.map _
  | ubyte => exact Implements.u8.map _
  | short => exact (Implements.fixed (by decide) _).map _
  | ushort => exact (Implements.fixed (by decide) _).map _
  | int => exact (Implements.fixed (by decide) _).map _
  | uint => exact (Implements.fixed (by decide) _).map _
  | long => exact (Implements.fixed (by decide) _).map _
  | ulong => exact (Implements.fixed (by decide) _).map _
  | float => exact (Implements.fixed (by decide) _).map _
  | double => exact (Implements.fixed (by decide) _).map _
  | string => exact Implements.string.map _

theorem implements_decodeScalarArray (st : ScalarType) :
    Implements (Machine.decodeScalarArray st) (decodeScalarArray st) fun _ => True := by
  unfold Machine.decodeScalarArray decodeScalarArray
  refine Implements.sizeNonNull.bind ?_
  intro n hn
  split_ifs
  · exact Implements.pure trivial
  · exact (Implements.bytes (by omega)).bind fun _ _ => Implements.pure trivial
  · exact (implements_decodeScalar st).many n

mutual

/-- One case for each field type; the sub-fields are those of the description. -/
theorem implements_decodeFrom (d : FieldDesc) :
    Implements (Machine.decodeFrom d) (decodeFrom d) fun _ => True := by
  obtain ⟨ft, id, fs⟩ := d
  rw [decodeFrom.eq_def, Machine.decodeFrom.eq_def]
  cases ft with
  | scalar st => exact (implements_decodeScalar st).map _
  | scalarArray st => exact (implements_decodeScalarArray st).map _
  | struct => exact (implements_decodeFields fs).map _
  | structArray => exact (implements_decodeFields fs).map _
  | boundedString maxLen =>
    refine Implements.string.bind ?_
    intro s _
    split_ifs
    · exact Implements.fail _
    · exact Implements.pure trivial
  | union =>
    refine (Implements.fixed (by decide) ByteOrder.readI32).bind ?_
    intro selector _
    split_ifs
    · exact Implements.pure trivial
    · exact implements_decodeSelected _ _ _ fs
  | variantUnion =>
    refine (Implements.fixed (by decide) ByteOrder.readI32).bind ?_
    intro selector _
    split_ifs
    · exact Implements.pure trivial
    refine Implements.u8.bind ?_
    intro tag _
    cases ScalarType.fromWire (tag &&& 0x07).toNat with
    | some st => exact (implements_decodeScalar st).map _
    | none => exact Implements.pure trivial
  | unionArray => exact Implements.pure trivial
  | variantUnionArray => exact Implements.pure trivial

theorem implements_decodeFields (fs : List (String × FieldDesc)) :
    Implements (Machine.decodeFields fs) (decodeFields fs) fun _ => True := by
  cases fs with
  | nil =>
    rw [decodeFields, Machine.decodeFields]
    exact Implements.pure trivial
  | cons f fs =>
    obtain ⟨name, d⟩ := f
    rw [decodeFields, Machine.decodeFields]
    exact (implements_decodeFrom d).bind fun _ _ => (implements_decodeFields fs).bind fun _ _ =>
      Implements.pure trivial

theorem implements_decodeSelected (n idx i : ℕ) (fs : List (String × FieldDesc)) :
    Implements (Machine.decodeSelected n idx i fs) (decodeSelected n idx i fs) fun _ => True := by
  cases fs with
  | nil =>
    rw [decodeSelected, Machine.decodeSelected]
    exact Implements.fail _
  | cons f fs =>
    obtain ⟨name, d⟩ := f
    cases i with
    | zero =>
      rw [decodeSelected, Machine.decodeSelected]
      exact (implements_decodeFrom d).map _
    | succ i =>
      rw [decodeSelected, Machine.decodeSelected]
      exact implements_decodeSelected n idx i fs

end

theorem implements_decodeBitSet :
    Implements Machine.decodeBitSet PvaBitSet.decode fun _ => True := by
  unfold Machine.decodeBitSet PvaBitSet.decode
  refine Implements.sizeNonNull.bind ?_
  intro n hn
  split_ifs
  · exact Implements.pure trivial
  · exact (Implements.bytes (by omega)).bind fun _ _ => Implements.pure trivial

/-! ## All of them -/

/-- **Main theorem**: sequences of reads with requested lengths below `2^32`, the decoders of
    descriptions and bit sets, and the decoder of values for any description do not stop a machine
    with 64-bit positions, and their positions only grow and stay inside the buffer. `decode_full`
    takes at least one byte and fails where none is left; put into itself more often than bytes are
    left it is what the model computes, in `decode` too, so its nested calls end. -/
theorem wireReads_progress :
    (∀ ops : List ReadOp, (∀ op ∈ ops, op.requested < 2 ^ 32) → SafeSequence ops) ∧
    (∀ registry, Safely (FieldDesc.Machine.decode registry) (decode registry)) ∧
    (∀ (bottom : Read FieldDesc) (n : ℕ) (r : PvaReader), r.remaining < n →
      (decodeFullStep^[n] bottom) r = decodeFullRest r ∧
      ∀ registry, decodeWith (decodeFullStep^[n] bottom) registry r = decode registry r) ∧
    (∀ (n : ℕ) (r : PvaReader),
      (r.pos < r.buf.length → r.pos < (decodeFull n r).2.pos) ∧
      (r.buf.length ≤ r.pos → decodeFull n r = (.error (.unexpectedEnd 1 0), r))) ∧
    (∀ d : FieldDesc, Safely (Machine.decodeFrom d) (decodeFrom d)) ∧
    Safely Machine.decodeBitSet PvaBitSet.decode := by
  refine ⟨fun ops h => safeSequence h, fun registry => (implements_decode registry).safely, ?_, ?_,
    fun d => (implements_decodeFrom d).safely, implements_decodeBitSet.safely⟩
  · intro bottom n r hn
    exact ⟨iterate_decodeFullStep bottom hn (Nat.le_refl _),
      fun registry => decodeWith_iterate bottom registry hn⟩
  · intro n r
    exact ⟨lt_decodeFull n, decodeFull_of_le n⟩

/-- A text and a skip of the largest length; a structure that is cut off, with nothing below. -/
theorem wireReads_progress_cutOff :
    SafeSequence [.string, .skip 4294967295, .peek] ∧
      (decodeFullStep^[3] (Read.fail .unexpectedNull)) (.new [0x80, 0] .bigEndian) =
        decodeFullRest (.new [0x80, 0] .bigEndian) ∧
      0 < (decodeFull 5 (.new [0x80, 0] .bigEndian)).2.pos := by
  obtain ⟨hreads, -, hdepth, htakes, -⟩ := wireReads_progress
  refine ⟨hreads _ (by decide), ?_, ?_⟩
  · exact (hdepth _ 3 (.new [0x80, 0] .bigEndian) (by decide)).1
  · exact (htakes 5 (.new [0x80, 0] .bigEndian)).1 (by decide)

end AuraEpics.Types
