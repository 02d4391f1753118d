import AuraEpics.Codec.PvSequence
import AuraEpics.Lib.CursorProgram

/-!
# The reader on a machine

`PvaReader` (`crates/aura-net/src/codec/pvdata.rs`, lines 28-255) with the arithmetic of the
source. A read is a program over the cursor, and a machine with 64-bit positions carries out its
requests as `ensure` and the code behind it do (lines 54-88 and 236-254): `self.pos + n`,
`self.buf.len() - self.pos`, `&self.buf[self.pos..self.pos + n]` and `self.buf[self.pos]`, each of
which may stop it.

The lengths a read asks for are its caller's (`skip`, `read_bytes`), constants, or sizes from the
wire, which are below `2^31`. With these the machine does what the reads of the model do
(`Implements.safely`).

Result: `safeSequence`, reads one after another never stop the machine, and their positions only
grow and stay inside the buffer.
-/

namespace AuraEpics.Codec

open CursorProgram Numeric

variable {α γ : Type}

/-- A read as a program over the cursor, for a byte order. -/
abbrev MachineRead (α : Type) := ReaderT ByteOrder (Program UInt8 DecodeError) α

namespace MachineRead

/-! ## Reads -/

/-- Fail with `e`. -/
def fail (e : DecodeError) : MachineRead α := fun _ => .fail e

/-- `PvaReader::read_bytes` (lines 75-80). -/
def bytes (n : ℕ) : MachineRead (List UInt8) := fun _ => .take n (.unexpectedEnd n) .ret

/-- `PvaReader::peek` (lines 54-64). -/
def peek : MachineRead UInt8 := fun _ => .peek (.unexpectedEnd 1 0) .ret

/-- `PvaReader::remaining` (lines 36-38). -/
def remaining : MachineRead ℕ := fun _ => .left .ret

/-- `self.order`. -/
def order : MachineRead ByteOrder := fun o => .ret o

/-- `PvaReader::skip` (lines 68-72). -/
def skip (n : ℕ) : MachineRead Unit := do
  let _ ← bytes n
  return ()

/-- `PvaReader::read_u8` (lines 83-88). -/
def u8 : MachineRead UInt8 := do
  let b ← bytes 1
  return b.getD 0 0

/-- `PvaReader::read_i8` (lines 91-93). -/
def i8 : MachineRead Int8 := do
  let b ← u8
  return b.toInt8

/-- `PvaReader::read_bool` (lines 96-98). -/
def bool : MachineRead Bool := do
  let b ← u8
  return b ≠ 0

/-- A `read_fixed::<N>` (lines 248-254) and the conversion behind it; the typed reads (lines
    101-146) are its instances. -/
def fixed (n : ℕ) (conv : ByteOrder → List UInt8 → α) : MachineRead α := do
  let b ← bytes n
  let o ← order
  return conv o b

/-- `PvaReader::read_size` (lines 154-167). -/
def size : MachineRead (Option ℕ) := do
  let tag ← u8
  if tag = Read.sizeNull then return none
  else if tag = Read.sizeExtended then
    let n ← fixed 4 ByteOrder.readI32
    if n < 0 then fail (.invalidSize n.toInt64)
    else return some n.toInt.toNat
  else return some tag.toNat

/-- `PvaReader::read_size_non_null` (lines 170-172). -/
def sizeNonNull : MachineRead ℕ := do
  match ← size with
  | some n => return n
  | none => fail .unexpectedNull

/-- The bytes of a text (lines 180-181 and 190-193); `g` is applied to the text. -/
def text (n : ℕ) (g : String → α) : MachineRead α := do
  let b ← bytes n
  match Read.fromUtf8 b with
  | .ok s => return g s
  | .error e => fail (.invalidUtf8 e)

/-- `PvaReader::read_string` (lines 175-182). -/
def string : MachineRead String := do
  let len ← sizeNonNull
  if len = 0 then return "" else text len id

/-- `PvaReader::read_string_opt` (lines 185-196). -/
def stringOpt : MachineRead (Option String) := do
  match ← size with
  | none => return none
  | some len => if len = 0 then return some "" else text len some

/-- The loop `for _ in 0..n { arr.push(p(reader)?) }`. -/
def many (q : MachineRead α) : ℕ → MachineRead (List α)
  | 0 => return []
  | n + 1 => do
    let x ← q
    let xs ← many q n
    return x :: xs

/-- A counted array (lines 199-216 and 226-233). -/
def array (q : MachineRead α) : MachineRead (List α) := do
  let len ← sizeNonNull
  many q len

/-- `PvaReader::read_byte_array` (lines 219-223). -/
def byteArray : MachineRead (List UInt8) := do
  let len ← sizeNonNull
  bytes len

end MachineRead

/-! ## What a read on the machine does -/

/-- `q` computes what `p` does, by requests for fewer than `2^32` bytes, and its results satisfy
    `P`; `p` moves the cursor only. -/
structure Implements (q : MachineRead α) (p : Read α) (P : α → Prop) : Prop where
  run_eq : ∀ r : PvaReader, (q r.order).run r.buf r.pos = ((p r).1, (p r).2.pos)
  buf_eq : ∀ r : PvaReader, (p r).2.buf = r.buf
  order_eq : ∀ r : PvaReader, (p r).2.order = r.order
  within : ∀ o, (q o).Within (2 ^ 32) P

/-- On a buffer a slice can have (at most `isize::MAX` bytes), `q` does not stop a machine with
    64-bit positions and does what `p` does; the cursor does not move back and stays inside the
    buffer, which is left as it is. -/
def Safely (q : MachineRead α) (p : Read α) : Prop :=
  ∀ r : PvaReader, r.buf.length < 2 ^ 63 →
    (q r.order).exec 64 r.buf r.pos = some ((p r).1, (p r).2.pos) ∧
      r.pos ≤ (p r).2.pos ∧ (p r).2.pos ≤ r.buf.length ∧
      (p r).2.buf = r.buf ∧ (p r).2.order = r.order

namespace Implements

variable {q : MachineRead α} {p : Read α} {P : α → Prop} {Q : γ → Prop}

/-- The cursor does not move back. -/
theorem le_pos (h : Implements q p P) (r : PvaReader) : r.pos ≤ (p r).2.pos := by
  have hle := Program.le_run (q r.order) r.buf r.pos
  rwa [h.run_eq] at hle

theorem safely (h : Implements q p P) : Safely q p := by
  intro r hlen
  have hexec := Program.exec_eq_run (w := 64) (h.within r.order) (by omega) r.pos_le
  have hlength := Program.run_le_length (q r.order) r.buf r.pos_le
  rw [h.run_eq] at hexec hlength
  exact ⟨hexec, h.le_pos r, hlength, h.buf_eq r, h.order_eq r⟩

/-! ## Combining reads -/

theorem pure {a : α} (ha : P a) : Implements (Pure.pure a) (Pure.pure a) P where
  run_eq _ := rfl
  buf_eq _ := rfl
  order_eq _ := rfl
  within _ := ha

theorem fail (e : DecodeError) : Implements (MachineRead.fail e) (Read.fail e) P where
  run_eq _ := rfl
  buf_eq _ := rfl
  order_eq _ := rfl
  within _ := trivial

theorem order : Implements MachineRead.order Read.order fun _ => True where
  run_eq _ := rfl
  buf_eq _ := rfl
  order_eq _ := rfl
  within _ := trivial

theorem bytes {n : ℕ} (hn : n < 2 ^ 32) :
    Implements (MachineRead.bytes n) (Read.bytes n) fun _ => True := by
  refine ⟨?_, ?_, ?_, fun _ => ⟨hn, fun _ => trivial⟩⟩
  · intro r
    unfold MachineRead.bytes Read.bytes Program.run
    split
    · rfl
    · rfl
  · intro r
    unfold Read.bytes
    split
    · rfl
    · rfl
  · intro r
    unfold Read.bytes
    split
    · rfl
    · rfl

theorem peek : Implements MachineRead.peek Read.peek fun _ => True := by
  refine ⟨?_, ?_, ?_, fun _ _ => trivial⟩
  · intro r
    unfold MachineRead.peek Read.peek Program.run
    by_cases h : r.pos < r.buf.length
    · rw [dif_pos h, List.getElem?_eq_getElem h]
      rfl
    · rw [dif_neg h, List.getElem?_eq_none (by omega)]
  · intro r
    unfold Read.peek
    split
    · rfl
    · rfl
  · intro r
    unfold Read.peek
    split
    · rfl
    · rfl

/-- A read that depends on how many bytes are left. -/
theorem remaining {q : ℕ → MachineRead α} {p : ℕ → Read α} (h : ∀ n, Implements (q n) (p n) P) :
    Implements (MachineRead.remaining >>= q) (fun r => p (r.buf.length - r.pos) r) P where
  run_eq r := (h _).run_eq r
  buf_eq r := (h _).buf_eq r
  order_eq r := (h _).order_eq r
  within o n := (h n).within o

theorem bind {g : α → MachineRead γ} {f : α → Read γ} (h : Implements q p P)
    (hf : ∀ a, P a → Implements (g a) (f a) Q) : Implements (q >>= g) (p >>= f) Q := by
  have hstep : ∀ r : PvaReader,
      ((q >>= g) r.order).run r.buf r.pos = (((p >>= f) r).1, ((p >>= f) r).2.pos) ∧
        ((p >>= f) r).2.buf = r.buf ∧ ((p >>= f) r).2.order = r.order := by
    intro r
    have hrun := h.run_eq r
    have hbuf := h.buf_eq r
    have horder := h.order_eq r
    have hbind : ((q >>= g) r.order).run r.buf r.pos =
        ((q r.order).bind fun a => g a r.order).run r.buf r.pos := rfl
    rw [hbind, Program.run_bind, hrun, Read.run_bind]
    rcases hr : p r with ⟨e | a, r'⟩
    · rw [hr] at hbuf horder
      exact ⟨rfl, hbuf, horder⟩
    · rw [hr] at hrun hbuf horder
      have ha : P a := (h.within r.order).of_run (congrArg Prod.fst hrun)
      have hnext := hf a ha
      have hrun' := hnext.run_eq r'
      rw [hbuf, horder] at hrun'
      exact ⟨hrun', (hnext.buf_eq r').trans hbuf, (hnext.order_eq r').trans horder⟩
  refine ⟨fun r => (hstep r).1, fun r => (hstep r).2.1, fun r => (hstep r).2.2, ?_⟩
  intro o
  exact (h.within o).bind fun a ha => (hf a ha).within o

theorem map (g : α → γ) (h : Implements q p P) : Implements (g <$> q) (g <$> p) fun _ => True := by
  have hmap : g <$> q = q >>= fun a => Pure.pure (g a) := rfl
  rw [hmap, map_eq_pure_bind]
  exact h.bind fun _ _ => pure trivial

theorem many (h : Implements q p P) (n : ℕ) :
    Implements (MachineRead.many q n) (Read.many p n) fun _ => True := by
  induction n with
  | zero => exact pure trivial
  | succ n ih => exact h.bind fun _ _ => ih.bind fun _ _ => pure trivial

/-! ## The reads of `PvaReader` -/

theorem skip {n : ℕ} (hn : n < 2 ^ 32) :
    Implements (MachineRead.skip n) (Read.skip n) fun _ => True :=
  (bytes hn).bind fun _ _ => pure trivial

theorem fixed {n : ℕ} (hn : n < 2 ^ 32) (conv : ByteOrder → List UInt8 → α) :
    Implements (MachineRead.fixed n conv) (Read.fixed n conv) fun _ => True :=
  (bytes hn).bind fun _ _ => order.bind fun _ _ => pure trivial

theorem u8 : Implements MachineRead.u8 Read.u8 fun _ => True :=
  (bytes (by decide)).bind fun _ _ => pure trivial

theorem i8 : Implements MachineRead.i8 Read.i8 fun _ => True :=
  u8.bind fun _ _ => pure trivial

theorem bool : Implements MachineRead.bool Read.bool fun _ => True :=
  u8.bind fun _ _ => pure trivial

/-- A size is one byte or an `i32` that is not negative. -/
theorem size : Implements MachineRead.size Read.size fun v => ∀ n, v = some n → n < 2 ^ 31 := by
  unfold MachineRead.size Read.size
  refine u8.bind ?_
  intro tag _
  split_ifs
  · exact pure (by simp)
  · refine (fixed (by decide) ByteOrder.readI32).bind ?_
    intro n _
    split_ifs
    · exact fail _
    · refine pure ?_
      rintro m ⟨⟩
      have hlt := n.toInt_lt
      omega
  · refine pure ?_
    rintro m ⟨⟩
    have hlt := tag.toNat_lt
    omega

theorem sizeNonNull : Implements MachineRead.sizeNonNull Read.sizeNonNull (· < 2 ^ 31) := by
  refine size.bind ?_
  intro v hv
  cases v with
  | some n => exact pure (hv n rfl)
  | none => exact fail .unexpectedNull

theorem text {n : ℕ} (hn : n < 2 ^ 31) (g : String → α) :
    Implements (MachineRead.text n g) (do
      let b ← Read.bytes n
      match Read.fromUtf8 b with
      | .ok s => return g s
      | .error e => Read.fail (.invalidUtf8 e)) fun _ => True := by
  refine (bytes (by omega)).bind ?_
  intro b _
  cases Read.fromUtf8 b with
  | ok s => exact pure trivial
  | error e => exact fail _

theorem string : Implements MachineRead.string Read.string fun _ => True := by
  unfold MachineRead.string Read.string
  refine sizeNonNull.bind ?_
  intro n hn
  split_ifs
  · exact pure trivial
  · exact text hn id

theorem stringOpt : Implements MachineRead.stringOpt Read.stringOpt fun _ => True := by
  unfold MachineRead.stringOpt Read.stringOpt
  refine size.bind ?_
  intro v hv
  cases v with
  | none => exact pure trivial
  | some n =>
    dsimp only
    split_ifs
    · exact pure trivial
    · exact text (hv n rfl) some

theorem array (h : Implements q p P) : Implements (MachineRead.array q) (do
    let len ← Read.sizeNonNull
    Read.many p len) fun _ => True :=
  sizeNonNull.bind fun n _ => h.many n

theorem byteArray : Implements MachineRead.byteArray Read.byteArray fun _ => True :=
  sizeNonNull.bind fun _ hn => bytes (by omega)

end Implements

/-! ## Sequences -/

namespace ReadOp

/-- The length an operation is called with. -/
def requested : ReadOp → ℕ
  | skip n => n
  | bytes n => n
  | _ => 0

/-- An operation on the machine. -/
def onMachine : ReadOp → MachineRead WireValue
  | peek => WireValue.u8 <$> MachineRead.peek
  | skip n => (fun _ => WireValue.unit) <$> MachineRead.skip n
  | bytes n => WireValue.raw <$> MachineRead.bytes n
  | u8 => WireValue.u8 <$> MachineRead.u8
  | i8 => WireValue.i8 <$> MachineRead.i8
  | bool => WireValue.bool <$> MachineRead.bool
  | i16 => WireValue.i16 <$> MachineRead.fixed 2 ByteOrder.readI16
  | u16 => WireValue.u16 <$> MachineRead.fixed 2 ByteOrder.readU16
  | i32 => WireValue.i32 <$> MachineRead.fixed 4 ByteOrder.readI32
  | u32 => WireValue.u32 <$> MachineRead.fixed 4 ByteOrder.readU32
  | i64 => WireValue.i64 <$> MachineRead.fixed 8 ByteOrder.readI64
  | u64 => WireValue.u64 <$> MachineRead.fixed 8 ByteOrder.readU64
  | f32 => WireValue.f32 <$> MachineRead.fixed 4 ByteOrder.readF32
  | f64 => WireValue.f64 <$> MachineRead.fixed 8 ByteOrder.readF64
  | size => WireValue.size <$> MachineRead.size
  | sizeNonNull => WireValue.length <$> MachineRead.sizeNonNull
  | string => WireValue.string <$> MachineRead.string
  | stringOpt => WireValue.stringOpt <$> MachineRead.stringOpt
  | f64Array => WireValue.f64Array <$> MachineRead.array (MachineRead.fixed 8 ByteOrder.readF64)
  | i32Array => WireValue.i32Array <$> MachineRead.array (MachineRead.fixed 4 ByteOrder.readI32)
  | byteArray => WireValue.byteArray <$> MachineRead.byteArray
  | stringArray => WireValue.stringArray <$> MachineRead.array MachineRead.string

theorem implements_onMachine {op : ReadOp} (h : op.requested < 2 ^ 32) :
    Implements op.onMachine op.read fun _ => True := by
  cases op with
  | peek => exact Implements.peek.map _
  | skip n => exact (Implements.skip h).map _
  | bytes n => exact (Implements.bytes h).map _
  | u8 => exact Implements.u8.map _
  | i8 => exact Implements.i8.map _
  | bool => exact Implements.bool.map _
  | i16 => exact (Implements.fixed (by decide) _).map _
  | u16 => exact (Implements.fixed (by decide) _).map _
  | i32 => exact (Implements.fixed (by decide) _).map _
  | u32 => exact (Implements.fixed (by decide) _).map _
  | i64 => exact (Implements.fixed (by decide) _).map _
  | u64 => exact (Implements.fixed (by decide) _).map _
  | f32 => exact (Implements.fixed (by decide) _).map _
  | f64 => exact (Implements.fixed (by decide) _).map _
  | size => exact Implements.size.map _
  | sizeNonNull => exact Implements.sizeNonNull.map _
  | string => exact Implements.string.map _
  | stringOpt => exact Implements.stringOpt.map _
  | f64Array => exact (Implements.fixed (by decide) ByteOrder.readF64).array.map _
  | i32Array => exact (Implements.fixed (by decide) ByteOrder.readI32).array.map _
  | byteArray => exact Implements.byteArray.map _
  | stringArray => exact Implements.string.array.map _

end ReadOp

/-- What each read of a sequence returns and the position after it. A read that fails does not end
    the sequence. -/
def readEach : List ReadOp → PvaReader → List (Except DecodeError WireValue × ℕ)
  | [], _ => []
  | op :: ops, r => ((op.read r).1, (op.read r).2.pos) :: readEach ops (op.read r).2

/-- The reads one after another do not stop a machine with 64-bit positions; the positions do not
    decrease and stay inside the buffer. -/
def SafeSequence (ops : List ReadOp) : Prop :=
  ∀ r : PvaReader, r.buf.length < 2 ^ 63 →
    Program.execEach 64 (ops.map fun op => op.onMachine r.order) r.buf r.pos =
        some (readEach ops r) ∧
      (r.pos :: (readEach ops r).map Prod.snd).Pairwise (· ≤ ·) ∧
      ∀ out ∈ readEach ops r, out.2 ≤ r.buf.length

theorem runEach_eq_readEach {ops : List ReadOp} (h : ∀ op ∈ ops, op.requested < 2 ^ 32)
    (r : PvaReader) :
    Program.runEach (ops.map fun op => op.onMachine r.order) r.buf r.pos = readEach ops r := by
  induction ops generalizing r with
  | nil => rfl
  | cons op ops ih =>
    have hop := ReadOp.implements_onMachine (h op List.mem_cons_self)
    have htail := ih (fun op' hmem => h op' (List.mem_cons_of_mem op hmem)) (op.read r).2
    rw [hop.buf_eq, hop.order_eq] at htail
    simp only [List.map_cons, Program.runEach, readEach, hop.run_eq, htail]

theorem safeSequence {ops : List ReadOp} (h : ∀ op ∈ ops, op.requested < 2 ^ 32) :
    SafeSequence ops := by
  intro r hlen
  have hwithin : ∀ prog ∈ ops.map fun op => op.onMachine r.order,
      prog.Within (2 ^ 32) fun _ => True := by
    intro prog hprog
    obtain ⟨op, hop, rfl⟩ := List.mem_map.mp hprog
    exact (ReadOp.implements_onMachine (h op hop)).within r.order
  have hexec := Program.execEach_eq_runEach (w := 64) hwithin (by omega) r.pos_le
  have hpairwise := Program.runEach_pairwise (ops.map fun op => op.onMachine r.order) r.buf r.pos
  rw [runEach_eq_readEach h] at hexec hpairwise
  refine ⟨hexec, hpairwise, ?_⟩
  intro out hout
  rw [← runEach_eq_readEach h] at hout
  exact Program.runEach_le_length r.pos_le hout

end AuraEpics.Codec
