import AuraEpics.Codec.Header

/-!
# pvData reader

Model of `PvaReader` (`crates/aura-net/src/codec/pvdata.rs`, lines 22-255) and of
`DecodeError`. A read is a state transition on the reader that also says where
the cursor stands after a failure: `handle_monitor_update` goes on with the same
reader after a failed fast decode, so the position on the error path is
observable.

`usize` positions are `ℕ`: a position never exceeds the buffer length (the field
`pos_le`) and a requested length is below `2^31`, so `pos + n` does not overflow.
-/

namespace AuraEpics.Codec

open Numeric

/-- `DecodeError` (lines 457-470). -/
inductive DecodeError where
  | unexpectedEnd (needed available : ℕ)
  | unexpectedNull
  | invalidSize (size : Int64)
  | invalidUtf8 (message : String)
  | unknownTypeCode (code : UInt8)
  | protocol (message : String)
  deriving DecidableEq, Repr

/-- `PvaReader` (lines 22-26), with the cursor bound every read maintains. -/
structure PvaReader where
  buf : List UInt8
  pos : ℕ
  order : ByteOrder
  pos_le : pos ≤ buf.length
  deriving DecidableEq

/-- A fallible read: the outcome and the reader afterwards. -/
abbrev Read (α : Type) := ExceptT DecodeError (StateM PvaReader) α

namespace PvaReader

/-- `PvaReader::new` (lines 30-32). -/
def new (buf : List UInt8) (order : ByteOrder) : PvaReader := ⟨buf, 0, order, Nat.zero_le _⟩

end PvaReader

namespace Read

variable {α β : Type}

/-- Fail with `e`; the reader is unchanged. -/
def fail (e : DecodeError) : Read α := fun r => (.error e, r)

/-- `PvaReader::read_bytes` (lines 75-80), with `ensure` (lines 236-245):
    the next `n` bytes, or `UnexpectedEnd` without moving. -/
def bytes (n : ℕ) : Read (List UInt8) := fun r =>
  if h : r.pos + n ≤ r.buf.length then
    (.ok ((r.buf.drop r.pos).take n), { r with pos := r.pos + n, pos_le := h })
  else (.error (.unexpectedEnd n (r.buf.length - r.pos)), r)

/-- `PvaReader::peek` (lines 54-64): the next byte, without moving. -/
def peek : Read UInt8 := fun r =>
  if h : r.pos < r.buf.length then (.ok (r.buf.get ⟨r.pos, h⟩), r)
  else (.error (.unexpectedEnd 1 0), r)

/-- `PvaReader::skip` (lines 68-72): moves as `read_bytes` does. -/
def skip (n : ℕ) : Read Unit := do
  let _ ← bytes n
  return ()

/-- `self.order`. -/
def order : Read ByteOrder := fun r => (.ok r.order, r)

/-- `PvaReader::read_u8` (lines 83-88). -/
def u8 : Read UInt8 := do
  let b ← bytes 1
  return b.getD 0 0

/-- `PvaReader::read_i8` (lines 91-93): `as i8`. -/
def i8 : Read Int8 := do
  let b ← u8
  return b.toInt8

/-- `PvaReader::read_bool` (lines 96-98). -/
def bool : Read Bool := do
  let b ← u8
  return b ≠ 0

/-- A `read_fixed::<N>` (lines 248-254) followed by the byte-order conversion
    `conv`; the typed reads are its instances. -/
def fixed (n : ℕ) (conv : ByteOrder → List UInt8 → α) : Read α := do
  let b ← bytes n
  let o ← order
  return conv o b

/-- `PvaReader::read_i16` (lines 101-104). -/
def i16 : Read Int16 := fixed 2 ByteOrder.readI16

/-- `PvaReader::read_u16` (lines 107-110). -/
def u16 : Read UInt16 := fixed 2 ByteOrder.readU16

/-- `PvaReader::read_i32` (lines 113-116). -/
def i32 : Read Int32 := fixed 4 ByteOrder.readI32

/-- `PvaReader::read_u32` (lines 119-122). -/
def u32 : Read UInt32 := fixed 4 ByteOrder.readU32

/-- `PvaReader::read_i64` (lines 125-128). -/
def i64 : Read Int64 := fixed 8 ByteOrder.readI64

/-- `PvaReader::read_u64` (lines 131-134). -/
def u64 : Read UInt64 := fixed 8 ByteOrder.readU64

/-- `PvaReader::read_f32` (lines 137-140). -/
def f32 : Read Binary32 := fixed 4 ByteOrder.readF32

/-- `PvaReader::read_f64` (lines 143-146). -/
def f64 : Read Binary64 := fixed 8 ByteOrder.readF64

/-! ## Sizes and strings -/

/-- `SIZE_NULL` and `SIZE_EXTENDED` (lines 16-19). -/
def sizeNull : UInt8 := 255
def sizeExtended : UInt8 := 254

/-- `PvaReader::read_size` (lines 154-167). -/
def size : Read (Option ℕ) := do
  let tag ← u8
  if tag = sizeNull then return none
  else if tag = sizeExtended then
    let n ← i32
    if n < 0 then fail (.invalidSize n.toInt64)
    return some n.toInt.toNat
  else return some tag.toNat

/-- `PvaReader::read_size_non_null` (lines 170-172). -/
def sizeNonNull : Read ℕ := do
  match ← size with
  | some n => return n
  | none => fail .unexpectedNull

/-- `b` is a UTF-8 continuation byte, `0x80..=0xBF`. -/
def isCont (b : UInt8) : Bool := 0x80 ≤ b && b ≤ 0xBF

/-- The second byte `b` may follow the leading byte `a` of a 3-byte sequence. -/
def isSecond3 (a b : UInt8) : Bool :=
  isCont b && (a ≠ 0xE0 || 0xA0 ≤ b) && (a ≠ 0xED || b ≤ 0x9F)

/-- The second byte `b` may follow the leading byte `a` of a 4-byte sequence. -/
def isSecond4 (a b : UInt8) : Bool :=
  isCont b && (a ≠ 0xF0 || 0x90 ≤ b) && (a ≠ 0xF4 || b ≤ 0x8F)

/-- `Utf8Error` of the standard library for bytes that are not UTF-8: how many
    bytes are valid, and the length of the offending sequence unless the input
    ends inside it. -/
def utf8Error : ℕ → List UInt8 → ℕ × Option ℕ
  | i, [] => (i, none)
  | i, a :: rest =>
    if a < 0x80 then utf8Error (i + 1) rest
    else if 0xC2 ≤ a && a ≤ 0xDF then
      match rest with
      | [] => (i, none)
      | b :: rest => if isCont b then utf8Error (i + 2) rest else (i, some 1)
    else if 0xE0 ≤ a && a ≤ 0xEF then
      match rest with
      | [] => (i, none)
      | b :: rest =>
        if !isSecond3 a b then (i, some 1)
        else match rest with
          | [] => (i, none)
          | c :: rest => if isCont c then utf8Error (i + 3) rest else (i, some 2)
    else if 0xF0 ≤ a && a ≤ 0xF4 then
      match rest with
      | [] => (i, none)
      | b :: rest =>
        if !isSecond4 a b then (i, some 1)
        else match rest with
          | [] => (i, none)
          | c :: rest =>
            if !isCont c then (i, some 2)
            else match rest with
              | [] => (i, none)
              | d :: rest => if isCont d then utf8Error (i + 4) rest else (i, some 3)
    else (i, some 1)

/-- The text `Utf8Error` displays. -/
def utf8ErrorText (bs : List UInt8) : String :=
  match utf8Error 0 bs with
  | (i, some n) => s!"invalid utf-8 sequence of {n} bytes from index {i}"
  | (i, none) => s!"incomplete utf-8 byte sequence from index {i}"

/-- `String::from_utf8`. -/
def fromUtf8 (bs : List UInt8) : Except String String :=
  match String.fromUTF8? ⟨bs.toArray⟩ with
  | some s => .ok s
  | none => .error (utf8ErrorText bs)

/-- `PvaReader::read_string` (lines 175-182). -/
def string : Read String := do
  let len ← sizeNonNull
  if len = 0 then return ""
  let b ← bytes len
  match fromUtf8 b with
  | .ok s => return s
  | .error e => fail (.invalidUtf8 e)

/-- The loop `for _ in 0..n { arr.push(p(reader)?) }`. -/
def many (p : Read α) : ℕ → Read (List α)
  | 0 => return []
  | n + 1 => do
    let x ← p
    let xs ← many p n
    return x :: xs

/-- `PvaReader::read_string_opt` (lines 185-196). -/
def stringOpt : Read (Option String) := do
  match ← size with
  | none => return none
  | some len =>
    if len = 0 then return some ""
    let b ← bytes len
    match fromUtf8 b with
    | .ok s => return some s
    | .error e => fail (.invalidUtf8 e)

/-- `PvaReader::read_f64_array` (lines 199-206). -/
def f64Array : Read (List Binary64) := do
  let len ← sizeNonNull
  many f64 len

/-- `PvaReader::read_i32_array` (lines 209-216). -/
def i32Array : Read (List Int32) := do
  let len ← sizeNonNull
  many i32 len

/-- `PvaReader::read_byte_array` (lines 219-223). -/
def byteArray : Read (List UInt8) := do
  let len ← sizeNonNull
  bytes len

/-- `PvaReader::read_string_array` (lines 226-233). -/
def stringArray : Read (List String) := do
  let len ← sizeNonNull
  many string len

/-! ## Running reads -/

theorem run_pure (a : α) (r : PvaReader) : (pure a : Read α) r = (.ok a, r) := rfl

theorem run_bind (p : Read α) (f : α → Read β) (r : PvaReader) :
    (p >>= f) r =
      match p r with
      | (.ok a, r') => f a r'
      | (.error e, r') => (.error e, r') := by
  show (ExceptT.bind p f).run r = _
  simp only [ExceptT.bind, ExceptT.mk]
  show (StateT.bind p (ExceptT.bindCont f)).run r = _
  simp only [StateT.bind, StateT.run]
  rcases p r with ⟨_ | a, r'⟩ <;> rfl

theorem run_map (g : α → β) (p : Read α) (r : PvaReader) :
    (g <$> p) r =
      match p r with
      | (.ok a, r') => (.ok (g a), r')
      | (.error e, r') => (.error e, r') := by
  rw [map_eq_pure_bind, run_bind]
  rcases p r with ⟨_ | a, r'⟩ <;> rfl

/-- A successful `let a ← p; f a` is a successful `p` followed by a successful
    `f a` from where `p` stopped. -/
theorem bind_eq_ok {p : Read α} {f : α → Read β} {r r' : PvaReader} {b : β} :
    (p >>= f) r = (.ok b, r') ↔ ∃ a r₁, p r = (.ok a, r₁) ∧ f a r₁ = (.ok b, r') := by
  rw [run_bind]
  rcases p r with ⟨e | a, r₁⟩
  · constructor
    · intro h; cases h
    · rintro ⟨_, _, h, _⟩; cases h
  · constructor
    · intro h; exact ⟨a, r₁, rfl, h⟩
    · rintro ⟨_, _, h, h'⟩; cases h; exact h'

theorem map_eq_ok {g : α → β} {p : Read α} {r r' : PvaReader} {b : β} :
    (g <$> p) r = (.ok b, r') ↔ ∃ a, p r = (.ok a, r') ∧ g a = b := by
  rw [run_map]
  rcases p r with ⟨e | a, r₁⟩
  · constructor
    · intro h; cases h
    · rintro ⟨_, h, _⟩; cases h
  · constructor
    · intro h; cases h; exact ⟨a, rfl, rfl⟩
    · rintro ⟨_, h, rfl⟩; cases h; rfl

theorem pure_eq_ok {a b : α} {r r' : PvaReader} :
    (pure a : Read α) r = (.ok b, r') ↔ a = b ∧ r = r' := by
  rw [run_pure]
  constructor
  · intro h; cases h; exact ⟨rfl, rfl⟩
  · rintro ⟨rfl, rfl⟩; rfl

/-- Converting each element in the loop is converting the list afterwards. -/
theorem many_map (g : α → β) (p : Read α) (n : ℕ) :
    many (g <$> p) n = List.map g <$> many p n := by
  induction n with
  | zero => simp [many]
  | succ n ih => simp [many, ih]

/-- The result of a read and the reader after it, if it succeeds. -/
def outcome (p : Read α) (r : PvaReader) : Option (α × PvaReader) :=
  match p r with
  | (.ok a, r') => some (a, r')
  | (.error _, _) => none

theorem outcome_eq_some {p : Read α} {r r' : PvaReader} {a : α} :
    p.outcome r = some (a, r') ↔ p r = (.ok a, r') := by
  unfold outcome
  rcases p r with ⟨e | b, r₁⟩
  · constructor <;> intro h <;> cases h
  · constructor <;> intro h <;> cases h <;> rfl

end Read

end AuraEpics.Codec
