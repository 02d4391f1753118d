import AuraEpics.Codec.PvData

/-!
# pvData writer

Model of `PvaWriter` (`crates/aura-net/src/codec/pvdata.rs`, lines 257-454). A write is
the list of bytes it appends.

`Yields order p bs a` says that `p` reads `a` off the bytes `bs`, wherever they stand
and whatever follows. Its rules follow the reader's combinators:

* `Yields.bind`, `Yields.last`, `Yields.many`: reads one after another take their bytes one after
  another;
* `yields_sizeNonNull`, `yields_string`: what `write_size` and `write_string` write is
  read back, for sizes below `2^31`.
-/

namespace AuraEpics.Codec

open Numeric

namespace Write

/-- `PvaWriter::write_u8` (lines 308-310). -/
def u8 (v : UInt8) : List UInt8 := [v]

/-- `PvaWriter::write_i8` (lines 313-315): `as u8`. -/
def i8 (v : Int8) : List UInt8 := [v.toUInt8]

/-- `PvaWriter::write_bool` (lines 318-320). -/
def bool (v : Bool) : List UInt8 := [if v then 1 else 0]

/-- `PvaWriter::write_i16` (lines 323-329). -/
def i16 (order : ByteOrder) (v : Int16) : List UInt8 := order.writeNat 2 v.toUInt16.toNat

/-- `PvaWriter::write_u16` (lines 332-338). -/
def u16 (order : ByteOrder) (v : UInt16) : List UInt8 := order.writeNat 2 v.toNat

/-- `PvaWriter::write_i32` (lines 341-344). -/
def i32 (order : ByteOrder) (v : Int32) : List UInt8 := order.writeI32 v

/-- `PvaWriter::write_u32` (lines 347-353). -/
def u32 (order : ByteOrder) (v : UInt32) : List UInt8 := order.writeNat 4 v.toNat

/-- `PvaWriter::write_i64` (lines 356-362). -/
def i64 (order : ByteOrder) (v : Int64) : List UInt8 := order.writeNat 8 v.toUInt64.toNat

/-- `PvaWriter::write_u64` (lines 365-371). -/
def u64 (order : ByteOrder) (v : UInt64) : List UInt8 := order.writeNat 8 v.toNat

/-- `PvaWriter::write_f32` (lines 374-380). -/
def f32 (order : ByteOrder) (v : Binary32) : List UInt8 := order.writeNat 4 v.bits.toNat

/-- `PvaWriter::write_f64` (lines 383-389). -/
def f64 (order : ByteOrder) (v : Binary64) : List UInt8 := order.writeNat 8 v.bits.toNat

/-- `PvaWriter::write_size` (lines 392-399): `as u8` and `as i32` keep the low bits. -/
def size (order : ByteOrder) (n : ℕ) : List UInt8 :=
  if n < Read.sizeExtended.toNat then [UInt8.ofNat n]
  else Read.sizeExtended :: i32 order (Int32.ofNat n)

/-- `PvaWriter::write_string` (lines 407-410). -/
def string (order : ByteOrder) (s : String) : List UInt8 :=
  size order s.utf8ByteSize ++ s.toByteArray.data.toList

/-- `PvaWriter::write_size_null` (lines 402-404). -/
def sizeNull : List UInt8 := [Read.sizeNull]

/-- `PvaWriter::write_string_opt` (lines 413-418). -/
def stringOpt (order : ByteOrder) : Option String → List UInt8
  | some s => string order s
  | none => sizeNull

/-- `PvaWriter::write_f64_array` (lines 421-426). -/
def f64Array (order : ByteOrder) (arr : List Binary64) : List UInt8 :=
  size order arr.length ++ arr.flatMap (f64 order)

/-- `PvaWriter::write_i32_array` (lines 429-434). -/
def i32Array (order : ByteOrder) (arr : List Int32) : List UInt8 :=
  size order arr.length ++ arr.flatMap (i32 order)

/-- `PvaWriter::write_byte_array` (lines 437-440). -/
def byteArray (order : ByteOrder) (arr : List UInt8) : List UInt8 := size order arr.length ++ arr

/-- `PvaWriter::write_string_array` (lines 443-448). -/
def stringArray (order : ByteOrder) (arr : List String) : List UInt8 :=
  size order arr.length ++ arr.flatMap (string order)

end Write

/-! ## Reading at a position -/

/-- A reader that has read `done` and has `rest` before it. -/
def PvaReader.at (order : ByteOrder) (done rest : List UInt8) : PvaReader :=
  ⟨done ++ rest, done.length, order, by simp⟩

theorem PvaReader.at_append (order : ByteOrder) (done bs rest : List UInt8) :
    PvaReader.at order (done ++ bs) rest =
      ⟨done ++ (bs ++ rest), done.length + bs.length, order, by simp⟩ := by
  simp [PvaReader.at]

/-- `p` reads `a` off the bytes `bs` and stops right after them. -/
def Yields {α : Type} (order : ByteOrder) (p : Read α) (bs : List UInt8) (a : α) : Prop :=
  ∀ done rest, p (.at order done (bs ++ rest)) = (.ok a, .at order (done ++ bs) rest)

namespace Yields

variable {α β : Type} {order : ByteOrder}

theorem pure (a : α) : Yields order (Pure.pure a) [] a := by
  intro done rest
  simp [Read.run_pure]

theorem bind {p : Read α} {f : α → Read β} {bs cs : List UInt8} {a : α} {b : β}
    (hp : Yields order p bs a) (hf : Yields order (f a) cs b) :
    Yields order (p >>= f) (bs ++ cs) b := by
  intro done rest
  rw [List.append_assoc, Read.run_bind, hp]
  dsimp only
  rw [hf, List.append_assoc]

/-- The last step of a read takes nothing. -/
theorem last {p : Read α} {f : α → Read β} {bs : List UInt8} {a : α} {b : β}
    (hp : Yields order p bs a) (hf : Yields order (f a) [] b) : Yields order (p >>= f) bs b := by
  have h := hp.bind hf
  rwa [List.append_nil] at h

theorem map {p : Read α} {bs : List UInt8} {a : α} (g : α → β) (hp : Yields order p bs a) :
    Yields order (g <$> p) bs (g a) := by
  intro done rest
  rw [Read.run_map, hp]

/-- The first step of a read takes nothing. -/
theorem skip {p : Read α} {f : α → Read β} {bs : List UInt8} {a : α} {b : β}
    (hp : Yields order p [] a) (hf : Yields order (f a) bs b) : Yields order (p >>= f) bs b :=
  hp.bind hf

/-- The loop reads one element off each piece. -/
theorem many {γ : Type} {p : Read α} {write : γ → List UInt8} {g : γ → α} (xs : List γ)
    (hp : ∀ x ∈ xs, Yields order p (write x) (g x)) :
    Yields order (Read.many p xs.length) (xs.flatMap write) (xs.map g) := by
  induction xs with
  | nil => exact pure []
  | cons x xs ih =>
    have htail := ih fun y hy => hp y (List.mem_cons_of_mem x hy)
    rw [List.flatMap_cons, List.length_cons, Read.many, List.map_cons]
    refine (hp x List.mem_cons_self).bind (htail.last ?_)
    exact pure (g x :: xs.map g)

end Yields

/-! ## Reading back what was written -/

section ReadBack

variable (order : ByteOrder)

theorem yields_bytes (bs : List UInt8) : Yields order (Read.bytes bs.length) bs bs := by
  intro done rest
  have hle : done.length + bs.length ≤ (done ++ (bs ++ rest)).length := by simp
  show (if h : done.length + bs.length ≤ (done ++ (bs ++ rest)).length then _ else _) = _
  rw [dif_pos hle, PvaReader.at_append]
  simp [PvaReader.at]

theorem yields_u8 (b : UInt8) : Yields order Read.u8 [b] b := by
  refine (yields_bytes order [b]).last ?_
  exact Yields.pure b

theorem yields_fixed {α : Type} (bs : List UInt8) (conv : ByteOrder → List UInt8 → α) :
    Yields order (Read.fixed bs.length conv) bs (conv order bs) := by
  intro done rest
  unfold Read.fixed
  rw [Read.run_bind, yields_bytes]
  rfl

theorem yields_i8 (v : Int8) : Yields order Read.i8 (Write.i8 v) v := by
  refine (yields_u8 order v.toUInt8).last ?_
  exact Yields.pure v

theorem yields_bool (v : Bool) : Yields order Read.bool (Write.bool v) v := by
  refine (yields_u8 order (if v then 1 else 0)).last ?_
  have hflag : decide ((if v then 1 else 0 : UInt8) ≠ 0) = v := by cases v <;> rfl
  rw [hflag]
  exact Yields.pure v

/-- What `w` bytes were written from is read back where the conversion inverts it. -/
theorem yields_writeNat {α : Type} (w n : ℕ) {conv : ByteOrder → List UInt8 → α} {a : α}
    (h : conv order (order.writeNat w n) = a) :
    Yields order (Read.fixed w conv) (order.writeNat w n) a := by
  have hfixed := yields_fixed order (order.writeNat w n) conv
  rwa [ByteOrder.length_writeNat, h] at hfixed

theorem readU32_writeNat (v : UInt32) : order.readU32 (order.writeNat 4 v.toNat) = v := by
  have hlt : v.toNat < 256 ^ 4 := v.toNat_lt
  unfold ByteOrder.readU32
  rw [ByteOrder.readNat_writeNat, Nat.mod_eq_of_lt hlt, UInt32.ofNat_toNat]

theorem readU64_writeNat (v : UInt64) : order.readU64 (order.writeNat 8 v.toNat) = v := by
  have hlt : v.toNat < 256 ^ 8 := v.toNat_lt
  unfold ByteOrder.readU64
  rw [ByteOrder.readNat_writeNat, Nat.mod_eq_of_lt hlt, UInt64.ofNat_toNat]

theorem yields_u32 (v : UInt32) : Yields order Read.u32 (Write.u32 order v) v :=
  yields_writeNat order 4 v.toNat (readU32_writeNat order v)

theorem yields_u64 (v : UInt64) : Yields order Read.u64 (Write.u64 order v) v :=
  yields_writeNat order 8 v.toNat (readU64_writeNat order v)

theorem yields_i64 (v : Int64) : Yields order Read.i64 (Write.i64 order v) v :=
  yields_writeNat order 8 v.toUInt64.toNat
    (congrArg UInt64.toInt64 (readU64_writeNat order v.toUInt64))

theorem yields_f32 (v : Binary32) : Yields order Read.f32 (Write.f32 order v) v :=
  yields_writeNat order 4 v.bits.toNat (congrArg Binary32.mk (readU32_writeNat order v.bits))

theorem yields_f64 (v : Binary64) : Yields order Read.f64 (Write.f64 order v) v :=
  yields_writeNat order 8 v.bits.toNat (congrArg Binary64.mk (readU64_writeNat order v.bits))

theorem yields_i32 (v : Int32) : Yields order Read.i32 (Write.i32 order v) v :=
  yields_writeNat order 4 v.toUInt32.toNat (ByteOrder.readI32_writeI32 order v)

theorem readU16_writeNat (v : UInt16) : order.readU16 (order.writeNat 2 v.toNat) = v := by
  have hlt : v.toNat < 256 ^ 2 := v.toNat_lt
  unfold ByteOrder.readU16
  rw [ByteOrder.readNat_writeNat, Nat.mod_eq_of_lt hlt, UInt16.ofNat_toNat]

theorem yields_u16 (v : UInt16) : Yields order Read.u16 (Write.u16 order v) v :=
  yields_writeNat order 2 v.toNat (readU16_writeNat order v)

theorem yields_i16 (v : Int16) : Yields order Read.i16 (Write.i16 order v) v :=
  yields_writeNat order 2 v.toUInt16.toNat
    (congrArg UInt16.toInt16 (readU16_writeNat order v.toUInt16))

theorem yields_size {n : ℕ} (hn : n < 2 ^ 31) :
    Yields order Read.size (Write.size order n) (some n) := by
  unfold Write.size Read.size
  split_ifs with h
  · have hlt : n < 254 := h
    have htag : (UInt8.ofNat n).toNat = n := UInt8.toNat_ofNat_of_lt (show n < 256 by omega)
    have hnull : UInt8.ofNat n ≠ Read.sizeNull := by
      intro heq
      have : n = 255 := by rw [← htag, heq]; rfl
      omega
    have hext : UInt8.ofNat n ≠ Read.sizeExtended := by
      intro heq
      have : n = 254 := by rw [← htag, heq]; rfl
      omega
    refine (yields_u8 order (UInt8.ofNat n)).last ?_
    rw [if_neg hnull, if_neg hext, htag]
    exact Yields.pure (some n)
  · refine (yields_u8 order Read.sizeExtended).bind ?_
    have hint : (Int32.ofNat n).toInt = n := Int32.toInt_ofNat_of_lt hn
    have hnonneg : ¬Int32.ofNat n < 0 := by
      rw [Int32.lt_iff_toInt_lt, hint]
      simp
    rw [if_neg (by decide), if_pos rfl]
    refine (yields_i32 order (Int32.ofNat n)).last ?_
    rw [if_neg hnonneg, hint]
    exact Yields.pure (some n)

/-- A size that `as i32` makes negative is rejected. -/
theorem size_negative {n : ℕ} (hn : 254 ≤ n) (hneg : Int32.ofNat n < 0) (done rest : List UInt8) :
    Read.size (.at order done (Write.size order n ++ rest)) =
      (.error (.invalidSize (Int32.ofNat n).toInt64),
        .at order (done ++ Write.size order n) rest) := by
  have htag := yields_u8 order Read.sizeExtended
  have hint := yields_i32 order (Int32.ofNat n)
  have hsize : Write.size order n = [Read.sizeExtended] ++ Write.i32 order (Int32.ofNat n) :=
    if_neg (Nat.not_lt.2 hn)
  rw [hsize, List.append_assoc, ← List.append_assoc done]
  unfold Read.size
  rw [Read.run_bind, htag]
  dsimp only
  rw [if_neg (by decide), if_pos rfl, Read.run_bind, hint]
  dsimp only
  rw [if_pos hneg]
  rfl

theorem yields_sizeNonNull {n : ℕ} (hn : n < 2 ^ 31) :
    Yields order Read.sizeNonNull (Write.size order n) n := by
  refine (yields_size order hn).last ?_
  exact Yields.pure n

theorem fromUtf8_toByteArray (s : String) : Read.fromUtf8 s.toByteArray.data.toList = .ok s := by
  unfold Read.fromUtf8
  rw [Array.toArray_toList]
  show (match String.fromUTF8? s.toByteArray with
    | some s => Except.ok s
    | none => _) = _
  rw [String.fromUTF8?, dif_pos s.isValidUTF8]
  rfl

/-- Behind its size, a text is read back off its bytes; `g` is applied to it. -/
theorem yields_text {α : Type} (s : String) (g : String → α) :
    Yields order
      (if s.utf8ByteSize = 0 then return g ""
      else do
        let b ← Read.bytes s.utf8ByteSize
        match Read.fromUtf8 b with
        | .ok t => return g t
        | .error e => Read.fail (.invalidUtf8 e))
      s.toByteArray.data.toList (g s) := by
  have hlen : s.toByteArray.data.toList.length = s.utf8ByteSize := rfl
  split_ifs with h
  · have hnil : s.toByteArray.data.toList = [] := List.length_eq_zero_iff.1 (hlen.trans h)
    have hempty : s = "" := String.utf8ByteSize_eq_zero_iff.1 h
    rw [hnil, hempty]
    exact Yields.pure (g "")
  · rw [← hlen]
    refine (yields_bytes order s.toByteArray.data.toList).last ?_
    rw [fromUtf8_toByteArray]
    exact Yields.pure (g s)

theorem yields_string {s : String} (hs : s.utf8ByteSize < 2 ^ 31) :
    Yields order Read.string (Write.string order s) s :=
  (yields_sizeNonNull order hs).bind (yields_text order s id)

theorem yields_sizeNull : Yields order Read.size Write.sizeNull none := by
  refine (yields_u8 order Read.sizeNull).last ?_
  exact Yields.pure none

theorem yields_stringOpt {s : Option String} (hs : ∀ t, s = some t → t.utf8ByteSize < 2 ^ 31) :
    Yields order Read.stringOpt (Write.stringOpt order s) s := by
  cases s with
  | none =>
    refine (yields_sizeNull order).last ?_
    exact Yields.pure none
  | some s =>
    refine (yields_size order (hs s rfl)).bind ?_
    exact yields_text order s some

/-- A counted array whose elements are read back is read back. -/
theorem yields_array {α : Type} {p : Read α} {write : α → List UInt8} {xs : List α}
    (hlen : xs.length < 2 ^ 31) (hp : ∀ x ∈ xs, Yields order p (write x) x) :
    Yields order (do let len ← Read.sizeNonNull; Read.many p len)
      (Write.size order xs.length ++ xs.flatMap write) xs := by
  have hloop := Yields.many (g := id) xs hp
  rw [List.map_id] at hloop
  exact (yields_sizeNonNull order hlen).bind hloop

theorem yields_byteArray {bs : List UInt8} (hlen : bs.length < 2 ^ 31) :
    Yields order Read.byteArray (Write.byteArray order bs) bs :=
  (yields_sizeNonNull order hlen).bind (yields_bytes order bs)

end ReadBack

end AuraEpics.Codec
