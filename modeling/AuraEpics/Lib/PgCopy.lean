import AuraEpics.Lib.Numeric

/-!
# The binary format of COPY

The format PostgreSQL reads after `COPY … FROM STDIN WITH (FORMAT binary)`: a header, the
tuples, each a count of fields and the fields with their lengths, and a trailer in the place
of a count. Integers are big-endian.

* `parse`: the grammar, with what is left of the input;
* `encode`: the tuples in this format;
* `Value`: values of columns, with the bytes PostgreSQL receives them as;
* `readCopy`: the rows of typed columns that an input consists of.

Results: `parse_encode`, `readCopy_encodeRows`.
-/

namespace PgCopy

open Numeric

/-- The data of a field, or NULL. -/
abbrev Field := Option (List UInt8)

/-- `PGCOPY\n\377\r\n\0`. -/
def signature : List UInt8 := [0x50, 0x47, 0x43, 0x4F, 0x50, 0x59, 0x0A, 0xFF, 0x0D, 0x0A, 0x00]

/-! ## The grammar -/

/-- The next `n` bytes. -/
def splitBytes (n : ℕ) (bs : List UInt8) : Option (List UInt8 × List UInt8) :=
  if n ≤ bs.length then some (bs.take n, bs.drop n) else none

/-- The next integer of `w` bytes, without its sign. -/
def int (w : ℕ) (bs : List UInt8) : Option (ℕ × List UInt8) := do
  let (digits, bs) ← splitBytes w bs
  return (beNat digits, bs)

/-- A field: its length, which is -1 for NULL, and its data. -/
def field (bs : List UInt8) : Option (Field × List UInt8) := do
  let (len, bs) ← int 4 bs
  if len = 2 ^ 32 - 1 then return (none, bs)
  else if 2 ^ 31 ≤ len then none
  else
    let (data, bs) ← splitBytes len bs
    return (some data, bs)

/-- The fields of a tuple. -/
def fields : ℕ → List UInt8 → Option (List Field × List UInt8)
  | 0, bs => some ([], bs)
  | n + 1, bs => do
    let (f, bs) ← field bs
    let (fs, bs) ← fields n bs
    return (f :: fs, bs)

/-- At most `fuel` tuples up to the trailer, which is the count -1. -/
def tuples : ℕ → List UInt8 → Option (List (List Field) × List UInt8)
  | 0, _ => none
  | fuel + 1, bs => do
    let (count, bs) ← int 2 bs
    if count = 2 ^ 16 - 1 then return ([], bs)
    else if 2 ^ 15 ≤ count then none
    else
      let (t, bs) ← fields count bs
      let (ts, bs) ← tuples fuel bs
      return (t :: ts, bs)

/-- The header: the signature, flags of which the upper half must be clear, and an extension
    that is skipped. -/
def header (bs : List UInt8) : Option (List UInt8) := do
  let (sig, bs) ← splitBytes signature.length bs
  let (flags, bs) ← int 4 bs
  let (len, bs) ← int 4 bs
  if sig ≠ signature ∨ 2 ^ 16 ≤ flags ∨ 2 ^ 31 ≤ len then none
  else
    let (_, bs) ← splitBytes len bs
    return bs

/-- The tuples of an input and the bytes after the trailer. Every tuple has a count, so the
    number of bytes bounds that of the tuples. -/
def parse (bs : List UInt8) : Option (List (List Field) × List UInt8) := do
  let bs ← header bs
  tuples bs.length bs

/-! ## Writing -/

/-- A field with its length. -/
def encodeField : Field → List UInt8
  | none => beBytes 4 (2 ^ 32 - 1)
  | some data => beBytes 4 data.length ++ data

/-- A tuple with its count. -/
def encodeTuple (t : List Field) : List UInt8 := beBytes 2 t.length ++ t.flatMap encodeField

/-- The header without flags and extension. -/
def headerBytes : List UInt8 := signature ++ (beBytes 4 0 ++ beBytes 4 0)

/-- The trailer. -/
def trailerBytes : List UInt8 := beBytes 2 (2 ^ 16 - 1)

/-- The tuples in the format. -/
def encode (ts : List (List Field)) : List UInt8 :=
  headerBytes ++ (ts.flatMap encodeTuple ++ trailerBytes)

/-- A length field holds the length. -/
def FieldFits (f : Field) : Prop := ∀ data ∈ f, data.length < 2 ^ 31

/-- A count holds the number of fields, and the length fields their lengths. -/
def TupleFits (t : List Field) : Prop := t.length < 2 ^ 15 ∧ ∀ f ∈ t, FieldFits f

theorem splitBytes_append (bs rest : List UInt8) :
    splitBytes bs.length (bs ++ rest) = some (bs, rest) := by
  unfold splitBytes
  rw [if_pos (by simp), List.take_left, List.drop_left]

theorem int_beBytes (w n : ℕ) (rest : List UInt8) :
    int w (beBytes w n ++ rest) = some (n % 256 ^ w, rest) := by
  have hsplit := splitBytes_append (beBytes w n) rest
  rw [length_beBytes] at hsplit
  unfold int
  rw [hsplit]
  show some (beNat (beBytes w n), rest) = _
  rw [beNat_beBytes]

theorem field_encodeField {f : Field} (h : FieldFits f) (rest : List UInt8) :
    field (encodeField f ++ rest) = some (f, rest) := by
  cases f with
  | none =>
    unfold encodeField field
    rw [int_beBytes]
    rfl
  | some data =>
    have hlen : data.length < 2 ^ 31 := h data rfl
    unfold encodeField field
    rw [List.append_assoc, int_beBytes, Nat.mod_eq_of_lt (by omega)]
    show (if data.length = 2 ^ 32 - 1 then _ else _) = _
    rw [if_neg (by omega)]
    show (if 2 ^ 31 ≤ data.length then _ else _) = _
    rw [if_neg (by omega)]
    show (splitBytes data.length (data ++ rest)).bind _ = _
    rw [splitBytes_append]
    rfl

theorem fields_flatMap {t : List Field} (h : ∀ f ∈ t, FieldFits f) (rest : List UInt8) :
    fields t.length (t.flatMap encodeField ++ rest) = some (t, rest) := by
  induction t with
  | nil => rfl
  | cons f t ih =>
    rw [List.flatMap_cons, List.append_assoc, List.length_cons]
    unfold fields
    rw [field_encodeField (h f List.mem_cons_self)]
    show (fields t.length (t.flatMap encodeField ++ rest)).bind _ = _
    rw [ih fun g hg => h g (List.mem_cons_of_mem f hg)]
    rfl

theorem tuples_flatMap {ts : List (List Field)} (h : ∀ t ∈ ts, TupleFits t) {fuel : ℕ}
    (hfuel : ts.length < fuel) (rest : List UInt8) :
    tuples fuel (ts.flatMap encodeTuple ++ trailerBytes ++ rest) = some (ts, rest) := by
  induction ts generalizing fuel with
  | nil =>
    obtain ⟨fuel, rfl⟩ : ∃ k, fuel = k + 1 := ⟨fuel - 1, by simp at hfuel; omega⟩
    show tuples (fuel + 1) (trailerBytes ++ rest) = _
    unfold tuples trailerBytes
    rw [int_beBytes]
    rfl
  | cons t ts ih =>
    obtain ⟨fuel, rfl⟩ : ∃ k, fuel = k + 1 := ⟨fuel - 1, by simp at hfuel; omega⟩
    obtain ⟨hcount, hfits⟩ := h t List.mem_cons_self
    rw [List.flatMap_cons, List.append_assoc, List.append_assoc]
    unfold tuples encodeTuple
    rw [List.append_assoc, int_beBytes, Nat.mod_eq_of_lt (by omega)]
    show (if t.length = 2 ^ 16 - 1 then _ else _) = _
    rw [if_neg (by omega)]
    show (if 2 ^ 15 ≤ t.length then _ else _) = _
    rw [if_neg (by omega)]
    show (fields t.length (t.flatMap encodeField ++ _)).bind _ = _
    rw [fields_flatMap hfits]
    show (tuples fuel (ts.flatMap encodeTuple ++ (trailerBytes ++ rest))).bind _ = _
    rw [← List.append_assoc, ih (fun u hu => h u (List.mem_cons_of_mem t hu))
      (by rw [List.length_cons] at hfuel; omega)]
    rfl

theorem header_headerBytes (rest : List UInt8) : header (headerBytes ++ rest) = some rest := by
  unfold header headerBytes
  rw [List.append_assoc, List.append_assoc, splitBytes_append]
  simp only [Option.bind_eq_bind, Option.bind_some, int_beBytes, Nat.zero_mod]
  rw [if_neg (by simp)]
  unfold splitBytes
  rw [if_pos (Nat.zero_le _)]
  rfl

theorem length_le_length_flatMap (ts : List (List Field)) :
    ts.length ≤ (ts.flatMap encodeTuple).length := by
  induction ts with
  | nil => exact Nat.le_refl 0
  | cons t ts ih =>
    rw [List.flatMap_cons, List.length_append, List.length_cons]
    have htuple : 2 ≤ (encodeTuple t).length := by
      unfold encodeTuple
      rw [List.length_append, length_beBytes]
      omega
    omega

/-- What is written is parsed, to the last byte. -/
theorem parse_encode {ts : List (List Field)} (h : ∀ t ∈ ts, TupleFits t) :
    parse (encode ts) = some (ts, []) := by
  unfold parse encode
  rw [header_headerBytes]
  show tuples _ (ts.flatMap encodeTuple ++ trailerBytes) = _
  have hfuel : ts.length < (ts.flatMap encodeTuple ++ trailerBytes).length := by
    have hlen := length_le_length_flatMap ts
    unfold trailerBytes
    rw [List.length_append, length_beBytes]
    omega
  have hparsed := tuples_flatMap h hfuel []
  rw [List.append_nil] at hparsed
  exact hparsed

/-! ## Values -/

/-- Types of columns. -/
inductive ColumnType where
  | int2 | int4 | int8 | timestamptz | float8 | text | bytea | jsonb | int4Array
  deriving DecidableEq, Repr

/-- A value of a column; a `timestamptz` is in microseconds since 2000, a `jsonb` is its text. -/
inductive Value where
  | int2 (x : Int16)
  | int4 (x : Int32)
  | int8 (x : Int64)
  | timestamptz (x : Int64)
  | float8 (x : Binary64)
  | text (s : String)
  | bytea (bs : List UInt8)
  | jsonb (bs : List UInt8)
  | int4Array (xs : List Int32)
  deriving DecidableEq

/-- The type of a value. -/
def Value.type : Value → ColumnType
  | int2 _ => .int2
  | int4 _ => .int4
  | int8 _ => .int8
  | timestamptz _ => .timestamptz
  | float8 _ => .float8
  | text _ => .text
  | bytea _ => .bytea
  | jsonb _ => .jsonb
  | int4Array _ => .int4Array

/-- `to_be_bytes` of an `i16`. -/
def beI16 (x : Int16) : List UInt8 := beBytes 2 x.toUInt16.toNat

/-- `to_be_bytes` of an `i32`. -/
def beI32 (x : Int32) : List UInt8 := beBytes 4 x.toUInt32.toNat

/-- `to_be_bytes` of an `i64`. -/
def beI64 (x : Int64) : List UInt8 := beBytes 8 x.toUInt64.toNat

/-- `to_be_bytes` of an `f64`. -/
def beF64 (x : Binary64) : List UInt8 := beBytes 8 x.bits.toNat

/-- The OID of `int4`. -/
def int4Oid : ℕ := 23

/-- An array of one dimension, or of none if it is empty: dimensions, a flag for nulls, the OID of
    the elements; the size and the lower bound; the elements with their lengths. -/
def arrayBytes (xs : List Int32) : List UInt8 :=
  beBytes 4 (if xs = [] then 0 else 1) ++ (beBytes 4 0 ++ (beBytes 4 int4Oid ++
    if xs = [] then []
    else beBytes 4 xs.length ++ (beBytes 4 1 ++ xs.flatMap fun x => beBytes 4 4 ++ beI32 x)))

/-- The bytes PostgreSQL receives a value as. -/
def Value.bytes : Value → List UInt8
  | int2 x => beI16 x
  | int4 x => beI32 x
  | int8 x => beI64 x
  | timestamptz x => beI64 x
  | float8 x => beF64 x
  | text s => s.toByteArray.data.toList
  | bytea bs => bs
  | jsonb bs => 1 :: bs
  | int4Array xs => arrayBytes xs

/-- The big-endian number of exactly `w` bytes. -/
def exactNat (w : ℕ) (bs : List UInt8) : Option ℕ :=
  if bs.length = w then some (beNat bs) else none

/-- The elements of an array. -/
def elements : ℕ → List UInt8 → Option (List Int32 × List UInt8)
  | 0, bs => some ([], bs)
  | n + 1, bs => do
    let (len, bs) ← int 4 bs
    let (x, bs) ← int 4 bs
    if len ≠ 4 then none
    else
      let (xs, bs) ← elements n bs
      return ((UInt32.ofNat x).toInt32 :: xs, bs)

/-- An array of at most one dimension, with the lower bound 1 and without nulls. -/
def decodeArray (bs : List UInt8) : Option (List Int32) := do
  let (ndim, bs) ← int 4 bs
  let (nulls, bs) ← int 4 bs
  let (oid, bs) ← int 4 bs
  if nulls ≠ 0 ∨ oid ≠ int4Oid then none
  else if ndim = 0 then if bs = [] then return [] else none
  else
    let (count, bs) ← int 4 bs
    let (bound, bs) ← int 4 bs
    let (xs, bs) ← elements count bs
    if ndim = 1 ∧ bound = 1 ∧ bs = [] then return xs else none

/-- The value of a column. -/
def decode (type : ColumnType) (bs : List UInt8) : Option Value :=
  match type with
  | .int2 => (exactNat 2 bs).map fun n => .int2 (UInt16.ofNat n).toInt16
  | .int4 => (exactNat 4 bs).map fun n => .int4 (UInt32.ofNat n).toInt32
  | .int8 => (exactNat 8 bs).map fun n => .int8 (UInt64.ofNat n).toInt64
  | .timestamptz => (exactNat 8 bs).map fun n => .timestamptz (UInt64.ofNat n).toInt64
  | .float8 => (exactNat 8 bs).map fun n => .float8 ⟨UInt64.ofNat n⟩
  | .text => (String.fromUTF8? ⟨bs.toArray⟩).map .text
  | .bytea => some (.bytea bs)
  | .jsonb => match bs with
    | 1 :: rest => some (.jsonb rest)
    | _ => none
  | .int4Array => (decodeArray bs).map .int4Array

/-- The values of a tuple; no column takes NULL. -/
def decodeTuple : List ColumnType → List Field → Option (List Value)
  | [], [] => some []
  | type :: types, some data :: fs => do
    let value ← decode type data
    let values ← decodeTuple types fs
    return value :: values
  | _, _ => none

/-- The rows of the tuples. -/
def decodeTuples (types : List ColumnType) : List (List Field) → Option (List (List Value))
  | [] => some []
  | t :: ts => do
    let row ← decodeTuple types t
    let rows ← decodeTuples types ts
    return row :: rows

/-- The rows of an input that ends with its trailer. -/
def readCopy (types : List ColumnType) (bs : List UInt8) : Option (List (List Value)) := do
  let (ts, rest) ← parse bs
  if rest = [] then decodeTuples types ts else none

/-- The fields of a row. -/
def tupleOf (row : List Value) : List Field := row.map fun v => some v.bytes

/-- The rows in the format. -/
def encodeRows (rows : List (List Value)) : List UInt8 := encode (rows.map tupleOf)

/-! ### A field of each type -/

theorem leBytes_mod (w n : ℕ) : leBytes w (n % 256 ^ w) = leBytes w n := by
  induction w generalizing n with
  | zero => rfl
  | succ w ih =>
    have hdigit : UInt8.ofNat (n % 256 ^ (w + 1)) = UInt8.ofNat n := by
      apply UInt8.toNat_inj.1
      rw [UInt8.toNat_ofNat', UInt8.toNat_ofNat', pow_succ']
      exact Nat.mod_mul_right_mod n 256 (256 ^ w)
    have hrest : n % 256 ^ (w + 1) / 256 = n / 256 % 256 ^ w := by
      rw [pow_succ', Nat.mod_mul_right_div_self]
    show UInt8.ofNat (n % 256 ^ (w + 1)) :: leBytes w (n % 256 ^ (w + 1) / 256) = _
    rw [hdigit, hrest, ih]
    rfl

theorem length_beI16 (x : Int16) : (beI16 x).length = 2 := length_beBytes 2 _

theorem length_beI32 (x : Int32) : (beI32 x).length = 4 := length_beBytes 4 _

theorem length_beI64 (x : Int64) : (beI64 x).length = 8 := length_beBytes 8 _

theorem length_beF64 (x : Binary64) : (beF64 x).length = 8 := length_beBytes 8 _

namespace Value

@[simp] theorem length_bytes_int2 (x : Int16) : (int2 x).bytes.length = 2 := length_beI16 x

@[simp] theorem length_bytes_int4 (x : Int32) : (int4 x).bytes.length = 4 := length_beI32 x

@[simp] theorem length_bytes_int8 (x : Int64) : (int8 x).bytes.length = 8 := length_beI64 x

@[simp] theorem length_bytes_timestamptz (x : Int64) : (timestamptz x).bytes.length = 8 :=
  length_beI64 x

@[simp] theorem length_bytes_float8 (x : Binary64) : (float8 x).bytes.length = 8 := length_beF64 x

@[simp] theorem length_bytes_text (s : String) : (text s).bytes.length = s.utf8ByteSize := rfl

@[simp] theorem length_bytes_bytea (bs : List UInt8) : (bytea bs).bytes.length = bs.length := rfl

@[simp] theorem length_bytes_jsonb (bs : List UInt8) : (jsonb bs).bytes.length = bs.length + 1 := rfl

theorem length_bytes_int4Array (xs : List Int32) :
    (int4Array xs).bytes.length = 12 + if xs = [] then 0 else 8 + xs.length * 8 := by
  have hflat : (xs.flatMap fun x => beBytes 4 4 ++ beI32 x).length = xs.length * 8 := by
    rw [List.length_flatMap]
    simp [beI32]
  show (arrayBytes xs).length = _
  unfold arrayBytes
  by_cases hnil : xs = []
  · rw [if_pos hnil, if_pos hnil, if_pos hnil]
    simp only [List.length_append, length_beBytes, List.length_nil]
  · rw [if_neg hnil, if_neg hnil, if_neg hnil]
    simp only [List.length_append, length_beBytes, hflat]
    omega

end Value

/-- The length of a slice as an `i32`. -/
theorem beI32_ofNat (n : ℕ) : beI32 (.ofNat n) = beBytes 4 n := by
  have hmod : (Int32.ofNat n).toUInt32.toNat = n % 256 ^ 4 := by
    rw [Int32.toUInt32_ofNat']
    exact UInt32.toNat_ofNat'
  unfold beI32 beBytes
  rw [hmod, leBytes_mod]

theorem encodeField_some (data : List UInt8) :
    encodeField (some data) = beI32 (.ofNat data.length) ++ data := by
  rw [beI32_ofNat]
  rfl

theorem encodeField_int2 (x : Int16) :
    encodeField (some (Value.int2 x).bytes) = beI32 2 ++ beI16 x := by
  rw [encodeField_some]
  show beI32 (.ofNat (beI16 x).length) ++ beI16 x = _
  rw [length_beI16]
  rfl

theorem encodeField_int4 (x : Int32) :
    encodeField (some (Value.int4 x).bytes) = beI32 4 ++ beI32 x := by
  rw [encodeField_some]
  show beI32 (.ofNat (beI32 x).length) ++ beI32 x = _
  rw [length_beI32]
  rfl

theorem encodeField_int8 (x : Int64) :
    encodeField (some (Value.int8 x).bytes) = beI32 8 ++ beI64 x := by
  rw [encodeField_some]
  show beI32 (.ofNat (beI64 x).length) ++ beI64 x = _
  rw [length_beI64]
  rfl

theorem encodeField_timestamptz (x : Int64) :
    encodeField (some (Value.timestamptz x).bytes) = beI32 8 ++ beI64 x := encodeField_int8 x

theorem encodeField_text (s : String) :
    encodeField (some (Value.text s).bytes) =
      beI32 (.ofNat s.utf8ByteSize) ++ s.toByteArray.data.toList :=
  encodeField_some s.toByteArray.data.toList

theorem encodeField_bytea (bs : List UInt8) :
    encodeField (some (Value.bytea bs).bytes) = beI32 (.ofNat bs.length) ++ bs := encodeField_some bs

theorem encodeField_jsonb (bs : List UInt8) :
    encodeField (some (Value.jsonb bs).bytes) = beI32 (.ofNat (1 + bs.length)) ++ ([1] ++ bs) := by
  rw [encodeField_some, Nat.add_comm 1]
  rfl

theorem encodeTuple_tupleOf (row : List Value) :
    encodeTuple (tupleOf row) =
      beBytes 2 row.length ++ row.flatMap fun v => encodeField (some v.bytes) := by
  unfold encodeTuple tupleOf
  rw [List.length_map, List.flatMap_map]

/-! ### Reading back -/

theorem exactNat_beBytes {w n : ℕ} (h : n < 256 ^ w) : exactNat w (beBytes w n) = some n := by
  unfold exactNat
  rw [length_beBytes, if_pos rfl, beNat_beBytes, Nat.mod_eq_of_lt h]

theorem exactNat_beI16 (x : Int16) : exactNat 2 (beI16 x) = some x.toUInt16.toNat :=
  exactNat_beBytes x.toUInt16.toNat_lt

theorem exactNat_beI32 (x : Int32) : exactNat 4 (beI32 x) = some x.toUInt32.toNat :=
  exactNat_beBytes x.toUInt32.toNat_lt

theorem exactNat_beI64 (x : Int64) : exactNat 8 (beI64 x) = some x.toUInt64.toNat :=
  exactNat_beBytes x.toUInt64.toNat_lt

theorem exactNat_beF64 (x : Binary64) : exactNat 8 (beF64 x) = some x.bits.toNat :=
  exactNat_beBytes x.bits.toNat_lt

theorem elements_flatMap (xs : List Int32) (rest : List UInt8) :
    elements xs.length ((xs.flatMap fun x => beBytes 4 4 ++ beI32 x) ++ rest) = some (xs, rest) := by
  induction xs with
  | nil => rfl
  | cons x xs ih =>
    have hx : x.toUInt32.toNat % 256 ^ 4 = x.toUInt32.toNat := Nat.mod_eq_of_lt x.toUInt32.toNat_lt
    rw [List.flatMap_cons, List.append_assoc, List.append_assoc, List.length_cons]
    unfold elements beI32
    simp only [Option.bind_eq_bind, Option.bind_some, int_beBytes, hx]
    rw [if_neg (by decide)]
    show (elements xs.length ((xs.flatMap fun x => beBytes 4 4 ++ beI32 x) ++ rest)).bind _ = _
    rw [ih]
    simp

theorem decodeArray_arrayBytes {xs : List Int32} (h : xs.length < 2 ^ 32) :
    decodeArray (arrayBytes xs) = some xs := by
  unfold decodeArray arrayBytes
  simp only [Option.bind_eq_bind, Option.bind_some, int_beBytes]
  by_cases hnil : xs = []
  · rw [if_neg (by decide), if_pos (by rw [if_pos hnil]; rfl), if_pos hnil, hnil]
    rfl
  · have hlen : xs.length % 256 ^ 4 = xs.length := Nat.mod_eq_of_lt h
    have hparsed := elements_flatMap xs []
    rw [List.append_nil] at hparsed
    rw [if_neg (by decide), if_neg (by rw [if_neg hnil]; decide), if_neg hnil, if_neg hnil]
    simp only [int_beBytes, Option.bind_some, hlen, hparsed]
    rfl

theorem length_lt_of_bytes {xs : List Int32} (h : (Value.int4Array xs).bytes.length < 2 ^ 31) :
    xs.length < 2 ^ 32 := by
  rw [Value.length_bytes_int4Array] at h
  split at h
  · next hnil =>
    rw [hnil]
    decide
  · omega

theorem int16_ofNat_toNat (x : Int16) : (UInt16.ofNat x.toUInt16.toNat).toInt16 = x := by
  rw [UInt16.ofNat_toNat]
  exact Int16.toInt16_toUInt16 x

theorem int32_ofNat_toNat (x : Int32) : (UInt32.ofNat x.toUInt32.toNat).toInt32 = x := by
  rw [UInt32.ofNat_toNat]
  exact Int32.toInt32_toUInt32 x

theorem int64_ofNat_toNat (x : Int64) : (UInt64.ofNat x.toUInt64.toNat).toInt64 = x := by
  rw [UInt64.ofNat_toNat]
  exact Int64.toInt64_toUInt64 x

theorem decode_bytes {v : Value} (h : v.bytes.length < 2 ^ 31) : decode v.type v.bytes = some v := by
  cases v with
  | int2 x =>
    simp only [decode, Value.type, Value.bytes, exactNat_beI16, Option.map_some, int16_ofNat_toNat]
  | int4 x =>
    simp only [decode, Value.type, Value.bytes, exactNat_beI32, Option.map_some, int32_ofNat_toNat]
  | int8 x =>
    simp only [decode, Value.type, Value.bytes, exactNat_beI64, Option.map_some, int64_ofNat_toNat]
  | timestamptz x =>
    simp only [decode, Value.type, Value.bytes, exactNat_beI64, Option.map_some, int64_ofNat_toNat]
  | float8 x =>
    simp only [decode, Value.type, Value.bytes, exactNat_beF64]
    simp
  | text s =>
    simp only [decode, Value.type, Value.bytes, Array.toArray_toList]
    rw [String.fromUTF8?, dif_pos s.isValidUTF8]
    rfl
  | bytea bs => rfl
  | jsonb bs => rfl
  | int4Array xs =>
    have hlen := length_lt_of_bytes h
    simp only [decode, Value.type, Value.bytes, decodeArray_arrayBytes hlen, Option.map_some]

theorem decodeTuple_tupleOf {row : List Value} (h : ∀ v ∈ row, v.bytes.length < 2 ^ 31) :
    decodeTuple (row.map Value.type) (tupleOf row) = some row := by
  induction row with
  | nil => rfl
  | cons v row ih =>
    have hv := decode_bytes (h v List.mem_cons_self)
    have hrow := ih fun u hu => h u (List.mem_cons_of_mem v hu)
    unfold tupleOf at hrow ⊢
    simp only [List.map_cons, decodeTuple, hv, hrow, Option.bind_eq_bind, Option.bind_some]
    rfl

/-- Rows of the columns' types are read back, to the last byte. -/
theorem readCopy_encodeRows {types : List ColumnType} {rows : List (List Value)}
    (hcolumns : types.length < 2 ^ 15) (htypes : ∀ row ∈ rows, row.map Value.type = types)
    (hfits : ∀ row ∈ rows, ∀ v ∈ row, v.bytes.length < 2 ^ 31) :
    readCopy types (encodeRows rows) = some rows := by
  have htuples : ∀ t ∈ rows.map tupleOf, TupleFits t := by
    intro t ht
    obtain ⟨row, hrow, rfl⟩ := List.mem_map.1 ht
    refine ⟨?_, fun f hf data hdata => ?_⟩
    · have hcount := congrArg List.length (htypes row hrow)
      rw [List.length_map] at hcount
      unfold tupleOf
      rw [List.length_map, hcount]
      exact hcolumns
    · obtain ⟨v, hv, rfl⟩ := List.mem_map.1 hf
      cases hdata
      exact hfits row hrow v hv
  have hdecoded : decodeTuples types (rows.map tupleOf) = some rows := by
    clear htuples
    induction rows with
    | nil => rfl
    | cons row rows ih =>
      have hrow := decodeTuple_tupleOf (hfits row List.mem_cons_self)
      rw [htypes row List.mem_cons_self] at hrow
      show (decodeTuple types (tupleOf row)).bind _ = _
      rw [hrow]
      show (decodeTuples types (rows.map tupleOf)).bind _ = _
      rw [ih (fun r hr => htypes r (List.mem_cons_of_mem row hr))
        fun r hr => hfits r (List.mem_cons_of_mem row hr)]
      rfl
  unfold readCopy encodeRows
  rw [parse_encode htuples]
  show (if ([] : List UInt8) = [] then decodeTuples types (rows.map tupleOf) else none) = _
  rw [if_pos rfl, hdecoded]

end PgCopy
