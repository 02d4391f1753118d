import AuraEpics.Codec.FieldDesc
import AuraEpics.Codec.PvWriter

/-!
# Type descriptions on the wire

Model of the encoder and the decoder of `FieldDesc` and of the
`IntrospectionRegistry` (`crates/aura-net/src/codec/field_desc.rs`, lines 13-15,
121-189, 232-427 and 444-489).

`decode_full` recurses on the bytes it reads. Each level takes at least one byte, so
the number of bytes left bounds the depth and is used as fuel: with no byte left the
next read fails, as it does in the source.

Result: `decode_encode`, a description that was encoded is decoded, whatever follows
it.
-/

namespace AuraEpics.Codec

/-- `NULL_TYPE_CODE`, `ONLY_ID_TYPE_CODE` and `FULL_WITH_ID_CODE` (lines 13-15). -/
def nullTypeCode : UInt8 := 0xFF
def onlyIdTypeCode : UInt8 := 0xFE
def fullWithIdCode : UInt8 := 0xFD

/-- `scalar_to_wire` (lines 122-137). -/
def scalarToWire : ScalarType → UInt8
  | .boolean => 0x00
  | .byte => 0x20
  | .short => 0x21
  | .int => 0x22
  | .long => 0x23
  | .ubyte => 0x24
  | .ushort => 0x25
  | .uint => 0x26
  | .ulong => 0x27
  | .float => 0x42
  | .double => 0x43
  | .string => 0x60

/-- The `match base` of `decode_type_code` (lines 337-351). -/
def scalarFromWire (base : UInt8) : Option ScalarType :=
  if base = 0x00 then some .boolean
  else if base = 0x20 then some .byte
  else if base = 0x21 then some .short
  else if base = 0x22 then some .int
  else if base = 0x23 then some .long
  else if base = 0x24 then some .ubyte
  else if base = 0x25 then some .ushort
  else if base = 0x26 then some .uint
  else if base = 0x27 then some .ulong
  else if base = 0x42 then some .float
  else if base = 0x43 then some .double
  else if base = 0x60 then some .string
  else none

namespace FieldDesc

/-- `FieldDesc::structure_array` (lines 161-167). -/
def structureArray (typeId : String) (fields : List (String × FieldDesc)) : FieldDesc :=
  mk .structArray typeId fields

/-- `FieldDesc::union_type` (lines 168-174). -/
def unionType (typeId : String) (fields : List (String × FieldDesc)) : FieldDesc :=
  mk .union typeId fields

/-- `FieldDesc::variant_union` (lines 175-181). -/
def variantUnion : FieldDesc := mk .variantUnion "" []

/-- `FieldDesc::bounded_string` (lines 182-188). -/
def boundedString (maxLen : ℕ) : FieldDesc := mk (.boundedString maxLen) "" []

/-! ## Encoding -/

mutual

/-- `FieldDesc::encode` (lines 257-287). -/
def encode (order : ByteOrder) : FieldDesc → List UInt8
  | mk ft id fs =>
    match ft with
    | .scalar s => [scalarToWire s]
    | .scalarArray s => [scalarToWire s ||| 0x08]
    | .boundedString bound => 0x86 :: Write.size order bound
    | .variantUnion => [0x81]
    | .variantUnionArray => [0x83]
    | .struct => 0x80 :: (Write.string order id ++ Write.size order fs.length ++ encodeFields order fs)
    | .structArray =>
      0x88 :: (Write.string order id ++ Write.size order fs.length ++ encodeFields order fs)
    | .union => 0x82 :: (Write.string order id ++ Write.size order fs.length ++ encodeFields order fs)
    | .unionArray =>
      0x8A :: (Write.string order id ++ Write.size order fs.length ++ encodeFields order fs)

/-- The loop over the sub-fields (lines 281-284). -/
def encodeFields (order : ByteOrder) : List (String × FieldDesc) → List UInt8
  | [] => []
  | (name, d) :: fs => Write.string order name ++ encode order d ++ encodeFields order fs

end

theorem encodeFields_eq (order : ByteOrder) (fs : List (String × FieldDesc)) :
    encodeFields order fs = fs.flatMap fun f => Write.string order f.1 ++ f.2.encode order := by
  induction fs with
  | nil => rfl
  | cons f fs ih =>
    show Write.string order f.1 ++ encode order f.2 ++ encodeFields order fs = _
    rw [ih, List.flatMap_cons]

/-! ## Decoding -/

/-- One pass of the field loops (lines 368-373 and 390-395); `rec` is `decode_full`. -/
def decodeNamedField (rec : Read FieldDesc) : Read (String × FieldDesc) := do
  let name ← Read.string
  let desc ← rec
  return (name, desc)

/-- `FieldDesc::decode_complex_type` (lines 361-427). -/
def decodeComplexType (rec : Read FieldDesc) (typeCode : UInt8) : Read FieldDesc :=
  if typeCode = 0x80 ∨ typeCode = 0x88 then do
    let typeId ← Read.string
    let count ← Read.sizeNonNull
    let fields ← Read.many (decodeNamedField rec) count
    return mk (if typeCode = 0x80 then .struct else .structArray) typeId fields
  else if typeCode = 0x82 ∨ typeCode = 0x8A then do
    let typeId ← Read.string
    let count ← Read.sizeNonNull
    let fields ← Read.many (decodeNamedField rec) count
    return mk (if typeCode = 0x82 then .union else .unionArray) typeId fields
  else if typeCode = 0x86 then do
    let bound ← Read.sizeNonNull
    return mk (.boundedString bound) "" []
  else if typeCode = 0x81 then return mk .variantUnion "" []
  else if typeCode = 0x83 ∨ typeCode = 0x89 then return mk .variantUnionArray "" []
  else Read.fail (.unknownTypeCode typeCode)

/-- `FieldDesc::decode_type_code` (lines 310-358). -/
def decodeTypeCode (rec : Read FieldDesc) (typeCode : UInt8) : Read FieldDesc :=
  if typeCode &&& 0x80 ≠ 0 then decodeComplexType rec typeCode
  else
    match scalarFromWire (typeCode &&& ~~~0x08) with
    | none => Read.fail (.unknownTypeCode typeCode)
    | some st => if typeCode &&& 0x08 ≠ 0 then return scalarArray st else return scalar st

/-- `FieldDesc::decode_full` (lines 289-308), for a depth of at most `fuel`. -/
def decodeFull : ℕ → Read FieldDesc
  | 0 => do
    let _ ← Read.u8
    Read.fail (.unexpectedEnd 1 0)
  | fuel + 1 => do
    let tag ← Read.u8
    if tag = nullTypeCode then
      Read.fail (.protocol "unexpected NULL_TYPE_CODE in nested field")
    else if tag = onlyIdTypeCode then
      let id ← Read.i16
      let n := id.toInt
      Read.fail (.protocol s!"ONLY_ID_TYPE_CODE {n} in nested field (registry not available)")
    else if tag = fullWithIdCode then
      let _ ← Read.i16
      let typeCode ← Read.u8
      decodeTypeCode (decodeFull fuel) typeCode
    else decodeTypeCode (decodeFull fuel) tag

end FieldDesc

/-! ## Registry -/

/-- `IntrospectionRegistry` (lines 444-447); its `HashMap<i16, FieldDesc>` is an
    association list without repeated keys. -/
structure IntrospectionRegistry where
  byId : AList fun _ : Int16 => FieldDesc
  maxEntries : ℕ

namespace IntrospectionRegistry

/-- `IntrospectionRegistry::new` (lines 450-455). -/
def new (maxEntries : ℕ) : IntrospectionRegistry := ⟨∅, maxEntries⟩

/-- `IntrospectionRegistry::len` (lines 466-468). -/
def len (r : IntrospectionRegistry) : ℕ := r.byId.keys.length

/-- `IntrospectionRegistry::is_full` (lines 472-474). -/
def isFull (r : IntrospectionRegistry) : Bool := r.maxEntries ≤ r.len

/-- `IntrospectionRegistry::register` (lines 456-462). -/
def register (r : IntrospectionRegistry) (id : Int16) (desc : FieldDesc) :
    Bool × IntrospectionRegistry :=
  if r.maxEntries ≤ r.len then (false, r) else (true, { r with byId := r.byId.insert id desc })

/-- `IntrospectionRegistry::get` (lines 463-465). -/
def get (r : IntrospectionRegistry) (id : Int16) : Option FieldDesc := r.byId.lookup id

end IntrospectionRegistry

namespace FieldDesc

/-- `decode_full` on the bytes the reader has left. -/
def decodeFullRest : Read FieldDesc := fun r => decodeFull (r.buf.length - r.pos) r

/-- `FieldDesc::decode` (lines 232-255): the result and the registry afterwards. An
    error leaves the registry as it was. -/
def decode (registry : IntrospectionRegistry) : Read (Option FieldDesc × IntrospectionRegistry) := do
  let tag ← Read.u8
  if tag = nullTypeCode then return (none, registry)
  else if tag = onlyIdTypeCode then
    let id ← Read.i16
    match registry.get id with
    | some desc => return (some desc, registry)
    | none =>
      let n := id.toInt
      Read.fail (.protocol s!"unknown introspection ID: {n}")
  else if tag = fullWithIdCode then
    let id ← Read.i16
    let desc ← decodeFullRest
    return (some desc, (registry.register id desc).2)
  else
    -- the tag has been read, and nested descriptions are read off what follows
    let desc ← fun r => decodeTypeCode (decodeFull (r.buf.length - r.pos)) tag r
    return (some desc, registry)

/-! ## Round trip -/

/-- The descriptions built with the constructors, with names and type ids that a size
    field can hold. -/
inductive Constructed : FieldDesc → Prop where
  | scalar (st : ScalarType) : Constructed (scalar st)
  | scalarArray (st : ScalarType) : Constructed (scalarArray st)
  | boundedString (maxLen : ℕ) : Constructed (boundedString maxLen)
  | variantUnion : Constructed variantUnion
  | struct (typeId : String) (fields : List (String × FieldDesc))
      (hid : typeId.utf8ByteSize < 2 ^ 31)
      (hnames : ∀ f ∈ fields, f.1.utf8ByteSize < 2 ^ 31)
      (hfields : ∀ f ∈ fields, Constructed f.2) : Constructed (struct typeId fields)
  | structureArray (typeId : String) (fields : List (String × FieldDesc))
      (hid : typeId.utf8ByteSize < 2 ^ 31)
      (hnames : ∀ f ∈ fields, f.1.utf8ByteSize < 2 ^ 31)
      (hfields : ∀ f ∈ fields, Constructed f.2) : Constructed (structureArray typeId fields)
  | unionType (typeId : String) (fields : List (String × FieldDesc))
      (hid : typeId.utf8ByteSize < 2 ^ 31)
      (hnames : ∀ f ∈ fields, f.1.utf8ByteSize < 2 ^ 31)
      (hfields : ∀ f ∈ fields, Constructed f.2) : Constructed (unionType typeId fields)

/-- Every bound and every number of fields in the description is below `2^31`, the
    sizes the wire format has. -/
inductive SizesFit : FieldDesc → Prop where
  | node (ft : FieldType) (typeId : String) (fields : List (String × FieldDesc))
      (hbound : ∀ n, ft = .boundedString n → n < 2 ^ 31) (hcount : fields.length < 2 ^ 31)
      (hfields : ∀ f ∈ fields, SizesFit f.2) : SizesFit (mk ft typeId fields)

/-- The branches of `decode_complex_type` that read sub-fields, with the field type
    they build. -/
def decodeBody (rec : Read FieldDesc) (ft : FieldType) : Read FieldDesc := do
  let typeId ← Read.string
  let count ← Read.sizeNonNull
  let fields ← Read.many (decodeNamedField rec) count
  return mk ft typeId fields

/-- The type code of a description is `tag`, no marker, and `decode_type_code` reads the
    description off what follows. -/
structure TagYields (order : ByteOrder) (d : FieldDesc) (tag : UInt8) (body : List UInt8) : Prop where
  encode_eq : d.encode order = tag :: body
  notMarker : tag ≠ nullTypeCode ∧ tag ≠ onlyIdTypeCode ∧ tag ≠ fullWithIdCode
  yields : ∀ n, body.length ≤ n → Yields order (decodeTypeCode (decodeFull n) tag) body d

section RoundTrip

variable {order : ByteOrder}

theorem TagYields.yields_decodeFull {d : FieldDesc} {tag : UInt8} {body : List UInt8}
    (h : TagYields order d tag body) (n : ℕ) (hn : (d.encode order).length ≤ n) :
    Yields order (decodeFull n) (d.encode order) d := by
  obtain ⟨hnull, honly, hfull⟩ := h.notMarker
  rw [h.encode_eq] at hn ⊢
  obtain ⟨m, rfl⟩ : ∃ m, n = m + 1 := ⟨n - 1, by simp at hn; omega⟩
  have hbody := h.yields m (by simpa using hn)
  unfold decodeFull
  refine (yields_u8 order tag).bind ?_
  rw [if_neg hnull, if_neg honly, if_neg hfull]
  exact hbody

theorem yields_decodeBody (ft : FieldType) {typeId : String} {fields : List (String × FieldDesc)}
    (hid : typeId.utf8ByteSize < 2 ^ 31) (hcount : fields.length < 2 ^ 31)
    (hnames : ∀ f ∈ fields, f.1.utf8ByteSize < 2 ^ 31) (rec : Read FieldDesc)
    (hrec : ∀ f ∈ fields, Yields order rec (f.2.encode order) f.2) :
    Yields order (decodeBody rec ft)
      (Write.string order typeId ++ Write.size order fields.length ++ encodeFields order fields)
      (mk ft typeId fields) := by
  have hnamed : ∀ f ∈ fields, Yields order (decodeNamedField rec)
      (Write.string order f.1 ++ f.2.encode order) f := by
    intro f hf
    refine (yields_string order (hnames f hf)).bind ((hrec f hf).last ?_)
    exact Yields.pure f
  have hloop := Yields.many (g := id) fields hnamed
  rw [List.map_id, ← encodeFields_eq] at hloop
  rw [List.append_assoc]
  refine (yields_string order hid).bind ((yields_sizeNonNull order hcount).bind (hloop.last ?_))
  exact Yields.pure (mk ft typeId fields)

theorem length_encode_le_encodeFields (order : ByteOrder) {fields : List (String × FieldDesc)} {f : String × FieldDesc}
    (hf : f ∈ fields) : (f.2.encode order).length ≤ (encodeFields order fields).length := by
  rw [encodeFields_eq, List.length_flatMap]
  have hle : (Write.string order f.1 ++ f.2.encode order).length ≤
      (fields.map fun f => (Write.string order f.1 ++ f.2.encode order).length).sum :=
    List.single_le_sum (by simp) _ (List.mem_map_of_mem hf)
  rw [List.length_append] at hle
  omega

/-- The node of a structure, structure array or union, with its type code. -/
theorem tagYields_compound (tag : UInt8) {ft : FieldType} {typeId : String}
    {fields : List (String × FieldDesc)}
    (hcode : (mk ft typeId fields).encode order = tag :: (Write.string order typeId ++
      Write.size order fields.length ++ encodeFields order fields))
    (hdec : ∀ rec, decodeTypeCode rec tag = decodeBody rec ft)
    (htag : tag ≠ nullTypeCode ∧ tag ≠ onlyIdTypeCode ∧ tag ≠ fullWithIdCode)
    (hid : typeId.utf8ByteSize < 2 ^ 31) (hcount : fields.length < 2 ^ 31)
    (hnames : ∀ f ∈ fields, f.1.utf8ByteSize < 2 ^ 31)
    (hfields : ∀ f ∈ fields, ∃ t body, TagYields order f.2 t body) :
    ∃ t body, TagYields order (mk ft typeId fields) t body := by
  refine ⟨_, _, hcode, htag, fun n hn => ?_⟩
  rw [hdec]
  refine yields_decodeBody ft hid hcount hnames _ fun f hf => ?_
  obtain ⟨t, body, hty⟩ := hfields f hf
  refine hty.yields_decodeFull n ?_
  have hle := length_encode_le_encodeFields order hf
  simp only [List.length_append] at hn
  omega

/-- A description without sub-fields is its type code alone. -/
theorem tagYields_leaf (tag : UInt8) {d : FieldDesc} (hcode : d.encode order = [tag])
    (hdec : ∀ rec, decodeTypeCode rec tag = pure d)
    (htag : tag ≠ nullTypeCode ∧ tag ≠ onlyIdTypeCode ∧ tag ≠ fullWithIdCode) :
    ∃ t body, TagYields order d t body :=
  ⟨tag, [], hcode, htag, fun n _ => hdec (decodeFull n) ▸ Yields.pure d⟩

theorem decodeTypeCode_scalar (rec : Read FieldDesc) (st : ScalarType) :
    decodeTypeCode rec (scalarToWire st) = pure (scalar st) := by
  cases st <;> rfl

theorem decodeTypeCode_scalarArray (rec : Read FieldDesc) (st : ScalarType) :
    decodeTypeCode rec (scalarToWire st ||| 0x08) = pure (scalarArray st) := by
  cases st <;> rfl

theorem tagYields_boundedString {n : ℕ} (hn : n < 2 ^ 31) :
    ∃ t body, TagYields order (boundedString n) t body := by
  refine ⟨0x86, Write.size order n, rfl, by decide, fun _ _ => ?_⟩
  refine (yields_sizeNonNull order hn).last ?_
  exact Yields.pure (boundedString n)

/-- One case for each constructor. -/
theorem Constructed.tagYields (order : ByteOrder) {d : FieldDesc} (hd : Constructed d)
    (hfit : SizesFit d) : ∃ tag body, TagYields order d tag body := by
  induction hd with
  | scalar st =>
    exact tagYields_leaf _ rfl (decodeTypeCode_scalar · st) (by cases st <;> decide)
  | scalarArray st =>
    exact tagYields_leaf _ rfl (decodeTypeCode_scalarArray · st) (by cases st <;> decide)
  | variantUnion => exact tagYields_leaf 0x81 rfl (fun _ => rfl) (by decide)
  | boundedString n =>
    cases hfit with
    | node _ _ _ hbound _ _ => exact tagYields_boundedString (hbound n rfl)
  | struct typeId fields hid hnames _ ih =>
    cases hfit with
    | node _ _ _ _ hcount hfits =>
      exact tagYields_compound 0x80 rfl (fun _ => rfl) (by decide) hid hcount hnames
        fun f hf => ih f hf (hfits f hf)
  | structureArray typeId fields hid hnames _ ih =>
    cases hfit with
    | node _ _ _ _ hcount hfits =>
      exact tagYields_compound 0x88 rfl (fun _ => rfl) (by decide) hid hcount hnames
        fun f hf => ih f hf (hfits f hf)
  | unionType typeId fields hid hnames _ ih =>
    cases hfit with
    | node _ _ _ _ hcount hfits =>
      exact tagYields_compound 0x82 rfl (fun _ => rfl) (by decide) hid hcount hnames
        fun f hf => ih f hf (hfits f hf)

theorem yields_decode {d : FieldDesc} {tag : UInt8} {body : List UInt8}
    (h : TagYields order d tag body) (registry : IntrospectionRegistry) :
    Yields order (decode registry) (d.encode order) (some d, registry) := by
  obtain ⟨hnull, honly, hfull⟩ := h.notMarker
  rw [h.encode_eq]
  have hread : Yields order
      (fun r => decodeTypeCode (decodeFull (r.buf.length - r.pos)) tag r) body d := by
    intro done rest
    refine h.yields _ ?_ done rest
    simp [PvaReader.at]
  refine (yields_u8 order tag).bind ?_
  rw [if_neg hnull, if_neg honly, if_neg hfull]
  exact hread.last (Yields.pure (some d, registry))

end RoundTrip

/-- **Main theorem**: a description built with the constructors, whose names, type ids,
    bounds and field counts are all below `2^31`, is read back from its encoding in
    either byte order, with whatever follows left to read and the registry unchanged. -/
theorem decode_encode {d : FieldDesc} (hd : Constructed d) (hfit : SizesFit d)
    (order : ByteOrder) (rest : List UInt8) (registry : IntrospectionRegistry) :
    decode registry (PvaReader.new (d.encode order ++ rest) order) =
      (.ok (some d, registry), PvaReader.at order (d.encode order) rest) := by
  obtain ⟨tag, body, h⟩ := hd.tagYields order hfit
  exact yields_decode h registry [] rest

theorem decode_encode_nested :
    let d := struct "t" [("s", boundedString 300), ("u", unionType "" [("a", scalarArray .double)]),
      ("v", variantUnion)]
    Constructed d ∧ SizesFit d ∧
      decode (.new 0) (PvaReader.new (d.encode .bigEndian ++ [0x2A]) .bigEndian) =
        (.ok (some d, .new 0), PvaReader.at .bigEndian (d.encode .bigEndian) [0x2A]) := by
  intro d
  have hd : Constructed d := by
    refine .struct _ _ (by decide) (by decide) ?_
    rintro f hf
    fin_cases hf
    · exact .boundedString 300
    · refine .unionType _ _ (by decide) (by decide) ?_
      rintro f hf
      fin_cases hf
      exact .scalarArray .double
    · exact .variantUnion
  have hfit : SizesFit d := by
    refine .node _ _ _ (by rintro n ⟨⟩) (by decide) ?_
    rintro f hf
    fin_cases hf
    · refine .node _ _ _ ?_ (by decide) (by simp)
      rintro n ⟨⟩
      decide
    · refine .node _ _ _ (by rintro n ⟨⟩) (by decide) ?_
      rintro f hf
      fin_cases hf
      exact .node _ _ _ (by rintro n ⟨⟩) (by decide) (by simp)
    · exact .node _ _ _ (by rintro n ⟨⟩) (by decide) (by simp)
  exact ⟨hd, hfit, decode_encode hd hfit .bigEndian [0x2A] (.new 0)⟩

/-- The bound of a bounded string is written as an `i32`: from `2^31` on it comes out
    negative, and the decoder refuses it. -/
theorem boundedString_size_negative :
    Constructed (boundedString (2 ^ 31)) ∧
      (decode (.new 0) (PvaReader.new ((boundedString (2 ^ 31)).encode .littleEndian)
        .littleEndian)).1 = .error (.invalidSize (-2147483648)) := by
  refine ⟨.boundedString _, ?_⟩
  rfl

end FieldDesc

end AuraEpics.Codec
