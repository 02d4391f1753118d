import AuraEpics.Codec.FieldDescCodec
import AuraEpics.Codec.PvMachine

/-!
# Progress of the description decoder

`decode_full` calls itself on the sub-fields it announces
(`crates/aura-net/src/codec/field_desc.rs`, lines 289-427). Its body (`decodeFullStep`) takes a
byte before it calls itself, so the calls nest at most as deep as there are bytes left.

Results:

* `iterate_decodeFullStep`, the body put into itself more often than bytes are left computes
  `decode_full`, whatever is called below;
* `decodeWith_iterate`, the same for `decode`;
* `lt_decodeFull`, `decode_full` takes at least one byte.
-/

namespace AuraEpics.Codec

/-- `PvaReader::remaining` (pvdata.rs, lines 36-38). -/
def PvaReader.remaining (r : PvaReader) : ℕ := r.buf.length - r.pos

namespace Read

theorem u8_of_lt {r : PvaReader} (h : r.pos < r.buf.length) :
    ∃ b r', u8 r = (.ok b, r') ∧ r'.buf = r.buf ∧ r'.pos = r.pos + 1 := by
  have hbytes : bytes 1 r =
      (.ok ((r.buf.drop r.pos).take 1), { r with pos := r.pos + 1, pos_le := h }) := dif_pos h
  unfold u8
  rw [run_bind, hbytes]
  exact ⟨_, _, rfl, rfl, rfl⟩

theorem u8_of_le {r : PvaReader} (h : r.buf.length ≤ r.pos) :
    u8 r = (.error (.unexpectedEnd 1 0), r) := by
  have hbytes : bytes 1 r = (.error (.unexpectedEnd 1 (r.buf.length - r.pos)), r) :=
    dif_neg (by omega)
  unfold u8
  rw [run_bind, hbytes, Nat.sub_eq_zero_of_le h]

end Read

/-! ## Reads that do the same -/

section SameFrom

variable {α γ : Type}

/-- `p` and `q` do the same from where `r` stands on. -/
def SameFrom (r : PvaReader) (p q : Read α) : Prop :=
  ∀ r' : PvaReader, r'.buf = r.buf → r.pos ≤ r'.pos → p r' = q r'

namespace SameFrom

variable {r : PvaReader} {p q : Read α} {f g : α → Read γ} {P : α → Prop}

theorem refl (r : PvaReader) (p : Read α) : SameFrom r p p := fun _ _ _ => rfl

theorem bind {m : MachineRead α} (h : SameFrom r p q) (hq : Implements m q P)
    (hf : ∀ a, SameFrom r (f a) (g a)) : SameFrom r (p >>= f) (q >>= g) := by
  intro r' hbuf hpos
  rw [Read.run_bind, Read.run_bind, h r' hbuf hpos]
  have hbuf' := hq.buf_eq r'
  have hpos' := hq.le_pos r'
  rcases hr : q r' with ⟨e | a, r''⟩
  · rfl
  · rw [hr] at hbuf' hpos'
    exact hf a r'' (hbuf'.trans hbuf) (Nat.le_trans hpos hpos')

theorem many {m : MachineRead α} (h : SameFrom r p q) (hq : Implements m q P) (n : ℕ) :
    SameFrom r (Read.many p n) (Read.many q n) := by
  induction n with
  | zero => exact refl r _
  | succ n ih => exact h.bind hq fun _ => ih.bind (hq.many n) fun _ => refl r _

end SameFrom

end SameFrom

namespace FieldDesc

/-! ## One call -/

/-- What `decode_full` does behind the first byte (lines 291-307); `rec` is `decode_full`. -/
def decodeTagged (rec : Read FieldDesc) (tag : UInt8) : Read FieldDesc :=
  if tag = nullTypeCode then Read.fail (.protocol "unexpected NULL_TYPE_CODE in nested field")
  else if tag = onlyIdTypeCode then do
    let id ← Read.i16
    let n := id.toInt
    Read.fail (.protocol s!"ONLY_ID_TYPE_CODE {n} in nested field (registry not available)")
  else if tag = fullWithIdCode then do
    let _ ← Read.i16
    let typeCode ← Read.u8
    decodeTypeCode rec typeCode
  else decodeTypeCode rec tag

/-- The body of `decode_full` (lines 289-308); `rec` is `decode_full`. -/
def decodeFullStep (rec : Read FieldDesc) : Read FieldDesc := do
  let tag ← Read.u8
  decodeTagged rec tag

theorem decodeFull_succ (n : ℕ) : decodeFull (n + 1) = decodeFullStep (decodeFull n) := rfl

/-- The body of `decode` (lines 232-255); `rec` is `decode_full`. -/
def decodeWith (rec : Read FieldDesc) (registry : IntrospectionRegistry) :
    Read (Option FieldDesc × IntrospectionRegistry) := do
  let tag ← Read.u8
  if tag = nullTypeCode then return (none, registry)
  else if tag = onlyIdTypeCode then
    let id ← Read.i16
    match registry.get id with
    | some desc => return (some desc, registry)
    | none =>
      let n := id.toInt
      Read.fail (.protocol s!"unknown introspection ID: {n}")
  else if tag = fullWithIdCode then
    let id ← Read.i16
    let desc ← rec
    return (some desc, (registry.register id desc).2)
  else
    let desc ← decodeTypeCode rec tag
    return (some desc, registry)

/-! ## On the machine -/

namespace Machine

/-- One pass of the field loops (lines 368-373 and 390-395). -/
def decodeNamedField (rec : MachineRead FieldDesc) : MachineRead (String × FieldDesc) := do
  let name ← MachineRead.string
  let desc ← rec
  return (name, desc)

/-- The branches of `decode_complex_type` that read sub-fields (lines 364-381 and 386-403). -/
def decodeBody (rec : MachineRead FieldDesc) (ft : FieldType) : MachineRead FieldDesc := do
  let typeId ← MachineRead.string
  let count ← MachineRead.sizeNonNull
  let fields ← MachineRead.many (decodeNamedField rec) count
  return mk ft typeId fields

/-- `FieldDesc::decode_complex_type` (lines 361-427). -/
def decodeComplexType (rec : MachineRead FieldDesc) (typeCode : UInt8) : MachineRead FieldDesc :=
  if typeCode = 0x80 ∨ typeCode = 0x88 then
    decodeBody rec (if typeCode = 0x80 then .struct else .structArray)
  else if typeCode = 0x82 ∨ typeCode = 0x8A then
    decodeBody rec (if typeCode = 0x82 then .union else .unionArray)
  else if typeCode = 0x86 then do
    let bound ← MachineRead.sizeNonNull
    return mk (.boundedString bound) "" []
  else if typeCode = 0x81 then return mk .variantUnion "" []
  else if typeCode = 0x83 ∨ typeCode = 0x89 then return mk .variantUnionArray "" []
  else MachineRead.fail (.unknownTypeCode typeCode)

/-- `FieldDesc::decode_type_code` (lines 310-358). -/
def decodeTypeCode (rec : MachineRead FieldDesc) (typeCode : UInt8) : MachineRead FieldDesc :=
  if typeCode &&& 0x80 ≠ 0 then decodeComplexType rec typeCode
  else
    match scalarFromWire (typeCode &&& ~~~0x08) with
    | none => MachineRead.fail (.unknownTypeCode typeCode)
    | some st => if typeCode &&& 0x08 ≠ 0 then return scalarArray st else return scalar st

/-- What `decode_full` does behind the first byte (lines 291-307). -/
def decodeTagged (rec : MachineRead FieldDesc) (tag : UInt8) : MachineRead FieldDesc :=
  if tag = nullTypeCode then
    MachineRead.fail (.protocol "unexpected NULL_TYPE_CODE in nested field")
  else if tag = onlyIdTypeCode then do
    let id ← MachineRead.fixed 2 ByteOrder.readI16
    let n := id.toInt
    MachineRead.fail
      (.protocol s!"ONLY_ID_TYPE_CODE {n} in nested field (registry not available)")
  else if tag = fullWithIdCode then do
    let _ ← MachineRead.fixed 2 ByteOrder.readI16
    let typeCode ← MachineRead.u8
    decodeTypeCode rec typeCode
  else decodeTypeCode rec tag

/-- `FieldDesc::decode_full` (lines 289-308), for a depth of at most `fuel`. -/
def decodeFull : ℕ → MachineRead FieldDesc
  | 0 => do
    let _ ← MachineRead.u8
    MachineRead.fail (.unexpectedEnd 1 0)
  | fuel + 1 => do
    let tag ← MachineRead.u8
    decodeTagged (decodeFull fuel) tag

/-- `decode_full` on the bytes the reader has left. -/
def decodeFullRest : MachineRead FieldDesc := MachineRead.remaining >>= decodeFull

/-- `FieldDesc::decode` (lines 232-255). -/
def decode (registry : IntrospectionRegistry) :
    MachineRead (Option FieldDesc × IntrospectionRegistry) := do
  let tag ← MachineRead.u8
  if tag = nullTypeCode then return (none, registry)
  else if tag = onlyIdTypeCode then
    let id ← MachineRead.fixed 2 ByteOrder.readI16
    match registry.get id with
    | some desc => return (some desc, registry)
    | none =>
      let n := id.toInt
      MachineRead.fail (.protocol s!"unknown introspection ID: {n}")
  else if tag = fullWithIdCode then
    let id ← MachineRead.fixed 2 ByteOrder.readI16
    let desc ← decodeFullRest
    return (some desc, (registry.register id desc).2)
  else
    let desc ← MachineRead.remaining >>= fun n => decodeTypeCode (decodeFull n) tag
    return (some desc, registry)

end Machine

theorem implements_i16 :
    Implements (MachineRead.fixed 2 ByteOrder.readI16) Read.i16 fun _ => True :=
  Implements.fixed (by decide) ByteOrder.readI16

section Implements

variable {m : MachineRead FieldDesc} {rec : Read FieldDesc} {P : FieldDesc → Prop}

theorem implements_decodeNamedField (hrec : Implements m rec P) :
    Implements (Machine.decodeNamedField m) (decodeNamedField rec) fun _ => True :=
  Implements.string.bind fun _ _ => hrec.bind fun _ _ => Implements.pure trivial

theorem implements_decodeBody (hrec : Implements m rec P) (ft : FieldType) :
    Implements (Machine.decodeBody m ft) (decodeBody rec ft) fun _ => True := by
  refine Implements.string.bind fun _ _ => Implements.sizeNonNull.bind fun n _ => ?_
  exact ((implements_decodeNamedField hrec).many n).bind fun _ _ => Implements.pure trivial

theorem implements_decodeComplexType (hrec : Implements m rec P) (typeCode : UInt8) :
    Implements (Machine.decodeComplexType m typeCode) (decodeComplexType rec typeCode)
      fun _ => True := by
  unfold Machine.decodeComplexType decodeComplexType
  by_cases hstruct : typeCode = 0x80 ∨ typeCode = 0x88
  · rw [if_pos hstruct, if_pos hstruct]
    exact implements_decodeBody hrec _
  rw [if_neg hstruct, if_neg hstruct]
  by_cases hunion : typeCode = 0x82 ∨ typeCode = 0x8A
  · rw [if_pos hunion, if_pos hunion]
    exact implements_decodeBody hrec _
  rw [if_neg hunion, if_neg hunion]
  split_ifs
  · exact Implements.sizeNonNull.bind fun _ _ => Implements.pure trivial
  · exact Implements.pure trivial
  · exact Implements.pure trivial
  · exact Implements.fail _

theorem implements_decodeTypeCode (hrec : Implements m rec P) (typeCode : UInt8) :
    Implements (Machine.decodeTypeCode m typeCode) (decodeTypeCode rec typeCode) fun _ => True := by
  unfold Machine.decodeTypeCode decodeTypeCode
  by_cases hcomplex : typeCode &&& 0x80 ≠ 0
  · rw [if_pos hcomplex, if_pos hcomplex]
    exact implements_decodeComplexType hrec typeCode
  rw [if_neg hcomplex, if_neg hcomplex]
  cases scalarFromWire (typeCode &&& ~~~0x08) with
  | none => exact Implements.fail _
  | some st =>
    dsimp only
    split_ifs
    · exact Implements.pure trivial
    · exact Implements.pure trivial

theorem implements_decodeTagged (hrec : Implements m rec P) (tag : UInt8) :
    Implements (Machine.decodeTagged m tag) (decodeTagged rec tag) fun _ => True := by
  unfold Machine.decodeTagged decodeTagged
  split_ifs
  · exact Implements.fail _
  · exact implements_i16.bind fun _ _ => Implements.fail _
  · exact implements_i16.bind fun _ _ => Implements.u8.bind fun code _ =>
      implements_decodeTypeCode hrec code
  · exact implements_decodeTypeCode hrec tag

end Implements

theorem implements_decodeFull (n : ℕ) :
    Implements (Machine.decodeFull n) (decodeFull n) fun _ => True := by
  induction n with
  | zero => exact Implements.u8.bind fun _ _ => Implements.fail _
  | succ n ih => exact Implements.u8.bind fun tag _ => implements_decodeTagged ih tag

theorem implements_decodeFullRest :
    Implements Machine.decodeFullRest decodeFullRest fun _ => True :=
  Implements.remaining implements_decodeFull

theorem implements_decodeTypeCodeRest (tag : UInt8) :
    Implements
      (MachineRead.remaining >>= fun n => Machine.decodeTypeCode (Machine.decodeFull n) tag)
      (fun r => decodeTypeCode (decodeFull (r.buf.length - r.pos)) tag r) fun _ => True :=
  Implements.remaining (p := fun n => decodeTypeCode (decodeFull n) tag) fun n =>
    implements_decodeTypeCode (implements_decodeFull n) tag

theorem implements_decode (registry : IntrospectionRegistry) :
    Implements (Machine.decode registry) (decode registry) fun _ => True := by
  unfold Machine.decode decode
  refine Implements.u8.bind ?_
  intro tag _
  split_ifs
  · exact Implements.pure trivial
  · refine implements_i16.bind ?_
    intro id _
    cases registry.get id with
    | some desc => exact Implements.pure trivial
    | none => exact Implements.fail _
  · exact implements_i16.bind fun _ _ => implements_decodeFullRest.bind fun _ _ =>
      Implements.pure trivial
  · exact (implements_decodeTypeCodeRest tag).bind fun _ _ => Implements.pure trivial

/-! ## Depth -/

section Depth

variable {m : MachineRead FieldDesc} {rec rec' : Read FieldDesc} {P : FieldDesc → Prop}
  {r : PvaReader}

theorem sameFrom_decodeBody (h : SameFrom r rec rec') (hrec : Implements m rec' P)
    (ft : FieldType) :
    SameFrom r (decodeBody rec ft) (decodeBody rec' ft) := by
  have hfield := implements_decodeNamedField hrec
  have hsame : SameFrom r (decodeNamedField rec) (decodeNamedField rec') :=
    (SameFrom.refl r _).bind Implements.string fun _ => h.bind hrec fun _ => SameFrom.refl r _
  refine (SameFrom.refl r _).bind Implements.string fun _ => ?_
  refine (SameFrom.refl r _).bind Implements.sizeNonNull fun n => ?_
  exact (hsame.many hfield n).bind (hfield.many n) fun _ => SameFrom.refl r _

theorem sameFrom_decodeTypeCode (h : SameFrom r rec rec') (hrec : Implements m rec' P)
    (typeCode : UInt8) :
    SameFrom r (decodeTypeCode rec typeCode) (decodeTypeCode rec' typeCode) := by
  unfold decodeTypeCode
  split
  · unfold decodeComplexType
    split
    · exact sameFrom_decodeBody h hrec _
    split
    · exact sameFrom_decodeBody h hrec _
    · exact SameFrom.refl r _
  · exact SameFrom.refl r _

theorem sameFrom_decodeTagged (h : SameFrom r rec rec') (hrec : Implements m rec' P) (tag : UInt8) :
    SameFrom r (decodeTagged rec tag) (decodeTagged rec' tag) := by
  unfold decodeTagged
  split
  · exact SameFrom.refl r _
  split
  · exact SameFrom.refl r _
  split
  · exact (SameFrom.refl r _).bind implements_i16 fun _ =>
      (SameFrom.refl r _).bind Implements.u8 fun code => sameFrom_decodeTypeCode h hrec code
  · exact sameFrom_decodeTypeCode h hrec tag

/-- The body calls itself only behind the byte it has taken. -/
theorem decodeFullStep_congr (hrec : Implements m rec' P)
    (h : ∀ r' : PvaReader, r'.buf = r.buf → r.pos < r'.pos → rec r' = rec' r') :
    decodeFullStep rec r = decodeFullStep rec' r := by
  unfold decodeFullStep
  rw [Read.run_bind, Read.run_bind]
  by_cases hlt : r.pos < r.buf.length
  · obtain ⟨tag, r₁, hread, hbuf, hpos⟩ := Read.u8_of_lt hlt
    have hsame : SameFrom r₁ rec rec' := by
      intro r' hbuf' hpos'
      exact h r' (hbuf'.trans hbuf) (by omega)
    rw [hread]
    exact sameFrom_decodeTagged hsame hrec tag r₁ rfl (Nat.le_refl _)
  · rw [Read.u8_of_le (by omega)]

end Depth

theorem decodeFullStep_of_le (rec : Read FieldDesc) {r : PvaReader} (h : r.buf.length ≤ r.pos) :
    decodeFullStep rec r = (.error (.unexpectedEnd 1 0), r) := by
  unfold decodeFullStep
  rw [Read.run_bind, Read.u8_of_le h]

theorem decodeFull_of_le (n : ℕ) {r : PvaReader} (h : r.buf.length ≤ r.pos) :
    decodeFull n r = (.error (.unexpectedEnd 1 0), r) := by
  cases n with
  | zero =>
    unfold decodeFull
    rw [Read.run_bind, Read.u8_of_le h]
  | succ n => exact decodeFullStep_of_le _ h

/-- With a byte left, `decode_full` takes at least one. -/
theorem lt_decodeFull (n : ℕ) {r : PvaReader} (h : r.pos < r.buf.length) :
    r.pos < (decodeFull n r).2.pos := by
  obtain ⟨tag, r₁, hread, hbuf, hpos⟩ := Read.u8_of_lt h
  cases n with
  | zero =>
    unfold decodeFull
    rw [Read.run_bind, hread]
    show r.pos < r₁.pos
    omega
  | succ n =>
    rw [decodeFull_succ, decodeFullStep, Read.run_bind, hread]
    have hle := (implements_decodeTagged (implements_decodeFull n) tag).le_pos r₁
    show r.pos < (decodeTagged (decodeFull n) tag r₁).2.pos
    omega

/-- Calls nest at most as deep as there are bytes left: what is called below does not matter. -/
theorem iterate_decodeFullStep (bottom : Read FieldDesc) {n k : ℕ} {r : PvaReader}
    (hn : r.remaining < n) (hk : r.remaining ≤ k) :
    (decodeFullStep^[n] bottom) r = decodeFull k r := by
  induction n generalizing k r with
  | zero => omega
  | succ n ih =>
    rw [Function.iterate_succ_apply']
    unfold PvaReader.remaining at hn hk
    by_cases hlt : r.pos < r.buf.length
    · obtain ⟨k, rfl⟩ : ∃ m, k = m + 1 := ⟨k - 1, by omega⟩
      rw [decodeFull_succ]
      refine decodeFullStep_congr (implements_decodeFull k) ?_
      intro r' hbuf hpos
      have hle := r'.pos_le
      rw [hbuf] at hle
      refine ih ?_ ?_
      · unfold PvaReader.remaining
        rw [hbuf]
        omega
      · unfold PvaReader.remaining
        rw [hbuf]
        omega
    · rw [decodeFullStep_of_le _ (by omega), decodeFull_of_le k (by omega)]

/-- The same for `decode`, from any registry. -/
theorem decodeWith_iterate (bottom : Read FieldDesc) (registry : IntrospectionRegistry) {n : ℕ}
    {r : PvaReader} (hn : r.remaining < n) :
    decodeWith (decodeFullStep^[n] bottom) registry r = decode registry r := by
  have hnested : ∀ {r' : PvaReader} {k : ℕ}, r'.buf = r.buf → r.pos ≤ r'.pos → r'.remaining ≤ k →
      (decodeFullStep^[n] bottom) r' = decodeFull k r' := by
    intro r' k hbuf hpos hk
    refine iterate_decodeFullStep bottom ?_ hk
    unfold PvaReader.remaining at hn ⊢
    rw [hbuf]
    omega
  have hsame : SameFrom r (decodeWith (decodeFullStep^[n] bottom) registry) (decode registry) := by
    refine (SameFrom.refl r _).bind Implements.u8 fun tag => ?_
    split
    · exact SameFrom.refl r _
    split
    · exact SameFrom.refl r _
    split
    · refine (SameFrom.refl r _).bind implements_i16 fun id => ?_
      refine SameFrom.bind ?_ implements_decodeFullRest fun desc => SameFrom.refl r _
      intro r' hbuf hpos
      exact hnested hbuf hpos (Nat.le_refl _)
    · refine SameFrom.bind ?_ (implements_decodeTypeCodeRest tag) fun desc => SameFrom.refl r _
      intro r₁ hbuf hpos
      have hfrom : SameFrom r₁ (decodeFullStep^[n] bottom) (decodeFull r₁.remaining) := by
        intro r' hbuf' hpos'
        refine hnested (hbuf'.trans hbuf) (Nat.le_trans hpos hpos') ?_
        unfold PvaReader.remaining
        rw [hbuf']
        omega
      exact sameFrom_decodeTypeCode hfrom (implements_decodeFull _) tag r₁ rfl (Nat.le_refl _)
  exact hsame r rfl (Nat.le_refl _)

end FieldDesc

end AuraEpics.Codec
