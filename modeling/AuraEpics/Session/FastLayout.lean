import AuraEpics.Types.PvaValue

/-!
# Fast decode layouts

Model of `FastScalarLayout`, `FastArrayLayout` and `FastEnumLayout` with their
`detect` functions (`crates/aura-net/src/runtime/session.rs`, lines 213-555). A
layout fixes, once per monitor, the bit of each field the fast loops read; `detect`
compares the type id and counts sub-fields.

`Canonical` is the shape the layouts are written for.
-/

namespace AuraEpics.Session

open AuraEpics.Codec AuraEpics.Types

/-! ## Layouts -/

/-- The bits all three layouts have for `alarm` and `timeStamp`. -/
structure AlarmTimeBits where
  severityBit : UInt8
  statusBit : UInt8
  messageBit : UInt8
  secondsBit : UInt8
  nanosBit : UInt8
  userTagBit : UInt8
  deriving DecidableEq, Repr

/-- The part the three `detect` functions share (lines 257-279, 354-374 and
    517-538): `bit` is the alarm structure's; the bit after `userTag` is returned
    too. -/
def detectAlarmTime (alarm timeStamp : FieldDesc) (bit : UInt8) : Option (AlarmTimeBits × UInt8) :=
  if alarm.fields.length < 3 then none
  else
    let bit := bit + 1
    let severityBit := bit
    let bit := bit + 1
    let statusBit := bit
    let bit := bit + 1
    let messageBit := bit
    let bit := bit + 1
    if timeStamp.fields.length < 3 then none
    else
      let bit := bit + 1
      let secondsBit := bit
      let bit := bit + 1
      let nanosBit := bit
      let bit := bit + 1
      let userTagBit := bit
      let bit := bit + 1
      some (⟨severityBit, statusBit, messageBit, secondsBit, nanosBit, userTagBit⟩, bit)

/-- `FastScalarLayout` (lines 214-229). -/
structure FastScalarLayout extends AlarmTimeBits where
  valueBit : UInt8
  valueType : ScalarType
  maxKnownBit : UInt8
  deriving DecidableEq, Repr

/-- `FastScalarLayout::detect` (lines 234-292). -/
def FastScalarLayout.detect (desc : FieldDesc) : Option FastScalarLayout :=
  if "epics:nt/NTScalar".toList.isPrefixOf desc.typeId.toList then
    match desc.fields with
    | f0 :: f1 :: f2 :: _ =>
      let bit : UInt8 := 1
      match f0.2.fieldType with
      | .scalar st =>
        (detectAlarmTime f1.2 f2.2 (bit + 1)).map fun (b, bit') =>
          { b with valueBit := bit, valueType := st, maxKnownBit := bit' - 1 }
      | _ => none
    | _ => none
  else none

/-- `FastArrayLayout` (lines 319-329). -/
structure FastArrayLayout extends AlarmTimeBits where
  valueBit : UInt8
  elementType : ScalarType
  maxKnownBit : UInt8
  deriving DecidableEq, Repr

/-- `FastArrayLayout::detect` (lines 332-388). -/
def FastArrayLayout.detect (desc : FieldDesc) : Option FastArrayLayout :=
  if desc.typeId = "epics:nt/NTScalarArray:1.0" then
    match desc.fields with
    | f0 :: f1 :: f2 :: _ =>
      match f0.2.fieldType with
      | .scalarArray st =>
        if st = .string then none
        else
          let bit : UInt8 := 1
          (detectAlarmTime f1.2 f2.2 (bit + 1)).map fun (b, bit') =>
            { b with valueBit := bit, elementType := st, maxKnownBit := bit' - 1 }
      | _ => none
    | _ => none
  else none

/-- `FastEnumLayout` (lines 470-484). -/
structure FastEnumLayout extends AlarmTimeBits where
  valueStructBit : UInt8
  indexBit : UInt8
  choicesBit : UInt8
  maxKnownBit : UInt8
  deriving DecidableEq, Repr

/-- `FastEnumLayout::detect` (lines 487-554). -/
def FastEnumLayout.detect (desc : FieldDesc) : Option FastEnumLayout :=
  if desc.typeId = "epics:nt/NTEnum:1.0" then
    match desc.fields with
    | f0 :: f1 :: f2 :: _ =>
      if !f0.2.isStructure then none
      else if f0.2.fields.length < 2 then none
      else
        let bit : UInt8 := 1
        (detectAlarmTime f1.2 f2.2 (bit + 3)).map fun (b, bit') =>
          { b with
            valueStructBit := bit
            indexBit := bit + 1
            choicesBit := bit + 2
            maxKnownBit := bit' - 1 }
    | _ => none
  else none

/-! ## What `detect` returns -/

theorem detectAlarmTime_eq_some {a t : FieldDesc} {bit bit' : UInt8} {b : AlarmTimeBits}
    (h : detectAlarmTime a t bit = some (b, bit')) :
    b = ⟨bit + 1, bit + 2, bit + 3, bit + 5, bit + 6, bit + 7⟩ ∧ bit' = bit + 8 := by
  unfold detectAlarmTime at h
  split_ifs at h
  simp only [Option.some.injEq, Prod.mk.injEq] at h
  obtain ⟨rfl, rfl⟩ := h
  constructor
  · simp only [AlarmTimeBits.mk.injEq, add_assoc]
    exact ⟨trivial, rfl, rfl, rfl, rfl, rfl⟩
  · simp only [add_assoc]
    rfl

theorem FastScalarLayout.detect_eq_some {d : FieldDesc} {l : FastScalarLayout}
    (h : detect d = some l) :
    ∃ f0 fs, d.fields = f0 :: fs ∧ f0.2.fieldType = .scalar l.valueType ∧
      l = ⟨⟨3, 4, 5, 7, 8, 9⟩, 1, l.valueType, 9⟩ := by
  unfold detect at h
  split_ifs at h
  split at h
  · next f0 f1 f2 rest hfields =>
    dsimp only at h
    split at h
    · next st hst =>
      obtain ⟨⟨b, bit'⟩, hb, rfl⟩ := Option.map_eq_some_iff.mp h
      obtain ⟨rfl, rfl⟩ := detectAlarmTime_eq_some hb
      exact ⟨f0, f1 :: f2 :: rest, hfields, hst, rfl⟩
    · cases h
  · cases h

theorem FastArrayLayout.detect_eq_some {d : FieldDesc} {l : FastArrayLayout}
    (h : detect d = some l) :
    ∃ f0 fs, d.fields = f0 :: fs ∧ f0.2.fieldType = .scalarArray l.elementType ∧
      l.elementType ≠ .string ∧ l = ⟨⟨3, 4, 5, 7, 8, 9⟩, 1, l.elementType, 9⟩ := by
  unfold detect at h
  split_ifs at h
  split at h
  · next f0 f1 f2 rest hfields =>
    split at h
    · next st hst =>
      split_ifs at h with hne
      obtain ⟨⟨b, bit'⟩, hb, rfl⟩ := Option.map_eq_some_iff.mp h
      obtain ⟨rfl, rfl⟩ := detectAlarmTime_eq_some hb
      exact ⟨f0, f1 :: f2 :: rest, hfields, hst, hne, rfl⟩
    · cases h
  · cases h

/-- The one layout `FastEnumLayout::detect` can return. -/
def enumLayout : FastEnumLayout := ⟨⟨5, 6, 7, 9, 10, 11⟩, 1, 2, 3, 11⟩

theorem FastEnumLayout.detect_eq_some {d : FieldDesc} {l : FastEnumLayout}
    (h : detect d = some l) : l = enumLayout := by
  unfold detect at h
  split_ifs at h
  split at h
  · split_ifs at h
    obtain ⟨⟨b, bit'⟩, hb, rfl⟩ := Option.map_eq_some_iff.mp h
    obtain ⟨rfl, rfl⟩ := detectAlarmTime_eq_some hb
    rfl
  · cases h

/-! ## The canonical shape -/

/-- The wire type `read_string` reads; a bounded string has the same encoding. -/
def IsString (ft : FieldType) : Prop := ft = .scalar .string ∨ ∃ n, ft = .boundedString n

/-- `alarm`: exactly severity, status and message, none with sub-fields. -/
inductive CanonicalAlarm : FieldDesc → Prop where
  | mk (id i₁ i₂ i₃ : String) (ft : FieldType) (hft : IsString ft) :
      CanonicalAlarm (.mk .struct id
        [("severity", .mk (.scalar .int) i₁ []), ("status", .mk (.scalar .int) i₂ []),
          ("message", .mk ft i₃ [])])

/-- `timeStamp`: seconds, nanoseconds and the user tag come first. -/
inductive CanonicalTimeStamp : FieldDesc → Prop where
  | mk (id i₁ i₂ i₃ : String) (sub rest : List (String × FieldDesc)) :
      CanonicalTimeStamp (.mk .struct id
        (("secondsPastEpoch", .mk (.scalar .long) i₁ []) ::
          ("nanoseconds", .mk (.scalar .int) i₂ []) ::
          ("userTag", .mk (.scalar .int) i₃ sub) :: rest))

/-- The three leading fields in canonical order, with `value` as required. -/
inductive Canonical (isValue : FieldDesc → Prop) : FieldDesc → Prop where
  | mk (id : String) (v a t : FieldDesc) (rest : List (String × FieldDesc)) (hv : isValue v)
      (ha : CanonicalAlarm a) (ht : CanonicalTimeStamp t) :
      Canonical isValue
        (.mk .struct id (("value", v) :: ("alarm", a) :: ("timeStamp", t) :: rest))

/-- `value` is a scalar, or a numeric array, without sub-fields. -/
inductive ScalarLeaf : FieldDesc → Prop where
  | mk (st : ScalarType) (id : String) : ScalarLeaf (.mk (.scalar st) id [])

inductive NumericArrayLeaf : FieldDesc → Prop where
  | mk (st : ScalarType) (id : String) (hst : st ≠ .string) :
      NumericArrayLeaf (.mk (.scalarArray st) id [])

/-- `value` is exactly the index and the choices. -/
inductive EnumValue : FieldDesc → Prop where
  | mk (id i₁ i₂ : String) :
      EnumValue (.mk .struct id
        [("index", .mk (.scalar .int) i₁ []), ("choices", .mk (.scalarArray .string) i₂ [])])

/-- The usual `alarm` and `timeStamp` structures. -/
def alarmDesc : FieldDesc :=
  .struct "alarm_t"
    [("severity", .scalar .int), ("status", .scalar .int), ("message", .scalar .string)]

def timeStampDesc : FieldDesc :=
  .struct "time_t"
    [("secondsPastEpoch", .scalar .long), ("nanoseconds", .scalar .int), ("userTag", .scalar .int)]

/-- The three Normative Types without optional fields. -/
def ntScalar (st : ScalarType) : FieldDesc :=
  .struct "epics:nt/NTScalar:1.0"
    [("value", .scalar st), ("alarm", alarmDesc), ("timeStamp", timeStampDesc)]

def ntScalarArray (st : ScalarType) : FieldDesc :=
  .struct "epics:nt/NTScalarArray:1.0"
    [("value", .scalarArray st), ("alarm", alarmDesc), ("timeStamp", timeStampDesc)]

def ntEnum : FieldDesc :=
  .struct "epics:nt/NTEnum:1.0"
    [("value", .struct "enum_t" [("index", .scalar .int), ("choices", .scalarArray .string)]),
      ("alarm", alarmDesc), ("timeStamp", timeStampDesc)]

theorem canonicalAlarm_alarmDesc : CanonicalAlarm alarmDesc := .mk _ _ _ _ _ (.inl rfl)

theorem canonicalTimeStamp_timeStampDesc : CanonicalTimeStamp timeStampDesc := .mk _ _ _ _ _ _

theorem canonical_ntScalar (st : ScalarType) : Canonical ScalarLeaf (ntScalar st) :=
  .mk _ _ _ _ _ (.mk _ _) canonicalAlarm_alarmDesc canonicalTimeStamp_timeStampDesc

theorem canonical_ntScalarArray {st : ScalarType} (hst : st ≠ .string) :
    Canonical NumericArrayLeaf (ntScalarArray st) :=
  .mk _ _ _ _ _ (.mk _ _ hst) canonicalAlarm_alarmDesc canonicalTimeStamp_timeStampDesc

theorem canonical_ntEnum : Canonical EnumValue ntEnum :=
  .mk _ _ _ _ _ (.mk _ _ _) canonicalAlarm_alarmDesc canonicalTimeStamp_timeStampDesc

end AuraEpics.Session
