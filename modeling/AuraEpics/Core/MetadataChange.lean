import AuraEpics.Core.Metadata

/-!
# Changes of PV metadata

Model of `PvMetadata::update_from` (`crates/aura-core/src/metadata.rs`, lines 225-267) and of the
snapshot it detects changes with (lines 370-426).

The parts of a value that `update_from` reads are named (`displayPart`, `controlPart`, ..), so
that the metadata after an update is one record of them, whatever the type of the value is
(`updateFrom_snd`). The snapshot compares limits as floats and leaves out two fields; what is
reported and what changed then differ in two ways, a change that is not seen and a NaN that
differs from itself.

Result: `updateFrom_reports_change_iff`.
-/

namespace AuraEpics.Core

open Numeric
open Numeric.Binary64 (ieeeEq ieeeEq_refl)

/-- `MetaSnapshot` (lines 410-426). -/
structure MetaSnapshot where
  description : String
  units : String
  precision : Int32
  displayLow : Binary64
  displayHigh : Binary64
  controlLow : Binary64
  controlHigh : Binary64
  alarmLolo : Binary64
  alarmLow : Binary64
  alarmHigh : Binary64
  alarmHihi : Binary64
  alarmHysteresis : Binary64
  enumChoices : List String
  dimensions : List DimensionInfo
  arraySize : Option ℕ

namespace PvMetadata

/-- `PvMetadata::snapshot` (lines 370-388). -/
def snapshot (m : PvMetadata) : MetaSnapshot where
  description := m.description
  units := m.units
  precision := m.precision
  displayLow := m.displayLow
  displayHigh := m.displayHigh
  controlLow := m.controlLow
  controlHigh := m.controlHigh
  alarmLolo := m.alarmLolo
  alarmLow := m.alarmLow
  alarmHigh := m.alarmHigh
  alarmHihi := m.alarmHihi
  alarmHysteresis := m.alarmHysteresis
  enumChoices := m.enumChoices
  dimensions := m.dimensions
  arraySize := m.arraySize

/-- `PvMetadata::differs_from` (lines 390-406). -/
def differsFrom (m : PvMetadata) (old : MetaSnapshot) : Bool :=
  m.description != old.description
    || m.units != old.units
    || m.precision != old.precision
    || !m.displayLow.ieeeEq old.displayLow
    || !m.displayHigh.ieeeEq old.displayHigh
    || !m.controlLow.ieeeEq old.controlLow
    || !m.controlHigh.ieeeEq old.controlHigh
    || !m.alarmLolo.ieeeEq old.alarmLolo
    || !m.alarmLow.ieeeEq old.alarmLow
    || !m.alarmHigh.ieeeEq old.alarmHigh
    || !m.alarmHihi.ieeeEq old.alarmHihi
    || !m.alarmHysteresis.ieeeEq old.alarmHysteresis
    || m.enumChoices != old.enumChoices
    || m.dimensions != old.dimensions
    || m.arraySize != old.arraySize

/-- `PvMetadata::update_from` (lines 225-267): the result and the metadata afterwards. -/
def updateFrom (m : PvMetadata) (nt : NormativeType) : Bool × PvMetadata :=
  let snapshot := m.snapshot
  let m :=
    match nt with
    | .ntScalar s => m.applyOptionalDisplayControlAlarm s.display s.control s.valueAlarm
    | .ntEnum e => if m.enumChoices ≠ e.choices then { m with enumChoices := e.choices } else m
    | .ntScalarArray a =>
      { m with arraySize := some a.value.len }.applyOptionalDisplayControlAlarm
        a.display a.control a.valueAlarm
    | .ntMatrix x => x.display.elim m m.applyDisplay
    | .ntNDArray img => { m with dimensions := img.dimension.map .fromDimension }
    | _ => m
  (m.differsFrom snapshot, m)

end PvMetadata

/-! ## The parts of a value -/

namespace NormativeType

/-- The display `update_from` reads. -/
def displayPart : NormativeType → Option Display
  | ntScalar s => s.display
  | ntScalarArray a => a.display
  | ntMatrix m => m.display
  | _ => none

/-- The control limits `update_from` reads. -/
def controlPart : NormativeType → Option Control
  | ntScalar s => s.control
  | ntScalarArray a => a.control
  | _ => none

/-- The alarm limits `update_from` reads. -/
def valueAlarmPart : NormativeType → Option ValueAlarm
  | ntScalar s => s.valueAlarm
  | ntScalarArray a => a.valueAlarm
  | _ => none

/-- The array size `update_from` reads. -/
def arraySizePart : NormativeType → Option ℕ
  | ntScalarArray a => some a.value.len
  | _ => none

/-- The choices `update_from` reads. -/
def choicesPart : NormativeType → Option (List String)
  | ntEnum e => some e.choices
  | _ => none

/-- The dimensions `update_from` reads. -/
def dimensionsPart : NormativeType → Option (List DimensionInfo)
  | ntNDArray img => some (img.dimension.map .fromDimension)
  | _ => none

end NormativeType

namespace PvMetadata

/-- The description a display leaves. -/
def descriptionWith (m : PvMetadata) (d : Display) : String :=
  if d.description = "" then m.description else d.description

/-- Each field is the value's where the value has one. -/
theorem updateFrom_snd (m : PvMetadata) (nt : NormativeType) :
    (m.updateFrom nt).2 =
      { m with
        arraySize := nt.arraySizePart.elim m.arraySize some
        description := nt.displayPart.elim m.description m.descriptionWith
        units := nt.displayPart.elim m.units Display.units
        precision := nt.displayPart.elim m.precision Display.precision
        displayForm := nt.displayPart.elim m.displayForm Display.form
        displayLow := nt.displayPart.elim m.displayLow Display.limitLow
        displayHigh := nt.displayPart.elim m.displayHigh Display.limitHigh
        controlLow := nt.controlPart.elim m.controlLow Control.limitLow
        controlHigh := nt.controlPart.elim m.controlHigh Control.limitHigh
        minStep := nt.controlPart.elim m.minStep Control.minStep
        alarmLolo := nt.valueAlarmPart.elim m.alarmLolo ValueAlarm.lowAlarmLimit
        alarmLow := nt.valueAlarmPart.elim m.alarmLow ValueAlarm.lowWarningLimit
        alarmHigh := nt.valueAlarmPart.elim m.alarmHigh ValueAlarm.highWarningLimit
        alarmHihi := nt.valueAlarmPart.elim m.alarmHihi ValueAlarm.highAlarmLimit
        alarmHysteresis := nt.valueAlarmPart.elim m.alarmHysteresis ValueAlarm.hysteresis
        enumChoices := nt.choicesPart.getD m.enumChoices
        dimensions := nt.dimensionsPart.getD m.dimensions } := by
  cases nt with
  | ntScalar s =>
    obtain ⟨value, alarm, timestamp, display, control, valueAlarm⟩ := s
    cases display <;> cases control <;> cases valueAlarm <;> rfl
  | ntScalarArray a =>
    obtain ⟨value, alarm, timestamp, display, control, valueAlarm⟩ := a
    cases display <;> cases control <;> cases valueAlarm <;> rfl
  | ntMatrix x =>
    obtain ⟨value, dim, descriptor, alarm, timestamp, display⟩ := x
    cases display <;> rfl
  | ntEnum e =>
    show (if m.enumChoices ≠ e.choices then { m with enumChoices := e.choices } else m) =
      { m with enumChoices := e.choices }
    split_ifs with h
    · rfl
    · rw [← not_not.1 h]
  | _ => rfl

/-! ## What is compared -/

/-- The limits the snapshot compares as floats. -/
def limits (m : PvMetadata) : List Binary64 :=
  [m.displayLow, m.displayHigh, m.controlLow, m.controlHigh, m.alarmLolo, m.alarmLow, m.alarmHigh,
    m.alarmHihi, m.alarmHysteresis]

/-- Each of these limits beside the one the value has for it. -/
def limitPairs (m : PvMetadata) (nt : NormativeType) : List (Binary64 × Binary64) :=
  [(m.displayLow, nt.displayPart.elim m.displayLow Display.limitLow),
    (m.displayHigh, nt.displayPart.elim m.displayHigh Display.limitHigh),
    (m.controlLow, nt.controlPart.elim m.controlLow Control.limitLow),
    (m.controlHigh, nt.controlPart.elim m.controlHigh Control.limitHigh),
    (m.alarmLolo, nt.valueAlarmPart.elim m.alarmLolo ValueAlarm.lowAlarmLimit),
    (m.alarmLow, nt.valueAlarmPart.elim m.alarmLow ValueAlarm.lowWarningLimit),
    (m.alarmHigh, nt.valueAlarmPart.elim m.alarmHigh ValueAlarm.highWarningLimit),
    (m.alarmHihi, nt.valueAlarmPart.elim m.alarmHihi ValueAlarm.highAlarmLimit),
    (m.alarmHysteresis, nt.valueAlarmPart.elim m.alarmHysteresis ValueAlarm.hysteresis)]

/-- The value has another description, unit, precision, number of elements, other choices or
    other dimensions. -/
def PlainChange (m : PvMetadata) (nt : NormativeType) : Prop :=
  (∃ d, nt.displayPart = some d ∧
    (m.descriptionWith d ≠ m.description ∨ d.units ≠ m.units ∨ d.precision ≠ m.precision)) ∨
  (∃ cs, nt.choicesPart = some cs ∧ cs ≠ m.enumChoices) ∨
  (∃ ds, nt.dimensionsPart = some ds ∧ ds ≠ m.dimensions) ∨
  ∃ n, nt.arraySizePart = some n ∧ some n ≠ m.arraySize

/-- The value has another display form or another minimum step, which no snapshot holds. -/
def OmittedChange (m : PvMetadata) (nt : NormativeType) : Prop :=
  (∃ d, nt.displayPart = some d ∧ d.form ≠ m.displayForm) ∨
  ∃ c, nt.controlPart = some c ∧ c.minStep ≠ m.minStep

/-- The value changes a field in a way that the comparison with the snapshot shows. -/
def SeenChange (m : PvMetadata) (nt : NormativeType) : Prop :=
  m.PlainChange nt ∨ ∃ p ∈ m.limitPairs nt, p.2 ≠ p.1 ∧ p.2.ieeeEq p.1 = false

/-- The value changes a field in a way that it does not show: an omitted field, or the sign of a
    limit that is zero. -/
def UnseenChange (m : PvMetadata) (nt : NormativeType) : Prop :=
  m.OmittedChange nt ∨ ∃ p ∈ m.limitPairs nt, p.2 ≠ p.1 ∧ p.2.ieeeEq p.1 = true

/-! ## What is reported and what changed -/

theorem elim_ne_iff {α β : Type} {o : Option α} {b : β} {f : α → β} :
    o.elim b f ≠ b ↔ ∃ x, o = some x ∧ f x ≠ b := by
  cases o with
  | none => simp
  | some x => simp

theorem getD_ne_iff {α : Type} {o : Option α} {b : α} : o.getD b ≠ b ↔ ∃ x, o = some x ∧ x ≠ b := by
  cases o with
  | none => simp
  | some x => simp

section Fields

variable (m : PvMetadata) (nt : NormativeType)

theorem limitPairs_eq : m.limitPairs nt = m.limits.zip (m.updateFrom nt).2.limits := by
  rw [updateFrom_snd]
  rfl

theorem plainChange_iff :
    m.PlainChange nt ↔
      (m.updateFrom nt).2.description ≠ m.description ∨ (m.updateFrom nt).2.units ≠ m.units ∨
      (m.updateFrom nt).2.precision ≠ m.precision ∨
      (m.updateFrom nt).2.enumChoices ≠ m.enumChoices ∨
      (m.updateFrom nt).2.dimensions ≠ m.dimensions ∨
      (m.updateFrom nt).2.arraySize ≠ m.arraySize := by
  rw [updateFrom_snd]
  dsimp only
  rw [elim_ne_iff, elim_ne_iff, elim_ne_iff, elim_ne_iff, getD_ne_iff, getD_ne_iff]
  unfold PlainChange
  simp only [and_or_left, exists_or, or_assoc]

theorem omittedChange_iff :
    m.OmittedChange nt ↔
      (m.updateFrom nt).2.displayForm ≠ m.displayForm ∨
      (m.updateFrom nt).2.minStep ≠ m.minStep := by
  rw [updateFrom_snd]
  dsimp only
  rw [elim_ne_iff, elim_ne_iff]
  rfl

theorem differsFrom_snapshot_iff (old : PvMetadata) :
    m.differsFrom old.snapshot = true ↔
      (m.description ≠ old.description ∨ m.units ≠ old.units ∨ m.precision ≠ old.precision ∨
        m.enumChoices ≠ old.enumChoices ∨ m.dimensions ≠ old.dimensions ∨
        m.arraySize ≠ old.arraySize) ∨
      ∃ p ∈ old.limits.zip m.limits, p.2.ieeeEq p.1 = false := by
  simp only [differsFrom, snapshot, limits, Bool.or_eq_true, bne_iff_ne, Bool.not_eq_true',
    List.zip_cons_cons, List.zip_nil_right, List.mem_cons, List.not_mem_nil, or_false,
    exists_eq_or_imp, exists_eq_left]
  apply iff_of_eq
  ac_rfl

/-- Two records with one name and one type differ in one of the fields of the list. -/
theorem ne_iff_fields {m old : PvMetadata} (hname : m.pvName = old.pvName)
    (htype : m.dataType = old.dataType) (hscalar : m.scalarType = old.scalarType) :
    m ≠ old ↔
      (m.description ≠ old.description ∨ m.units ≠ old.units ∨ m.precision ≠ old.precision ∨
        m.enumChoices ≠ old.enumChoices ∨ m.dimensions ≠ old.dimensions ∨
        m.arraySize ≠ old.arraySize) ∨
      (m.displayForm ≠ old.displayForm ∨ m.minStep ≠ old.minStep) ∨
      ∃ p ∈ old.limits.zip m.limits, p.2 ≠ p.1 := by
  have hlimits : (∃ p ∈ old.limits.zip m.limits, p.2 ≠ p.1) ↔ m.limits ≠ old.limits := by
    simp only [limits, List.zip_cons_cons, List.zip_nil_right, List.mem_cons, List.not_mem_nil,
      or_false, exists_eq_or_imp, exists_eq_left, ne_eq, List.cons.injEq, and_true, not_and_or]
  rw [hlimits]
  obtain ⟨pvName, dataType, scalarType, _⟩ := m
  obtain ⟨pvName', dataType', scalarType', _⟩ := old
  subst hname htype hscalar
  simp only [limits, ne_eq, mk.injEq, List.cons.injEq, true_and, and_true, not_and_or]
  apply iff_of_eq
  ac_rfl

theorem updateFrom_fst_iff :
    (m.updateFrom nt).1 = true ↔
      m.PlainChange nt ∨ ∃ p ∈ m.limitPairs nt, p.2.ieeeEq p.1 = false := by
  rw [plainChange_iff, limitPairs_eq]
  exact differsFrom_snapshot_iff (m.updateFrom nt).2 m

theorem updateFrom_snd_ne_iff :
    (m.updateFrom nt).2 ≠ m ↔
      m.PlainChange nt ∨ m.OmittedChange nt ∨ ∃ p ∈ m.limitPairs nt, p.2 ≠ p.1 := by
  rw [plainChange_iff, omittedChange_iff, limitPairs_eq]
  refine ne_iff_fields ?_ ?_ ?_
  · rw [updateFrom_snd]
  · rw [updateFrom_snd]
  · rw [updateFrom_snd]

end Fields

theorem map_fst_limitPairs (m : PvMetadata) (nt : NormativeType) :
    (m.limitPairs nt).map Prod.fst = m.limits := rfl

/-- Without a change that shows, a limit differs from the one kept if it is a NaN. -/
theorem exists_differs_iff {m : PvMetadata} {nt : NormativeType} (h : ¬m.SeenChange nt) :
    (∃ p ∈ m.limitPairs nt, p.2.ieeeEq p.1 = false) ↔ ∃ x ∈ m.limits, x.isNaN = true := by
  have hsame : ∀ p ∈ m.limitPairs nt, p.2.ieeeEq p.1 = false → p.2 = p.1 := by
    intro p hp hdiff
    by_contra hne
    exact h (.inr ⟨p, hp, hne, hdiff⟩)
  rw [← map_fst_limitPairs m nt]
  constructor
  · rintro ⟨p, hp, hdiff⟩
    refine ⟨p.1, List.mem_map_of_mem hp, ?_⟩
    rw [hsame p hp hdiff] at hdiff
    by_contra hnan
    rw [ieeeEq_refl (Bool.not_eq_true _ ▸ hnan)] at hdiff
    cases hdiff
  · rintro ⟨x, hx, hnan⟩
    obtain ⟨p, hp, rfl⟩ := List.mem_map.1 hx
    exact ⟨p, hp, by simp [ieeeEq, hnan]⟩

/-- Without a change that shows, every change is one that does not. -/
theorem exists_ne_iff {m : PvMetadata} {nt : NormativeType} (h : ¬m.SeenChange nt) :
    (∃ p ∈ m.limitPairs nt, p.2 ≠ p.1) ↔
      ∃ p ∈ m.limitPairs nt, p.2 ≠ p.1 ∧ p.2.ieeeEq p.1 = true := by
  constructor
  · rintro ⟨p, hp, hne⟩
    refine ⟨p, hp, hne, ?_⟩
    by_contra hdiff
    exact h (.inr ⟨p, hp, hne, Bool.not_eq_true _ ▸ hdiff⟩)
  · rintro ⟨p, hp, hne, -⟩
    exact ⟨p, hp, hne⟩

/-- **Main theorem**: `update_from` returns true exactly when it changes the metadata if and only
    if it makes a change that shows, or a limit of the metadata is a NaN exactly when it makes a
    change that does not. -/
theorem updateFrom_reports_change_iff (m : PvMetadata) (nt : NormativeType) :
    ((m.updateFrom nt).1 = true ↔ (m.updateFrom nt).2 ≠ m) ↔
      m.SeenChange nt ∨ ((∃ x ∈ m.limits, x.isNaN = true) ↔ m.UnseenChange nt) := by
  by_cases hseen : m.SeenChange nt
  · have hfst : (m.updateFrom nt).1 = true := by
      rw [updateFrom_fst_iff]
      exact hseen.imp_right fun ⟨p, hp, _, hdiff⟩ => ⟨p, hp, hdiff⟩
    have hsnd : (m.updateFrom nt).2 ≠ m := by
      rw [updateFrom_snd_ne_iff]
      exact hseen.imp_right fun ⟨p, hp, hne, _⟩ => .inr ⟨p, hp, hne⟩
    exact ⟨fun _ => .inl hseen, fun _ => ⟨fun _ => hsnd, fun _ => hfst⟩⟩
  · have hplain : ¬m.PlainChange nt := fun hplain => hseen (.inl hplain)
    have hfst : (m.updateFrom nt).1 = true ↔ ∃ x ∈ m.limits, x.isNaN = true := by
      rw [updateFrom_fst_iff, exists_differs_iff hseen]
      exact or_iff_right hplain
    have hsnd : (m.updateFrom nt).2 ≠ m ↔ m.UnseenChange nt := by
      rw [updateFrom_snd_ne_iff, exists_ne_iff hseen]
      exact or_iff_right hplain
    rw [hfst, hsnd, or_iff_right hseen]

/-- Another minimum step is taken over and not reported. -/
theorem updateFrom_misses_minStep :
    ¬∀ (m : PvMetadata) (nt : NormativeType),
      (m.updateFrom nt).1 = true ↔ (m.updateFrom nt).2 ≠ m := by
  intro h
  let nt : NormativeType :=
    .ntScalar ⟨.double .one, .default, .default, none, some ⟨.zero, .zero, .one⟩, none⟩
  have hchanged : ((empty "SR:CORR" .scalar).updateFrom nt).2 ≠ empty "SR:CORR" .scalar := by
    decide +kernel
  have hreported : ((empty "SR:CORR" .scalar).updateFrom nt).1 = false := by decide +kernel
  rw [(h _ nt).mpr hchanged] at hreported
  cases hreported

end PvMetadata

end AuraEpics.Core
