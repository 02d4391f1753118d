import AuraEpics.Ingest.Thread

/-!
# Two deliveries of one sample

A sample of a scalar PV reaches the ingest thread as a `ScalarDelta` or as a whole structure
(`crates/aura-ingest/src/thread.rs`, lines 57-97 and 170-205). The first goes to
`ScalarRow::from_epoch` as it is, the second through `to_normative.rs`, `AlarmSeverity`,
`AlarmStatus` and `TimeStamp::to_datetime` to `ScalarRow::new`. Here the two rows are compared,
with the arithmetic of the 64-bit times.

Result: `sameDelivery_iff`, the samples for which the rows are the same.
-/

namespace AuraEpics.Ingest

open Numeric AuraEpics.Core AuraEpics.Session AuraEpics.Store AuraEpics.Types

/-! ## Samples -/

/-- The value of an NTScalar of one of the eleven numeric types, or of an NTEnum. -/
inductive NumericValue where
  | scalar (v : ScalarValue) (isNumeric : v.asF64.isSome)
  | enum (index : Int32) (choices : List String)

/-- A sample: the value, alarm and time that both deliveries carry, and what only the whole
    structure does. -/
structure NumericSample where
  value : NumericValue
  time : AlarmTime
  message : String
  userTag : Int32
  extra : List (String × PvaValue)

namespace NumericSample

/-- The value as `f64`. -/
def number (s : NumericSample) : Binary64 :=
  match s.value with
  | .scalar v h => v.asF64.get h
  | .enum index _ => .ofInt index.toInt

/-- The field `value`. -/
def valueField (s : NumericSample) : PvaValue :=
  match s.value with
  | .scalar v _ => .scalar v
  | .enum index choices =>
    .struct [("index", .scalar (.int index)), ("choices", .scalarArray (choices.map .string))]

/-- The field `alarm`. -/
def alarmField (s : NumericSample) : PvaValue :=
  .struct [("severity", .scalar (.int s.time.severity)), ("status", .scalar (.int s.time.status)),
    ("message", .scalar (.string s.message))]

/-- The field `timeStamp`. -/
def timeField (s : NumericSample) : PvaValue :=
  .struct [("secondsPastEpoch", .scalar (.long s.time.seconds)),
    ("nanoseconds", .scalar (.int s.time.nanos)), ("userTag", .scalar (.int s.userTag))]

/-- The sample as the fast path sends it. -/
def delta (s : NumericSample) : MonitorEvent := .scalarDelta s.number s.time

/-- The sample as a whole structure; `display`, `control` and the like come last. -/
def full (s : NumericSample) : MonitorEvent :=
  .value (.struct (("value", s.valueField) :: ("alarm", s.alarmField) ::
    ("timeStamp", s.timeField) :: s.extra))

end NumericSample

/-! ## Arithmetic -/

/-- The value of an `i64` expression does not overflow. -/
def FitsI64 (x : ℤ) : Prop := -2 ^ 63 ≤ x ∧ x < 2 ^ 63

/-- `from_epoch` (scalar.rs, line 87) overflows in none of its three steps. -/
def FromEpochFits (t : AlarmTime) : Prop :=
  FitsI64 (t.seconds.toInt * 1000000) ∧
    FitsI64 (t.seconds.toInt * 1000000 + t.nanos.toInt.tdiv 1000) ∧
    FitsI64 (t.seconds.toInt * 1000000 + t.nanos.toInt.tdiv 1000 - pgEpochOffsetUs)

/-- `timestamp_micros` and `new` (scalar.rs, line 67) do not overflow either. -/
def NewFits (time : DateTime) : Prop :=
  FitsI64 (time.seconds * 1000000) ∧ FitsI64 time.timestampMicros ∧
    FitsI64 (time.timestampMicros - pgEpochOffsetUs)

/-- The time of the structure. -/
def datetimeOf (t : AlarmTime) : DateTime :=
  (DateTime.fromTimestamp t.seconds.toInt t.nanos.toUInt32.toNat).getD .epoch

/-- `chrono` has the time: the seconds are those of the years -262143 to 262142, the
    nanoseconds are not negative and reach a second only in a leap second. -/
def ValidTime (t : AlarmTime) : Prop :=
  -8334601228800 ≤ t.seconds.toInt ∧ t.seconds.toInt ≤ 8210266876799 ∧ 0 ≤ t.nanos.toInt ∧
    (t.nanos.toInt < 1000000000 ∨ t.nanos.toInt < 2000000000 ∧ t.seconds.toInt % 60 = 59)

/-- Both deliveries can say this: a severity that has a name, 4 being UNDEFINED, a status that
    has one, 6 being UNDEFINED, and a time that `chrono` has or that comes to the epoch. -/
structure Representable (t : AlarmTime) : Prop where
  severity : t.severity.toInt16 ∈ ([0, 1, 2, 3, 4] : List Int16)
  status : t.status.toInt16 ∈ ([0, 1, 2, 3, 4, 5, 6, 7] : List Int16)
  time : ValidTime t ∨ t.seconds.toInt * 1000000 + t.nanos.toInt.tdiv 1000 = 0

/-- Both deliveries hand over the same rows, and neither overflows. -/
structure SameDelivery (f : Formats) (cache : String → Option Int32) (now : ℕ) (b : Batch)
    (pvName : String) (tag : Int32) (s : NumericSample) : Prop where
  rows : (b.handle f cache now ⟨pvName, tag, s.delta⟩).handed =
    (b.handle f cache now ⟨pvName, tag, s.full⟩).handed
  fromEpoch : FromEpochFits s.time
  new : NewFits (datetimeOf s.time)

/-! ## Alarms -/

theorem severity_kept_iff (x : Int16) :
    (AlarmSeverity.ofI16 x).toI16 = x ↔ x ∈ ([0, 1, 2, 3, 4] : List Int16) := by
  unfold AlarmSeverity.ofI16
  split_ifs with h0 h1 h2 h3
  · subst h0
    exact iff_of_true rfl (by decide)
  · subst h1
    exact iff_of_true rfl (by decide)
  · subst h2
    exact iff_of_true rfl (by decide)
  · subst h3
    exact iff_of_true rfl (by decide)
  · show 4 = x ↔ _
    simp only [List.mem_cons, h0, h1, h2, h3, false_or, List.not_mem_nil, or_false]
    exact eq_comm

theorem status_kept_iff (x : Int16) :
    (AlarmStatus.ofI16 x).toI16 = x ↔ x ∈ ([0, 1, 2, 3, 4, 5, 6, 7] : List Int16) := by
  unfold AlarmStatus.ofI16
  split_ifs with h0 h1 h2 h3 h4 h5 h7
  · subst h0
    exact iff_of_true rfl (by decide)
  · subst h1
    exact iff_of_true rfl (by decide)
  · subst h2
    exact iff_of_true rfl (by decide)
  · subst h3
    exact iff_of_true rfl (by decide)
  · subst h4
    exact iff_of_true rfl (by decide)
  · subst h5
    exact iff_of_true rfl (by decide)
  · subst h7
    exact iff_of_true rfl (by decide)
  · show 6 = x ↔ _
    simp only [List.mem_cons, h0, h1, h2, h3, h4, h5, h7, false_or, List.not_mem_nil, or_false]
    exact eq_comm

/-! ## Times -/

theorem toNat_toUInt32 (x : Int32) :
    (x.toUInt32.toNat : ℤ) = if 0 ≤ x.toInt then x.toInt else x.toInt + 2 ^ 32 := by
  have hcond : x.toInt = if 2 * x.toUInt32.toNat < 2 ^ 32 then (x.toUInt32.toNat : ℤ)
      else (x.toUInt32.toNat : ℤ) - ((2 ^ 32 : ℕ) : ℤ) := BitVec.toInt_eq_toNat_cond x.toBitVec
  have hlt : x.toUInt32.toNat < 2 ^ 32 := x.toUInt32.toNat_lt
  split_ifs at hcond ⊢ with hsmall hnonneg hnonneg <;> push_cast at hcond <;> omega

theorem fromTimestamp_isSome_iff (t : AlarmTime) :
    (DateTime.fromTimestamp t.seconds.toInt t.nanos.toUInt32.toNat).isSome ↔ ValidTime t := by
  have hnanos := toNat_toUInt32 t.nanos
  have hmax := t.nanos.toInt_lt
  have hmin := t.nanos.le_toInt
  unfold DateTime.fromTimestamp ValidTime
  split_ifs at hnanos ⊢ with hnonneg hvalid hvalid
  · exact iff_of_true rfl (by omega)
  · exact iff_of_true rfl (by omega)
  · exact iff_of_false Bool.false_ne_true (by omega)
  · exact iff_of_false Bool.false_ne_true (by omega)

theorem tdiv_thousand_bounds (x : Int32) :
    -2147484 ≤ x.toInt.tdiv 1000 ∧ x.toInt.tdiv 1000 ≤ 2147484 := by
  have hmax := x.toInt_lt
  have hmin := x.le_toInt
  by_cases hnonneg : 0 ≤ x.toInt
  · rw [Int.tdiv_eq_ediv_of_nonneg hnonneg]
    omega
  · have hneg : x.toInt.tdiv 1000 = -((-x.toInt) / 1000) := by
      rw [← Int.tdiv_eq_ediv_of_nonneg (by omega), Int.neg_tdiv, neg_neg]
    rw [hneg]
    omega

/-- The microseconds of the structure's time. -/
theorem timestampMicros_datetimeOf (t : AlarmTime) :
    (ValidTime t → (datetimeOf t).seconds = t.seconds.toInt ∧ (datetimeOf t).timestampMicros =
      t.seconds.toInt * 1000000 + t.nanos.toInt.tdiv 1000) ∧
    (¬ValidTime t → datetimeOf t = .epoch) := by
  have hsome := fromTimestamp_isSome_iff t
  unfold datetimeOf
  constructor
  · intro hvalid
    have hnonneg : 0 ≤ t.nanos.toInt := hvalid.2.2.1
    have hnanos := toNat_toUInt32 t.nanos
    rw [if_pos hnonneg] at hnanos
    have hdef := hsome.2 hvalid
    unfold DateTime.fromTimestamp at hdef ⊢
    split_ifs at hdef ⊢ with hrange
    · refine ⟨rfl, ?_⟩
      unfold DateTime.timestampMicros
      show t.seconds.toInt * 1000000 + ((t.nanos.toUInt32.toNat / 1000 : ℕ) : ℤ) = _
      rw [Int.tdiv_eq_ediv_of_nonneg hnonneg]
      push_cast
      rw [hnanos]
    · cases hdef
  · intro hinvalid
    rw [← hsome, Option.not_isSome_iff_eq_none] at hinvalid
    rw [hinvalid]
    rfl

theorem newFits_datetimeOf (t : AlarmTime) : NewFits (datetimeOf t) := by
  unfold NewFits FitsI64 pgEpochOffsetUs
  obtain ⟨hvalid, hinvalid⟩ := timestampMicros_datetimeOf t
  by_cases h : ValidTime t
  · obtain ⟨hseconds, hmicros⟩ := hvalid h
    have hmax := t.nanos.toInt_lt
    obtain ⟨hlow, hhigh, hnonneg, -⟩ := h
    rw [hseconds, hmicros, Int.tdiv_eq_ediv_of_nonneg hnonneg]
    omega
  · rw [hinvalid h]
    decide

theorem pgUs_fromEpoch (t : AlarmTime) (pvId : Int32) (x : Binary64) (severity status : Int16)
    (reason : StoreReason) :
    (ScalarRow.fromEpoch t.seconds t.nanos pvId x severity status reason).pgUs =
      .ofInt (t.seconds.toInt * 1000000 + t.nanos.toInt.tdiv 1000 - pgEpochOffsetUs) := by
  have hdiv : (t.nanos / 1000).toInt64 = .ofInt (t.nanos.toInt.tdiv 1000) := by
    rw [← Int64.ofInt_toInt (t.nanos / 1000).toInt64, Int32.toInt_toInt64,
      Int32.toInt_div_of_ne_right _ _ (by decide)]
    rfl
  rw [Int64.ofInt_sub, Int64.ofInt_add, Int64.ofInt_mul, Int64.ofInt_toInt, ← hdiv]
  rfl

/-- The two times are the same number of microseconds. -/
theorem pgUs_eq_iff (t : AlarmTime) :
    (FromEpochFits t ∧
      Int64.ofInt (t.seconds.toInt * 1000000 + t.nanos.toInt.tdiv 1000 - pgEpochOffsetUs) =
        pgMicros (datetimeOf t)) ↔
      ValidTime t ∨ t.seconds.toInt * 1000000 + t.nanos.toInt.tdiv 1000 = 0 := by
  obtain ⟨hvalid, hinvalid⟩ := timestampMicros_datetimeOf t
  unfold pgMicros
  constructor
  · rintro ⟨⟨-, -, hlow, hhigh⟩, heq⟩
    obtain ⟨-, -, hlow', hhigh'⟩ := newFits_datetimeOf t
    have hint := congrArg Int64.toInt heq
    rw [Int64.toInt_ofInt_of_le hlow hhigh, Int64.toInt_ofInt_of_le hlow' hhigh'] at hint
    by_cases h : ValidTime t
    · exact .inl h
    · right
      rw [hinvalid h] at hint
      have hepoch : DateTime.epoch.timestampMicros = 0 := rfl
      omega
  · intro h
    have hmax := t.nanos.toInt_lt
    have hmin := t.nanos.le_toInt
    by_cases hv : ValidTime t
    · rw [(hvalid hv).2]
      refine ⟨?_, rfl⟩
      obtain ⟨hlow, hhigh, hnonneg, -⟩ := hv
      unfold FromEpochFits FitsI64 pgEpochOffsetUs
      rw [Int.tdiv_eq_ediv_of_nonneg hnonneg]
      omega
    · have hzero := h.resolve_left hv
      rw [hinvalid hv, hzero]
      refine ⟨?_, rfl⟩
      obtain ⟨hlow, hhigh⟩ := tdiv_thousand_bounds t.nanos
      unfold FromEpochFits FitsI64 pgEpochOffsetUs
      rw [hzero]
      omega

/-! ## Rows -/

namespace NumericSample

/-- The row the fast path pushes (thread.rs, lines 72-80). -/
def deltaRow (s : NumericSample) (pvId : Int32) : ScalarRow :=
  .fromEpoch s.time.seconds s.time.nanos pvId s.number s.time.severity.toInt16
    s.time.status.toInt16 .valueChanged

/-- The row the slow path comes to (thread.rs, lines 187-205). -/
def fullRow (s : NumericSample) (pvId : Int32) : ScalarRow :=
  .new (datetimeOf s.time) pvId s.number (AlarmSeverity.ofI16 s.time.severity.toInt16).toI16
    (AlarmStatus.ofI16 s.time.status.toInt16).toI16 .valueChanged

theorem converted_full (s : NumericSample) : ∃ nt, converted s.full = some nt ∧
    ∀ f pvName pvId, slowPathRow f ⟨pvName, none, nt⟩ pvId = some (.scalar (s.fullRow pvId)) := by
  obtain ⟨value, time, message, userTag, extra⟩ := s
  cases value with
  | scalar v isNumeric =>
    refine ⟨.ntScalar ⟨v, ⟨.ofI16 time.severity.toInt64.toInt32.toInt16,
      .ofI16 time.status.toInt64.toInt32.toInt16, message⟩,
      ⟨time.seconds, time.nanos.toInt64.toInt32.toUInt32, userTag.toInt64.toInt32⟩, none, none,
      none⟩, rfl, fun f pvName pvId => ?_⟩
    rw [Int32.toInt32_toInt64, Int32.toInt32_toInt64, Int32.toInt32_toInt64]
    have hnumber : v.asF64.getD .zero = v.asF64.get isNumeric := by
      generalize v.asF64 = x at isNumeric
      cases x with
      | none => cases isNumeric
      | some x => rfl
    show some (StoredRow.scalar (.new _ pvId (v.asF64.getD .zero) _ _ _)) = _
    rw [hnumber]
    rfl
  | enum index choices =>
    refine ⟨.ntEnum ⟨index.toInt64.toInt32, _, ⟨.ofI16 time.severity.toInt64.toInt32.toInt16,
      .ofI16 time.status.toInt64.toInt32.toInt16, message⟩,
      ⟨time.seconds, time.nanos.toInt64.toInt32.toUInt32, userTag.toInt64.toInt32⟩⟩, rfl,
      fun f pvName pvId => ?_⟩
    rw [Int32.toInt32_toInt64, Int32.toInt32_toInt64, Int32.toInt32_toInt64, Int32.toInt32_toInt64]
    rfl

/-- The rows are the same, and are computed without overflow, exactly if the sample is
    representable. -/
theorem rows_eq_iff (s : NumericSample) (pvId : Int32) :
    (s.deltaRow pvId = s.fullRow pvId ∧ FromEpochFits s.time) ↔ Representable s.time := by
  have htime := pgUs_eq_iff s.time
  have hdelta := pgUs_fromEpoch s.time pvId s.number s.time.severity.toInt16
    s.time.status.toInt16 .valueChanged
  rw [← hdelta] at htime
  constructor
  · rintro ⟨hrow, hfits⟩
    have hpgUs : (s.deltaRow pvId).pgUs = (s.fullRow pvId).pgUs := by rw [hrow]
    have hseverity : (s.deltaRow pvId).severity = (s.fullRow pvId).severity := by rw [hrow]
    have hstatus : (s.deltaRow pvId).status = (s.fullRow pvId).status := by rw [hrow]
    refine ⟨?_, ?_, htime.1 ⟨hfits, hpgUs⟩⟩
    · exact (severity_kept_iff _).1 hseverity.symm
    · exact (status_kept_iff _).1 hstatus.symm
  · rintro ⟨hseverity, hstatus, hvalid⟩
    obtain ⟨hfits, hpgUs⟩ := htime.2 hvalid
    refine ⟨?_, hfits⟩
    show ScalarRow.mk _ _ _ _ _ _ = ScalarRow.mk _ _ _ _ _ _
    rw [(severity_kept_iff _).2 hseverity, (status_kept_iff _).2 hstatus]
    exact congrArg (fun time => ScalarRow.mk time pvId s.number _ _ _) hpgUs

end NumericSample

namespace Batch

variable (f : Formats) (cache : String → Option Int32) (now : ℕ)

theorem handed_delta (b : Batch) {pvName : String} {tag pvId : Int32}
    (hid : pvIdOf cache tag pvName = some pvId) (s : NumericSample) :
    (b.handle f cache now ⟨pvName, tag, s.delta⟩).handed =
      b.handed ++ [.scalar (s.deltaRow pvId)] := by
  unfold handle NumericSample.delta
  dsimp only
  rw [hid]
  rfl

theorem handed_full (b : Batch) (hnamed : b.engine.Named) {pvName : String} {tag pvId : Int32}
    (hreg : b.engine.Registered pvName) (hid : pvIdOf cache tag pvName = some pvId)
    (s : NumericSample) :
    (b.handle f cache now ⟨pvName, tag, s.full⟩).handed =
      b.handed ++ [.scalar (s.fullRow pvId)] := by
  obtain ⟨nt, hnt, hrow⟩ := s.converted_full
  rw [b.handle_slow f cache now rfl]
  obtain ⟨hskip, -⟩ | ⟨nt', e, -, hnt', -, ⟨hnone, -⟩ | ⟨pvId', row, hid', hrow', hslow⟩⟩ :=
    b.slow_cases f cache hnamed ⟨pvName, tag, s.full⟩
  · obtain hreg' | hnone := hskip
    · exact absurd hreg hreg'
    · exact absurd (hnone.symm.trans hnt) (Option.some_ne_none nt).symm
  · exact absurd (hnone.symm.trans hid) (Option.some_ne_none pvId).symm
  · rw [hslow]
    dsimp only at hnt' hid' hrow' ⊢
    cases hnt.symm.trans hnt'
    cases hid.symm.trans hid'
    rw [hrow] at hrow'
    cases hrow'
    rfl

end Batch

/-! ## Main theorem -/

/-- **Main theorem.** A sample of a registered PV with an id is stored alike by both deliveries
    exactly if it is representable. -/
theorem sameDelivery_iff (f : Formats) (cache : String → Option Int32) (now : ℕ) (b : Batch)
    (hnamed : b.engine.Named) {pvName : String} {tag pvId : Int32}
    (hreg : b.engine.Registered pvName) (hid : pvIdOf cache tag pvName = some pvId)
    (s : NumericSample) :
    SameDelivery f cache now b pvName tag s ↔ Representable s.time := by
  have hdelta := b.handed_delta f cache now hid s
  have hfull := b.handed_full f cache now hnamed hreg hid s
  rw [← s.rows_eq_iff pvId]
  constructor
  · rintro ⟨hrows, hfits, -⟩
    rw [hdelta, hfull] at hrows
    have hrow : [StoredRow.scalar (s.deltaRow pvId)] = [.scalar (s.fullRow pvId)] :=
      List.append_cancel_left hrows
    exact ⟨StoredRow.scalar.inj (List.singleton_inj.1 hrow), hfits⟩
  · rintro ⟨hrow, hfits⟩
    refine ⟨?_, hfits, newFits_datetimeOf s.time⟩
    rw [hdelta, hfull, hrow]

/-- A batch with the PV `A`, and a sample of it. -/
def batchWithA : Batch := ⟨IngestEngine.new.registerPv "A", [], .new ⟨0⟩, 0, 0, 0, 0, 0, []⟩

/-- A sample with this severity, on time. -/
def sampleWith (severity : Int32) : NumericSample :=
  ⟨.enum 1 ["off", "on"], { severity := severity, seconds := 1700000000 }, "", 0, []⟩

theorem minor_same :
    SameDelivery ⟨fun _ => .ok [], fun _ => .ok .null, fun _ => ""⟩ (fun _ => none) 0 batchWithA "A" 7
      (sampleWith 1) := by
  have hnew : IngestEngine.new.Named := fun name c h => absurd h (Option.some_ne_none c).symm
  have hnamed : batchWithA.engine.Named := IngestEngine.registerPv_named hnew "A"
  have hreg : batchWithA.engine.Registered "A" := by decide
  have hid : pvIdOf (fun _ => none) 7 "A" = some 7 := by decide
  exact (sameDelivery_iff _ _ 0 batchWithA hnamed hreg hid (sampleWith 1)).2
    ⟨by decide, by decide, .inl (by unfold ValidTime; decide)⟩

/-- A severity without a name is kept by the one delivery and made UNDEFINED by the other. -/
theorem unnamedSeverity_differs :
    ¬SameDelivery ⟨fun _ => .ok [], fun _ => .ok .null, fun _ => ""⟩ (fun _ => none) 0 batchWithA "A"
      7 (sampleWith 5) := by
  rintro ⟨hrows, -, -⟩
  have hnew : IngestEngine.new.Named := fun name c h => absurd h (Option.some_ne_none c).symm
  have hid : pvIdOf (fun _ => none) 7 "A" = some 7 := by decide
  rw [batchWithA.handed_delta _ _ 0 hid, batchWithA.handed_full _ _ 0
    (IngestEngine.registerPv_named hnew "A") (by decide) hid] at hrows
  have hrow := List.append_cancel_left hrows
  injection hrow with hrow _
  injection hrow with hrow
  have hseverity := congrArg ScalarRow.severity hrow
  exact absurd hseverity (by decide)

end AuraEpics.Ingest
