import AuraEpics.Ingest.Heartbeat
import AuraEpics.Lib.Latest
import AuraEpics.Lib.Runs

/-!
# What the heartbeat tracker knows of a PV

The tracker is a table of entries; two views of it are all a scan depends on, `cached`, the
value a heartbeat of the PV would carry, and `interval`. For each operation of
`crates/aura-ingest/src/heartbeat.rs` one lemma says what it does to each view, and
`mem_emitHeartbeats` says which rows a scan pushes.
-/

namespace AuraEpics.Ingest

open Numeric Latest AuraEpics.Core AuraEpics.Store

/-- `Duration::as_secs_f32` of `ns` nanoseconds: the seconds and the rest of a second are
    rounded, and then their sum. -/
def asSecsF32 (ns : ℕ) : ℚ :=
  Binary32.nearest (Binary32.nearest (ns / 10 ^ 9 : ℕ) +
    Binary32.nearest (Binary32.nearest (ns % 10 ^ 9 : ℕ) / 10 ^ 9))

/-- `elapsed < hs` (lines 158-159), where the time elapsed is an `f32`. -/
def elapsedBefore (ns : ℕ) (hs : Binary32) : Bool := hs.below (asSecsF32 ns)

/-- `elapsed < hs`, where the time elapsed is taken as exact. -/
def exactlyBefore (ns : ℕ) (hs : Binary32) : Bool := hs.below (ns / 10 ^ 9)

/-- A little more than the `f32` of 1.66 s, and a little less once it is rounded. -/
example : exactlyBefore 1659999967 ⟨0x3FD47AE1⟩ = false ∧
    elapsedBefore 1659999967 ⟨0x3FD47AE1⟩ = true := by
  decide +kernel

/-- The value of a PV with the instant of its last stored or heartbeat row. -/
structure Cached where
  value : Binary64
  severity : Int16
  status : Int16
  storedAt : ℕ
  deriving DecidableEq, Repr

/-- The ids the tracker has entries for. -/
def Tracked (id : Int32) : Prop := asUsize id ≤ maxPvId

instance (id : Int32) : Decidable (Tracked id) := inferInstanceAs (Decidable (_ ≤ _))

theorem asUsize_ofNat {n : ℕ} (h : n ≤ maxPvId) : asUsize (.ofNat n) = n := by
  have hn : n < 2 ^ 31 := h.trans_lt (by decide)
  show ((BitVec.ofNat 32 n).signExtend 64).toNat = n
  have hmsb : (BitVec.ofNat 32 n).msb = false := by
    rw [BitVec.msb_eq_false_iff_two_mul_lt, BitVec.toNat_ofNat]
    omega
  rw [BitVec.signExtend_eq_setWidth_of_msb_false hmsb, BitVec.toNat_setWidth, BitVec.toNat_ofNat]
  omega

theorem not_max_lt_zero (severity : Int16) : ¬max severity 0 < 0 := by
  show ¬(if severity ≤ 0 then 0 else severity) < 0
  split_ifs with h
  · decide
  · exact fun hlt => h (Int16.le_of_lt hlt)

namespace HeartbeatTracker

/-! ## The two views -/

/-- An entry without a value, or one that is missing, has nothing cached. -/
def cachedOf (e : Option HeartbeatEntry) : Option Cached :=
  e.bind fun e =>
    if e.lastSeverity < 0 then none
    else some ⟨e.lastValue, e.lastSeverity, e.lastStatus, e.lastStoreAt⟩

/-- The interval of an entry; a missing one is as if it had the sentinel `-1.0`. -/
def intervalOf (e : Option HeartbeatEntry) : Binary32 :=
  (e.map HeartbeatEntry.heartbeatS).getD ⟨0xBF800000⟩

/-- What a heartbeat of the PV would carry. -/
def cached (t : HeartbeatTracker) (id : Int32) : Option Cached := cachedOf t.entries[asUsize id]?

/-- The interval last set for the PV. -/
def interval (t : HeartbeatTracker) (id : Int32) : Binary32 := intervalOf t.entries[asUsize id]?

/-- The interval in effect where `hs` was set last. -/
def effectiveOf (defaultHs hs : Binary32) : Binary32 := if hs.ltZero then defaultHs else hs

/-- The interval in effect for the PV. -/
def effective (t : HeartbeatTracker) (id : Int32) : Binary32 :=
  effectiveOf t.defaultHeartbeatS (t.interval id)

/-- The table never grows beyond the cap. -/
def WellSized (t : HeartbeatTracker) : Prop := t.entries.length ≤ maxPvId + 1

theorem intervalOf_newInactive (now : ℕ) : intervalOf (some (.newInactive now)) = intervalOf none :=
  rfl

theorem cachedOf_invalid {e : HeartbeatEntry} (h : e.lastSeverity < 0) : cachedOf (some e) = none :=
  if_pos h

theorem cachedOf_valid {e : HeartbeatEntry} (h : ¬e.lastSeverity < 0) :
    cachedOf (some e) = some ⟨e.lastValue, e.lastSeverity, e.lastStatus, e.lastStoreAt⟩ := if_neg h

theorem cachedOf_newInactive (now : ℕ) : cachedOf (some (.newInactive now)) = cachedOf none :=
  cachedOf_invalid (by decide : (-1 : Int16) < 0)

theorem tracked_of_cached {t : HeartbeatTracker} (ht : t.WellSized) {id : Int32} {c : Cached}
    (h : t.cached id = some c) : Tracked id := by
  by_contra huntracked
  have hnone : t.entries[asUsize id]? = none := by
    apply List.getElem?_eq_none
    unfold WellSized at ht
    unfold Tracked at huntracked
    omega
  unfold cached at h
  rw [hnone] at h
  cases h

theorem entry_of_cached {t : HeartbeatTracker} {id : Int32} {c : Cached}
    (h : t.cached id = some c) :
    ∃ e, t.entries[asUsize id]? = some e ∧ cachedOf (some e) = some c := by
  unfold cached at h
  cases he : t.entries[asUsize id]? with
  | none =>
    rw [he] at h
    cases h
  | some e =>
    rw [he] at h
    exact ⟨e, rfl, h⟩

/-! ## Intervals -/

section Set

variable (t : HeartbeatTracker) (now : ℕ) (pvId : Int32) (heartbeatS : Binary64)

theorem setPvHeartbeat_wellSized (ht : t.WellSized) :
    (t.setPvHeartbeat now pvId heartbeatS).WellSized := by
  unfold setPvHeartbeat
  split_ifs with hcap
  · exact ht
  · unfold WellSized at ht ⊢
    dsimp only
    rw [length_growModify]
    omega

theorem setPvHeartbeat_cached (id : Int32) :
    (t.setPvHeartbeat now pvId heartbeatS).cached id = t.cached id := by
  unfold setPvHeartbeat
  split_ifs with hcap
  · rfl
  · unfold cached
    dsimp only
    rw [growModify_view (cachedOf_newInactive now)]
    split_ifs
    · cases t.entries[asUsize id]? <;> rfl
    · rfl

theorem setPvHeartbeat_interval (id : Int32) :
    (t.setPvHeartbeat now pvId heartbeatS).interval id =
      if pvId = id ∧ Tracked id then heartbeatS.toBinary32 else t.interval id := by
  unfold setPvHeartbeat Tracked
  split_ifs with hcap hid hid
  · obtain ⟨rfl, htracked⟩ := hid
    omega
  · rfl
  · unfold interval
    dsimp only
    rw [growModify_view (intervalOf_newInactive now), if_pos (congrArg asUsize hid.1)]
    rfl
  · unfold interval
    dsimp only
    rw [growModify_view (intervalOf_newInactive now), if_neg]
    intro heq
    exact hid ⟨asUsize_inj.1 heq, heq ▸ Nat.le_of_not_lt hcap⟩

theorem setPvHeartbeat_default :
    (t.setPvHeartbeat now pvId heartbeatS).defaultHeartbeatS = t.defaultHeartbeatS := by
  unfold setPvHeartbeat
  split_ifs <;> rfl

/-- A setting that switches the tracker on. -/
def isOverride (c : Int32 × Binary64) : Bool := decide (Tracked c.1) && c.2.gtZero

theorem setPvHeartbeat_override :
    (t.setPvHeartbeat now pvId heartbeatS).hasExplicitOverride =
      (t.hasExplicitOverride || isOverride (pvId, heartbeatS)) := by
  unfold setPvHeartbeat isOverride
  split_ifs with hcap
  · rw [decide_eq_false (show ¬Tracked pvId from Nat.not_le.2 hcap), Bool.false_and, Bool.or_false]
  · rw [decide_eq_true (show Tracked pvId from Nat.le_of_not_lt hcap), Bool.true_and]

theorem setPvHeartbeat_configPtr :
    (t.setPvHeartbeat now pvId heartbeatS).configPtr = t.configPtr := by
  unfold setPvHeartbeat
  split_ifs <;> rfl

end Set

section Record

variable (t : HeartbeatTracker) (pvId : Int32) (value : Binary64) (severity status : Int16) (now : ℕ)

theorem recordStore_wellSized (ht : t.WellSized) :
    (t.recordStore pvId value severity status now).WellSized := by
  unfold recordStore
  split_ifs with hcap
  · exact ht
  · unfold WellSized at ht ⊢
    dsimp only
    rw [length_growModify]
    omega

theorem recordStore_cached (id : Int32) :
    (t.recordStore pvId value severity status now).cached id =
      if pvId = id ∧ Tracked id then some ⟨value, max severity 0, status, now⟩ else t.cached id := by
  unfold recordStore Tracked
  split_ifs with hcap hid hid
  · obtain ⟨rfl, htracked⟩ := hid
    omega
  · rfl
  · unfold cached
    dsimp only
    rw [growModify_view (cachedOf_newInactive now), if_pos (congrArg asUsize hid.1)]
    exact if_neg (not_max_lt_zero severity)
  · unfold cached
    dsimp only
    rw [growModify_view (cachedOf_newInactive now), if_neg]
    intro heq
    exact hid ⟨asUsize_inj.1 heq, heq ▸ Nat.le_of_not_lt hcap⟩

theorem recordStore_interval (id : Int32) :
    (t.recordStore pvId value severity status now).interval id = t.interval id := by
  unfold recordStore
  split_ifs with hcap
  · rfl
  · unfold interval
    dsimp only
    rw [growModify_view (intervalOf_newInactive now)]
    split_ifs
    · cases t.entries[asUsize id]? <;> rfl
    · rfl

theorem recordStore_default :
    (t.recordStore pvId value severity status now).defaultHeartbeatS = t.defaultHeartbeatS ∧
      (t.recordStore pvId value severity status now).configPtr = t.configPtr := by
  unfold recordStore
  split_ifs <;> exact ⟨rfl, rfl⟩

end Record

/-! ## Hot reload -/

/-- The settings a scan with this configuration applies, as `set_pv_heartbeat` gets them. -/
def appliedBy (ptr : ℕ) (config : HeartbeatConfig) : List (Int32 × Binary64) :=
  if config.ptr = ptr then [] else config.intervals.map fun c => (c.1, Binary64.ofBinary32 c.2)

/-- What the reload does, one setting at a time. -/
def setAll (now : ℕ) (settings : List (Int32 × Binary64)) (t : HeartbeatTracker) : HeartbeatTracker :=
  settings.foldl (fun t c => t.setPvHeartbeat now c.1 c.2) t

theorem reload_eq (t : HeartbeatTracker) (now : ℕ) (config : HeartbeatConfig) :
    t.reload now config =
      { t.setAll now (appliedBy t.configPtr config) with configPtr := config.ptr } := by
  unfold reload appliedBy
  split_ifs with hptr
  · rw [hptr]
    rfl
  · unfold setAll
    rw [List.foldl_map]

section SetAll

variable (now : ℕ) (settings : List (Int32 × Binary64))

theorem setAll_wellSized {t : HeartbeatTracker} (ht : t.WellSized) :
    (t.setAll now settings).WellSized := by
  induction settings generalizing t with
  | nil => exact ht
  | cons c settings ih => exact ih (setPvHeartbeat_wellSized t now c.1 c.2 ht)

theorem setAll_cached (t : HeartbeatTracker) (id : Int32) :
    (t.setAll now settings).cached id = t.cached id := by
  induction settings generalizing t with
  | nil => rfl
  | cons c settings ih => exact (ih _).trans (setPvHeartbeat_cached t now c.1 c.2 id)

theorem setAll_default (t : HeartbeatTracker) :
    (t.setAll now settings).defaultHeartbeatS = t.defaultHeartbeatS := by
  induction settings generalizing t with
  | nil => rfl
  | cons c settings ih => exact (ih _).trans (setPvHeartbeat_default t now c.1 c.2)

theorem setAll_override (t : HeartbeatTracker) :
    (t.setAll now settings).hasExplicitOverride =
      (t.hasExplicitOverride || settings.any isOverride) := by
  induction settings generalizing t with
  | nil => exact (Bool.or_false _).symm
  | cons c settings ih =>
    rw [List.any_cons, ← Bool.or_assoc, ← setPvHeartbeat_override t now c.1 c.2]
    exact ih _

/-- The last of the settings for the PV is in force. -/
theorem setAll_interval (t : HeartbeatTracker) {id : Int32} (hid : Tracked id) :
    (t.setAll now settings).interval id =
      ((latest settings id).map Binary64.toBinary32).getD (t.interval id) := by
  induction settings using List.reverseRecOn with
  | nil => rfl
  | append_singleton settings c ih =>
    unfold setAll at ih ⊢
    rw [List.foldl_append, latest_concat]
    show ((List.foldl _ t settings).setPvHeartbeat now c.1 c.2).interval id = _
    rw [setPvHeartbeat_interval, ih]
    by_cases hc : id = c.1
    · rw [if_pos ⟨hc.symm, hid⟩, if_pos hc]
      rfl
    · rw [if_neg fun h => hc h.1.symm, if_neg hc]

end SetAll

section Reload

variable (t : HeartbeatTracker) (now : ℕ) (config : HeartbeatConfig)

theorem reload_wellSized (ht : t.WellSized) : (t.reload now config).WellSized := by
  rw [reload_eq]
  exact setAll_wellSized now (appliedBy t.configPtr config) ht

@[simp] theorem reload_cached (id : Int32) : (t.reload now config).cached id = t.cached id := by
  rw [reload_eq]
  exact setAll_cached now (appliedBy t.configPtr config) t id

@[simp] theorem reload_default :
    (t.reload now config).defaultHeartbeatS = t.defaultHeartbeatS := by
  rw [reload_eq]
  exact setAll_default now (appliedBy t.configPtr config) t

theorem reload_override :
    (t.reload now config).hasExplicitOverride =
      (t.hasExplicitOverride || (appliedBy t.configPtr config).any isOverride) := by
  rw [reload_eq]
  exact setAll_override now (appliedBy t.configPtr config) t

@[simp] theorem reload_configPtr : (t.reload now config).configPtr = config.ptr := by
  rw [reload_eq]

theorem reload_interval {id : Int32} (hid : Tracked id) :
    (t.reload now config).interval id =
      ((latest (appliedBy t.configPtr config) id).map Binary64.toBinary32).getD (t.interval id) := by
  rw [reload_eq]
  exact setAll_interval now (appliedBy t.configPtr config) t hid

end Reload

/-! ## Scans -/

section Scan

variable (before : ℕ → Binary32 → Bool) (defaultHs : Binary32) (active : Int32 → Bool) (now : ℕ)
  (nowPgUs : Int64)

/-- The heartbeat row for a cached value. -/
def heartbeatRow (nowPgUs : Int64) (id : Int32) (c : Cached) : ScalarRow :=
  ⟨nowPgUs, id, c.value, c.severity, c.status, StoreReason.heartbeat.toI16⟩

/-- The interval `hs` is in force for the PV and has passed since its last row. -/
structure Due (hs : Binary32) (id : Int32) (c : Cached) : Prop where
  enabled : hs.leZero = false
  active : active id = true
  elapsed : before (now - c.storedAt) hs = false

instance (hs : Binary32) (id : Int32) (c : Cached) : Decidable (Due before active now hs id c) :=
  decidable_of_iff (hs.leZero = false ∧ active id = true ∧ before (now - c.storedAt) hs = false)
    ⟨fun h => ⟨h.1, h.2.1, h.2.2⟩, fun h => ⟨h.1, h.2, h.3⟩⟩

/-- What a scan that is not switched off makes of a cached value. -/
def scanned (hs : Binary32) (id : Int32) (c : Option Cached) : Option Cached :=
  if hs.leZero then c
  else if !active id then none
  else c.map fun c => if before (now - c.storedAt) hs then c else { c with storedAt := now }

theorem beat_eq (id : Int32) (e : HeartbeatEntry) :
    beat before defaultHs active now nowPgUs id e =
      let hs := effectiveOf defaultHs e.heartbeatS
      if hs.leZero then (e, none)
      else if !active id then ({ e with lastSeverity := -1 }, none)
      else if e.lastSeverity < 0 then (e, none)
      else if before (now - e.lastStoreAt) hs then (e, none)
      else
        ({ e with lastStoreAt := now }, some (heartbeatRow nowPgUs id
          ⟨e.lastValue, e.lastSeverity, e.lastStatus, e.lastStoreAt⟩)) := rfl

theorem beat_row (id : Int32) (e : HeartbeatEntry) (row : ScalarRow) :
    (beat before defaultHs active now nowPgUs id e).2 = some row ↔
      ∃ c, cachedOf (some e) = some c ∧
        Due before active now (effectiveOf defaultHs e.heartbeatS) id c ∧
        row = heartbeatRow nowPgUs id c := by
  rw [beat_eq]
  generalize effectiveOf defaultHs e.heartbeatS = hs
  dsimp only
  constructor
  · intro h
    split_ifs at h with hhs hactive hseverity helapsed
    rw [cachedOf_valid hseverity]
    refine ⟨_, rfl, ⟨Bool.not_eq_true _ ▸ hhs, by simpa using hactive, by simpa using helapsed⟩, ?_⟩
    exact (Option.some.inj h).symm
  · rintro ⟨c, hc, hdue, rfl⟩
    have hseverity : ¬e.lastSeverity < 0 := fun hneg => by
      rw [cachedOf_invalid hneg] at hc
      cases hc
    rw [cachedOf_valid hseverity] at hc
    obtain rfl := Option.some.inj hc
    rw [if_neg (by simp [hdue.enabled]), if_neg (by simp [hdue.active]), if_neg hseverity,
      if_neg (by simpa using hdue.elapsed)]

theorem beat_cached (id : Int32) (e : HeartbeatEntry) :
    cachedOf (some (beat before defaultHs active now nowPgUs id e).1) =
      scanned before active now (effectiveOf defaultHs e.heartbeatS) id (cachedOf (some e)) := by
  rw [beat_eq]
  unfold scanned
  generalize effectiveOf defaultHs e.heartbeatS = hs
  dsimp only
  by_cases hhs : hs.leZero = true
  · rw [if_pos hhs, if_pos hhs]
  rw [if_neg hhs, if_neg hhs]
  by_cases hactive : (!active id) = true
  · rw [if_pos hactive, if_pos hactive]
    exact cachedOf_invalid (by decide : (-1 : Int16) < 0)
  rw [if_neg hactive, if_neg hactive]
  by_cases hseverity : e.lastSeverity < 0
  · rw [if_pos hseverity, cachedOf_invalid hseverity]
    rfl
  rw [if_neg hseverity, cachedOf_valid hseverity, Option.map_some]
  dsimp only
  split_ifs with helapsed
  · exact cachedOf_valid hseverity
  · exact cachedOf_valid hseverity

theorem beat_interval (id : Int32) (e : HeartbeatEntry) :
    (beat before defaultHs active now nowPgUs id e).1.heartbeatS = e.heartbeatS := by
  unfold beat
  dsimp only
  split_ifs <;> rfl

theorem scan_entries (idx : ℕ) (es : List HeartbeatEntry) (j : ℕ) :
    (scan before defaultHs active now nowPgUs idx es).2.2[j]? =
      es[j]?.map fun e => (beat before defaultHs active now nowPgUs (.ofNat (idx + j)) e).1 := by
  induction es generalizing idx j with
  | nil => rfl
  | cons e es ih =>
    rw [scan_cons]
    cases j with
    | zero => rfl
    | succ j =>
      rw [List.getElem?_cons_succ, List.getElem?_cons_succ, ih, Nat.add_right_comm, Nat.add_assoc]

theorem scan_length (idx : ℕ) (es : List HeartbeatEntry) :
    (scan before defaultHs active now nowPgUs idx es).2.2.length = es.length := by
  induction es generalizing idx with
  | nil => rfl
  | cons e es ih => rw [scan_cons, List.length_cons, List.length_cons, ih]

theorem mem_scan {idx : ℕ} {es : List HeartbeatEntry} {row : ScalarRow} :
    row ∈ (scan before defaultHs active now nowPgUs idx es).2.1 ↔
      ∃ j e, es[j]? = some e ∧
        (beat before defaultHs active now nowPgUs (.ofNat (idx + j)) e).2 = some row := by
  induction es generalizing idx with
  | nil =>
    show row ∈ [] ↔ _
    simp
  | cons e es ih =>
    rw [scan_cons, List.mem_append, Option.mem_toList, ih]
    constructor
    · rintro (h | ⟨j, e', he', hrow⟩)
      · exact ⟨0, e, rfl, h⟩
      · refine ⟨j + 1, e', he', ?_⟩
        rwa [← Nat.add_assoc, Nat.add_right_comm]
    · rintro ⟨j, e', he', hrow⟩
      cases j with
      | zero =>
        obtain rfl := Option.some.inj he'
        exact .inl hrow
      | succ j =>
        refine .inr ⟨j, e', he', ?_⟩
        rwa [Nat.add_right_comm, Nat.add_assoc]

theorem beat_pvId {id : Int32} {e : HeartbeatEntry} {row : ScalarRow}
    (h : (beat before defaultHs active now nowPgUs id e).2 = some row) : row.pvId = id := by
  obtain ⟨c, -, -, rfl⟩ := (beat_row before defaultHs active now nowPgUs id e row).1 h
  rfl

/-- No two entries have the same id. -/
theorem scan_nodup (idx : ℕ) (es : List HeartbeatEntry) (hcap : idx + es.length ≤ maxPvId + 1) :
    ((scan before defaultHs active now nowPgUs idx es).2.1.map ScalarRow.pvId).Nodup := by
  induction es generalizing idx with
  | nil => exact List.nodup_nil
  | cons e es ih =>
    rw [List.length_cons] at hcap
    rw [scan_cons, List.map_append]
    refine List.nodup_append.2 ⟨?_, ih (idx + 1) (by omega), ?_⟩
    · cases (beat before defaultHs active now nowPgUs (.ofNat idx) e).2 with
      | none => exact List.nodup_nil
      | some row => exact List.nodup_singleton _
    · intro a ha b hb heq
      obtain ⟨rowA, hrowA, rfl⟩ := List.mem_map.1 ha
      obtain ⟨rowB, hrowB, rfl⟩ := List.mem_map.1 hb
      obtain ⟨j, e', he', hbeat⟩ := (mem_scan before defaultHs active now nowPgUs).1 hrowB
      have hj : j < es.length := (List.getElem?_eq_some_iff.1 he').1
      have hA : rowA.pvId = .ofNat idx := beat_pvId _ _ _ _ _ (Option.mem_toList.1 hrowA)
      have hB : rowB.pvId = .ofNat (idx + 1 + j) := beat_pvId _ _ _ _ _ hbeat
      rw [hA, hB] at heq
      have hidx := congrArg asUsize heq
      rw [asUsize_ofNat (by omega), asUsize_ofNat (by omega)] at hidx
      omega

end Scan

section Emit

variable (before : ℕ → Binary32 → Bool) (config : HeartbeatConfig) (active : Int32 → Bool) (now : ℕ)
  (nowPgUs : Int64) (t : HeartbeatTracker)

/-- The rows a scan pushes. -/
theorem mem_emitHeartbeats (ht : t.WellSized) {row : ScalarRow} :
    row ∈ (t.emitHeartbeats before config active now nowPgUs).2.1 ↔
      (t.reload now config).isDisabled = false ∧ ∃ c, t.cached row.pvId = some c ∧
        Due before active now ((t.reload now config).effective row.pvId) row.pvId c ∧
        row = heartbeatRow nowPgUs row.pvId c := by
  have hsized := reload_wellSized t now config ht
  rw [← reload_cached t now config]
  unfold emitHeartbeats
  generalize t.reload now config = t' at hsized ⊢
  dsimp only
  split_ifs with hdisabled
  · simp [hdisabled]
  rw [mem_scan]
  constructor
  · rintro ⟨j, e, he, hbeat⟩
    obtain ⟨c, hc, hdue, rfl⟩ := (beat_row ..).1 hbeat
    have hj : j < t'.entries.length := (List.getElem?_eq_some_iff.1 he).1
    have hid : asUsize (.ofNat (0 + j)) = j := by
      rw [Nat.zero_add]
      exact asUsize_ofNat (by unfold WellSized at hsized; omega)
    refine ⟨by simpa using hdisabled, c, ?_, ?_, rfl⟩
    · show cachedOf t'.entries[asUsize (.ofNat (0 + j))]? = some c
      rw [hid, he, hc]
    · show Due before active now (effectiveOf _ (intervalOf t'.entries[asUsize (.ofNat (0 + j))]?)) _ c
      rw [hid, he]
      exact hdue
  · rintro ⟨-, c, hc, hdue, hrow⟩
    obtain ⟨e, he, hec⟩ := entry_of_cached hc
    refine ⟨asUsize row.pvId, e, he, ?_⟩
    rw [Nat.zero_add, ofNat_asUsize]
    refine (beat_row ..).2 ⟨c, hec, ?_, hrow⟩
    unfold effective interval at hdue
    rw [he] at hdue
    exact hdue

theorem emitHeartbeats_nodup (ht : t.WellSized) :
    ((t.emitHeartbeats before config active now nowPgUs).2.1.map ScalarRow.pvId).Nodup := by
  unfold emitHeartbeats
  dsimp only
  split_ifs
  · exact List.nodup_nil
  · apply scan_nodup
    have hsized := reload_wellSized t now config ht
    unfold WellSized at hsized
    omega

theorem emitHeartbeats_wellSized (ht : t.WellSized) :
    (t.emitHeartbeats before config active now nowPgUs).2.2.WellSized := by
  have hsized := reload_wellSized t now config ht
  unfold emitHeartbeats
  dsimp only
  split_ifs
  · exact hsized
  · unfold WellSized at hsized ⊢
    dsimp only
    rwa [scan_length]

theorem emitHeartbeats_interval (id : Int32) :
    (t.emitHeartbeats before config active now nowPgUs).2.2.interval id =
      (t.reload now config).interval id := by
  unfold emitHeartbeats
  dsimp only
  split_ifs
  · rfl
  · unfold interval
    dsimp only
    rw [scan_entries]
    cases he : (t.reload now config).entries[asUsize id]? with
    | none => rfl
    | some e => exact beat_interval before _ active now nowPgUs _ e

theorem emitHeartbeats_cached (id : Int32) :
    (t.emitHeartbeats before config active now nowPgUs).2.2.cached id =
      if (t.reload now config).isDisabled then t.cached id
      else scanned before active now ((t.reload now config).effective id) id (t.cached id) := by
  rw [← reload_cached t now config]
  unfold emitHeartbeats
  generalize t.reload now config = t'
  dsimp only
  split_ifs
  · rfl
  · unfold cached effective interval
    dsimp only
    rw [scan_entries, Nat.zero_add, ofNat_asUsize]
    cases t'.entries[asUsize id]? with
    | none =>
      unfold scanned
      split_ifs <;> rfl
    | some e => exact beat_cached before _ active now nowPgUs id e

theorem emitHeartbeats_default :
    (t.emitHeartbeats before config active now nowPgUs).2.2.defaultHeartbeatS = t.defaultHeartbeatS ∧
      (t.emitHeartbeats before config active now nowPgUs).2.2.configPtr = config.ptr := by
  have hdefault := reload_default t now config
  have hptr := reload_configPtr t now config
  unfold emitHeartbeats
  dsimp only
  split_ifs <;> exact ⟨hdefault, hptr⟩

theorem emitHeartbeats_override :
    (t.emitHeartbeats before config active now nowPgUs).2.2.hasExplicitOverride =
      (t.reload now config).hasExplicitOverride := by
  unfold emitHeartbeats
  dsimp only
  split_ifs <;> rfl

theorem emitHeartbeats_effective (id : Int32) :
    (t.emitHeartbeats before config active now nowPgUs).2.2.effective id =
      (t.reload now config).effective id := by
  unfold effective
  rw [emitHeartbeats_interval, (emitHeartbeats_default ..).1, reload_default]

end Emit

/-! ## Overrides -/

/-- A positive interval is an override the tracker knows of. -/
def Overridden (t : HeartbeatTracker) : Prop :=
  ∀ id, (t.interval id).gtZero = true → t.hasExplicitOverride = true

theorem new_overridden (defaultHs : Binary32) : (new defaultHs).Overridden := by
  intro id hpos
  have hunset : (⟨0xBF800000⟩ : Binary32).gtZero = false := by decide +kernel
  exact absurd (hpos.symm.trans hunset) (by decide)

theorem setPvHeartbeat_overridden {t : HeartbeatTracker} (ht : t.Overridden) (now : ℕ)
    (pvId : Int32) (hs : Binary64) : (t.setPvHeartbeat now pvId hs).Overridden := by
  intro id hpos
  rw [setPvHeartbeat_interval] at hpos
  rw [setPvHeartbeat_override]
  by_cases hid : pvId = id ∧ Tracked id
  · rw [if_pos hid] at hpos
    obtain ⟨rfl, htracked⟩ := hid
    unfold isOverride
    rw [decide_eq_true htracked, Binary64.gtZero_of_toBinary32 hpos, Bool.and_true, Bool.or_true]
  · rw [if_neg hid] at hpos
    rw [ht id hpos, Bool.true_or]

theorem recordStore_overridden {t : HeartbeatTracker} (ht : t.Overridden) (pvId : Int32)
    (value : Binary64) (severity status : Int16) (now : ℕ) :
    (t.recordStore pvId value severity status now).Overridden := by
  intro id hpos
  rw [recordStore_interval] at hpos
  unfold recordStore
  split_ifs <;> exact ht id hpos

theorem reload_overridden {t : HeartbeatTracker} (ht : t.Overridden) (now : ℕ)
    (config : HeartbeatConfig) : (t.reload now config).Overridden := by
  rw [reload_eq]
  have hall : (t.setAll now (appliedBy t.configPtr config)).Overridden := by
    induction appliedBy t.configPtr config generalizing t with
    | nil => exact ht
    | cons c settings ih => exact ih (setPvHeartbeat_overridden ht now c.1 c.2)
  exact hall

theorem emitHeartbeats_overridden (before : ℕ → Binary32 → Bool) (config : HeartbeatConfig)
    (active : Int32 → Bool) (now : ℕ) (nowPgUs : Int64) {t : HeartbeatTracker} (ht : t.Overridden) :
    (t.emitHeartbeats before config active now nowPgUs).2.2.Overridden := by
  intro id hpos
  rw [emitHeartbeats_interval] at hpos
  rw [emitHeartbeats_override]
  exact reload_overridden ht now config id hpos

/-- A PV with a positive interval keeps the tracker from being switched off. -/
theorem isDisabled_of_positive {t : HeartbeatTracker} (ht : t.Overridden) {id : Int32}
    (hpos : (t.effective id).gtZero = true) : t.isDisabled = false := by
  unfold effective effectiveOf at hpos
  unfold isDisabled
  split_ifs at hpos
  · rw [Binary32.leZero_of_gtZero hpos, Bool.false_and]
  · rw [ht id hpos, Bool.not_true, Bool.and_false]

end HeartbeatTracker

end AuraEpics.Ingest
