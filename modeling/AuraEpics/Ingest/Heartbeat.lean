import AuraEpics.Store.Rows

/-!
# Heartbeats

Model of `HeartbeatTracker` (`crates/aura-ingest/src/heartbeat.rs`, lines 24-176).
Instants are natural numbers of nanoseconds. `elapsed < hs`, a comparison of a duration as
`f32` with an interval, is the parameter `before`.

The entries `resize` fills in carry the time of the call; it is not read before
`record_store` has replaced it.
-/

namespace AuraEpics.Ingest

open Numeric AuraEpics.Core AuraEpics.Store

/-- `pv_id as usize`: a negative id becomes a number above every bound. -/
def asUsize (pvId : Int32) : ℕ := pvId.toInt64.toUInt64.toNat

/-- `idx as i32` gives back the id. -/
theorem ofNat_asUsize (id : Int32) : Int32.ofNat (asUsize id) = id := by
  have hbits : asUsize id = (id.toBitVec.signExtend 64).toNat := rfl
  apply Int32.toBitVec_inj.1
  rw [hbits, Int32.toBitVec_ofNat', BitVec.ofNat_toNat]
  apply BitVec.eq_of_getLsbD_eq
  intro i hi
  rw [BitVec.getLsbD_setWidth, BitVec.getLsbD_signExtend]
  simp [hi, (by omega : i < 64)]

theorem asUsize_inj {a b : Int32} : asUsize a = asUsize b ↔ a = b :=
  ⟨fun h => by rw [← ofNat_asUsize a, ← ofNat_asUsize b, h], congrArg asUsize⟩

/-- `v.resize(idx + 1, fill)` if `v` is shorter than that, and `change` applied to
    `v[idx]`. -/
def growModify {α : Type} (fill : α) (idx : ℕ) (change : α → α) (v : List α) : List α :=
  (v ++ List.replicate (idx + 1 - v.length) fill).modify idx change

theorem length_growModify {α : Type} (fill : α) (idx : ℕ) (change : α → α) (v : List α) :
    (growModify fill idx change v).length = max v.length (idx + 1) := by
  unfold growModify
  rw [List.length_modify, List.length_append, List.length_replicate]
  omega

/-- What `growModify` does to a view of the entries that does not tell a filled-in entry from
    a missing one. -/
theorem growModify_view {α β : Type} {fill : α} {view : Option α → β}
    (hfill : view (some fill) = view none) (idx : ℕ) (change : α → α) (v : List α) (j : ℕ) :
    view (growModify fill idx change v)[j]? =
      if idx = j then view (some (change (v[j]?.getD fill))) else view v[j]? := by
  unfold growModify
  rw [List.getElem?_modify]
  by_cases hj : j < v.length
  · rw [List.getElem?_append_left hj, List.getElem?_eq_getElem hj]
    split_ifs <;> rfl
  · have hnone : v[j]? = none := List.getElem?_eq_none (by omega)
    rw [List.getElem?_append_right (by omega), List.getElem?_replicate, hnone]
    by_cases hidx : idx = j
    · have hfilled : j - v.length < idx + 1 - v.length := by omega
      simp [hidx, hidx ▸ hfilled]
    · rw [if_neg hidx]
      simp only [hidx, if_false, id_map']
      split_ifs
      · exact hfill
      · rfl

/-- `MAX_PV_ID` (line 22). -/
def maxPvId : ℕ := 2000000

/-- `HeartbeatEntry` (lines 24-33). -/
structure HeartbeatEntry where
  lastValue : Binary64
  lastSeverity : Int16
  lastStatus : Int16
  heartbeatS : Binary32
  lastStoreAt : ℕ
  deriving DecidableEq, Repr

/-- `HeartbeatEntry::new_inactive` (lines 36-44); the interval is `-1.0`. -/
def HeartbeatEntry.newInactive (now : ℕ) : HeartbeatEntry := ⟨.zero, -1, 0, ⟨0xBF800000⟩, now⟩

/-- `HeartbeatTracker` (lines 47-53). -/
structure HeartbeatTracker where
  entries : List HeartbeatEntry
  defaultHeartbeatS : Binary32
  hasExplicitOverride : Bool
  configPtr : ℕ

/-- The configuration the tracker reloads: the address of the list and the list. -/
structure HeartbeatConfig where
  ptr : ℕ
  intervals : List (Int32 × Binary32)

namespace HeartbeatTracker

/-- `HeartbeatTracker::new` (lines 56-64). -/
def new (defaultHeartbeatS : Binary32) : HeartbeatTracker := ⟨[], defaultHeartbeatS, false, 0⟩

/-- `is_disabled` (lines 67-69). -/
def isDisabled (t : HeartbeatTracker) : Bool := t.defaultHeartbeatS.leZero && !t.hasExplicitOverride

/-- `set_pv_heartbeat` (lines 71-83). -/
def setPvHeartbeat (t : HeartbeatTracker) (now : ℕ) (pvId : Int32) (heartbeatS : Binary64) :
    HeartbeatTracker :=
  if maxPvId < asUsize pvId then t
  else { t with
    entries := growModify (.newInactive now) (asUsize pvId)
      (fun e => { e with heartbeatS := heartbeatS.toBinary32 }) t.entries
    hasExplicitOverride := t.hasExplicitOverride || heartbeatS.gtZero }

/-- `record_store` (lines 86-106). -/
def recordStore (t : HeartbeatTracker) (pvId : Int32) (value : Binary64) (severity status : Int16)
    (now : ℕ) : HeartbeatTracker :=
  if maxPvId < asUsize pvId then t
  else { t with
    entries := growModify (.newInactive now) (asUsize pvId) (fun e => { e with
      lastValue := value
      lastSeverity := max severity 0
      lastStatus := status
      lastStoreAt := now }) t.entries }

/-- The hot reload (lines 113-123). -/
def reload (t : HeartbeatTracker) (now : ℕ) (config : HeartbeatConfig) : HeartbeatTracker :=
  if config.ptr = t.configPtr then t
  else
    let t := config.intervals.foldl (fun t c => t.setPvHeartbeat now c.1 (.ofBinary32 c.2)) t
    { t with configPtr := config.ptr }

variable (before : ℕ → Binary32 → Bool)

/-- The loop body for the entry of `pvId` (lines 138-173): the entry, and the row if one is
    pushed. -/
def beat (defaultHs : Binary32) (active : Int32 → Bool) (now : ℕ) (nowPgUs : Int64) (pvId : Int32)
    (e : HeartbeatEntry) : HeartbeatEntry × Option ScalarRow :=
  let hs := if e.heartbeatS.ltZero then defaultHs else e.heartbeatS
  if hs.leZero then (e, none)
  else if !active pvId then ({ e with lastSeverity := -1 }, none)
  else if e.lastSeverity < 0 then (e, none)
  else if before (now - e.lastStoreAt) hs then (e, none)
  else
    ({ e with lastStoreAt := now },
      some ⟨nowPgUs, pvId, e.lastValue, e.lastSeverity, e.lastStatus, StoreReason.heartbeat.toI16⟩)

/-- The loop over the entries from index `idx` on (lines 138-173) with `count`, the rows
    pushed and the entries afterwards. -/
def scan (defaultHs : Binary32) (active : Int32 → Bool) (now : ℕ) (nowPgUs : Int64) :
    ℕ → List HeartbeatEntry → ℕ × List ScalarRow × List HeartbeatEntry
  | _, [] => (0, [], [])
  | idx, e :: es =>
    let (count, rows, es) := scan defaultHs active now nowPgUs (idx + 1) es
    match beat before defaultHs active now nowPgUs (.ofNat idx) e with
    | (e, some row) => (count + 1, row :: rows, e :: es)
    | (e, none) => (count, rows, e :: es)

theorem scan_cons (defaultHs : Binary32) (active : Int32 → Bool) (now : ℕ) (nowPgUs : Int64)
    (idx : ℕ) (e : HeartbeatEntry) (es : List HeartbeatEntry) :
    (scan before defaultHs active now nowPgUs idx (e :: es)).2 =
      ((beat before defaultHs active now nowPgUs (.ofNat idx) e).2.toList ++
          (scan before defaultHs active now nowPgUs (idx + 1) es).2.1,
        (beat before defaultHs active now nowPgUs (.ofNat idx) e).1 ::
          (scan before defaultHs active now nowPgUs (idx + 1) es).2.2) := by
  show (match beat before defaultHs active now nowPgUs (.ofNat idx) e with
    | (e, some row) => ((scan before defaultHs active now nowPgUs (idx + 1) es).1 + 1,
        row :: (scan before defaultHs active now nowPgUs (idx + 1) es).2.1,
        e :: (scan before defaultHs active now nowPgUs (idx + 1) es).2.2)
    | (e, none) => ((scan before defaultHs active now nowPgUs (idx + 1) es).1,
        (scan before defaultHs active now nowPgUs (idx + 1) es).2.1,
        e :: (scan before defaultHs active now nowPgUs (idx + 1) es).2.2)).2 = _
  rcases hbeat : beat before defaultHs active now nowPgUs (.ofNat idx) e with ⟨e', _ | row⟩
  · rfl
  · rfl

/-- `emit_heartbeats` (lines 108-176): the count it returns, the rows it pushes and the
    tracker afterwards. -/
def emitHeartbeats (t : HeartbeatTracker) (config : HeartbeatConfig) (active : Int32 → Bool)
    (now : ℕ) (nowPgUs : Int64) : ℕ × List ScalarRow × HeartbeatTracker :=
  let t := t.reload now config
  if t.isDisabled then (0, [], t)
  else
    let (count, rows, entries) := scan before t.defaultHeartbeatS active now nowPgUs 0 t.entries
    (count, rows, { t with entries := entries })

theorem scan_count (defaultHs : Binary32) (active : Int32 → Bool) (now : ℕ) (nowPgUs : Int64)
    (idx : ℕ) (es : List HeartbeatEntry) :
    (scan before defaultHs active now nowPgUs idx es).1 =
      (scan before defaultHs active now nowPgUs idx es).2.1.length := by
  induction es generalizing idx with
  | nil => rfl
  | cons e es ih =>
    have hrest := ih (idx + 1)
    unfold scan
    dsimp only
    split
    · rw [List.length_cons, hrest]
    · exact hrest

/-- The tracker returns how many rows it has pushed. -/
theorem emitHeartbeats_count (t : HeartbeatTracker) (config : HeartbeatConfig)
    (active : Int32 → Bool) (now : ℕ) (nowPgUs : Int64) :
    (t.emitHeartbeats before config active now nowPgUs).1 =
      (t.emitHeartbeats before config active now nowPgUs).2.1.length := by
  unfold emitHeartbeats
  dsimp only
  split_ifs
  · rfl
  · exact scan_count before _ _ _ _ _ _

end HeartbeatTracker

end AuraEpics.Ingest
