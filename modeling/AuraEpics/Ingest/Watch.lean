import AuraEpics.Ingest.History
import AuraEpics.Ingest.Stats

/-!
# Heartbeats of a PV that has gone quiet

An ingest thread tells its tracker of the rows a `ScalarDelta` makes
(`crates/aura-ingest/src/thread.rs`, line 92), and of no others. Neither the thread nor the
tracker looks at what a push returns, so a row that a full `SharedBuffer` refuses counts as
stored for the tracker. The run is watched for one PV: `LatestRow` is the row stored for it
last, if that is a scalar row.

Result: `beats_kept`, a scan that finds the PV active and its interval passed stores a
heartbeat with the latest row's value, if that row came from a `ScalarDelta` the tracker has
an entry for, no scan since has missed the PV, no later `ScalarDelta` was refused and the
heartbeat finds room.
-/

namespace AuraEpics.Ingest

open Numeric Runs AuraEpics.Core AuraEpics.Session AuraEpics.Store

/-- Which pushes of a pass find room in the `SharedBuffer`: that of the row of its `k`-th event,
    and that of a heartbeat of a PV. Other threads push and the store loop takes in between. -/
structure Room where
  event : ℕ → Bool
  beat : Int32 → Bool

/-- The row stored for a PV last, with the instant of its push or of the last push of a
    heartbeat since. It is `kept` if the tracker knows of it, no later `ScalarDelta` was refused
    and every scan since has found the PV active. -/
structure LatestRow where
  row : ScalarRow
  pushedAt : ℕ
  kept : Bool
  deriving DecidableEq, Repr

namespace LatestRow

/-- The tracker carries the row's content: it comes from a `ScalarDelta`, its PV has an entry,
    and its severity is one `record_store` does not change. -/
def Recorded (id : Int32) (event : MonitorEvent) (row : ScalarRow) : Prop :=
  isScalarDelta event = true ∧ Tracked id ∧ max row.severity 0 = row.severity

instance (id : Int32) (event : MonitorEvent) (row : ScalarRow) : Decidable (Recorded id event row) :=
  inferInstanceAs (Decidable (_ ∧ _ ∧ _))

/-- After an event that has handed over `rows`. The tracker has a refused `ScalarDelta` in the
    place of the latest row. -/
def afterEvent (id : Int32) (event : MonitorEvent) (now : ℕ) (room : Bool) (rows : List StoredRow)
    (w : Option LatestRow) : Option LatestRow :=
  match (rows.filter fun r => r.pvId = id).getLast?, room with
  | none, _ => w
  | some _, false => w.map fun x => { x with kept := x.kept && !isScalarDelta event }
  | some (.scalar row), true => some ⟨row, now, decide (Recorded id event row)⟩
  | some (.other _), true => none

/-- After a scan that has handed over `beats`. -/
def afterScan (id : Int32) (active : Bool) (now : ℕ) (beats : List ScalarRow) (w : LatestRow) :
    LatestRow :=
  ⟨w.row, if id ∈ beats.map ScalarRow.pvId then now else w.pushedAt, w.kept && active⟩

/-- What a heartbeat of the PV should carry. -/
def cached (w : LatestRow) : Cached := ⟨w.row.value, w.row.severity, w.row.status, w.pushedAt⟩

end LatestRow

/-- A pass scans: 10 s have passed since the last scan (thread.rs, lines 369-371). -/
def Shard.Scans (s : Shard) (p : Pass) : Prop :=
  s.running = true ∧ 10 * 1000000000 ≤ p.scanNow - s.lastHeartbeatScan

instance (s : Shard) (p : Pass) : Decidable (s.Scans p) := inferInstanceAs (Decidable (_ ∧ _))

section

variable (f : Formats) (id : Int32)

/-- One event, watched: `k` is its place in the pass. -/
def watchEvent (cache : String → Option Int32) (now : ℕ) (room : Room)
    (bw : Batch × Option LatestRow) (t : TaggedEvent) (k : ℕ) : Batch × Option LatestRow :=
  let b := bw.1.handle f cache now t
  let rows := b.handed.drop bw.1.handed.length
  (b, LatestRow.afterEvent id t.event now (room.event k) rows bw.2)

/-- The events of a pass, watched. -/
def watchEvents (sw : Shard × Option LatestRow) (p : Pass) (room : Room) :
    Batch × Option LatestRow :=
  p.events.zipIdx.foldl (fun bw tk => watchEvent f id p.cache p.batchNow room bw tk.1 tk.2)
    (sw.1.freshBatch, sw.2)

/-- One pass, watched. -/
def watchPass (sw : Shard × Option LatestRow) (pr : Pass × Room) : Shard × Option LatestRow :=
  let (p, room) := pr
  if sw.1.running then
    let (s, _, beats) := sw.1.pass f elapsedBefore p
    let w := (watchEvents f id sw p room).2
    (s, if sw.1.Scans p then w.map (LatestRow.afterScan id (p.active id) p.scanNow beats) else w)
  else sw

/-- The heartbeats of a pass that are stored. -/
def Shard.storedBeats (s : Shard) (p : Pass) (room : Room) : List ScalarRow :=
  (s.pass f elapsedBefore p).2.2.filter fun row => room.beat row.pvId

/-- The watch only looks on. -/
theorem watchEvents_batch (sw : Shard × Option LatestRow) (p : Pass) (room : Room) :
    (watchEvents f id sw p room).1 = sw.1.batch f p := by
  unfold watchEvents Shard.batch
  have hfold (b : Batch) (w : Option LatestRow) (ts : List TaggedEvent) (k : ℕ) :
      ((ts.zipIdx k).foldl (fun bw tk => watchEvent f id p.cache p.batchNow room bw tk.1 tk.2)
          (b, w)).1 =
        ts.foldl (Batch.handle f p.cache p.batchNow) b := by
    induction ts generalizing b w k with
    | nil => rfl
    | cons t ts ih =>
      rw [List.zipIdx_cons]
      exact ih _ _ (k + 1)
  exact hfold _ _ _ 0

/-- The tracker agrees with the watch. -/
structure LatestRow.Agrees (t : HeartbeatTracker) (w : Option LatestRow) : Prop where
  sized : t.WellSized
  overridden : t.Overridden
  kept : ∀ x, w = some x → x.kept = true → t.cached id = some x.cached

/-! ## Events -/

/-- The tracker is told of a `ScalarDelta` only. -/
theorem handle_heartbeat (cache : String → Option Int32) (now : ℕ) (b : Batch) {t : TaggedEvent}
    (h : isScalarDelta t.event = false) : (b.handle f cache now t).heartbeat = b.heartbeat := by
  obtain ⟨name, tag, event⟩ := t
  cases event with
  | scalarDelta value time => cases h
  | stringDelta value time | arrayDelta value time =>
    unfold Batch.handle
    dsimp only
    split <;> rfl
  | _ =>
    show (b.slow f cache _).heartbeat = b.heartbeat
    unfold Batch.slow
    dsimp only
    split
    · rfl
    · split <;> rfl

/-- A row that comes from anything else is not kept, and leaves the latest row as it is where
    it is refused. -/
theorem afterEvent_kept {event : MonitorEvent} (h : isScalarDelta event = false) {now : ℕ}
    {room : Bool} {rows : List StoredRow} {w : Option LatestRow} {x : LatestRow}
    (hx : LatestRow.afterEvent id event now room rows w = some x) (hkept : x.kept = true) :
    w = some x := by
  unfold LatestRow.afterEvent at hx
  split at hx
  · exact hx
  · obtain ⟨y, rfl, rfl⟩ := Option.map_eq_some_iff.1 hx
    rw [h, Bool.not_false, Bool.and_true]
  · obtain rfl := Option.some.inj hx
    have hrecorded := of_decide_eq_true hkept
    exact absurd (h.symm.trans hrecorded.1) (by decide)
  · cases hx

theorem afterEvent_scalar (event : MonitorEvent) (now : ℕ) (room : Bool) (row : ScalarRow)
    (w : Option LatestRow) :
    LatestRow.afterEvent id event now room [.scalar row] w =
      if row.pvId = id then
        if room then some ⟨row, now, decide (LatestRow.Recorded id event row)⟩
        else w.map fun x => { x with kept := x.kept && !isScalarDelta event }
      else w := by
  unfold LatestRow.afterEvent
  rw [List.filter_singleton]
  by_cases h : row.pvId = id
  · have hrow : decide ((StoredRow.scalar row).pvId = id) = true := decide_eq_true h
    rw [if_pos h, hrow]
    cases room <;> rfl
  · have hrow : decide ((StoredRow.scalar row).pvId = id) = false := decide_eq_false h
    rw [if_neg h, hrow]
    rfl

/-- The row of a `ScalarDelta` (thread.rs, lines 70-79). -/
def deltaRow (pvId : Int32) (value : Binary64) (time : AlarmTime) : ScalarRow :=
  .fromEpoch time.seconds time.nanos pvId value time.severity.toInt16 time.status.toInt16
    .valueChanged

theorem watchEvent_scalarDelta (cache : String → Option Int32) (now : ℕ) (room : Room) (b : Batch)
    (w : Option LatestRow) (name : String) (tag : Int32) (value : Binary64) (time : AlarmTime)
    (k : ℕ) :
    let bw := watchEvent f id cache now room (b, w) ⟨name, tag, .scalarDelta value time⟩ k
    (pvIdOf cache tag name = none ∧ bw.1.heartbeat = b.heartbeat ∧ bw.2 = w) ∨
    ∃ pvId, pvIdOf cache tag name = some pvId ∧
      bw.1.heartbeat =
        b.heartbeat.recordStore pvId value time.severity.toInt16 time.status.toInt16 now ∧
      bw.2 = LatestRow.afterEvent id (.scalarDelta value time) now (room.event k)
        [.scalar (deltaRow pvId value time)] w := by
  unfold watchEvent Batch.handle
  dsimp only
  cases pvIdOf cache tag name with
  | none =>
    refine .inl ⟨rfl, rfl, ?_⟩
    show LatestRow.afterEvent id _ now _ (b.handed.drop b.handed.length) w = w
    rw [List.drop_length]
    rfl
  | some pvId =>
    refine .inr ⟨pvId, rfl, rfl, ?_⟩
    show LatestRow.afterEvent id _ now _
      ((b.handed ++ [StoredRow.scalar (deltaRow pvId value time)]).drop b.handed.length) w = _
    rw [List.drop_left]

theorem watchEvent_agrees (cache : String → Option Int32) (now : ℕ) (room : Room) {b : Batch}
    {w : Option LatestRow} (h : LatestRow.Agrees id b.heartbeat w) (t : TaggedEvent) (k : ℕ) :
    LatestRow.Agrees id (watchEvent f id cache now room (b, w) t k).1.heartbeat
      (watchEvent f id cache now room (b, w) t k).2 := by
  by_cases hscalar : isScalarDelta t.event = false
  · have hsame : (watchEvent f id cache now room (b, w) t k).1.heartbeat = b.heartbeat :=
      handle_heartbeat f cache now b hscalar
    rw [hsame]
    refine ⟨h.sized, h.overridden, fun x hx hkept => ?_⟩
    exact h.kept x (afterEvent_kept id hscalar hx hkept) hkept
  obtain ⟨name, tag, event⟩ := t
  cases event with
  | scalarDelta value time =>
    obtain ⟨-, hheartbeat, hwatch⟩ | ⟨pvId, -, hheartbeat, hwatch⟩ :=
      watchEvent_scalarDelta f id cache now room b w name tag value time k
    · rw [hheartbeat, hwatch]
      exact h
    rw [hheartbeat, hwatch]
    refine ⟨HeartbeatTracker.recordStore_wellSized _ _ _ _ _ _ h.sized,
      HeartbeatTracker.recordStore_overridden h.overridden _ _ _ _ _, fun x hx hkept => ?_⟩
    rw [afterEvent_scalar] at hx
    rw [HeartbeatTracker.recordStore_cached]
    by_cases hid : pvId = id
    · rw [if_pos (show (deltaRow pvId value time).pvId = id from hid)] at hx
      split_ifs at hx with hroom
      · obtain rfl := Option.some.inj hx
        obtain ⟨-, htracked, hseverity⟩ := of_decide_eq_true hkept
        rw [if_pos ⟨hid, htracked⟩]
        show some (Cached.mk _ (max (deltaRow pvId value time).severity 0) _ _) = _
        rw [hseverity]
        rfl
      · -- the tracker has gone on to a value that was refused
        obtain ⟨y, -, rfl⟩ := Option.map_eq_some_iff.1 hx
        exact absurd (Bool.and_eq_true_iff.1 hkept).2 Bool.false_ne_true
    · rw [if_neg (show ¬(deltaRow pvId value time).pvId = id from hid)] at hx
      rw [if_neg fun h => hid h.1]
      exact h.kept x hx hkept
  | _ => exact absurd rfl hscalar

theorem watchEvents_agrees {s : Shard} {w : Option LatestRow}
    (h : LatestRow.Agrees id s.heartbeat w) (p : Pass) (room : Room) :
    LatestRow.Agrees id (s.batch f p).heartbeat (watchEvents f id (s, w) p room).2 := by
  have hfold (b : Batch) (w : Option LatestRow) (hb : LatestRow.Agrees id b.heartbeat w)
      (tks : List (TaggedEvent × ℕ)) :
      let bw := tks.foldl (fun bw tk => watchEvent f id p.cache p.batchNow room bw tk.1 tk.2) (b, w)
      LatestRow.Agrees id bw.1.heartbeat bw.2 := by
    induction tks generalizing b w with
    | nil => exact hb
    | cons tk tks ih => exact ih _ _ (watchEvent_agrees f id p.cache p.batchNow room hb tk.1 tk.2)
  rw [← watchEvents_batch f id (s, w) p room]
  exact hfold s.freshBatch w h p.events.zipIdx

/-! ## Scans -/

/-- The scan of a pass. -/
def Pass.scan (p : Pass) : Scan := ⟨p.config, p.active, p.scanNow, p.scanPgUs⟩

theorem flushStats_heartbeat (s : Shard) (now : ℕ) :
    (s.flushStats now).heartbeat = s.heartbeat ∧
      (s.flushStats now).lastHeartbeatScan = s.lastHeartbeatScan := by
  unfold Shard.flushStats
  dsimp only
  split_ifs <;> exact ⟨rfl, rfl⟩

theorem Shard.scanHeartbeats_due {s : Shard} {p : Pass}
    (h : 10 * 1000000000 ≤ p.scanNow - s.lastHeartbeatScan) :
    (s.scanHeartbeats elapsedBefore p).1 = s.heartbeat.scanRows elapsedBefore p.scan ∧
      (s.scanHeartbeats elapsedBefore p).2.heartbeat =
        s.heartbeat.step elapsedBefore (.emitHeartbeats p.scan) := by
  unfold Shard.scanHeartbeats
  rw [if_pos h]
  exact ⟨rfl, rfl⟩

theorem Shard.scanHeartbeats_idle {s : Shard} {p : Pass}
    (h : ¬10 * 1000000000 ≤ p.scanNow - s.lastHeartbeatScan) :
    s.scanHeartbeats elapsedBefore p = ([], s) := if_neg h

/-- A pass scans the tracker its events have left. -/
theorem pass_scans {s : Shard} {p : Pass} (h : s.Scans p) :
    (s.pass f elapsedBefore p).2.2 = (s.batch f p).heartbeat.scanRows elapsedBefore p.scan ∧
      (s.pass f elapsedBefore p).1.heartbeat =
        (s.batch f p).heartbeat.step elapsedBefore (.emitHeartbeats p.scan) := by
  obtain ⟨hheartbeat, hlast⟩ := flushStats_heartbeat (s.flush (s.batch f p)) p.statsNow
  have hdue : 10 * 1000000000 ≤ p.scanNow -
      ((s.flush (s.batch f p)).flushStats p.statsNow).lastHeartbeatScan := hlast ▸ h.2
  obtain ⟨hbeats, hscanned⟩ := Shard.scanHeartbeats_due hdue
  rw [hheartbeat] at hbeats hscanned
  unfold Shard.pass
  rw [if_pos h.1]
  exact ⟨hbeats, hscanned⟩

theorem pass_idle {s : Shard} {p : Pass} (hrunning : s.running = true) (h : ¬s.Scans p) :
    (s.pass f elapsedBefore p).2.2 = [] ∧
      (s.pass f elapsedBefore p).1.heartbeat = (s.batch f p).heartbeat := by
  obtain ⟨hheartbeat, hlast⟩ := flushStats_heartbeat (s.flush (s.batch f p)) p.statsNow
  have hdue : ¬10 * 1000000000 ≤ p.scanNow -
      ((s.flush (s.batch f p)).flushStats p.statsNow).lastHeartbeatScan :=
    fun hle => h ⟨hrunning, hlast ▸ hle⟩
  unfold Shard.pass
  rw [if_pos hrunning]
  dsimp only
  rw [Shard.scanHeartbeats_idle hdue]
  exact ⟨rfl, hheartbeat⟩

theorem watchPass_agrees (sw : Shard × Option LatestRow)
    (h : LatestRow.Agrees id sw.1.heartbeat sw.2) (pr : Pass × Room) :
    LatestRow.Agrees id (watchPass f id sw pr).1.heartbeat (watchPass f id sw pr).2 := by
  obtain ⟨s, w⟩ := sw
  obtain ⟨p, room⟩ := pr
  unfold watchPass
  dsimp only
  by_cases hrunning : s.running = true
  · rw [if_pos hrunning]
    have hevents := watchEvents_agrees f id h p room
    dsimp only
    by_cases hscans : s.Scans p
    · obtain ⟨hbeats, hheartbeat⟩ := pass_scans f hscans
      rw [if_pos hscans, hbeats, hheartbeat]
      refine ⟨HeartbeatTracker.step_wellSized _ _ _ hevents.sized, ?_, fun y hy hkept => ?_⟩
      · exact HeartbeatTracker.emitHeartbeats_overridden _ _ _ _ _ hevents.overridden
      obtain ⟨x, hx, rfl⟩ := Option.map_eq_some_iff.1 hy
      obtain ⟨hkept, hactive⟩ := Bool.and_eq_true_iff.1 hkept
      rw [HeartbeatTracker.cached_after_active _ hevents.sized hactive (hevents.kept x hx hkept)]
      unfold LatestRow.afterScan LatestRow.cached
      split_ifs <;> rfl
    · rw [if_neg hscans, (pass_idle f hrunning hscans).2]
      exact hevents
  · rw [if_neg hrunning]
    exact h

/-! ## Main theorem -/

/-- **Main theorem.** In every run, a scan that finds the PV active and finds its interval
    passed since its last row stores a heartbeat with the value, severity and status of the
    latest row, if that row is kept and the heartbeat finds room. -/
theorem beats_kept (pvNames : List String) (defaultHs : Binary32) (now : ℕ)
    (ps : List (Pass × Room)) (p : Pass) (room : Room) :
    let sw := run (watchPass f id) (Shard.start pvNames defaultHs now, none) ps
    let hs := ((sw.1.batch f p).heartbeat.reload p.scanNow p.config).effective id
    sw.1.Scans p → p.active id = true → hs.gtZero = true →
    ∀ w, (watchEvents f id sw p room).2 = some w → w.kept = true →
      elapsedBefore (p.scanNow - w.pushedAt) hs = false → room.beat id = true →
      HeartbeatTracker.heartbeatRow p.scanPgUs id w.cached ∈ sw.1.storedBeats f p room := by
  intro sw hs hscans hactive hpos w hw hkept helapsed hroom
  have hstart : LatestRow.Agrees id (Shard.start pvNames defaultHs now).heartbeat none :=
    ⟨HeartbeatTracker.new_wellSized defaultHs, HeartbeatTracker.new_overridden defaultHs,
      fun _ hx => by cases hx⟩
  have hagrees : LatestRow.Agrees id sw.1.heartbeat sw.2 :=
    (alongStates_of_step (I := fun sw => LatestRow.Agrees id sw.1.heartbeat sw.2)
      (fun sw pr h => watchPass_agrees f id sw h pr) hstart ps).last
  have hevents := watchEvents_agrees f id hagrees p room
  refine List.mem_filter.2 ⟨?_, hroom⟩
  rw [(pass_scans f hscans).1]
  refine (HeartbeatTracker.mem_emitHeartbeats _ _ _ _ _ _ hevents.sized).2 ⟨?_, w.cached, ?_, ?_, rfl⟩
  · exact HeartbeatTracker.isDisabled_of_positive
      (HeartbeatTracker.reload_overridden hevents.overridden _ _) hpos
  · exact hevents.kept w hw hkept
  · exact ⟨Binary32.leZero_of_gtZero hpos, hactive, helapsed⟩

end

/-- A pass that gets events of the PV 7, and scans if `now` is 10 s after the last scan. -/
def passOf (events : List MonitorEvent) (now : ℕ) : Pass where
  events := events.map fun e => ⟨"TEMP", 7, e⟩
  cache := fun _ => none
  batchNow := now
  statsNow := now
  scanNow := now
  scanPgUs := 0
  active := fun _ => true
  config := ⟨0, []⟩
  shutdown := false

/-- A buffer that takes every row. -/
def roomy : Room := ⟨fun _ => true, fun _ => true⟩

/-- A PV that has sent its initial value only gets no heartbeat a minute later, with an
    interval of 10 s. -/
theorem initial_value_never_beats :
    let first := passOf [.value (.struct [("value", .scalar (.double .one))])] 0
    let later := passOf [] (60 * 10 ^ 9)
    let sw := run (watchPass constantFormats 7) (Shard.start ["TEMP"] ⟨0x41200000⟩ 0, none)
      [(first, roomy)]
    let hs := ((sw.1.batch constantFormats later).heartbeat.reload later.scanNow
      later.config).effective 7
    sw.1.Scans later ∧ hs.gtZero = true ∧
      (watchEvents constantFormats 7 sw later roomy).2.map (fun w => (w.row.value, w.pushedAt)) =
        some (.one, 0) ∧
      exactlyBefore (later.scanNow - 0) hs = false ∧ elapsedBefore (later.scanNow - 0) hs = false ∧
      sw.1.storedBeats constantFormats later roomy = [] := by
  refine ⟨?_, ?_, ?_, ?_, ?_, ?_⟩ <;> decide +kernel

theorem beats_kept_delta :
    let first := passOf [.scalarDelta .one ⟨0, 0, 0, 0⟩] 0
    let later := passOf [] (60 * 10 ^ 9)
    let sw := run (watchPass constantFormats 7) (Shard.start ["TEMP"] ⟨0x41200000⟩ 0, none)
      [(first, roomy)]
    HeartbeatTracker.heartbeatRow 0 7 ⟨.one, 0, 0, 0⟩ ∈
      sw.1.storedBeats constantFormats later roomy := by
  intro first later sw
  exact beats_kept constantFormats 7 ["TEMP"] ⟨0x41200000⟩ 0 [(first, roomy)] later roomy
    (by decide +kernel) rfl (by decide +kernel) ⟨deltaRow 7 .one ⟨0, 0, 0, 0⟩, 0, true⟩
    (by decide +kernel) rfl (by decide +kernel) rfl

end AuraEpics.Ingest
