import AuraEpics.Ingest.Engine
import AuraEpics.Ingest.Heartbeat
import AuraEpics.Store.Routing

/-!
# Ingest thread

Model of `run_ingest_shard` (`crates/aura-ingest/src/thread.rs`, lines 16-390): one pass of
its loop drains a batch from the bus, hands a row to the `SharedBuffer` for every event it
can place, adds its counters to the metrics, and now and then publishes the per-PV counts
and scans for heartbeats.

What a push returns is ignored by the thread, so the rows of a pass are a list and the
buffer is not part of its state. `IngestMetrics` are shared by all shards; the counters here
are one shard's part of them. The clock is read once for each check and the reset that
follows it, a `Mutex` is never poisoned, and the count of idle passes, which decides between
`yield_now` and `sleep`, is left out.
-/

namespace AuraEpics.Ingest

open Numeric AuraEpics.Core AuraEpics.Types AuraEpics.Session AuraEpics.Store

/-! ## State -/

/-- An entry of `local_pv_stats` (lines 11 and 34): events, last value and severity. -/
structure PvStat where
  count : ℕ
  value : Binary64
  severity : Int16
  deriving DecidableEq, Repr

/-- `PvStatsMap` (line 11). -/
abbrev PvStatsMap := List (Int32 × PvStat)

/-- The counters of `IngestMetrics` (metrics.rs, lines 14-30) that ingest threads add to. -/
structure IngestMetrics where
  eventsReceived : ℕ := 0
  eventsPublished : ℕ := 0
  eventsSkipped : ℕ := 0
  fastPath : ℕ := 0
  slowPath : ℕ := 0
  eventsDroppedUnknownPv : ℕ := 0
  deriving DecidableEq, Repr

/-- The variables of the thread (lines 28-40) with what it shares: metrics, metadata and
    statistics. `running` is false once it has returned. -/
structure Shard where
  engine : IngestEngine
  localPvStats : List PvStat
  lastStatsFlush : ℕ
  heartbeat : HeartbeatTracker
  lastHeartbeatScan : ℕ
  metrics : IngestMetrics
  metaStore : List (String × NormativeType)
  statsSink : List PvStatsMap
  running : Bool

/-- What one pass finds: the events drained from the bus, the PV cache at its start, the
    clock, and at the heartbeat scan the active ids and the configuration. -/
structure Pass where
  events : List TaggedEvent
  cache : String → Option Int32
  batchNow : ℕ
  statsNow : ℕ
  scanNow : ℕ
  scanPgUs : Int64
  active : Int32 → Bool
  config : HeartbeatConfig
  shutdown : Bool

/-- The variables of one pass (lines 43-47), what it changes, and the rows handed to the
    `SharedBuffer` so far. -/
structure Batch where
  engine : IngestEngine
  localPvStats : List PvStat
  heartbeat : HeartbeatTracker
  localEvents : ℕ
  localPublished : ℕ
  localFast : ℕ
  localSlow : ℕ
  localUnknownPv : ℕ
  handed : List StoredRow

/-! ## One event -/

/-- The id of the PV: the tag's, else the cache's. -/
def pvIdOf (cache : String → Option Int32) (tag : Int32) (name : String) : Option Int32 :=
  if 0 < tag then some tag else cache name

/-- `local_pv_stats` after a scalar of `pv_id` (lines 82-91). -/
def recordStat (stats : List PvStat) (pvId : Int32) (value : Binary64) (severity : Int16) :
    List PvStat :=
  if asUsize pvId ≤ 1000000 then
    growModify ⟨0, .zero, 0⟩ (asUsize pvId) (fun e => ⟨e.count + 1, value, severity⟩) stats
  else stats

namespace Batch

/-- The end of a fast path (lines 93-96, 126-129 and 165-167). -/
def fast (b : Batch) (row : StoredRow) : Batch := { b with
  handed := b.handed ++ [row]
  localEvents := b.localEvents + 1
  localPublished := b.localPublished + 1
  localFast := b.localFast + 1 }

/-- `local_unknown_pv += 1`. -/
def unknownPv (b : Batch) : Batch := { b with localUnknownPv := b.localUnknownPv + 1 }

/-- The slow path (lines 170-315). `continue` skips the count of an aggregate. -/
def slow (f : Formats) (cache : String → Option Int32) (b : Batch) (t : TaggedEvent) : Batch :=
  let b := { b with localSlow := b.localSlow + 1 }
  match b.engine.processEvent t.pvName t.event with
  | (none, engine) => { b with engine := engine }
  | (some update, engine) =>
    let b := { b with engine := engine }
    match pvIdOf cache t.pvId update.pvName with
    | none => b.unknownPv
    | some pvId =>
      let counted := match update.data with
        | .ntAggregate _ => if (f.toValue update.data).toOption.isSome then 0 else 1
        | _ => 1
      { b with
        handed := b.handed ++ (slowPathRow f update pvId).toList
        localPublished := b.localPublished + counted }

/-- The body of the loop over `event_buf` (lines 55-316). -/
def handle (f : Formats) (cache : String → Option Int32) (now : ℕ) (b : Batch) (t : TaggedEvent) :
    Batch :=
  match t.event with
  | .scalarDelta value time =>
    match pvIdOf cache t.pvId t.pvName with
    | none => b.unknownPv
    | some pvId =>
      let severity := time.severity.toInt16
      let status := time.status.toInt16
      let b := { b with
        localPvStats := recordStat b.localPvStats pvId value severity
        heartbeat := b.heartbeat.recordStore pvId value severity status now }
      b.fast (.scalar (.fromEpoch time.seconds time.nanos pvId value severity status .valueChanged))
  | .stringDelta value time =>
    match pvIdOf cache t.pvId t.pvName with
    | none => b.unknownPv
    | some pvId =>
      b.fast (.other (.string (.fromEpoch time.seconds time.nanos pvId value time.severity.toInt16
        time.status.toInt16)))
  | .arrayDelta values time =>
    match pvIdOf cache t.pvId t.pvName with
    | none => b.unknownPv
    | some pvId =>
      let at' := (DateTime.fromTimestamp time.seconds.toInt time.nanos.toUInt32.toNat).getD .epoch
      b.fast (.other (.array ⟨at', pvId, time.severity.toInt16, time.status.toInt16,
        .numeric values⟩))
  | _ => b.slow f cache t

end Batch

/-! ## One pass -/

namespace Shard

/-- The start of the thread (lines 28-40). -/
def start (pvNames : List String) (defaultHeartbeatS : Binary32) (now : ℕ) : Shard where
  engine := pvNames.foldl IngestEngine.registerPv .new
  localPvStats := []
  lastStatsFlush := now
  heartbeat := .new defaultHeartbeatS
  lastHeartbeatScan := now
  metrics := {}
  metaStore := []
  statsSink := []
  running := true

/-- The start of a pass (lines 43-47). -/
def freshBatch (s : Shard) : Batch := ⟨s.engine, s.localPvStats, s.heartbeat, 0, 0, 0, 0, 0, []⟩

/-- The batch of a pass after its events. -/
def batch (f : Formats) (s : Shard) (p : Pass) : Batch :=
  p.events.foldl (Batch.handle f p.cache p.batchNow) s.freshBatch

/-- The counters and the metadata of a batch, flushed (lines 319-345). -/
def flush (s : Shard) (b : Batch) : Shard :=
  let e := b.engine
  { s with
    engine := ⟨e.converters, [], 0, 0, 0⟩
    localPvStats := b.localPvStats
    heartbeat := b.heartbeat
    metaStore := s.metaStore ++ e.pendingMetadata
    metrics :=
      { eventsReceived := s.metrics.eventsReceived + (e.totalEvents + b.localEvents)
        eventsPublished := s.metrics.eventsPublished + (e.totalPublished + b.localPublished)
        fastPath := s.metrics.fastPath + b.localFast
        slowPath := s.metrics.slowPath + b.localSlow
        eventsSkipped := s.metrics.eventsSkipped + e.totalSkipped
        eventsDroppedUnknownPv := s.metrics.eventsDroppedUnknownPv + b.localUnknownPv } }

/-- The snapshot of the per-PV counts (lines 348-353). -/
def snapshot (stats : List PvStat) : PvStatsMap :=
  stats.zipIdx.filterMap fun p => if 0 < p.1.count then some (.ofNat p.2, p.1) else none

/-- The statistics, published when 30 s have passed (lines 347-363). -/
def flushStats (s : Shard) (now : ℕ) : Shard :=
  if 30 * 1000000000 < now - s.lastStatsFlush then
    let snapshot := snapshot s.localPvStats
    if snapshot = [] then { s with lastStatsFlush := now }
    else { s with
      statsSink := s.statsSink ++ [snapshot]
      localPvStats := s.localPvStats.map fun e => { e with count := 0 }
      lastStatsFlush := now }
  else s

/-- The heartbeat scan, when 10 s have passed (lines 369-382), with the rows it hands over. -/
def scanHeartbeats (before : ℕ → Binary32 → Bool) (s : Shard) (p : Pass) :
    List ScalarRow × Shard :=
  if 10 * 1000000000 ≤ p.scanNow - s.lastHeartbeatScan then
    let (count, rows, heartbeat) :=
      s.heartbeat.emitHeartbeats before p.config p.active p.scanNow p.scanPgUs
    (rows, { s with
      heartbeat := heartbeat
      metrics := { s.metrics with eventsPublished := s.metrics.eventsPublished + count }
      lastHeartbeatScan := p.scanNow })
  else ([], s)

/-- One pass of the loop (lines 42-402): the shard, the rows of its events and those of its
    heartbeats. -/
def pass (f : Formats) (before : ℕ → Binary32 → Bool) (s : Shard) (p : Pass) :
    Shard × List StoredRow × List ScalarRow :=
  if s.running then
    let b := s.batch f p
    let (beats, s) := scanHeartbeats before ((s.flush b).flushStats p.statsNow) p
    let idle := b.localEvents = 0 ∧ b.localSlow = 0
    ({ s with running := !(idle ∧ p.shutdown) }, b.handed, beats)
  else (s, [], [])

theorem flushStats_keeps (s : Shard) (now : ℕ) :
    (s.flushStats now).engine = s.engine ∧ (s.flushStats now).metrics = s.metrics := by
  unfold flushStats
  dsimp only
  split_ifs <;> exact ⟨rfl, rfl⟩

/-- A heartbeat is counted as published. -/
theorem scanHeartbeats_counts (before : ℕ → Binary32 → Bool) (s : Shard) (p : Pass) :
    (s.scanHeartbeats before p).2.engine = s.engine ∧
      (s.scanHeartbeats before p).2.metrics = { s.metrics with
        eventsPublished := s.metrics.eventsPublished + (s.scanHeartbeats before p).1.length } := by
  unfold scanHeartbeats
  dsimp only
  split_ifs
  · rw [HeartbeatTracker.emitHeartbeats_count]
    exact ⟨rfl, rfl⟩
  · exact ⟨rfl, rfl⟩

/-- After a pass the engine has the converters of the batch and its counters are flushed. -/
theorem pass_engine (f : Formats) (before : ℕ → Binary32 → Bool) (s : Shard) (p : Pass) :
    (s.pass f before p).1.engine =
      if s.running then ⟨(s.batch f p).engine.converters, [], 0, 0, 0⟩ else s.engine := by
  unfold pass
  split_ifs
  · dsimp only
    rw [(scanHeartbeats_counts before _ p).1, (flushStats_keeps _ _).1]
    rfl
  · rfl

end Shard

/-! ## What becomes of an event -/

/-- The events of the fast path. -/
def isDelta : MonitorEvent → Bool
  | .scalarDelta _ _ | .stringDelta _ _ | .arrayDelta _ _ => true
  | _ => false

/-- A converted value is stored as one row. -/
theorem slowPathRow_converted (f : Formats) {event : MonitorEvent} {nt : NormativeType}
    (h : converted event = some nt) (name : String) (pvId : Int32) :
    (∃ row, slowPathRow f ⟨name, none, nt⟩ pvId = some row) ∧ ∀ a, nt ≠ .ntAggregate a := by
  cases event with
  | value v =>
    obtain ⟨s, a, t, rfl⟩ | ⟨e, rfl⟩ | ⟨v, a, t, rfl⟩ := toNormativeFromValue_cases h
    · exact ⟨⟨_, rfl⟩, by simp⟩
    · exact ⟨⟨_, rfl⟩, by simp⟩
    · exact ⟨⟨_, rfl⟩, by simp⟩
  | _ => cases h

namespace Batch

variable (f : Formats) (cache : String → Option Int32) (now : ℕ)

/-- An event of the fast path becomes a row if its PV has an id. -/
theorem handle_delta (b : Batch) {t : TaggedEvent} (h : isDelta t.event) :
    (pvIdOf cache t.pvId t.pvName = none ∧ b.handle f cache now t = b.unknownPv) ∨
    ∃ pvId stats heartbeat row, pvIdOf cache t.pvId t.pvName = some pvId ∧
      b.handle f cache now t =
        { b with localPvStats := stats, heartbeat := heartbeat }.fast row := by
  obtain ⟨name, id, event⟩ := t
  unfold handle
  dsimp only
  cases hid : pvIdOf cache id name with
  | none =>
    cases event with
    | scalarDelta v a | stringDelta v a | arrayDelta v a => exact .inl ⟨rfl, rfl⟩
    | _ => cases h
  | some pvId =>
    cases event with
    | scalarDelta v a | stringDelta v a | arrayDelta v a =>
      exact .inr ⟨pvId, _, _, _, rfl, rfl⟩
    | _ => cases h

theorem handle_slow (b : Batch) {t : TaggedEvent} (h : isDelta t.event = false) :
    b.handle f cache now t = b.slow f cache t := by
  obtain ⟨name, id, event⟩ := t
  cases event with
  | scalarDelta v a | stringDelta v a | arrayDelta v a => cases h
  | _ => rfl

/-- Any other event is skipped, or is converted and becomes a row if its PV has an id. -/
theorem slow_cases (b : Batch) (hnamed : b.engine.Named) (t : TaggedEvent) :
    ((¬b.engine.Registered t.pvName ∨ converted t.event = none) ∧
      ∃ e, b.engine.Skips e ∧
        b.slow f cache t = { b with localSlow := b.localSlow + 1, engine := e }) ∨
    ∃ nt e, b.engine.Registered t.pvName ∧ converted t.event = some nt ∧ b.engine.Publishes e ∧
      ((pvIdOf cache t.pvId t.pvName = none ∧
        b.slow f cache t = { b with localSlow := b.localSlow + 1, engine := e }.unknownPv) ∨
      ∃ pvId row, pvIdOf cache t.pvId t.pvName = some pvId ∧
        slowPathRow f ⟨t.pvName, none, nt⟩ pvId = some row ∧
        b.slow f cache t = { b with
          localSlow := b.localSlow + 1
          engine := e
          handed := b.handed ++ [row]
          localPublished := b.localPublished + 1 }) := by
  unfold slow
  dsimp only
  obtain ⟨hskip, e, he, hskips⟩ | ⟨nt, hreg, hnt, e, he, hpublishes⟩ :=
    b.engine.processEvent_cases hnamed t.pvName t.event
  · rw [he]
    exact .inl ⟨hskip, e, hskips, rfl⟩
  · rw [he]
    dsimp only
    refine .inr ⟨nt, e, hreg, hnt, hpublishes, ?_⟩
    cases hid : pvIdOf cache t.pvId t.pvName with
    | none => exact .inl ⟨rfl, rfl⟩
    | some pvId =>
      obtain ⟨⟨row, hrow⟩, haggregate⟩ := slowPathRow_converted f hnt t.pvName pvId
      refine .inr ⟨pvId, row, rfl, hrow, ?_⟩
      dsimp only
      rw [hrow]
      cases nt with
      | ntAggregate a => exact absurd rfl (haggregate a)
      | _ => rfl

theorem handle_samePvs (b : Batch) (hnamed : b.engine.Named) (t : TaggedEvent) :
    IngestEngine.SamePvs b.engine (b.handle f cache now t).engine := by
  cases hdelta : isDelta t.event with
  | true =>
    obtain ⟨-, hhandle⟩ | ⟨pvId, stats, heartbeat, row, -, hhandle⟩ :=
      b.handle_delta f cache now hdelta
    · rw [hhandle]
      exact .rfl
    · rw [hhandle]
      exact .rfl
  | false =>
    rw [b.handle_slow f cache now hdelta]
    obtain ⟨-, e, hskips, hslow⟩ |
      ⟨nt, e, -, -, hpublishes, ⟨-, hslow⟩ | ⟨pvId, row, -, -, hslow⟩⟩ :=
      b.slow_cases f cache hnamed t
    · rw [hslow]
      exact hskips.same
    · rw [hslow]
      exact hpublishes.same
    · rw [hslow]
      exact hpublishes.same

/-- The PVs of a shard stay registered under their names. -/
theorem foldl_handle_samePvs (b : Batch) (hnamed : b.engine.Named) (ts : List TaggedEvent) :
    IngestEngine.SamePvs b.engine (ts.foldl (handle f cache now) b).engine := by
  induction ts generalizing b with
  | nil => exact .rfl
  | cons t ts ih =>
    have hsame := b.handle_samePvs f cache now hnamed t
    exact hsame.trans (ih _ (hsame.named hnamed))

end Batch

end AuraEpics.Ingest
