import AuraEpics.Ingest.Thread
import AuraEpics.Lib.Runs

/-!
# Ingest metrics

The counters of an ingest thread (`crates/aura-ingest/src/thread.rs`, `engine.rs` and
`metrics.rs`) against what the thread has done: the events it drained, the rows it handed to
the `SharedBuffer` and the heartbeats among them.

An event on the fast path is counted once, or not at all when its PV is unknown. An event
that is converted on the slow path is counted as published by the engine and again by the
thread, and stays published when its PV turns out to be unknown.

Result: `metrics_conserved_iff`, the counters balance in every state of a run exactly if all
its events are on the fast path with a known PV, or are skipped.
-/

namespace AuraEpics.Ingest

open Numeric AuraEpics.Core AuraEpics.Types AuraEpics.Session AuraEpics.Store Runs

/-! ## Outcomes -/

/-- What becomes of an event. -/
inductive Outcome where
  | fast | fastUnknown | skipped | slow | slowUnknown
  deriving DecidableEq, Repr

/-- What becomes of an event of a PV that has a converter if `registered`. -/
def outcome (cache : String → Option Int32) (registered : Prop) [Decidable registered]
    (t : TaggedEvent) : Outcome :=
  match t.event with
  | .scalarDelta _ _ | .stringDelta _ _ | .arrayDelta _ _ =>
    if (pvIdOf cache t.pvId t.pvName).isSome then .fast else .fastUnknown
  | event =>
    if registered ∧ (converted event).isSome then
      if (pvIdOf cache t.pvId t.pvName).isSome then .slow else .slowUnknown
    else .skipped

theorem outcome_delta {cache : String → Option Int32} {registered : Prop} [Decidable registered]
    {t : TaggedEvent} (h : isDelta t.event) :
    outcome cache registered t =
      if (pvIdOf cache t.pvId t.pvName).isSome then .fast else .fastUnknown := by
  obtain ⟨name, id, event⟩ := t
  cases event with
  | scalarDelta v a | stringDelta v a | arrayDelta v a => rfl
  | _ => cases h

theorem outcome_slow {cache : String → Option Int32} {registered : Prop} [Decidable registered]
    {t : TaggedEvent} (h : isDelta t.event = false) :
    outcome cache registered t =
      if registered ∧ (converted t.event).isSome then
        if (pvIdOf cache t.pvId t.pvName).isSome then .slow else .slowUnknown
      else .skipped := by
  obtain ⟨name, id, event⟩ := t
  cases event with
  | scalarDelta v a | stringDelta v a | arrayDelta v a => cases h
  | _ => rfl

/-- Counters and rows handed over. -/
structure Tally where
  received : ℕ
  published : ℕ
  skipped : ℕ
  unknown : ℕ
  handed : ℕ
  deriving DecidableEq, Repr

namespace Tally

/-- No event yet. -/
def zero : Tally := ⟨0, 0, 0, 0, 0⟩

/-- Both together. -/
def add (x y : Tally) : Tally :=
  ⟨x.received + y.received, x.published + y.published, x.skipped + y.skipped, x.unknown + y.unknown,
    x.handed + y.handed⟩

/-- The counters account for `n` events and all rows. -/
def Exact (n : ℕ) (x : Tally) : Prop :=
  x.received = n ∧ x.received = x.published + x.skipped + x.unknown ∧ x.published = x.handed

/-- The counters err on these sides only. -/
def OneSided (n : ℕ) (x : Tally) : Prop :=
  x.received ≤ n ∧ x.received ≤ x.published + x.skipped + x.unknown ∧ x.handed ≤ x.published

theorem add_assoc (x y z : Tally) : (x.add y).add z = x.add (y.add z) := by
  simp only [add, Nat.add_assoc]

theorem OneSided.add {n m : ℕ} {x y : Tally} (hx : x.OneSided n) (hy : y.OneSided m) :
    (x.add y).OneSided (n + m) := by
  obtain ⟨hx1, hx2, hx3⟩ := hx
  obtain ⟨hy1, hy2, hy3⟩ := hy
  unfold Tally.add OneSided
  dsimp only
  omega

/-- Errors do not cancel. -/
theorem exact_add_iff {n m : ℕ} {x y : Tally} (hx : x.OneSided n) (hy : y.OneSided m) :
    (x.add y).Exact (n + m) ↔ x.Exact n ∧ y.Exact m := by
  obtain ⟨hx1, hx2, hx3⟩ := hx
  obtain ⟨hy1, hy2, hy3⟩ := hy
  unfold Tally.add Exact
  dsimp only
  omega

end Tally

/-- What an event adds to the counters and rows. -/
def Outcome.tally : Outcome → Tally
  | fast => ⟨1, 1, 0, 0, 1⟩
  | fastUnknown => ⟨0, 0, 0, 1, 0⟩
  | skipped => ⟨1, 0, 1, 0, 0⟩
  | slow => ⟨1, 2, 0, 0, 1⟩
  | slowUnknown => ⟨1, 1, 0, 1, 0⟩

/-- The event is counted as what becomes of it: on the fast path its PV has an id, and on the
    slow path it is not converted. -/
def Accounted (cache : String → Option Int32) (registered : Prop) (t : TaggedEvent) : Prop :=
  if isDelta t.event then (pvIdOf cache t.pvId t.pvName).isSome = true
  else ¬(registered ∧ (converted t.event).isSome)

theorem Outcome.oneSided (o : Outcome) : o.tally.OneSided 1 := by
  unfold Tally.OneSided
  cases o <;> decide

theorem Outcome.exact_iff (o : Outcome) : o.tally.Exact 1 ↔ o = fast ∨ o = skipped := by
  unfold Tally.Exact
  cases o <;> decide

theorem outcome_exact_iff {cache : String → Option Int32} {registered : Prop}
    [Decidable registered] {t : TaggedEvent} :
    (outcome cache registered t).tally.Exact 1 ↔ Accounted cache registered t := by
  rw [Outcome.exact_iff]
  unfold Accounted
  cases hdelta : isDelta t.event with
  | true =>
    rw [outcome_delta hdelta, if_pos rfl]
    by_cases hid : (pvIdOf cache t.pvId t.pvName).isSome
    · rw [if_pos hid]
      exact iff_of_true (.inl rfl) hid
    · rw [if_neg hid]
      exact iff_of_false (by decide) hid
  | false =>
    rw [outcome_slow hdelta, if_neg Bool.false_ne_true]
    by_cases hconverted : registered ∧ (converted t.event).isSome
    · rw [if_pos hconverted]
      refine iff_of_false ?_ (not_not_intro hconverted)
      split_ifs <;> decide
    · rw [if_neg hconverted]
      exact iff_of_true (.inr rfl) hconverted

/-! ## One event -/

namespace Batch

/-- The counters of a batch with the rows it has handed over. -/
def tally (b : Batch) : Tally :=
  ⟨b.engine.totalEvents + b.localEvents, b.engine.totalPublished + b.localPublished,
    b.engine.totalSkipped, b.localUnknownPv, b.handed.length⟩

variable (f : Formats) (cache : String → Option Int32) (now : ℕ)

theorem tally_fast (b : Batch) (row : StoredRow) :
    (b.fast row).tally = b.tally.add Outcome.fast.tally := by
  simp only [fast, tally, Tally.add, Outcome.tally, List.length_append, List.length_singleton,
    Nat.add_assoc, Nat.add_zero]

theorem tally_unknownPv (b : Batch) : b.unknownPv.tally = b.tally.add Outcome.fastUnknown.tally := by
  simp only [unknownPv, tally, Tally.add, Outcome.tally, Nat.add_zero]

/-- An event adds its outcome to the counters. -/
theorem handle_tally (b : Batch) (hnamed : b.engine.Named) (t : TaggedEvent) :
    (b.handle f cache now t).tally =
      b.tally.add (outcome cache (b.engine.Registered t.pvName) t).tally := by
  cases hdelta : isDelta t.event with
  | true =>
    rw [outcome_delta hdelta]
    obtain ⟨hid, hhandle⟩ | ⟨pvId, stats, heartbeat, row, hid, hhandle⟩ :=
      b.handle_delta f cache now hdelta
    · rw [hid, hhandle]
      exact b.tally_unknownPv
    · rw [hid, hhandle]
      exact tally_fast _ row
  | false =>
    rw [outcome_slow hdelta, b.handle_slow f cache now hdelta]
    obtain ⟨hskip, e, hskips, hslow⟩ |
      ⟨nt, e, hreg, hnt, hpublishes, ⟨hid, hslow⟩ | ⟨pvId, row, hid, -, hslow⟩⟩ :=
      b.slow_cases f cache hnamed t
    · have hnot : ¬(b.engine.Registered t.pvName ∧ (converted t.event).isSome) := by
        rintro ⟨hreg, hsome⟩
        obtain hreg' | hnone := hskip
        · exact hreg' hreg
        · rw [hnone] at hsome
          cases hsome
      rw [if_neg hnot, hslow]
      simp only [tally, Tally.add, Outcome.tally, hskips.events, hskips.published, hskips.skipped,
        Nat.add_zero, Nat.add_right_comm]
    · rw [if_pos ⟨hreg, by rw [hnt]; rfl⟩, hid, hslow]
      simp only [tally, unknownPv, Tally.add, Outcome.tally, hpublishes.events,
        hpublishes.published, hpublishes.skipped, Option.isSome_none, Bool.false_eq_true, if_false,
        Nat.add_zero, Nat.add_right_comm]
    · rw [if_pos ⟨hreg, by rw [hnt]; rfl⟩, hid, hslow]
      simp only [tally, Tally.add, Outcome.tally, hpublishes.events, hpublishes.published,
        hpublishes.skipped, Option.isSome_some, if_true, List.length_append, List.length_singleton,
        Nat.add_zero, Tally.mk.injEq, and_true]
      omega

/-- The counters of the batch after all events. -/
theorem foldl_handle_tally (b : Batch) (hnamed : b.engine.Named) (ts : List TaggedEvent) :
    ∃ x : Tally, (ts.foldl (handle f cache now) b).tally = b.tally.add x ∧
      x.OneSided ts.length ∧
      (x.Exact ts.length ↔ ∀ t ∈ ts, Accounted cache (b.engine.Registered t.pvName) t) := by
  induction ts generalizing b with
  | nil => exact ⟨.zero, rfl, ⟨le_rfl, le_rfl, le_rfl⟩, by simp [Tally.Exact, Tally.zero]⟩
  | cons t ts ih =>
    have htally := b.handle_tally f cache now hnamed t
    have hsame := b.handle_samePvs f cache now hnamed t
    obtain ⟨x, hx, hsided, hexact⟩ := ih (b.handle f cache now t) (hsame.named hnamed)
    have ho := (outcome cache (b.engine.Registered t.pvName) t).oneSided
    refine ⟨(outcome cache (b.engine.Registered t.pvName) t).tally.add x, ?_, ?_, ?_⟩
    · show (ts.foldl (handle f cache now) (b.handle f cache now t)).tally = _
      rw [hx, htally, Tally.add_assoc]
    · rw [List.length_cons, Nat.add_comm]
      exact ho.add hsided
    · rw [List.length_cons, Nat.add_comm, Tally.exact_add_iff ho hsided, outcome_exact_iff, hexact,
        List.forall_mem_cons]
      refine and_congr_right fun _ => forall₂_congr fun t' _ => ?_
      rw [hsame.registered]

end Batch

/-! ## Runs -/

/-- A shard with the history of its thread: the events drained, the rows handed over for
    events and for heartbeats. -/
structure Counted where
  shard : Shard
  drained : ℕ
  handed : ℕ
  heartbeats : ℕ

namespace Counted

variable (f : Formats) (before : ℕ → Binary32 → Bool)

/-- A thread at its start. -/
def start (pvNames : List String) (defaultHeartbeatS : Binary32) (now : ℕ) : Counted :=
  ⟨.start pvNames defaultHeartbeatS now, 0, 0, 0⟩

/-- One pass; a thread that has returned drains nothing. -/
def step (s : Counted) (p : Pass) : Counted :=
  let (shard, rows, beats) := s.shard.pass f before p
  { shard := shard
    drained := s.drained + if s.shard.running then p.events.length else 0
    handed := s.handed + rows.length
    heartbeats := s.heartbeats + beats.length }

/-- The counters balance: received are the events drained, each of them published, skipped
    or dropped for its unknown PV, and published are the rows handed over. Heartbeats are
    published without being received. -/
def Conserved (s : Counted) : Prop :=
  s.shard.metrics.eventsReceived = s.drained ∧
  s.shard.metrics.eventsReceived + s.heartbeats =
    s.shard.metrics.eventsPublished + s.shard.metrics.eventsSkipped +
      s.shard.metrics.eventsDroppedUnknownPv ∧
  s.shard.metrics.eventsPublished = s.handed + s.heartbeats

/-- The pass meets only events that are counted as what becomes of them. -/
def Clean (pvNames : List String) (s : Counted) (p : Pass) : Prop :=
  s.shard.running → ∀ t ∈ p.events, Accounted p.cache (t.pvName ∈ pvNames) t

/-- The shard's counters are `x`, apart from the heartbeats, and are flushed between
    passes. -/
structure Matches (pvNames : List String) (s : Counted) (x : Tally) : Prop where
  received : s.shard.metrics.eventsReceived = x.received
  published : s.shard.metrics.eventsPublished = x.published + s.heartbeats
  skipped : s.shard.metrics.eventsSkipped = x.skipped
  unknown : s.shard.metrics.eventsDroppedUnknownPv = x.unknown
  handed : s.handed = x.handed
  sided : x.OneSided s.drained
  named : s.shard.engine.Named
  registered : ∀ name, s.shard.engine.Registered name ↔ name ∈ pvNames
  flushed : s.shard.engine.totalEvents = 0 ∧ s.shard.engine.totalPublished = 0 ∧
    s.shard.engine.totalSkipped = 0

theorem matches_start (pvNames : List String) (defaultHeartbeatS : Binary32) (now : ℕ) :
    (start pvNames defaultHeartbeatS now).Matches pvNames .zero where
  received := rfl
  published := rfl
  skipped := rfl
  unknown := rfl
  handed := rfl
  sided := ⟨le_rfl, le_rfl, le_rfl⟩
  named := IngestEngine.foldl_registerPv_named (fun _ _ h => by cases h) pvNames
  registered := fun name => by
    show (pvNames.foldl IngestEngine.registerPv .new).Registered name ↔ _
    rw [IngestEngine.foldl_registerPv_registered]
    exact or_iff_left Bool.false_ne_true
  flushed := by
    show (pvNames.foldl IngestEngine.registerPv .new).totalEvents = 0 ∧ _
    exact IngestEngine.foldl_registerPv_totals .new pvNames

theorem conserved_iff {pvNames : List String} {s : Counted} {x : Tally} (h : s.Matches pvNames x) :
    s.Conserved ↔ x.Exact s.drained := by
  unfold Conserved Tally.Exact
  rw [h.received, h.published, h.skipped, h.unknown, h.handed]
  omega

/-- What a pass of a running thread does to the counters. -/
theorem step_running {s : Counted} (p : Pass) (hrun : s.shard.running) :
    ∃ beats : ℕ,
      (s.step f before p).drained = s.drained + p.events.length ∧
      (s.step f before p).heartbeats = s.heartbeats + beats ∧
      (s.step f before p).handed = s.handed + (s.shard.batch f p).handed.length ∧
      (s.step f before p).shard.engine = ⟨(s.shard.batch f p).engine.converters, [], 0, 0, 0⟩ ∧
      (s.step f before p).shard.metrics =
        { (s.shard.flush (s.shard.batch f p)).metrics with
          eventsPublished :=
            (s.shard.flush (s.shard.batch f p)).metrics.eventsPublished + beats } := by
  set flushed := (s.shard.flush (s.shard.batch f p)).flushStats p.statsNow with hflushed
  refine ⟨(flushed.scanHeartbeats before p).1.length, ?_, ?_, ?_, ?_, ?_⟩
  · simp only [step, hrun, if_true]
  · simp only [step, Shard.pass, hrun, if_true, ← hflushed]
  · simp only [step, Shard.pass, hrun, if_true]
  · show (s.shard.pass f before p).1.engine = _
    rw [Shard.pass_engine, if_pos hrun]
  · simp only [step, Shard.pass, hrun, if_true, ← hflushed]
    rw [(Shard.scanHeartbeats_counts before flushed p).2, hflushed, (Shard.flushStats_keeps _ _).2]

theorem step_stopped {s : Counted} (p : Pass) (hrun : s.shard.running = false) :
    s.step f before p = s := by
  simp only [step, Shard.pass, hrun, Bool.false_eq_true, if_false, List.length_nil, Nat.add_zero]

/-- A pass keeps the counters matched; they stay exact over clean passes only. -/
theorem step_matches {pvNames : List String} {s : Counted} {x : Tally} (h : s.Matches pvNames x)
    (p : Pass) :
    ∃ y : Tally, (s.step f before p).Matches pvNames y ∧
      (y.Exact (s.step f before p).drained ↔ x.Exact s.drained ∧ s.Clean pvNames p) := by
  cases hrun : s.shard.running with
  | false =>
    rw [step_stopped f before p hrun]
    exact ⟨x, h, (and_iff_left fun hr => absurd hr (by rw [hrun]; decide)).symm⟩
  | true =>
    obtain ⟨beats, hdrained, hheartbeats, hhanded, hengine, hmetrics⟩ := step_running f before p hrun
    obtain ⟨y, hy, hsided, hexact⟩ :=
      s.shard.freshBatch.foldl_handle_tally f p.cache p.batchNow h.named p.events
    have hsame := s.shard.freshBatch.foldl_handle_samePvs f p.cache p.batchNow h.named p.events
    -- The batch starts from counters that are all zero.
    have hbatch : (s.shard.batch f p).tally = y := by
      show Batch.tally (p.events.foldl _ _) = y
      rw [hy]
      simp only [Batch.tally, Shard.freshBatch, Tally.add, h.flushed.1, h.flushed.2.1, h.flushed.2.2,
        Nat.zero_add, List.length_nil]
    refine ⟨x.add y, ?_, ?_⟩
    · refine ⟨?_, ?_, ?_, ?_, ?_, ?_, ?_, ?_, ?_⟩
      · rw [hmetrics, ← hbatch]
        show s.shard.metrics.eventsReceived + _ = x.received + _
        rw [h.received]
        rfl
      · rw [hmetrics, hheartbeats, ← hbatch]
        show s.shard.metrics.eventsPublished + _ + beats = x.published + _ + (s.heartbeats + beats)
        rw [h.published]
        show _ = x.published + ((s.shard.batch f p).engine.totalPublished +
          (s.shard.batch f p).localPublished) + _
        omega
      · rw [hmetrics, ← hbatch]
        show s.shard.metrics.eventsSkipped + _ = x.skipped + _
        rw [h.skipped]
        rfl
      · rw [hmetrics, ← hbatch]
        show s.shard.metrics.eventsDroppedUnknownPv + _ = x.unknown + _
        rw [h.unknown]
        rfl
      · rw [hhanded, ← hbatch, h.handed]
        rfl
      · rw [hdrained]
        exact h.sided.add hsided
      · rw [hengine]
        exact hsame.named h.named
      · intro name
        rw [hengine]
        exact (hsame.registered name).trans (h.registered name)
      · rw [hengine]
        exact ⟨rfl, rfl, rfl⟩
    · rw [hdrained, Tally.exact_add_iff h.sided hsided, hexact]
      refine and_congr_right fun _ => ?_
      unfold Clean
      rw [imp_iff_right hrun]
      refine forall₂_congr fun t _ => ?_
      show Accounted p.cache (s.shard.engine.Registered t.pvName) t ↔ _
      rw [h.registered]

/-! ## Main theorem -/

/-- **Main theorem**: the counters of an ingest thread balance after every pass of a run
    exactly if every pass is clean. -/
theorem metrics_conserved_iff (pvNames : List String) (defaultHeartbeatS : Binary32) (now : ℕ)
    (passes : List Pass) :
    AlongStates (step f before) Conserved (start pvNames defaultHeartbeatS now) passes ↔
      AlongSteps (step f before) (Clean pvNames) (start pvNames defaultHeartbeatS now) passes := by
  refine alongStates_iff_alongSteps_of_invariant (J := fun s => ∃ x, Matches pvNames s x) ?_ ?_
    ⟨_, matches_start pvNames defaultHeartbeatS now⟩ ⟨rfl, rfl, rfl⟩ passes
  · rintro s p ⟨x, hx⟩
    obtain ⟨y, hy, -⟩ := step_matches f before hx p
    exact ⟨y, hy⟩
  · rintro s p ⟨x, hx⟩ hs
    obtain ⟨y, hy, hexact⟩ := step_matches f before hx p
    rw [conserved_iff hy, hexact]
    exact and_iff_right ((conserved_iff hx).mp hs)

/-- The first value of a PV whose id is known: a structure with the number 1. -/
def firstValue : Pass where
  events := [⟨"TEMP", 7, .value (.struct [("value", .scalar (.double .one))])⟩]
  cache := fun _ => none
  batchNow := 0
  statsNow := 0
  scanNow := 0
  scanPgUs := 0
  active := fun _ => false
  config := ⟨0, []⟩
  shutdown := false

/-- It is counted as published twice and handed over once. -/
theorem firstValue_published_twice :
    let s := run (step constantFormats fun _ _ => false) (start ["TEMP"] ⟨0⟩ 0) [firstValue]
    s.drained = 1 ∧ s.handed = 1 ∧ s.shard.metrics.eventsReceived = 1 ∧
      s.shard.metrics.eventsPublished = 2 ∧
      ¬AlongStates (step constantFormats fun _ _ => false) Conserved (start ["TEMP"] ⟨0⟩ 0)
        [firstValue] := by
  intro s
  refine ⟨rfl, by decide +kernel, by decide +kernel, by decide +kernel, ?_⟩
  rintro ⟨-, -, -, hpublished⟩
  exact absurd hpublished (by decide +kernel)

end Counted

end AuraEpics.Ingest
