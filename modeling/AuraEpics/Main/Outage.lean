import AuraEpics.Ingest.Due
import AuraEpics.Ingest.Watch

/-!
# Heartbeats during an outage

The ingest threads and the main loop push rows into the same buffers: a thread the values of
its PVs and their heartbeats (`crates/aura-ingest/src/thread.rs`), the main loop the rows of
`handle_disconnect` and `handle_reconnect` (`src/handlers.rs`, lines 252-349). The main loop
does not tell the trackers of a disconnect, and a PV whose IOC is gone stays in the active
set until it leaves the PV cache.

A scan and a handler push their rows one by one. What is said is said of one PV, and a step
stands where its row is pushed. A full `SharedBuffer` refuses a row, and the tracker takes a
refused heartbeat for a row all the same.

Result: `never_masks_iff`, when no heartbeat of a PV follows its `Disconnected` row before its
next value.
-/

namespace AuraEpics.Main

open Numeric AuraEpics.Core AuraEpics.Ingest AuraEpics.Session AuraEpics.Store Runs

variable {n : ℕ}

/-! ## The system -/

/-- A row by who has pushed it. -/
inductive Pushed where
  | value (row : StoredRow)
  | heartbeat (row : ScalarRow)
  | disconnected (row : ScalarRow)
  | reconnected (row : ScalarRow)

/-- The ingest threads, what each has called of its tracker, and the values handed over and the
    other rows taken by the buffer so far, in the order of the pushes. -/
structure Outage (n : ℕ) where
  shards : Fin n → Ingest.Shard
  calls : Fin n → List TrackerAct
  log : List Pushed

/-- An event a thread handles, a pass of a thread that comes to its heartbeat scan, or a call of
    a handler. `room` says which rows find room in the buffer: the heartbeat of a PV, or the
    `k`-th row of a handler. -/
inductive OutageAct (n : ℕ) where
  | event (i : Fin n) (cache : String → Option Int32) (now : ℕ) (t : TaggedEvent)
  | scan (i : Fin n) (p : Pass) (room : Int32 → Bool)
  | disconnect (cache : String → Option Int32) (time : String → DateTime) (pvs : List String)
      (room : ℕ → Bool)
  | reconnect (cache : String → Option Int32) (time : String → DateTime) (pvs : List String)
      (room : ℕ → Bool)

/-- The rows of `handle_disconnect` and `handle_reconnect` (handlers.rs, lines 278-290 and
    325-337) that find room. -/
def outageRows (cache : String → Option Int32) (time : String → DateTime) (pvs : List String)
    (room : ℕ → Bool) (status : Int16) (reason : StoreReason) : List ScalarRow :=
  let rows := pvs.filterMap fun pv => (cache pv).map fun id =>
    ScalarRow.new (time pv) id .nan 3 status reason
  (rows.zipIdx.filter fun rk => room rk.2).map Prod.fst

/-- What an event makes a thread call of its tracker (thread.rs, line 92). -/
def trackerCall (cache : String → Option Int32) (now : ℕ) (t : TaggedEvent) : List TrackerAct :=
  match t.event, pvIdOf cache t.pvId t.pvName with
  | .scalarDelta value time, some pvId =>
    [.recordStore pvId value time.severity.toInt16 time.status.toInt16 now]
  | _, _ => []

namespace Outage

variable (f : Formats)

/-- The threads have been started and nothing has been pushed. -/
def start (pvNames : Fin n → List String) (defaultHeartbeatS : Binary32) (now : ℕ) : Outage n :=
  ⟨fun i => .start (pvNames i) defaultHeartbeatS now, fun _ => [], []⟩

/-- 10 s have passed since the last scan of the thread. -/
def ScanDue (s : Outage n) (i : Fin n) (p : Pass) : Prop :=
  10 * 1000000000 ≤ p.scanNow - (s.shards i).lastHeartbeatScan

instance (s : Outage n) (i : Fin n) (p : Pass) : Decidable (s.ScanDue i p) :=
  inferInstanceAs (Decidable (_ ≤ _))

/-- One step. -/
def step (s : Outage n) : OutageAct n → Outage n
  | .event i cache now t =>
    let b := (s.shards i).freshBatch.handle f cache now t
    { shards := Function.update s.shards i { s.shards i with
        engine := b.engine
        localPvStats := b.localPvStats
        heartbeat := b.heartbeat }
      calls := Function.update s.calls i (s.calls i ++ trackerCall cache now t)
      log := s.log ++ b.handed.map .value }
  | .scan i p room =>
    let (beats, shard) := (s.shards i).scanHeartbeats elapsedBefore p
    let calls := if s.ScanDue i p then [TrackerAct.emitHeartbeats p.scan] else []
    { shards := Function.update s.shards i shard
      calls := Function.update s.calls i (s.calls i ++ calls)
      log := s.log ++ (beats.filter fun row => room row.pvId).map .heartbeat }
  | .disconnect cache time pvs room =>
    { s with log := s.log ++ (outageRows cache time pvs room 103 .disconnected).map .disconnected }
  | .reconnect cache time pvs room =>
    { s with log := s.log ++ (outageRows cache time pvs room 104 .reconnected).map .reconnected }

theorem step_scan (s : Outage n) (i : Fin n) (p : Pass) (room : Int32 → Bool) :
    s.step f (.scan i p room) =
      { shards := Function.update s.shards i ((s.shards i).scanHeartbeats elapsedBefore p).2
        calls := Function.update s.calls i
          (s.calls i ++ if s.ScanDue i p then [TrackerAct.emitHeartbeats p.scan] else [])
        log := s.log ++ (((s.shards i).scanHeartbeats elapsedBefore p).1.filter
          fun row => room row.pvId).map .heartbeat } := rfl

/-! ## Property and condition -/

/-- What a row says of whether the PV is down. -/
def saysDown (id : Int32) (down : Bool) : Pushed → Bool
  | .value row => if row.pvId = id then false else down
  | .disconnected row => if row.pvId = id then true else down
  | .heartbeat _ | .reconnected _ => down

/-- A `Disconnected` row of the PV has been pushed, and no value of it since. -/
def isDown (id : Int32) (log : List Pushed) : Bool := log.foldl (saysDown id) false

/-- No heartbeat of the PV was pushed while it was down. -/
def NeverMasks (id : Int32) (log : List Pushed) : Prop :=
  ∀ pre row, pre ++ [.heartbeat row] <+: log → row.pvId = id → isDown id pre = false

/-- Where a scan comes while the PV is down: the PV has left the PV cache, none of its values
    went to the tracker of the thread or a scan has missed it since, its interval is not
    positive, it is not yet over, or the buffer is full. -/
def Spares (defaultHs : Binary32) (id : Int32) (s : Outage n) : OutageAct n → Prop
  | .scan i p room => s.ScanDue i p → isDown id s.log = true →
    p.active id = false ∨
    HeartbeatTracker.NoValue defaultHs (s.calls i) id ∨
    HeartbeatTracker.Off defaultHs (s.calls i ++ [.emitHeartbeats p.scan]) id ∨
    HeartbeatTracker.Waiting elapsedBefore defaultHs (s.calls i) p.scan id ∨
    room id = false
  | _ => True

/-! ## The log -/

theorem isDown_heartbeats (id : Int32) (log : List Pushed) (beats : List ScalarRow) :
    isDown id (log ++ beats.map .heartbeat) = isDown id log := by
  unfold isDown
  rw [List.foldl_append]
  induction beats with
  | nil => rfl
  | cons row beats ih => exact ih

theorem neverMasks_nil (id : Int32) : NeverMasks id [] := by
  intro pre row hpre
  cases List.append_eq_nil_iff.1 (List.prefix_nil.1 hpre) with
  | intro _ hrow => cases hrow

theorem neverMasks_concat {id : Int32} {log : List Pushed} {x : Pushed} :
    NeverMasks id (log ++ [x]) ↔
      NeverMasks id log ∧ ∀ row, x = .heartbeat row → row.pvId = id → isDown id log = false := by
  constructor
  · intro h
    refine ⟨fun pre row hpre => h pre row (hpre.trans (List.prefix_append log [x])), ?_⟩
    rintro row rfl
    exact h log row (List.prefix_refl _)
  · rintro ⟨hlog, hx⟩ pre row hpre
    obtain heq | hpre := List.prefix_concat_iff.1 hpre
    · obtain ⟨rfl, hrow⟩ := List.append_inj' heq rfl
      exact hx row (List.cons.inj hrow).1.symm
    · exact hlog pre row hpre

/-- Rows that are not heartbeats mask nothing. -/
theorem neverMasks_append {id : Int32} {log rows : List Pushed}
    (hrows : ∀ row, Pushed.heartbeat row ∉ rows) :
    NeverMasks id (log ++ rows) ↔ NeverMasks id log := by
  induction rows using List.reverseRecOn with
  | nil => rw [List.append_nil]
  | append_singleton rows x ih =>
    have hrest : ∀ row, Pushed.heartbeat row ∉ rows := fun row h =>
      hrows row (List.mem_append_left _ h)
    rw [← List.append_assoc, neverMasks_concat, ih hrest]
    refine and_iff_left_of_imp fun _ row hx => ?_
    exact absurd (hx ▸ List.mem_append_right rows (List.mem_singleton_self x)) (hrows row)

theorem neverMasks_heartbeats {id : Int32} {log : List Pushed} {beats : List ScalarRow} :
    NeverMasks id (log ++ beats.map .heartbeat) ↔
      NeverMasks id log ∧ (isDown id log = true → id ∉ beats.map ScalarRow.pvId) := by
  induction beats using List.reverseRecOn with
  | nil => simp
  | append_singleton beats row ih =>
    rw [List.map_append, List.map_append, ← List.append_assoc, List.map_singleton,
      List.map_singleton, neverMasks_concat, ih, isDown_heartbeats, and_assoc, List.mem_append,
      List.mem_singleton]
    refine and_congr_right fun _ => ⟨?_, ?_⟩
    · rintro ⟨hbeats, hrow⟩ hdown (hmem | hid)
      · exact hbeats hdown hmem
      · exact absurd (hdown.symm.trans (hrow row rfl hid.symm)) (by decide)
    · intro h
      refine ⟨fun hdown hmem => h hdown (.inl hmem), ?_⟩
      rintro row' heq hid
      obtain rfl := Pushed.heartbeat.inj heq
      exact Bool.not_eq_true _ ▸ fun hdown => h hdown (.inr hid.symm)

/-! ## Main theorem -/

/-- The trackers are where their calls have left them. -/
def Tracks (defaultHs : Binary32) (s : Outage n) : Prop :=
  ∀ i, (s.shards i).heartbeat =
    run (HeartbeatTracker.step elapsedBefore) (.new defaultHs) (s.calls i)

theorem handle_trackerCall (cache : String → Option Int32) (now : ℕ) (b : Batch) (t : TaggedEvent) :
    (b.handle f cache now t).heartbeat =
      run (HeartbeatTracker.step elapsedBefore) b.heartbeat (trackerCall cache now t) := by
  obtain ⟨name, tag, event⟩ := t
  cases event with
  | scalarDelta value time =>
    unfold Batch.handle trackerCall
    dsimp only
    cases pvIdOf cache tag name <;> rfl
  | _ => exact handle_heartbeat f cache now b rfl

section Step

variable {defaultHs : Binary32} {s : Outage n}

/-- A thread goes on together with its calls. -/
theorem Tracks.update (h : s.Tracks defaultHs) (i : Fin n) {shard : Ingest.Shard}
    {calls : List TrackerAct} {log : List Pushed}
    (hshard : shard.heartbeat =
      run (HeartbeatTracker.step elapsedBefore) (s.shards i).heartbeat calls) :
    Tracks defaultHs
      ⟨Function.update s.shards i shard, Function.update s.calls i (s.calls i ++ calls), log⟩ := by
  intro j
  by_cases hj : j = i
  · subst hj
    dsimp only
    rw [Function.update_self, Function.update_self, hshard, h j, ← run_append]
  · dsimp only
    rw [Function.update_of_ne hj, Function.update_of_ne hj]
    exact h j

theorem step_tracks (a : OutageAct n) (h : s.Tracks defaultHs) : (s.step f a).Tracks defaultHs := by
  cases a with
  | event i cache now t => exact h.update i (handle_trackerCall f cache now _ t)
  | scan i p room =>
    rw [step_scan]
    refine h.update i ?_
    by_cases hdue : s.ScanDue i p
    · rw [if_pos hdue]
      exact (Shard.scanHeartbeats_due hdue).2
    · rw [if_neg hdue, Shard.scanHeartbeats_idle hdue]
      rfl
  | disconnect cache time pvs room | reconnect cache time pvs room => exact h

/-- The PVs a scan stores heartbeats of. -/
theorem mem_stored_iff (h : s.Tracks defaultHs) (i : Fin n) (p : Pass) (room : Int32 → Bool)
    (id : Int32) (hdue : s.ScanDue i p) :
    id ∈ (((s.shards i).scanHeartbeats elapsedBefore p).1.filter
        fun row => room row.pvId).map ScalarRow.pvId ↔
      room id = true ∧ p.active id = true ∧
        ¬HeartbeatTracker.NoValue defaultHs (s.calls i) id ∧
        ¬HeartbeatTracker.Off defaultHs (s.calls i ++ [.emitHeartbeats p.scan]) id ∧
        ¬HeartbeatTracker.Waiting elapsedBefore defaultHs (s.calls i) p.scan id := by
  have hrows : ((s.shards i).scanHeartbeats elapsedBefore p).1 =
      (run (HeartbeatTracker.step elapsedBefore) (.new defaultHs) (s.calls i)).scanRows
        elapsedBefore p.scan := by
    rw [← h i]
    exact (Shard.scanHeartbeats_due hdue).1
  have hscan := HeartbeatTracker.mem_scanRows_iff elapsedBefore defaultHs (s.calls i) p.scan id
  rw [show p.active = p.scan.active from rfl, ← hscan, hrows, List.mem_map, List.mem_map]
  constructor
  · rintro ⟨row, hrow, rfl⟩
    obtain ⟨hrow, hroom⟩ := List.mem_filter.1 hrow
    exact ⟨hroom, row, hrow, rfl⟩
  · rintro ⟨hroom, row, hrow, rfl⟩
    exact ⟨row, List.mem_filter.2 ⟨hrow, hroom⟩, rfl⟩

theorem step_neverMasks (id : Int32) (a : OutageAct n) (h : s.Tracks defaultHs)
    (hs : NeverMasks id s.log) : NeverMasks id (s.step f a).log ↔ s.Spares defaultHs id a := by
  cases a with
  | event i cache now t =>
    refine iff_of_true ((neverMasks_append fun row hrow => ?_).2 hs) trivial
    obtain ⟨_, _, heq⟩ := List.mem_map.1 hrow
    cases heq
  | scan i p room =>
    rw [step_scan, neverMasks_heartbeats, and_iff_right hs]
    unfold Spares
    by_cases hdue : s.ScanDue i p
    · rw [mem_stored_iff h i p room id hdue]
      simp only [hdue, true_implies, not_and_or, not_not, Bool.not_eq_true]
      refine imp_congr_right fun _ => ?_
      tauto
    · refine iff_of_true (fun _ => ?_) fun h => absurd h hdue
      rw [Shard.scanHeartbeats_idle hdue]
      exact List.not_mem_nil
  | disconnect cache time pvs room | reconnect cache time pvs room =>
    refine iff_of_true ((neverMasks_append fun row hrow => ?_).2 hs) trivial
    obtain ⟨_, _, heq⟩ := List.mem_map.1 hrow
    cases heq

end Step

/-- **Main theorem.** In every interleaving, no heartbeat of the PV is ever pushed between its
    `Disconnected` row and its next value exactly if every scan that comes then spares it. -/
theorem never_masks_iff (id : Int32) (pvNames : Fin n → List String) (defaultHeartbeatS : Binary32)
    (now : ℕ) (as : List (OutageAct n)) :
    AlongStates (step f) (fun s => NeverMasks id s.log) (start pvNames defaultHeartbeatS now) as ↔
      AlongSteps (step f) (Spares defaultHeartbeatS id) (start pvNames defaultHeartbeatS now) as :=
  alongStates_iff_alongSteps_of_invariant (J := Tracks defaultHeartbeatS)
    (fun _ a h => step_tracks f a h) (fun _ a h => step_neverMasks f id a h) (fun _ => rfl)
    (neverMasks_nil id) as

/-- A value of a PV, and the loss of its IOC right after. -/
def lostIoc : List (OutageAct 1) :=
  [.event 0 (fun _ => none) 0 ⟨"TEMP", 7, .scalarDelta .one ⟨0, 0, 0, 0⟩⟩,
    .disconnect (fun _ => some 7) (fun _ => .epoch) ["TEMP"] fun _ => true]

/-- With an interval of 10 s, a scan a minute later pushes the value as a heartbeat. -/
theorem lostIoc_masked :
    ¬AlongStates (step constantFormats) (fun s => NeverMasks 7 s.log)
      (start (fun _ => ["TEMP"]) ⟨0x41200000⟩ 0)
      (lostIoc ++ [.scan 0 (passOf [] (60 * 10 ^ 9)) fun _ => true]) := by
  intro hclear
  let s := run (step constantFormats) (start (fun _ => ["TEMP"]) ⟨0x41200000⟩ 0) lostIoc
  have hbeats : (((s.shards 0).scanHeartbeats elapsedBefore (passOf [] (60 * 10 ^ 9))).1.filter
      fun _ => true) = [HeartbeatTracker.heartbeatRow 0 7 ⟨.one, 0, 0, 0⟩] := by decide +kernel
  have hlast : NeverMasks 7 (s.log ++
      (((s.shards 0).scanHeartbeats elapsedBefore (passOf [] (60 * 10 ^ 9))).1.filter
        fun _ => true).map Pushed.heartbeat) := by
    have hrun := hclear.last
    rw [run_append] at hrun
    exact hrun
  rw [hbeats] at hlast
  have hdown : isDown 7 s.log = true := by decide +kernel
  have hup := hlast s.log _ (List.prefix_refl _) rfl
  exact absurd (hdown.symm.trans hup) (by decide)

end Outage

end AuraEpics.Main
