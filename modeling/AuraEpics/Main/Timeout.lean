import AuraEpics.Ingest.Stats
import AuraEpics.Main.Status

/-!
# Timeouts of live PVs

How the events of a PV keep it from timing out: the ingest threads count them
(`crates/aura-ingest/src/thread.rs`, lines 55-363), put a snapshot of the counts into the sink
they share, `update_pv_status` (`src/handlers.rs`, lines 444-540) takes the snapshots and moves
`last_event_at` forward, and the initialisation of `pv_status` (`src/main.rs`, lines 578-599)
gives the first one.

Of the events a thread stores only a `ScalarDelta` is counted, and only under an id up to one
million: a PV that sends strings, arrays or structures times out however often it does.

Result: `scalars_never_time_out`, a PV with a counted event in every 20 s does not time out.
-/

namespace AuraEpics.Main

open Numeric AuraEpics.Core AuraEpics.Ingest AuraEpics.Session AuraEpics.Store Runs

variable {n : ℕ}

/-! ## The system -/

/-- The PV that is watched: its name, its id in `pv_lookup` and the thread that gets its
    events. -/
structure WatchedPv (n : ℕ) where
  name : String
  id : Int32
  shard : Fin n

/-- The ingest threads and the table. For the watched PV: the last time its thread has read
    the clock, the times at which it stored events of the PV and those at which it counted
    one, and the `Timeout` rows of the PV. -/
structure Live (n : ℕ) where
  shards : Fin n → Ingest.Shard
  status : Status
  clock : ℕ
  stored : List ℕ
  counted : List ℕ
  timeoutRows : List ScalarRow

/-- A handler other than `update_pv_status`. -/
def StatusAct.isHandler : StatusAct → Bool
  | .updatePvStatus _ _ _ _ _ => false
  | _ => true

/-- A pass of a thread, a call of `update_pv_status` or of another handler. -/
inductive LiveAct (n : ℕ) where
  | pass (i : Fin n) (p : Pass)
  | update (mergeNow timeoutNow : ℕ) (mergeOk timeoutOk : Bool) (cache : String → Option Int32)
      (time : DateTime)
  | handle (a : StatusAct) (h : a.isHandler = true)

namespace Live

/-- The threads are started at `started`; then the table is initialised. -/
def start (pvNames : Fin n → List String) (defaultHeartbeatS : Binary32) (started : ℕ)
    (t : PvStatusTable) (cache : String → Option Int32) (initialised : ℕ)
    (subscribed : List String) : Live n where
  shards := fun i => .start (pvNames i) defaultHeartbeatS started
  status := ⟨t.initialise cache initialised, [], subscribed⟩
  clock := started
  stored := []
  counted := []
  timeoutRows := []

/-- The sink the threads share. -/
def statsSink (s : Live n) : List PvStatsMap :=
  (List.finRange n).flatMap fun i => (s.shards i).statsSink

variable (f : Formats) (before : ℕ → Binary32 → Bool) (pv : WatchedPv n)

/-- The pass stores an event of the PV. -/
def StoresEvent (rows : List StoredRow) : Prop := ∃ row ∈ rows, row.pvId = pv.id

/-- The pass has an event of the PV that is counted. -/
def CountsEvent (p : Pass) : Prop := HasEntry pv.id ∧ ∃ t ∈ p.events, IsScalarOf p.cache pv.id t

instance (rows : List StoredRow) : Decidable (StoresEvent pv rows) :=
  inferInstanceAs (Decidable (∃ row ∈ rows, row.pvId = pv.id))

instance (p : Pass) : Decidable (CountsEvent pv p) :=
  inferInstanceAs (Decidable (_ ∧ ∃ t ∈ p.events, IsScalarOf p.cache pv.id t))

/-- One step. -/
def step (s : Live n) : LiveAct n → Live n
  | .pass i p =>
    let (shard, rows, _) := (s.shards i).pass f before p
    let s' := { s with shards := Function.update s.shards i shard }
    if i = pv.shard ∧ (s.shards i).running then { s' with
      clock := p.statsNow
      stored := if StoresEvent pv rows then s.stored ++ [p.batchNow] else s.stored
      counted := if CountsEvent pv p then s.counted ++ [p.batchNow] else s.counted }
    else s'
  | .update mergeNow timeoutNow mergeOk timeoutOk cache time => { s with
      shards := fun i => { s.shards i with statsSink := [] }
      status := s.status.updatePvStatus s.statsSink mergeNow timeoutNow mergeOk timeoutOk
      timeoutRows := s.timeoutRows ++ (s.status.timeoutRow s.statsSink mergeNow timeoutNow mergeOk
        timeoutOk cache time pv.name).toList }
  | .handle a _ => { s with status := s.status.step a }

/-! ## Properties and conditions -/

/-- One of the times lies in every 20 s between `started` and `now`. -/
def EveryWindow (started now : ℕ) (times : List ℕ) : Prop :=
  ∀ w, started ≤ w → w + 20 * 1000000000 ≤ now → ∃ t ∈ times, w ≤ t ∧ t ≤ w + 20 * 1000000000

/-- The PV is not timed out and no `Timeout` row was stored for it. -/
def NotTimedOut (s : Live n) : Prop := s.status.stateOf pv.name ≠ some .timeout ∧ s.timeoutRows = []

instance (s : Live n) : Decidable (NotTimedOut pv s) := inferInstanceAs (Decidable (_ ∧ _))

/-- The schedule: the clock does not go back, snapshots are published in time and merged, and
    `pv_lookup` keeps the id of the PV. The threads publish a snapshot every 30 s; the
    condition is that the last one is no older than a timeout. -/
def OnSchedule (s : Live n) : LiveAct n → Prop
  | .pass i p => i = pv.shard → s.clock ≤ p.batchNow ∧ p.batchNow ≤ p.statsNow
  | .update mergeNow timeoutNow mergeOk _ _ _ =>
    mergeOk = true ∧ (s.shards pv.shard).lastStatsFlush ≤ mergeNow ∧
      timeoutNow ≤ (s.shards pv.shard).lastStatsFlush + PvStatusTable.pvTimeout
  | .handle a _ =>
    match a with
    | .subscribe _ lookup _ => ∀ id ∈ lookup pv.name, id = pv.id
    | _ => True

instance (s : Live n) : (a : LiveAct n) → Decidable (OnSchedule pv s a)
  | .pass _ _ => inferInstanceAs (Decidable (_ → _))
  | .update _ _ _ _ _ _ => inferInstanceAs (Decidable (_ ∧ _))
  | .handle a _ =>
    match a with
    | .subscribe _ lookup _ => inferInstanceAs (Decidable (∀ id ∈ lookup pv.name, id = pv.id))
    | .connect _ _ _ _ | .disconnect _ _ | .reconnect _ _ | .drainMetadata _ _ _ _ _
    | .updatePvStatus _ _ _ _ _ | .unsubscribe _ _ => isTrue trivial

end Live

/-! ## Handlers and the row of the PV -/

/-- What a handler keeps of a row: the id and the time of the last event. It does not make it
    timed out. -/
structure PvStatus.Kept (r r' : PvStatus) : Prop where
  pvId : r'.pvId = r.pvId
  lastEventAt : r'.lastEventAt = r.lastEventAt
  state : r'.state = .timeout → r.state = .timeout

namespace PvStatusTable

open PvStatus

variable {t : PvStatusTable} {name : String} {r : PvStatus}

/-- The row of the PV in `t'` is one that a handler has made of `r`. -/
def KeepsRow (t' : PvStatusTable) (name : String) (r : PvStatus) : Prop :=
  ∃ r', t' name = some r' ∧ Kept r r'

theorem keepsRow_of_eq_some (hr : t name = some r) : t.KeepsRow name r :=
  ⟨r, hr, rfl, rfl, id⟩

theorem KeepsRow.trans {t' : PvStatusTable} (h : t.KeepsRow name r)
    (h' : ∀ r', t name = some r' → t'.KeepsRow name r') : t'.KeepsRow name r := by
  obtain ⟨r₁, hr₁, hkept⟩ := h
  obtain ⟨r₂, hr₂, hkept'⟩ := h' r₁ hr₁
  exact ⟨r₂, hr₂, hkept'.pvId.trans hkept.pvId, hkept'.lastEventAt.trans hkept.lastEventAt,
    fun h => hkept.state (hkept'.state h)⟩

theorem keepsRow_ite (hr : t name = some r) (ok : Bool) {t' : PvStatusTable}
    (h : t'.KeepsRow name r) : (if ok then t' else t).KeepsRow name r := by
  split_ifs
  · exact h
  · exact keepsRow_of_eq_some hr

theorem keepsRow_updateWhere (hr : t name = some r) (cond : String → PvStatus → Prop)
    [∀ name r, Decidable (cond name r)] {set : PvStatus → PvStatus} (hset : Kept r (set r)) :
    (t.updateWhere cond set).KeepsRow name r := by
  refine ⟨_, updateWhere_of_eq_some hr cond set, ?_⟩
  split_ifs
  · exact hset
  · exact ⟨rfl, rfl, id⟩

theorem keepsRow_upsert {κ : Type} (hr : t name = some r) {rows : String → Option κ}
    (insert : κ → PvStatus) {set : κ → PvStatus → PvStatus}
    (hset : ∀ k, rows name = some k → Kept r (set k r)) :
    (t.upsert rows insert set).KeepsRow name r := by
  refine ⟨_, upsert_of_eq_some hr rows insert set, ?_⟩
  cases hk : rows name with
  | none => exact ⟨rfl, rfl, id⟩
  | some k => exact hset k hk

end PvStatusTable

open PvStatusTable

/-- A handler other than `update_pv_status` keeps the row of a PV whose id it looks up. -/
theorem Status.step_keepsRow (s : Status) {name : String} {r : PvStatus} (hr : s.table name = some r)
    {a : StatusAct} (ha : a.isHandler = true)
    (hlookup : ∀ okPvs lookup ok, a = .subscribe okPvs lookup ok →
      ∀ id ∈ lookup name, r.pvId = some id) :
    (s.step a).table.KeepsRow name r := by
  cases a with
  | subscribe okPvs lookup ok =>
    refine keepsRow_ite hr ok (keepsRow_upsert hr _ fun id hid => ?_)
    split_ifs at hid
    exact ⟨(hlookup okPvs lookup ok rfl id hid).symm, rfl, fun h => by cases h⟩
  | connect addr pvs stateOk addrOk =>
    have hconnect : (s.table.connect addr pvs).KeepsRow name r :=
      keepsRow_updateWhere hr _ ⟨rfl, rfl, fun h => by cases h⟩
    refine (keepsRow_ite hr stateOk hconnect).trans fun r₁ hr₁ => ?_
    exact keepsRow_ite hr₁ addrOk (keepsRow_updateWhere hr₁ _ ⟨rfl, rfl, id⟩)
  | disconnect pvs ok | reconnect pvs ok | unsubscribe pvs ok =>
    exact keepsRow_ite hr ok (keepsRow_updateWhere hr _ ⟨rfl, rfl, fun h => by cases h⟩)
  | drainMetadata raw statusOk storeOk inlineMetas inlineOk =>
    show PvStatusTable.KeepsRow (if statusOk ∧ (s.freshNames raw).Nodup then _ else _) name r
    split_ifs
    · exact keepsRow_upsert hr _ fun _ _ => ⟨rfl, rfl, fun h => by cases h⟩
    · exact keepsRow_of_eq_some hr
  | updatePvStatus snapshots mergeNow timeoutNow mergeOk timeoutOk => cases ha

namespace Live

variable (f : Formats) (before : ℕ → Binary32 → Bool) (pv : WatchedPv n)

/-! ## Invariant -/

/-- What keeps the PV from timing out. A count since the last snapshot is in `local_pv_stats`,
    and the last snapshot is in the sink or has moved `last_event_at` forward. -/
structure Inv (started : ℕ) (s : Live n) : Prop where
  started_le : started ≤ (s.shards pv.shard).lastStatsFlush
  counted_le : ∀ t ∈ s.counted, t ≤ s.clock
  counts : ∀ t ∈ s.counted, (s.shards pv.shard).lastStatsFlush < t →
    0 < countOf pv.id (s.shards pv.shard).localPvStats
  row : ∃ r, s.status.table pv.name = some r ∧ r.pvId = some pv.id ∧ r.state ≠ .timeout ∧
    ∀ at' ∈ r.lastEventAt, (∃ snapshot ∈ (s.shards pv.shard).statsSink,
      pv.id ∈ snapshot.map Prod.fst) ∨ (s.shards pv.shard).lastStatsFlush ≤ at'
  noRows : s.timeoutRows = []

variable {pv} {started : ℕ} {s : Live n}

theorem Inv.notTimedOut (h : Inv pv started s) : NotTimedOut pv s := by
  obtain ⟨r, hr, -, hstate, -⟩ := h.row
  refine ⟨fun htimeout => ?_, h.noRows⟩
  obtain ⟨r', hr', hstate'⟩ := Status.stateOf_eq_some.1 htimeout
  rw [hr, Option.some.injEq] at hr'
  exact hstate (hr' ▸ hstate')

theorem Inv.start (pvNames : Fin n → List String) (defaultHeartbeatS : Binary32)
    (t : PvStatusTable) {cache : String → Option Int32} (hcache : cache pv.name = some pv.id)
    {initialised : ℕ} (hinitialised : started ≤ initialised) (subscribed : List String) :
    Inv pv started
      (start pvNames defaultHeartbeatS started t cache initialised subscribed) := by
  refine ⟨le_rfl, fun _ h => absurd h List.not_mem_nil, fun _ h => absurd h List.not_mem_nil, ?_, rfl⟩
  have hrow : ∃ r, t.initialise cache initialised pv.name = some r ∧ r.pvId = some pv.id ∧
      r.state = .archiving ∧ r.lastEventAt = some initialised := by
    unfold PvStatusTable.initialise PvStatusTable.upsert
    rw [hcache]
    cases t pv.name with
    | none => exact ⟨_, rfl, rfl, rfl, rfl⟩
    | some r => exact ⟨_, rfl, rfl, rfl, rfl⟩
  obtain ⟨r, hr, hid, hstate, hat⟩ := hrow
  refine ⟨r, hr, hid, by rw [hstate]; exact PvState.noConfusion, fun at' hat' => .inr ?_⟩
  rw [hat, Option.mem_some_iff] at hat'
  exact hat' ▸ hinitialised

theorem Inv.handle (h : Inv pv started s) {a : StatusAct} (ha : a.isHandler = true)
    (hc : OnSchedule pv s (.handle a ha)) : Inv pv started (step f before pv s (.handle a ha)) := by
  obtain ⟨r, hr, hid, hstate, hlast⟩ := h.row
  have hlookup : ∀ okPvs lookup ok, a = .subscribe okPvs lookup ok →
      ∀ id ∈ lookup pv.name, r.pvId = some id := by
    rintro okPvs lookup ok rfl id hmem
    rw [hid, hc id hmem]
  obtain ⟨r', hr', hkept⟩ := s.status.step_keepsRow hr ha hlookup
  refine ⟨h.started_le, h.counted_le, h.counts, ⟨r', hr', ?_, fun h => hstate (hkept.state h), ?_⟩,
    h.noRows⟩
  · rw [hkept.pvId, hid]
  · rw [hkept.lastEventAt]
    exact hlast

theorem mem_mergedIds_statsSink {id : Int32} {i : Fin n} {snapshot : PvStatsMap}
    (hsnapshot : snapshot ∈ (s.shards i).statsSink) (hid : id ∈ snapshot.map Prod.fst) :
    id ∈ mergedIds s.statsSink := by
  obtain ⟨e, he, rfl⟩ := List.mem_map.1 hid
  refine List.mem_map.2 ⟨e, List.mem_flatten.2 ⟨snapshot, ?_, he⟩, rfl⟩
  exact List.mem_flatMap.2 ⟨i, List.mem_finRange i, hsnapshot⟩

/-- After the merge the last event of the PV is not before the last snapshot. -/
theorem Inv.merged (h : Inv pv started s) {mergeNow : ℕ}
    (hnow : (s.shards pv.shard).lastStatsFlush ≤ mergeNow) :
    ∃ r, s.status.merged s.statsSink mergeNow true pv.name = some r ∧ r.pvId = some pv.id ∧
      r.state ≠ .timeout ∧ ∀ at' ∈ r.lastEventAt, (s.shards pv.shard).lastStatsFlush ≤ at' := by
  obtain ⟨r, hr, hid, hstate, hlast⟩ := h.row
  by_cases hmerged : pv.id ∈ mergedIds s.statsSink
  · refine ⟨_, s.status.merged_of_eq_some hr ⟨pv.id, hmerged, hid⟩ mergeNow rfl, hid, ?_, ?_⟩
    · dsimp only
      split_ifs
      · exact PvState.noConfusion
      · exact hstate
    · intro at' hat'
      obtain rfl : mergeNow = at' := Option.some.inj hat'
      exact hnow
  · refine ⟨r, ?_, hid, hstate, fun at' hat' => ?_⟩
    · rw [Status.merged, if_pos rfl, PvStatusTable.merge, updateWhere_of_eq_some hr, if_neg]
      rintro ⟨id, hmem, hid'⟩
      obtain rfl : pv.id = id := Option.some.inj (hid.symm.trans hid')
      exact hmerged hmem
    · refine (hlast at' hat').resolve_left ?_
      rintro ⟨snapshot, hsnapshot, hmem⟩
      exact hmerged (mem_mergedIds_statsSink hsnapshot hmem)

theorem Inv.update (h : Inv pv started s) {mergeNow timeoutNow : ℕ} {mergeOk timeoutOk : Bool}
    {cache : String → Option Int32} {time : DateTime}
    (hc : OnSchedule pv s (.update mergeNow timeoutNow mergeOk timeoutOk cache time)) :
    Inv pv started
      (step f before pv s (.update mergeNow timeoutNow mergeOk timeoutOk cache time)) := by
  obtain ⟨rfl, hmergeNow, htimeoutNow⟩ := hc
  obtain ⟨r, hr, hid, hstate, hlast⟩ := h.merged hmergeNow
  have hlive : ¬TimedOut r timeoutNow := by
    rintro ⟨-, at', hat', hlt⟩
    have hle := hlast at' hat'
    omega
  have hrow : (s.status.updatePvStatus s.statsSink mergeNow timeoutNow true timeoutOk).table
      pv.name = some r := by
    show (if timeoutOk then (s.status.merged _ _ _).detectTimeouts timeoutNow else _) pv.name = _
    split_ifs
    · rw [PvStatusTable.detectTimeouts, updateWhere_of_eq_some hr, if_neg hlive]
    · exact hr
  have hnone : s.status.timeoutRow s.statsSink mergeNow timeoutNow true timeoutOk cache time
      pv.name = none := by
    unfold Status.timeoutRow
    rw [hr]
    exact if_neg fun h => hlive h.2
  refine ⟨h.started_le, h.counted_le, h.counts, ⟨r, hrow, hid, hstate, ?_⟩, ?_⟩
  · exact fun at' hat' => .inr (hlast at' hat')
  · show s.timeoutRows ++ Option.toList _ = []
    rw [hnone, h.noRows]
    rfl

/-- A pass of the thread of the PV while it runs. -/
theorem step_pass_running (p : Pass) (hrunning : (s.shards pv.shard).running) :
    ∃ shards stored, shards pv.shard = ((s.shards pv.shard).pass f before p).1 ∧
      step f before pv s (.pass pv.shard p) = { s with
        shards := shards
        clock := p.statsNow
        stored := stored
        counted := if CountsEvent pv p then s.counted ++ [p.batchNow] else s.counted } := by
  unfold step
  dsimp only
  rw [if_pos ⟨rfl, hrunning⟩]
  exact ⟨_, _, Function.update_self _ _ _, rfl⟩

/-- A pass of another thread, or of one that has returned. -/
theorem step_pass_other {i : Fin n} (p : Pass) (h : ¬(i = pv.shard ∧ (s.shards i).running)) :
    ∃ shards, shards pv.shard = s.shards pv.shard ∧
      step f before pv s (.pass i p) = { s with shards := shards } := by
  unfold step
  dsimp only
  rw [if_neg h]
  refine ⟨_, ?_, rfl⟩
  rw [Function.update_apply]
  split_ifs with heq
  · have hstopped : (s.shards i).running = false :=
      Bool.eq_false_iff.2 fun hrunning => h ⟨heq.symm, hrunning⟩
    rw [Ingest.Shard.pass, if_neg (by rw [hstopped]; exact Bool.false_ne_true), heq]
  · rfl

/-- The times that are counted after a pass. -/
theorem mem_counted {p : Pass} {t : ℕ}
    (ht : t ∈ if CountsEvent pv p then s.counted ++ [p.batchNow] else s.counted) :
    t ∈ s.counted ∨ t = p.batchNow ∧ CountsEvent pv p := by
  split_ifs at ht with hcounts
  · obtain ht | ht := List.mem_append.1 ht
    · exact .inl ht
    · exact .inr ⟨List.mem_singleton.1 ht, hcounts⟩
  · exact .inl ht

/-- An event since the last snapshot is counted when a pass has handled its batch. -/
theorem Inv.batch_counts (h : Inv pv started s) {p : Pass} {t : ℕ}
    (ht : t ∈ if CountsEvent pv p then s.counted ++ [p.batchNow] else s.counted)
    (hlt : (s.shards pv.shard).lastStatsFlush < t) :
    0 < countOf pv.id ((s.shards pv.shard).batch f p).localPvStats := by
  obtain ⟨hmono, hpos⟩ := (s.shards pv.shard).freshBatch.foldl_handle_countOf f p.cache
    p.batchNow p.events pv.id
  obtain ht | ⟨-, hcounts⟩ := mem_counted ht
  · exact (h.counts t ht hlt).trans_le hmono
  · exact hpos hcounts.1 hcounts.2

theorem Inv.pass_running (h : Inv pv started s) {p : Pass}
    (hrunning : (s.shards pv.shard).running) (hc : OnSchedule pv s (.pass pv.shard p))
    (hfed : EveryWindow started (step f before pv s (.pass pv.shard p)).clock
      (step f before pv s (.pass pv.shard p)).counted) :
    Inv pv started (step f before pv s (.pass pv.shard p)) := by
  obtain ⟨hclock, hnow⟩ := hc rfl
  obtain ⟨shards, stored, hshard, hstep⟩ := step_pass_running f before p hrunning
  rw [hstep] at hfed ⊢
  obtain ⟨hstats, hflush, hsink⟩ := Ingest.Shard.pass_stats f before _ p hrunning
  rw [← hshard] at hstats hflush hsink
  have hle : ∀ t ∈ if CountsEvent pv p then s.counted ++ [p.batchNow] else s.counted,
      t ≤ p.statsNow := by
    intro t ht
    obtain ht | ⟨rfl, -⟩ := mem_counted ht
    · exact (h.counted_le t ht).trans (hclock.trans hnow)
    · exact hnow
  obtain ⟨r, hr, hid, hstate, hlast⟩ := h.row
  obtain hkept | ⟨helapsed, hflushed, hnamed⟩ := Ingest.Shard.flushStats_cases
    ((s.shards pv.shard).flush ((s.shards pv.shard).batch f p)) p.statsNow
  · rw [hkept] at hstats hflush hsink
    refine ⟨hflush ▸ h.started_le, hle, ?_, ⟨r, hr, hid, hstate, ?_⟩, h.noRows⟩
    · dsimp only
      rw [hflush, hstats]
      exact fun t ht => h.batch_counts f ht
    · dsimp only
      rw [hflush, hsink]
      exact hlast
  · -- the 20 s that end now begin after the last snapshot
    replace helapsed : (s.shards pv.shard).lastStatsFlush + 30 * 1000000000 < p.statsNow := helapsed
    have hstarted := h.started_le
    obtain ⟨t, ht, hwt, -⟩ := hfed (p.statsNow - 20 * 1000000000) (by omega) (by dsimp only; omega)
    have hcount := h.batch_counts f ht (by omega)
    rw [hflushed] at hflush
    refine ⟨?_, hle, ?_, ⟨r, hr, hid, hstate, fun _ _ => .inl ?_⟩, h.noRows⟩
    · dsimp only
      omega
    · intro t ht hlt
      dsimp only at hlt
      exact absurd (hle t ht) (by omega)
    · dsimp only
      rw [hsink]
      exact hnamed pv.id hcount

theorem Inv.pass (h : Inv pv started s) {i : Fin n} {p : Pass} (hc : OnSchedule pv s (.pass i p))
    (hfed : EveryWindow started (step f before pv s (.pass i p)).clock
      (step f before pv s (.pass i p)).counted) :
    Inv pv started (step f before pv s (.pass i p)) := by
  by_cases hpass : i = pv.shard ∧ (s.shards i).running
  · obtain ⟨rfl, hrunning⟩ := hpass
    exact h.pass_running f before hrunning hc hfed
  · obtain ⟨shards, hshard, hstep⟩ := step_pass_other f before p hpass
    rw [hstep]
    refine ⟨?_, h.counted_le, ?_, ?_, h.noRows⟩ <;> dsimp only <;> rw [hshard]
    · exact h.started_le
    · exact h.counts
    · exact h.row

/-- A step on schedule that leaves a counted event in every 20 s keeps the invariant. -/
theorem Inv.step (h : Inv pv started s) {a : LiveAct n} (hc : OnSchedule pv s a)
    (hfed : EveryWindow started (step f before pv s a).clock (step f before pv s a).counted) :
    Inv pv started (step f before pv s a) := by
  cases a with
  | pass i p => exact h.pass f before hc hfed
  | update mergeNow timeoutNow mergeOk timeoutOk cache time => exact h.update f before hc
  | handle a ha => exact h.handle f before ha hc

/-! ## Main theorem -/

variable (pv)

/-- **Main theorem**: in a run on schedule in which every 20 s have a counted event of the PV,
    it is never timed out and gets no `Timeout` row. -/
theorem scalars_never_time_out (pvNames : Fin n → List String) (defaultHeartbeatS : Binary32)
    (t : PvStatusTable) (cache : String → Option Int32) (hcache : cache pv.name = some pv.id)
    (started initialised : ℕ) (hinitialised : started ≤ initialised) (subscribed : List String)
    (acts : List (LiveAct n))
    (hschedule : AlongSteps (step f before pv) (OnSchedule pv)
      (start pvNames defaultHeartbeatS started t cache initialised subscribed) acts)
    (hfed : AlongStates (step f before pv) (fun s => EveryWindow started s.clock s.counted)
      (start pvNames defaultHeartbeatS started t cache initialised subscribed) acts) :
    AlongStates (step f before pv) (NotTimedOut pv)
      (start pvNames defaultHeartbeatS started t cache initialised subscribed) acts := by
  have hstart := Inv.start pvNames defaultHeartbeatS t hcache hinitialised subscribed
  have hsteps := (alongStates_and_alongSteps_iff.1 ⟨hfed, hschedule⟩).2
  have hinv := hsteps.invariant (fun s a hc h => h.step f before hc.1 hc.2) hstart
  exact hinv.mono fun s h => h.notTimedOut

/-- If a time is followed by another within 20 s, as long as these have passed, then every 20 s
    have one. -/
theorem everyWindow_of_gaps {now : ℕ} {times : List ℕ}
    (h : ∀ x ∈ started :: times,
      now < x + 20 * 1000000000 ∨ ∃ y ∈ times, x < y ∧ y ≤ x + 20 * 1000000000) :
    EveryWindow started now times := by
  intro w hw hnow
  -- from a time before `w` to the next one, until it is not before `w`
  have hnext : ∀ k x, x ∈ started :: times → x ≤ w → w - x ≤ k →
      ∃ t ∈ times, w ≤ t ∧ t ≤ w + 20 * 1000000000 := by
    intro k
    induction k with
    | zero =>
      intro x hx hxw hk
      obtain hlt | ⟨y, hy, hxy, hyx⟩ := h x hx
      · omega
      · exact ⟨y, hy, by omega, by omega⟩
    | succ k ih =>
      intro x hx hxw hk
      obtain hlt | ⟨y, hy, hxy, hyx⟩ := h x hx
      · omega
      · by_cases hwy : w ≤ y
        · exact ⟨y, hy, hwy, by omega⟩
        · exact ih y (List.mem_cons_of_mem started hy) (by omega) (by omega)
  exact hnext (w - started) started List.mem_cons_self hw le_rfl

/-- A PV with the id 7, and one thread. -/
def watchedA : WatchedPv 1 := ⟨"A", 7, Fin.last 0⟩

/-- Started and initialised at time 0. -/
def startA : Live 1 := start (fun _ => ["A"]) ⟨0⟩ 0 (fun _ => none) (fun _ => some 7) 0 ["A"]

/-- A pass with an event of the PV, after `s` seconds. -/
def passAt (event : MonitorEvent) (s : ℕ) : LiveAct 1 := .pass (Fin.last 0)
  { events := [⟨"A", 7, event⟩]
    cache := fun _ => some 7
    batchNow := s * 1000000000
    statsNow := s * 1000000000
    scanNow := s * 1000000000
    scanPgUs := 0
    active := fun _ => true
    config := ⟨0, []⟩
    shutdown := false }

/-- A call of `update_pv_status` after `s` seconds. -/
def updateAt (s : ℕ) : LiveAct 1 :=
  .update (s * 1000000000) (s * 1000000000) true true (fun _ => some 7) .epoch

/-- An event every 20 s and an update every 10 s. -/
def minute (event : MonitorEvent) : List (LiveAct 1) :=
  [updateAt 5, updateAt 15, passAt event 20, updateAt 25, updateAt 35, passAt event 40, updateAt 45,
    updateAt 55, passAt event 60, updateAt 65]

/-- A minute of strings is on schedule and has a stored event in every 20 s, and the PV times
    out. -/
theorem strings_time_out :
    let acts := minute (.stringDelta "open" ⟨0, 0, 0, 0⟩)
    AlongSteps (step constantFormats (fun _ _ => false) watchedA) (OnSchedule watchedA) startA acts ∧
      AlongStates (step constantFormats (fun _ _ => false) watchedA)
        (fun s => EveryWindow 0 s.clock s.stored) startA acts ∧
      ¬AlongStates (step constantFormats (fun _ _ => false) watchedA) (NotTimedOut watchedA) startA
        acts := by
  intro acts
  refine ⟨by decide +kernel, ?_, by decide +kernel⟩
  refine AlongStates.mono (I := fun s => ∀ x ∈ 0 :: s.stored, s.clock < x + 20 * 1000000000 ∨
    ∃ y ∈ s.stored, x < y ∧ y ≤ x + 20 * 1000000000) ?_ fun s => everyWindow_of_gaps
  decide +kernel

/-- A minute of scalars is on schedule, and the PV does not time out. -/
theorem scalars_minute :
    AlongStates (step constantFormats (fun _ _ => false) watchedA) (NotTimedOut watchedA) startA
      (minute (.scalarDelta .one ⟨0, 0, 0, 0⟩)) := by
  refine scalars_never_time_out constantFormats (fun _ _ => false) watchedA (fun _ => ["A"]) ⟨0⟩
    (fun _ => none) (fun _ => some 7) rfl 0 0 le_rfl ["A"] _ ?_ ?_
  · show AlongSteps _ (OnSchedule watchedA) startA _
    decide +kernel
  · show AlongStates _ _ startA _
    refine AlongStates.mono (I := fun s => ∀ x ∈ 0 :: s.counted, s.clock < x + 20 * 1000000000 ∨
      ∃ y ∈ s.counted, x < y ∧ y ≤ x + 20 * 1000000000) ?_ fun s => everyWindow_of_gaps
    decide +kernel

end Live

end AuraEpics.Main
