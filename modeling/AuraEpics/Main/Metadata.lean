import AuraEpics.Core.Metadata
import AuraEpics.Ingest.Thread
import AuraEpics.Lib.Latest
import AuraEpics.Lib.Runs

/-!
# PV metadata in the database

Model of the two routes metadata takes to `pv_metadata` (`src/handlers.rs`, lines 150-195 and
352-441) with the table operation at their end (`crates/aura-store/src/metadata.rs`, lines
286-437). A session pushes the first update of a monitor to the buffer it shares with the other
sessions (`crates/aura-net/src/runtime/session.rs`, lines 1593-1601); an ingest thread hands
over what its converters extract. Which events a thread finds on its bus is part of the step.

`collect_initial_metadata` waits between its polls, and the sessions and the threads go on, so
that a poll and the upsert at its end are steps of their own. `drain_metadata` waits between its
two sources; an update that arrives then is like one after it, a pass of a thread is not.

* `Conveys`: the step drops no metadata of a latest full update;
* `Tracked`: where the metadata of the latest full updates is.

Result: `fresh_of_conveys`, in runs of such steps the table follows the full updates.
-/

namespace AuraEpics.Main

open Numeric AuraEpics.Core AuraEpics.Ingest AuraEpics.Session AuraEpics.Store AuraEpics.Types
open Latest Runs

/-! ## Table -/

/-- `pv_metadata` (004_pv_metadata.sql), by its primary key. -/
abbrev PvMetadataTable := String → Option StoredMetadata

/-- What the statements of an upsert come to: no error; an error that leaves the table as it
    was; an error of the `INSERT` after the `DELETE` of a bulk insert; a last statement that is
    executed, its answer lost. -/
inductive UpsertOutcome where
  | ok | failed | insertFailed | answerLost
  deriving DecidableEq, Repr

/-- What is done to the rows of the PVs of a batch. -/
inductive UpsertEffect where
  | writes | deletes | keeps
  deriving DecidableEq, Repr

/-- The PVs of a batch. -/
def pvNames (entries : List StoredMetadata) : List String := entries.map StoredMetadata.pvName

/-- A batch of 100 and more is deleted and inserted by two statements (lines 297-299 and
    331-437); the second fails if a name is there twice. -/
def UpsertOutcome.effect (entries : List StoredMetadata) : UpsertOutcome → UpsertEffect
  | failed => .keeps
  | insertFailed => if entries.length < 100 then .keeps else .deletes
  | ok | answerLost =>
    if entries.length < 100 ∨ (pvNames entries).Nodup then .writes else .deletes

/-- `MetadataDao::upsert_batch` (lines 292-329): whether it returns `Ok`, and the table. -/
def PvMetadataTable.upsertBatch (t : PvMetadataTable) (entries : List StoredMetadata)
    (outcome : UpsertOutcome) : Bool × PvMetadataTable :=
  match outcome.effect entries with
  | .writes =>
    (outcome = .ok, entries.foldl (fun t m => Function.update t m.pvName (some m)) t)
  | .deletes => (false, fun name => if name ∈ pvNames entries then none else t name)
  | .keeps => (false, t)

/-! ## The state -/

/-- What the main loop shares with the sessions and with `n` ingest threads about metadata.
    `collecting` says that it is in `collect_initial_metadata`; `latestFull` is the last full
    update of each PV and `drained` says that a `drain_metadata` whose upserts succeed has run
    after it. -/
structure MetadataMain (n : ℕ) where
  metadataBuf : List (String × PvaValue)
  shards : Fin n → Ingest.Shard
  inlineMetaStore : List (String × NormativeType)
  engine : IngestEngine
  collecting : Bool
  metadataStored : List String
  table : PvMetadataTable
  latestFull : String → Option PvaValue
  drained : String → Bool

/-- A step: the first update of a monitor, a pass of an ingest thread, a call of the main
    loop. -/
inductive MetadataAct (n : ℕ) where
  | firstUpdate (pvName : String) (value : PvaValue) (isFull : Bool)
  | pass (i : Fin n) (p : Pass)
  | subscribe (okPvs : List String)
  | unsubscribe (pvName : String)
  | poll
  | collected (outcome : UpsertOutcome)
  | drain (sessions : UpsertOutcome) (passes : List (Fin n × Pass)) (inline : UpsertOutcome)

/-- The main loop does not take the step while it collects. -/
def MetadataAct.waits {n : ℕ} : MetadataAct n → Bool
  | subscribe _ | unsubscribe _ | drain _ _ _ => true
  | _ => false

/-- The metadata `drain_metadata` makes of a first update (handlers.rs, lines 364-371). -/
def sessionMetadata (raw : String × PvaValue) : Option StoredMetadata :=
  match ((PvConverter.new raw.1).convert (.value raw.2)).1 with
  | .updateWithMetadata _ initial => some (.ofInitial initial)
  | _ => none

namespace MetadataMain

variable {n : ℕ}

/-- The start, with the threads that run later and the table an earlier process has left. -/
def start (names : Fin n → List String) (defaultHeartbeatS : Binary32) (now : ℕ)
    (table : PvMetadataTable) : MetadataMain n where
  metadataBuf := []
  shards := fun i => .start (names i) defaultHeartbeatS now
  inlineMetaStore := []
  engine := .new
  collecting := false
  metadataStored := []
  table := table
  latestFull := fun _ => none
  drained := fun _ => false

/-- The first update of a monitor (session.rs, lines 1590-1601). -/
def firstUpdate (s : MetadataMain n) (pvName : String) (value : PvaValue) (isFull : Bool) :
    MetadataMain n :=
  let s := { s with metadataBuf := s.metadataBuf ++ [(pvName, value)] }
  if isFull then
    { s with
      latestFull := Function.update s.latestFull pvName (some value)
      drained := Function.update s.drained pvName false }
  else s

/-- A batch is upserted and its names are remembered if that succeeds; an empty batch is
    not (lines 374 and 398-408, and 427-436). -/
def storeBatch (s : MetadataMain n) (entries : List StoredMetadata) (outcome : UpsertOutcome) :
    Bool × MetadataMain n :=
  if entries = [] then (true, s)
  else
    let (ok, table) := s.table.upsertBatch entries outcome
    (ok, { s with
      table := table
      metadataStored := if ok then s.metadataStored ++ pvNames entries else s.metadataStored })

/-- `!metadata_stored_pvs.contains(&m.pv_name)` (lines 373 and 425). -/
def unstored (s : MetadataMain n) (entries : List StoredMetadata) : List StoredMetadata :=
  entries.filter fun m => m.pvName ∉ s.metadataStored

/-- The batch of the first source of `drain_metadata` (lines 360-373). -/
def sessionBatch (s : MetadataMain n) : List StoredMetadata :=
  s.unstored (s.metadataBuf.filterMap sessionMetadata)

/-- The batch of its second source (lines 414-426). -/
def inlineBatch (s : MetadataMain n) : List StoredMetadata :=
  s.unstored (s.inlineMetaStore.map .ofInitial)

/-- The batch of `collect_initial_metadata` (lines 176-180). -/
def collectedBatch (s : MetadataMain n) : List StoredMetadata :=
  s.engine.pendingMetadata.map .ofInitial

/-- `PvaDriver::drain_metadata` and the poll around it (lines 160-164). -/
def poll (s : MetadataMain n) : MetadataMain n := { s with
  metadataBuf := []
  engine := s.metadataBuf.foldl (fun e raw => (e.processEvent raw.1 (.value raw.2)).2) s.engine
  collecting := true }

/-- The end of `collect_initial_metadata` (lines 171-194). -/
def collected (s : MetadataMain n) (outcome : UpsertOutcome) : MetadataMain n :=
  (storeBatch { s with engine := { s.engine with pendingMetadata := [] }, collecting := false }
    s.collectedBatch outcome).2

variable (f : Formats) (before : ℕ → Binary32 → Bool)

/-- A pass of a thread, which appends its metadata to the shared store. -/
def pass (s : MetadataMain n) (i : Fin n) (p : Pass) : MetadataMain n :=
  let shard := (({ s.shards i with metaStore := s.inlineMetaStore } : Ingest.Shard).pass f before p).1
  { s with
    shards := Function.update s.shards i { shard with metaStore := [] }
    inlineMetaStore := shard.metaStore }

/-- The first source of `drain_metadata` (lines 358-411). -/
def drainSessions (s : MetadataMain n) (outcome : UpsertOutcome) : Bool × MetadataMain n :=
  storeBatch { s with metadataBuf := [] } s.sessionBatch outcome

/-- Its second source (lines 413-440). -/
def drainInline (s : MetadataMain n) (outcome : UpsertOutcome) : Bool × MetadataMain n :=
  storeBatch { s with inlineMetaStore := [] } s.inlineBatch outcome

/-- The state in which `drain_metadata` comes to its second source. -/
def halfDrained (s : MetadataMain n) (sessions : UpsertOutcome) (passes : List (Fin n × Pass)) :
    MetadataMain n :=
  passes.foldl (fun s ip => s.pass f before ip.1 ip.2) (s.drainSessions sessions).2

/-- The upserts of the call succeed. -/
def drainSucceeds (s : MetadataMain n) (sessions : UpsertOutcome) (passes : List (Fin n × Pass))
    (inline : UpsertOutcome) : Bool :=
  (s.drainSessions sessions).1 && ((s.halfDrained f before sessions passes).drainInline inline).1

/-- `drain_metadata` (lines 352-441). -/
def drain (s : MetadataMain n) (sessions : UpsertOutcome) (passes : List (Fin n × Pass))
    (inline : UpsertOutcome) : MetadataMain n :=
  let s' := ((s.halfDrained f before sessions passes).drainInline inline).2
  { s' with drained := fun pv => s.drained pv || s.drainSucceeds f before sessions passes inline }

/-- One step. -/
def step (s : MetadataMain n) (a : MetadataAct n) : MetadataMain n :=
  if s.collecting ∧ a.waits then s
  else
    match a with
    | .firstUpdate pvName value isFull => s.firstUpdate pvName value isFull
    | .pass i p => s.pass f before i p
    | .subscribe okPvs => { s with engine := okPvs.foldl .registerPv s.engine }
    | .unsubscribe pvName => { s with engine := s.engine.unregisterPv pvName }
    | .poll => s.poll
    | .collected outcome => s.collected outcome
    | .drain sessions passes inline => s.drain f before sessions passes inline

end MetadataMain

/-! ## What a batch leaves -/

/-- The last entry of the batch for the PV. -/
def lastEntry (entries : List StoredMetadata) (pv : String) : Option StoredMetadata :=
  latest (entries.map fun m => (m.pvName, m)) pv

theorem lastEntry_eq_none_iff {entries : List StoredMetadata} {pv : String} :
    lastEntry entries pv = none ↔ pv ∉ pvNames entries := by
  unfold lastEntry pvNames
  rw [latest_eq_none_iff, List.map_map]
  exact Iff.rfl

theorem mem_pvNames_of_lastEntry {entries : List StoredMetadata} {pv : String}
    {m : StoredMetadata} (h : lastEntry entries pv = some m) : pv ∈ pvNames entries := by
  by_contra hnot
  rw [lastEntry_eq_none_iff.2 hnot] at h
  cases h

theorem lastEntry_concat (entries : List StoredMetadata) (m : StoredMetadata) (pv : String) :
    lastEntry (entries ++ [m]) pv = if pv = m.pvName then some m else lastEntry entries pv := by
  unfold lastEntry
  rw [List.map_append, List.map_singleton, latest_concat]

theorem foldl_insert (entries : List StoredMetadata) (t : PvMetadataTable) (pv : String) :
    entries.foldl (fun (t : PvMetadataTable) m => Function.update t m.pvName (some m)) t pv =
      (lastEntry entries pv).or (t pv) := by
  induction entries using List.reverseRecOn with
  | nil => rfl
  | append_singleton entries m ih =>
    rw [List.foldl_append, lastEntry_concat]
    show Function.update (entries.foldl (fun (t : PvMetadataTable) m =>
      Function.update t m.pvName (some m)) t) m.pvName (some m) pv = _
    by_cases hpv : pv = m.pvName
    · rw [hpv, Function.update_self, if_pos rfl, Option.some_or]
    · rw [Function.update_of_ne hpv, ih, if_neg hpv]

/-- A batch without the PV leaves its row. -/
theorem upsertBatch_of_notMem (t : PvMetadataTable) {entries : List StoredMetadata} {pv : String}
    (h : pv ∉ pvNames entries) (outcome : UpsertOutcome) :
    (t.upsertBatch entries outcome).2 pv = t pv := by
  unfold PvMetadataTable.upsertBatch
  cases outcome.effect entries with
  | writes =>
    dsimp only
    rw [foldl_insert, lastEntry_eq_none_iff.2 h, Option.none_or]
  | deletes => exact if_neg h
  | keeps => rfl

theorem effect_ok {entries : List StoredMetadata}
    (h : entries.length < 100 ∨ (pvNames entries).Nodup) :
    UpsertOutcome.ok.effect entries = .writes := if_pos h

/-- A session pushes what it decodes of the first update of a monitor, under its name. -/
theorem metadataBuf_applyUpdate (s : PvaSession) (rid : Int32) {mon : MonitorEntry}
    (hfirst : mon.updatesReceived = 0) (desc : Codec.FieldDesc) (changed : Codec.PvaBitSet)
    {r r' : Codec.PvaReader} {v : PvaValue}
    (hdecode : (if changed.isSet 0 then decodeFrom desc else decodeDeltaRoot changed desc) r =
      (.ok v, r')) :
    (s.applyUpdate rid mon desc changed r).2.metadataBuf =
      s.metadataBuf.map fun buf => buf ++ [(mon.pvName, v)] := by
  have hslow : mon.fastPath changed r = (none, r) := by
    unfold MonitorEntry.fastPath
    rw [hfirst]
    simp
  unfold PvaSession.applyUpdate
  rw [hslow]
  dsimp only
  rw [hdecode]
  dsimp only
  by_cases hfull : changed.isSet 0 = true
  · rw [if_pos hfull]
    dsimp only
    rw [if_pos hfirst]
    rfl
  · rw [if_neg hfull, if_pos hfirst]
    rfl

/-- What `drain_metadata` makes of a first update is the row of the update. -/
theorem sessionMetadata_eq (raw : String × PvaValue) :
    sessionMetadata raw = StoredMetadata.rowOf raw.1 raw.2 := by
  obtain ⟨name, value⟩ := raw
  unfold sessionMetadata StoredMetadata.rowOf
  obtain ⟨hnone, hskip⟩ | ⟨nt, hnt, hupdate | hmeta⟩ :=
    (PvConverter.new name).convert_cases (.value value)
  · rw [hskip, show toNormativeFromValue value = none from hnone]
    rfl
  · -- a new converter has not extracted metadata
    have hvalue : (PvConverter.new name).convertValue value = (.update ⟨name, none, nt⟩, .new name) :=
      hupdate
    unfold PvConverter.convertValue at hvalue
    rw [show toNormativeFromValue value = some nt from hnt] at hvalue
    split_ifs at hvalue
    · cases congrArg Prod.fst hvalue
    · cases congrArg Prod.fst hvalue
  · rw [hmeta, show toNormativeFromValue value = some nt from hnt]
    rfl

/-! ## What a converter extracts -/

/-- The rows of the updates of a PV, in their order. -/
def rowsOf (updates : List (String × PvaValue)) (pv : String) : List StoredMetadata :=
  updates.filterMap fun raw => if raw.1 = pv then StoredMetadata.rowOf pv raw.2 else none

/-- The PV has a converter, which has not extracted metadata. -/
def awaitsMetadata (e : IngestEngine) (pv : String) : Bool :=
  (e.converters pv).elim false fun c => !c.metadataExtracted

/-- The rows of `pending_metadata`. -/
def pendingRows (e : IngestEngine) : List StoredMetadata := e.pendingMetadata.map .ofInitial

/-- A PV is pending at most once, and then its converter has extracted. -/
structure Extracting (e : IngestEngine) : Prop where
  named : e.Named
  once : (pvNames (pendingRows e)).Nodup
  awaits : ∀ pv, awaitsMetadata e pv = true → pv ∉ pvNames (pendingRows e)

/-- What an update makes pending: its metadata, if its converter has not extracted any. -/
structure Extracts (e e' : IngestEngine) (name : String) (value : PvaValue) : Prop where
  awaits : ∀ pv, awaitsMetadata e' pv =
    (awaitsMetadata e pv && !(decide (pv = name) && (StoredMetadata.rowOf pv value).isSome))
  pending : ∀ pv, lastEntry (pendingRows e') pv =
    if awaitsMetadata e pv = true ∧ pv = name then StoredMetadata.rowOf pv value
    else lastEntry (pendingRows e) pv

/-- An engine whose converters and pending metadata an update leaves. -/
theorem extracts_of_same {e e' : IngestEngine} (he : Extracting e) {name : String}
    {value : PvaValue} (hconverters : e'.converters = e.converters)
    (hpending : e'.pendingMetadata = e.pendingMetadata)
    (hnot : awaitsMetadata e name = true → StoredMetadata.rowOf name value = none) :
    Extracting e' ∧ Extracts e e' name value := by
  have hawaits : ∀ pv, awaitsMetadata e' pv = awaitsMetadata e pv := fun pv => by
    unfold awaitsMetadata
    rw [hconverters]
  have hrows : pendingRows e' = pendingRows e := by
    unfold pendingRows
    rw [hpending]
  refine ⟨⟨?_, ?_, ?_⟩, fun pv => ?_, fun pv => ?_⟩
  · unfold IngestEngine.Named
    rw [hconverters]
    exact he.named
  · rw [hrows]
    exact he.once
  · intro pv
    rw [hrows, hawaits]
    exact he.awaits pv
  · rw [hawaits]
    cases h : awaitsMetadata e pv with
    | false => rfl
    | true =>
      by_cases hpv : pv = name
      · rw [hpv] at h ⊢
        rw [hnot h]
        simp
      · simp [hpv]
  · rw [hrows]
    split_ifs with h
    · obtain ⟨h, rfl⟩ := h
      rw [hnot h, lastEntry_eq_none_iff]
      exact he.awaits pv h
    · rfl

/-- An engine in which the converter of `name` has extracted its metadata. -/
theorem extracts_of_new {e e' : IngestEngine} (he : Extracting e) {name : String}
    {value : PvaValue} {nt : NormativeType} (hnt : toNormativeFromValue value = some nt)
    (hnew : awaitsMetadata e name = true)
    (hconverters : e'.converters = Function.update e.converters name (some ⟨name, true⟩))
    (hpending : e'.pendingMetadata = e.pendingMetadata ++ [(name, nt)]) :
    Extracting e' ∧ Extracts e e' name value := by
  have hrow : StoredMetadata.rowOf name value = some (.ofInitial (name, nt)) := by
    unfold StoredMetadata.rowOf
    rw [hnt]
    rfl
  have hawaits : ∀ pv, awaitsMetadata e' pv = (awaitsMetadata e pv && !decide (pv = name)) := by
    intro pv
    unfold awaitsMetadata
    rw [hconverters]
    by_cases hpv : pv = name
    · rw [hpv, Function.update_self]
      simp
    · rw [Function.update_of_ne hpv]
      simp [hpv]
  have hrows : pendingRows e' = pendingRows e ++ [.ofInitial (name, nt)] := by
    unfold pendingRows
    rw [hpending, List.map_append, List.map_singleton]
  have hnames : pvNames (pendingRows e ++ [.ofInitial (name, nt)]) =
      pvNames (pendingRows e) ++ [name] := by
    unfold pvNames
    rw [List.map_append, List.map_singleton, StoredMetadata.pvName_ofInitial]
  refine ⟨⟨fun pv c hc => ?_, ?_, fun pv h => ?_⟩, fun pv => ?_, fun pv => ?_⟩
  · rw [hconverters] at hc
    by_cases hpv : pv = name
    · rw [hpv, Function.update_self] at hc
      cases hc
      exact hpv.symm
    · rw [Function.update_of_ne hpv] at hc
      exact he.named pv c hc
  · rw [hrows, hnames]
    exact List.Nodup.append he.once (List.nodup_singleton name) (by simpa using he.awaits name hnew)
  · rw [hawaits, Bool.and_eq_true] at h
    rw [hrows, hnames, List.mem_append, List.mem_singleton, not_or]
    exact ⟨he.awaits pv h.1, by simpa using h.2⟩
  · rw [hawaits]
    by_cases hpv : pv = name
    · rw [hpv, hrow, Option.isSome_some, Bool.and_true]
    · simp [hpv]
  · rw [hrows, lastEntry_concat, StoredMetadata.pvName_ofInitial]
    by_cases hpv : pv = name
    · rw [hpv, if_pos rfl, if_pos ⟨hnew, rfl⟩, hrow]
    · rw [if_neg hpv, if_neg fun h => hpv h.2]

theorem processEvent_extracts {e : IngestEngine} (he : Extracting e) (name : String)
    (value : PvaValue) :
    Extracting (e.processEvent name (.value value)).2 ∧
      Extracts e (e.processEvent name (.value value)).2 name value := by
  have hawaits : awaitsMetadata e name = (e.converters name).elim false fun c =>
    !c.metadataExtracted := rfl
  unfold IngestEngine.processEvent
  dsimp only
  cases hc : e.converters name with
  | none =>
    rw [hc] at hawaits
    exact extracts_of_same he rfl rfl fun h => absurd (hawaits.symm.trans h) Bool.false_ne_true
  | some c =>
    have hsame : Function.update e.converters name (some c) = e.converters := by
      rw [← hc, Function.update_eq_self]
    have hname : c.pvName = name := he.named name c hc
    rw [hc] at hawaits
    dsimp only
    rw [PvConverter.convert_value_eq]
    cases hnt : toNormativeFromValue value with
    | none =>
      have hrow : StoredMetadata.rowOf name value = none := by
        unfold StoredMetadata.rowOf
        rw [hnt]
        rfl
      exact extracts_of_same he hsame rfl fun _ => hrow
    | some nt =>
      unfold PvConverter.maybeAttachMetadata
      dsimp only [Option.elim] at hawaits ⊢
      cases hextracted : c.metadataExtracted with
      | true =>
        rw [hextracted] at hawaits
        exact extracts_of_same he hsame rfl fun h => absurd (hawaits.symm.trans h) Bool.false_ne_true
      | false =>
        rw [hextracted] at hawaits
        exact extracts_of_new he hnt hawaits (by rw [hname]; rfl) (by rw [hname]; rfl)

/-- What a poll makes pending: for a PV whose converter has not extracted, the first row. -/
theorem foldl_extracts {e : IngestEngine} (he : Extracting e)
    (updates : List (String × PvaValue)) :
    let e' := updates.foldl (fun e raw => (e.processEvent raw.1 (.value raw.2)).2) e
    Extracting e' ∧ ∀ pv, lastEntry (pendingRows e') pv =
      if awaitsMetadata e pv = true then (rowsOf updates pv).head?
      else lastEntry (pendingRows e) pv := by
  induction updates generalizing e with
  | nil =>
    refine ⟨he, fun pv => ?_⟩
    split_ifs with h
    · exact lastEntry_eq_none_iff.2 (he.awaits pv h)
    · rfl
  | cons raw updates ih =>
    obtain ⟨name, value⟩ := raw
    obtain ⟨he', hstep⟩ := processEvent_extracts he name value
    obtain ⟨hlast, hpending⟩ := ih he'
    refine ⟨hlast, fun pv => ?_⟩
    have hrows : rowsOf ((name, value) :: updates) pv =
        (if name = pv then StoredMetadata.rowOf pv value else none).toList ++ rowsOf updates pv := by
      unfold rowsOf
      rw [List.filterMap_cons]
      split <;> simp_all
    show lastEntry (pendingRows (updates.foldl _ _)) pv = _
    rw [hpending pv, hstep.awaits, hstep.pending, hrows]
    cases hawaits : awaitsMetadata e pv with
    | false => simp
    | true =>
      by_cases hpv : pv = name
      · subst hpv
        cases hrow : StoredMetadata.rowOf pv value <;> simp
      · simp [hpv, Ne.symm hpv]

namespace MetadataMain

variable {n : ℕ}

/-! ## What becomes of a row -/

theorem storeBatch_of_notMem (s : MetadataMain n) {entries : List StoredMetadata} {pv : String}
    (h : pv ∉ pvNames entries) (outcome : UpsertOutcome) :
    (s.storeBatch entries outcome).2.table pv = s.table pv := by
  unfold storeBatch
  split_ifs
  · rfl
  · exact upsertBatch_of_notMem s.table h outcome

/-- A batch that is upserted: its last entry for a PV is the row. -/
theorem storeBatch_ok (s : MetadataMain n) {entries : List StoredMetadata} {pv : String}
    {row : StoredMetadata} (hrow : lastEntry entries pv = some row)
    (hok : entries.length < 100 ∨ (pvNames entries).Nodup) :
    (s.storeBatch entries .ok).2.table pv = some row ∧
      pv ∈ (s.storeBatch entries .ok).2.metadataStored := by
  have hmem := mem_pvNames_of_lastEntry hrow
  have hne : entries ≠ [] := by
    rintro rfl
    cases hmem
  unfold storeBatch PvMetadataTable.upsertBatch
  rw [if_neg hne, effect_ok hok]
  refine ⟨?_, List.mem_append_right _ hmem⟩
  show entries.foldl _ s.table pv = _
  rw [foldl_insert, hrow, Option.some_or]

/-- What a batch leaves as it is. -/
structure KeepsUpdates (s s' : MetadataMain n) : Prop where
  metadataBuf : s'.metadataBuf = s.metadataBuf
  engine : s'.engine = s.engine
  collecting : s'.collecting = s.collecting
  latestFull : s'.latestFull = s.latestFull
  drained : s'.drained = s.drained

theorem storeBatch_keeps (s : MetadataMain n) (entries : List StoredMetadata)
    (outcome : UpsertOutcome) : KeepsUpdates s (s.storeBatch entries outcome).2 := by
  unfold storeBatch
  split_ifs <;> exact ⟨rfl, rfl, rfl, rfl, rfl⟩

theorem metadataStored_storeBatch (s : MetadataMain n) (entries : List StoredMetadata)
    (outcome : UpsertOutcome) {pv : String} (h : pv ∈ s.metadataStored) :
    pv ∈ (s.storeBatch entries outcome).2.metadataStored := by
  unfold storeBatch
  split_ifs
  · exact h
  · show pv ∈ if _ then s.metadataStored ++ pvNames entries else s.metadataStored
    split_ifs
    · exact List.mem_append_left _ h
    · exact h

/-- The gate: no batch of `drain_metadata` names a PV that has been stored. -/
theorem notMem_unstored {s : MetadataMain n} {pv : String} (h : pv ∈ s.metadataStored)
    (entries : List StoredMetadata) : pv ∉ pvNames (s.unstored entries) := by
  intro hpv
  obtain ⟨m, hm, rfl⟩ := List.mem_map.1 hpv
  have hunstored : m.pvName ∉ s.metadataStored := by simpa using (List.mem_filter.1 hm).2
  exact hunstored h

/-- The updates that wait in the session buffer with metadata of a PV that is not in
    `metadata_stored_pvs`. -/
def newUpdates (s : MetadataMain n) : List (String × PvaValue) :=
  s.metadataBuf.filter fun raw =>
    raw.1 ∉ s.metadataStored ∧ (StoredMetadata.rowOf raw.1 raw.2).isSome

theorem pvNames_sessionBatch (s : MetadataMain n) :
    pvNames s.sessionBatch = s.newUpdates.map Prod.fst := by
  unfold sessionBatch unstored newUpdates
  generalize s.metadataBuf = buf
  induction buf with
  | nil => rfl
  | cons raw buf ih =>
    rw [List.filterMap_cons, sessionMetadata_eq]
    cases hrow : StoredMetadata.rowOf raw.1 raw.2 with
    | none =>
      rw [List.filter_cons_of_neg (by simp [hrow])]
      exact ih
    | some row =>
      have hname := StoredMetadata.pvName_of_rowOf hrow
      dsimp only
      by_cases hstored : raw.1 ∈ s.metadataStored
      · rw [List.filter_cons_of_neg (by simpa [hname] using hstored),
          List.filter_cons_of_neg (by simpa using fun h => absurd hstored h)]
        exact ih
      · rw [List.filter_cons_of_pos (by simpa [hname] using hstored),
          List.filter_cons_of_pos (by simpa [hrow] using hstored)]
        exact congrArg₂ List.cons hname ih

theorem lastEntry_sessionBatch (s : MetadataMain n) {pv : String} (h : pv ∉ s.metadataStored) :
    lastEntry s.sessionBatch pv = (rowsOf s.metadataBuf pv).getLast? := by
  unfold sessionBatch unstored
  generalize s.metadataBuf = buf
  induction buf using List.reverseRecOn with
  | nil => rfl
  | append_singleton buf raw ih =>
    have hrows : rowsOf (buf ++ [raw]) pv =
        rowsOf buf pv ++ (if raw.1 = pv then StoredMetadata.rowOf pv raw.2 else none).toList := by
      unfold rowsOf
      rw [List.filterMap_append]
      rfl
    rw [List.filterMap_append, List.filter_append, hrows, List.filterMap_cons, sessionMetadata_eq]
    cases hrow : StoredMetadata.rowOf raw.1 raw.2 with
    | none =>
      rw [List.filterMap_nil, List.filter_nil, List.append_nil, ih]
      by_cases hpv : raw.1 = pv
      · rw [if_pos hpv, ← hpv, hrow, Option.toList_none, List.append_nil]
      · rw [if_neg hpv, Option.toList_none, List.append_nil]
    | some row =>
      have hname := StoredMetadata.pvName_of_rowOf hrow
      dsimp only [List.filterMap_nil]
      by_cases hpv : raw.1 = pv
      · rw [if_pos hpv, ← hpv, hrow, List.filter_cons_of_pos (by simpa [hname, hpv] using h),
          List.filter_nil, lastEntry_concat, if_pos hname.symm, Option.toList_some,
          List.getLast?_concat]
      · rw [if_neg hpv, Option.toList_none, List.append_nil, ← ih]
        by_cases hstored : row.pvName ∈ s.metadataStored
        · rw [List.filter_cons_of_neg (by simpa using hstored), List.filter_nil, List.append_nil]
        · rw [List.filter_cons_of_pos (by simpa using hstored), List.filter_nil, lastEntry_concat,
            if_neg (by rw [hname]; exact Ne.symm hpv)]

/-! ## Fresh rows -/

/-- The row of the latest full update of the PV. -/
def latestRow (s : MetadataMain n) (pv : String) : Option StoredMetadata :=
  (s.latestFull pv).bind (StoredMetadata.rowOf pv)

/-- The rows are those of the latest full updates, as far as these have been drained. -/
def Fresh (s : MetadataMain n) : Prop :=
  ∀ pv, s.drained pv = true → ∀ row ∈ s.latestRow pv, s.table pv = some row

/-- The latest full update of the PV waits in the session buffer. -/
def Waits (s : MetadataMain n) (pv : String) : Prop :=
  ∃ value, s.latestFull pv = some value ∧ (pv, value) ∈ s.metadataBuf

/-- The step drops no metadata of a latest full update. A poll drops what a PV's converter does
    not extract, because it has extracted before or there is none; `drain_metadata` what is of a
    PV in `metadata_stored_pvs`; and an upsert that fails its whole batch. -/
def Conveys (s : MetadataMain n) : MetadataAct n → Prop
  | .poll => ∀ pv, ∀ row ∈ s.latestRow pv,
    if awaitsMetadata s.engine pv = true then ∀ first ∈ (rowsOf s.metadataBuf pv).head?, first = row
    else s.Waits pv → lastEntry s.collectedBatch pv = some row ∨
      pv ∉ pvNames s.collectedBatch ∧ pv ∈ s.metadataStored ∧ s.table pv = some row
  | .collected outcome => s.engine.pendingMetadata = [] ∨ outcome = .ok
  | .drain sessions _ _ =>
    s.collecting = true ∨
      (s.newUpdates = [] ∨ sessions = .ok ∧
        (s.newUpdates.length < 100 ∨ (s.newUpdates.map Prod.fst).Nodup)) ∧
      ∀ pv, ∀ row ∈ s.latestRow pv,
        if pv ∈ s.metadataStored then s.Waits pv → s.table pv = some row
        else ∀ last ∈ (rowsOf s.metadataBuf pv).getLast?, last = row
  | _ => True

/-! ## Where the metadata is -/

/-- The row of the latest full update waits with it in the session buffer, or is pending, or is
    in the table under a name that has been stored. -/
inductive Kept (s : MetadataMain n) (pv : String) (row : StoredMetadata) : Prop
  | waits (hwaits : s.Waits pv) (hdrained : s.drained pv = false)
  | pending (hpending : lastEntry s.collectedBatch pv = some row)
    (htable : s.drained pv = true → s.table pv = some row)
  | stored (hpending : pv ∉ pvNames s.collectedBatch) (hstored : pv ∈ s.metadataStored)
    (htable : s.table pv = some row)

/-- The invariant: no row of a latest full update is lost, and metadata is pending only while
    the main loop collects. -/
structure Tracked (s : MetadataMain n) : Prop where
  extracting : Extracting s.engine
  idle : s.collecting = false → s.engine.pendingMetadata = []
  kept : ∀ pv, ∀ row ∈ s.latestRow pv, s.Kept pv row

theorem Tracked.fresh {s : MetadataMain n} (h : s.Tracked) : s.Fresh := by
  intro pv hdrained row hrow
  cases h.kept pv row hrow with
  | waits _ hnot => exact absurd (hnot.symm.trans hdrained) Bool.false_ne_true
  | pending _ htable => exact htable hdrained
  | stored _ _ htable => exact htable

theorem mem_rowsOf_of_waits {s : MetadataMain n} {pv : String} {row : StoredMetadata}
    (hwaits : s.Waits pv) (hrow : row ∈ s.latestRow pv) : row ∈ rowsOf s.metadataBuf pv := by
  obtain ⟨value, hlatest, hmem⟩ := hwaits
  have hvalue : StoredMetadata.rowOf pv value = some row := by
    have h : (s.latestFull pv).bind (StoredMetadata.rowOf pv) = some row := hrow
    rwa [hlatest] at h
  exact List.mem_filterMap.2 ⟨(pv, value), hmem, by simpa using hvalue⟩

theorem extracting_of_idle {e : IngestEngine} (hnamed : e.Named) (h : e.pendingMetadata = []) :
    Extracting e := by
  have hrows : pendingRows e = [] := by
    unfold pendingRows
    rw [h]
    rfl
  refine ⟨hnamed, ?_, fun pv _ => ?_⟩
  · rw [hrows]
    exact List.nodup_nil
  · rw [hrows]
    exact List.not_mem_nil

/-! ## Steps -/

theorem tracked_firstUpdate {s : MetadataMain n} (hs : s.Tracked) (pvName : String)
    (value : PvaValue) (isFull : Bool) : (s.firstUpdate pvName value isFull).Tracked := by
  unfold firstUpdate
  cases isFull with
  | false =>
    refine ⟨hs.extracting, hs.idle, fun pv row hrow => ?_⟩
    cases hs.kept pv row hrow with
    | waits hwaits hdrained =>
      obtain ⟨v, hlatest, hmem⟩ := hwaits
      exact .waits ⟨v, hlatest, List.mem_append_left _ hmem⟩ hdrained
    | pending hpending htable => exact .pending hpending htable
    | stored hpending hstored htable => exact .stored hpending hstored htable
  | true =>
    refine ⟨hs.extracting, hs.idle, fun pv row hrow => ?_⟩
    by_cases hpv : pv = pvName
    · -- the update itself waits
      subst hpv
      exact .waits ⟨value, Function.update_self .., by simp⟩ (Function.update_self ..)
    · have hlatest : Function.update s.latestFull pvName (some value) pv = s.latestFull pv :=
        Function.update_of_ne hpv ..
      have hdrained : Function.update s.drained pvName false pv = s.drained pv :=
        Function.update_of_ne hpv ..
      have hold : row ∈ s.latestRow pv := by
        have h : (Function.update s.latestFull pvName (some value) pv).bind
          (StoredMetadata.rowOf pv) = some row := hrow
        rwa [hlatest] at h
      cases hs.kept pv row hold with
      | waits hwaits hnot =>
        obtain ⟨v, hv, hmem⟩ := hwaits
        exact .waits ⟨v, hlatest.trans hv, List.mem_append_left _ hmem⟩ (hdrained.trans hnot)
      | pending hpending htable =>
        exact .pending hpending fun h => htable (hdrained.symm.trans h)
      | stored hpending hstored htable => exact .stored hpending hstored htable

theorem tracked_poll {s : MetadataMain n} (hs : s.Tracked) (h : s.Conveys .poll) :
    s.poll.Tracked := by
  obtain ⟨hextracting, hpending⟩ := foldl_extracts hs.extracting s.metadataBuf
  refine ⟨hextracting, fun h => absurd h.symm Bool.false_ne_true, fun pv row hrow => ?_⟩
  have hconveys := h pv row hrow
  have hlast : lastEntry s.poll.collectedBatch pv = _ := hpending pv
  have hold := hs.kept pv row hrow
  cases hawaits : awaitsMetadata s.engine pv with
  | true =>
    rw [if_pos hawaits] at hconveys hlast
    have hnone : pv ∉ pvNames s.collectedBatch := hs.extracting.awaits pv hawaits
    cases hold with
    | waits hwaits hdrained =>
      cases hhead : (rowsOf s.metadataBuf pv).head? with
      | none =>
        rw [List.head?_eq_none_iff] at hhead
        have hmem := mem_rowsOf_of_waits hwaits hrow
        rw [hhead] at hmem
        cases hmem
      | some first =>
        rw [hhead] at hlast
        rw [hconveys first hhead] at hlast
        exact .pending hlast fun hd => absurd (hdrained.symm.trans hd) Bool.false_ne_true
    | pending hpend _ => exact absurd (mem_pvNames_of_lastEntry hpend) hnone
    | stored _ hstored htable =>
      cases hhead : (rowsOf s.metadataBuf pv).head? with
      | none =>
        rw [hhead] at hlast
        exact .stored (lastEntry_eq_none_iff.1 hlast) hstored htable
      | some first =>
        rw [hhead] at hlast
        rw [hconveys first hhead] at hlast
        exact .pending hlast fun _ => htable
  | false =>
    rw [if_neg (by rw [hawaits]; exact Bool.false_ne_true)] at hconveys hlast
    cases hold with
    | waits hwaits hdrained =>
      rcases hconveys hwaits with hpend | ⟨hnone, hstored, htable⟩
      · exact .pending (hlast.trans hpend) fun hd =>
          absurd (hdrained.symm.trans hd) Bool.false_ne_true
      · exact .stored (lastEntry_eq_none_iff.1 (hlast.trans (lastEntry_eq_none_iff.2 hnone)))
          hstored htable
    | pending hpend htable => exact .pending (hlast.trans hpend) htable
    | stored hnone hstored htable =>
      exact .stored (lastEntry_eq_none_iff.1 (hlast.trans (lastEntry_eq_none_iff.2 hnone)))
        hstored htable

theorem tracked_collected {s : MetadataMain n} (hs : s.Tracked) {outcome : UpsertOutcome}
    (h : s.Conveys (.collected outcome)) : (s.collected outcome).Tracked := by
  have hkeeps := storeBatch_keeps { s with
    engine := { s.engine with pendingMetadata := [] }, collecting := false } s.collectedBatch outcome
  have hpending : (s.collected outcome).engine.pendingMetadata = [] := by
    unfold collected
    rw [hkeeps.engine]
  have hbatch : (s.collected outcome).collectedBatch = [] := by
    unfold collectedBatch
    rw [hpending]
    rfl
  have hnone : ∀ pv, pv ∉ pvNames (s.collected outcome).collectedBatch := by
    rw [hbatch]
    exact fun _ => List.not_mem_nil
  refine ⟨extracting_of_idle ?_ hpending, fun _ => hpending, fun pv row hrow => ?_⟩
  · unfold collected
    rw [hkeeps.engine]
    exact hs.extracting.named
  · have hlatest : (s.collected outcome).latestFull = s.latestFull := hkeeps.latestFull
    have hold : row ∈ s.latestRow pv := by
      unfold latestRow at hrow ⊢
      rwa [hlatest] at hrow
    cases hs.kept pv row hold with
    | waits hwaits hdrained =>
      obtain ⟨v, hv, hmem⟩ := hwaits
      refine .waits ⟨v, by rw [hlatest, hv], ?_⟩ ?_
      · unfold collected
        rw [hkeeps.metadataBuf]
        exact hmem
      · unfold collected
        rw [hkeeps.drained]
        exact hdrained
    | pending hpend _ =>
      rcases h with hempty | rfl
      · have hnil : s.collectedBatch = [] := by
          unfold collectedBatch
          rw [hempty]
          rfl
        rw [hnil] at hpend
        cases hpend
      · obtain ⟨htable, hstored⟩ := storeBatch_ok { s with
          engine := { s.engine with pendingMetadata := [] }, collecting := false } hpend
          (.inr hs.extracting.once)
        exact .stored (hnone pv) hstored htable
    | stored hpend hstored htable =>
      refine .stored (hnone pv) (metadataStored_storeBatch _ _ outcome hstored) ?_
      exact (storeBatch_of_notMem _ hpend outcome).trans htable

variable (f : Formats) (before : ℕ → Binary32 → Bool)

/-- What the passes between the two sources leave as it is. -/
theorem foldl_pass_keeps (s : MetadataMain n) (passes : List (Fin n × Pass)) :
    let s' := passes.foldl (fun s ip => s.pass f before ip.1 ip.2) s
    s'.table = s.table ∧ s'.metadataStored = s.metadataStored ∧ KeepsUpdates s s' := by
  induction passes generalizing s with
  | nil => exact ⟨rfl, rfl, rfl, rfl, rfl, rfl, rfl⟩
  | cons ip passes ih =>
    obtain ⟨htable, hstored, hkeeps⟩ := ih (s.pass f before ip.1 ip.2)
    exact ⟨htable, hstored, hkeeps.metadataBuf, hkeeps.engine, hkeeps.collecting,
      hkeeps.latestFull, hkeeps.drained⟩

/-- A PV that has been stored by the first source is not touched by the second. -/
theorem drain_row (s : MetadataMain n) (sessions : UpsertOutcome) (passes : List (Fin n × Pass))
    (inline : UpsertOutcome) {pv : String}
    (h : pv ∈ (s.drainSessions sessions).2.metadataStored) :
    (s.drain f before sessions passes inline).table pv = (s.drainSessions sessions).2.table pv ∧
      pv ∈ (s.drain f before sessions passes inline).metadataStored := by
  obtain ⟨htable, hstored, -⟩ := foldl_pass_keeps f before (s.drainSessions sessions).2 passes
  have hhalf : pv ∈ (s.halfDrained f before sessions passes).metadataStored := by
    unfold halfDrained
    rwa [hstored]
  unfold drain drainInline
  dsimp only
  refine ⟨?_, metadataStored_storeBatch _ _ inline hhalf⟩
  apply (storeBatch_of_notMem _ (notMem_unstored hhalf _) inline).trans
  exact congrFun htable pv

theorem drain_keeps (s : MetadataMain n) (sessions : UpsertOutcome) (passes : List (Fin n × Pass))
    (inline : UpsertOutcome) :
    (s.drain f before sessions passes inline).latestFull = s.latestFull ∧
      (s.drain f before sessions passes inline).engine = s.engine := by
  have hfirst := storeBatch_keeps { s with metadataBuf := [] } s.sessionBatch sessions
  obtain ⟨-, -, hpasses⟩ := foldl_pass_keeps f before (s.drainSessions sessions).2 passes
  have hsecond := storeBatch_keeps
    { s.halfDrained f before sessions passes with inlineMetaStore := [] }
    (s.halfDrained f before sessions passes).inlineBatch inline
  exact ⟨hsecond.latestFull.trans (hpasses.latestFull.trans hfirst.latestFull),
    hsecond.engine.trans (hpasses.engine.trans hfirst.engine)⟩

theorem tracked_drain {s : MetadataMain n} (hs : s.Tracked) (hidle : s.collecting = false)
    {sessions : UpsertOutcome} {passes : List (Fin n × Pass)} {inline : UpsertOutcome}
    (h : s.Conveys (.drain sessions passes inline)) :
    (s.drain f before sessions passes inline).Tracked := by
  obtain ⟨hlatest, hengine⟩ := drain_keeps f before s sessions passes inline
  have hpending : (s.drain f before sessions passes inline).engine.pendingMetadata = [] := by
    rw [hengine]
    exact hs.idle hidle
  refine ⟨?_, fun _ => hpending, fun pv row hrow => ?_⟩
  · rw [hengine]
    exact hs.extracting
  · have hold : row ∈ s.latestRow pv := by
      unfold latestRow at hrow ⊢
      rwa [hlatest] at hrow
    have hempty : ∀ {s' : MetadataMain n}, s'.engine.pendingMetadata = [] →
        pv ∉ pvNames s'.collectedBatch := by
      intro s' hs'
      unfold collectedBatch
      rw [hs']
      exact List.not_mem_nil
    obtain ⟨hupsert, hrows⟩ := h.resolve_left (by rw [hidle]; exact Bool.false_ne_true)
    have hpv := hrows pv row hold
    -- what the first source leaves of the PV, which the second one then skips
    have hfirst : (s.drainSessions sessions).2.table pv = some row ∧
        pv ∈ (s.drainSessions sessions).2.metadataStored := by
      unfold drainSessions
      by_cases hstored : pv ∈ s.metadataStored
      · rw [if_pos hstored] at hpv
        refine ⟨?_, metadataStored_storeBatch _ _ sessions hstored⟩
        apply (storeBatch_of_notMem _ (notMem_unstored hstored _) sessions).trans
        cases hs.kept pv row hold with
        | waits hwaits _ => exact hpv hwaits
        | pending hpend _ =>
          exact absurd (mem_pvNames_of_lastEntry hpend) (hempty (hs.idle hidle))
        | stored _ _ htable => exact htable
      · rw [if_neg hstored] at hpv
        have hwaits : s.Waits pv := by
          cases hs.kept pv row hold with
          | waits hwaits _ => exact hwaits
          | pending hpend _ =>
            exact absurd (mem_pvNames_of_lastEntry hpend) (hempty (hs.idle hidle))
          | stored _ hmem _ => exact absurd hmem hstored
        have hlast : lastEntry s.sessionBatch pv = some row := by
          rw [lastEntry_sessionBatch s hstored]
          cases hgetLast : (rowsOf s.metadataBuf pv).getLast? with
          | none =>
            have hmem := mem_rowsOf_of_waits hwaits hold
            rw [List.getLast?_eq_none_iff.1 hgetLast] at hmem
            cases hmem
          | some last => rw [hpv last hgetLast]
        have hmem := mem_pvNames_of_lastEntry hlast
        rw [pvNames_sessionBatch] at hmem
        rcases hupsert with hnil | ⟨rfl, hfits⟩
        · rw [hnil] at hmem
          cases hmem
        · rw [← List.length_map Prod.fst, ← pvNames_sessionBatch] at hfits
          unfold pvNames at hfits
          rw [List.length_map] at hfits
          exact storeBatch_ok _ hlast hfits
    obtain ⟨htable, hstored⟩ := drain_row f before s sessions passes inline hfirst.2
    exact .stored (hempty hpending) hstored (htable.trans hfirst.1)

theorem tracked_step {s : MetadataMain n} {a : MetadataAct n} (h : s.Conveys a) (hs : s.Tracked) :
    (s.step f before a).Tracked := by
  unfold step
  by_cases hwaits : s.collecting ∧ a.waits
  · rwa [if_pos hwaits]
  · rw [if_neg hwaits]
    -- the steps that are not taken while the main loop collects find nothing pending
    have hidle : a.waits = true → s.collecting = false := fun ha => by
      cases hcollecting : s.collecting with
      | false => rfl
      | true => exact absurd ⟨hcollecting, ha⟩ hwaits
    have hregister : ∀ e : IngestEngine, e.Named → e.pendingMetadata = [] →
        s.engine.pendingMetadata = [] → ({ s with engine := e } : MetadataMain n).Tracked := by
      intro e hnamed he hnil
      have hbatch : ({ s with engine := e } : MetadataMain n).collectedBatch = s.collectedBatch := by
        unfold collectedBatch
        dsimp only
        rw [he, hnil]
      refine ⟨extracting_of_idle hnamed he, fun _ => he, fun pv row hrow => ?_⟩
      cases hs.kept pv row hrow with
      | waits hwaits hdrained => exact .waits hwaits hdrained
      | pending hpend htable => exact .pending (by rwa [hbatch]) htable
      | stored hpend hstored htable => exact .stored (by rwa [hbatch]) hstored htable
    cases a with
    | firstUpdate pvName value isFull => exact tracked_firstUpdate hs pvName value isFull
    | poll => exact tracked_poll hs h
    | collected outcome => exact tracked_collected hs h
    | drain sessions passes inline => exact tracked_drain f before hs (hidle rfl) h
    | pass i p =>
      refine ⟨hs.extracting, hs.idle, fun pv row hrow => ?_⟩
      cases hs.kept pv row hrow with
      | waits hwaits hdrained => exact .waits hwaits hdrained
      | pending hpend htable => exact .pending hpend htable
      | stored hpend hstored htable => exact .stored hpend hstored htable
    | subscribe okPvs =>
      have hnil := hs.idle (hidle rfl)
      refine hregister _ (IngestEngine.foldl_registerPv_named hs.extracting.named okPvs) ?_ hnil
      exact (IngestEngine.foldl_registerPv_pending s.engine okPvs).trans hnil
    | unsubscribe pvName =>
      have hnil := hs.idle (hidle rfl)
      refine hregister _ (IngestEngine.unregisterPv_named hs.extracting.named pvName) ?_ hnil
      exact hnil

/-! ## Main theorem -/

theorem tracked_start (names : Fin n → List String) (defaultHeartbeatS : Binary32) (now : ℕ)
    (table : PvMetadataTable) : (start names defaultHeartbeatS now table).Tracked :=
  ⟨extracting_of_idle (fun _ _ h => absurd h nofun) rfl, fun _ => rfl,
    fun _ _ hrow => absurd hrow nofun⟩

/-- **Main theorem.** In a run whose steps drop no metadata of a latest full update, the rows are
    those of the latest full updates, as far as these have been drained, in every state. -/
theorem fresh_of_conveys (names : Fin n → List String) (defaultHeartbeatS : Binary32) (now : ℕ)
    (table : PvMetadataTable) {as : List (MetadataAct n)}
    (h : AlongSteps (step f before) Conveys (start names defaultHeartbeatS now table) as) :
    AlongStates (step f before) Fresh (start names defaultHeartbeatS now table) as :=
  have htracked := h.invariant (fun _ _ => tracked_step f before)
    (tracked_start names defaultHeartbeatS now table)
  htracked.mono fun _ => Tracked.fresh

/-- An enumeration with these choices. -/
def enumWith (choices : List String) : PvaValue :=
  .struct [("value", .struct [("index", .scalar (.int 0)),
    ("choices", .scalarArray (choices.map .string))])]

/-- A main loop without threads that finds an empty table. -/
def emptyMain : MetadataMain 0 := start (fun i => i.elim0) ⟨0⟩ 0 fun _ => none

/-- Two updates of the PV wait at the first drain, and after a reconnect it sends the choices it
    has stored. -/
def choiceKept : List (MetadataAct 0) :=
  [.firstUpdate "A" (enumWith ["off"]) true, .firstUpdate "A" (enumWith ["off", "on"]) true,
    .drain .ok [] .ok, .firstUpdate "A" (enumWith ["off", "on"]) true, .drain .ok [] .ok]

theorem fresh_of_conveys_choiceKept :
    AlongStates (step ⟨fun _ => .ok [], fun _ => .ok .null, fun _ => ""⟩ fun _ _ => false) Fresh
      emptyMain choiceKept := by
  have hnone : ∀ (pv : String) (value : PvaValue) (old : String → Option PvaValue), pv ≠ "A" →
      old pv = none → Function.update old "A" (some value) pv = none := fun pv value old hpv hold =>
    (Function.update_of_ne hpv _ _).trans hold
  refine fresh_of_conveys _ _ (fun i => i.elim0) ⟨0⟩ 0 (fun _ => none)
    ⟨trivial, trivial, .inr ⟨.inr ⟨rfl, .inl (by decide +kernel)⟩, fun pv row hrow => ?_⟩, trivial,
      .inr ⟨.inl (by decide +kernel), fun pv row hrow => ?_⟩, trivial⟩
  · by_cases hpv : pv = "A"
    · subst hpv
      cases hrow
      rw [if_neg (by decide +kernel)]
      decide +kernel
    · obtain ⟨v, hv, -⟩ := Option.bind_eq_some_iff.1 hrow
      exact absurd (hv.symm.trans (hnone pv _ _ hpv (hnone pv _ _ hpv rfl))) nofun
  · by_cases hpv : pv = "A"
    · subst hpv
      cases hrow
      rw [if_pos (by decide +kernel)]
      exact fun _ => by decide +kernel
    · obtain ⟨v, hv, -⟩ := Option.bind_eq_some_iff.1 hrow
      exact absurd (hv.symm.trans (hnone pv _ _ hpv (hnone pv _ _ hpv (hnone pv _ _ hpv rfl)))) nofun

/-- The IOC is restarted with one choice more, after the first ones have been stored. -/
def choiceAdded : List (MetadataAct 0) :=
  [.firstUpdate "A" (enumWith ["off"]) true, .drain .ok [] .ok,
    .firstUpdate "A" (enumWith ["off", "on"]) true, .drain .ok [] .ok]

theorem changed_choices_missing :
    ¬AlongStates (step ⟨fun _ => .ok [], fun _ => .ok .null, fun _ => ""⟩ fun _ _ => false) Fresh
      emptyMain choiceAdded := by
  intro h
  have hfresh := h.last "A" (by decide +kernel)
  exact absurd (hfresh _ rfl) (by decide +kernel)

end MetadataMain

end AuraEpics.Main
