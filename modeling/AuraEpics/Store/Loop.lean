import AuraEpics.Store.Flush

/-!
# Store loop

Model of `store_loop::run` (`crates/aura-store/src/store_loop.rs`): one pass of the
loop as a function of what the environment gives it (whether the flush task has
finished and how it fared, which deadlines have passed, what the shared buffers
and the fallback channel hold), and the shutdown that follows. Healing the COPY
connections leaves their number as it is and has no other effect here.
-/

namespace AuraEpics.Store

open AuraEpics.Core

/-! ## State -/

/-- `PendingRetry` (lines 40-44), without the instant of the next try. -/
structure PendingRetry where
  bundle : FlushBundle
  attempts : ℕ

/-- The variables of `run` and the counters of its pipeline. `bgFlush` is the bundle
    of the task in flight. `accepted` is not in the code: it counts the rows and
    array elements the writers have taken so far. -/
structure StoreLoop where
  writer : BatchWriter
  bgFlush : Option FlushBundle
  inflightAttempts : ℕ
  inflightRows : ℕ
  pendingRetry : Option PendingRetry
  totalWritten : ℕ
  flushErrors : ℕ
  rowsLost : ℕ
  totalReceived : ℕ
  totalStored : ℕ
  captureId : Int64
  accepted : ℕ

/-- `FLUSH_BACKOFF_SECS` (line 36). -/
def flushBackoffSecs : List ℕ := [1, 4, 15, 30, 60]

namespace StoreLoop

/-- The loop before its first pass. -/
def start (writer : BatchWriter) : StoreLoop where
  writer := writer
  bgFlush := none
  inflightAttempts := 0
  inflightRows := 0
  pendingRetry := none
  totalWritten := 0
  flushErrors := 0
  rowsLost := 0
  totalReceived := 0
  totalStored := 0
  captureId := 1
  accepted := 0

/-! ## Reaping and scheduling -/

/-- A flush that returned: rows written and rows lost for good (lines 70-81). -/
def settle (s : StoreLoop) (o : FlushOutcome) : StoreLoop :=
  let s := { s with totalWritten := s.totalWritten + o.report.total }
  if 0 < o.lostRows then
    { s with flushErrors := s.flushErrors + 1, rowsLost := s.rowsLost + o.lostRows }
  else s

/-- A flush that panicked or was aborted (lines 122-133, 339-343, 394-398 and
    455-459): what the progress counter does not have is lost. -/
def joinError (s : StoreLoop) (rows committed : ℕ) : StoreLoop :=
  { s with
    totalWritten := s.totalWritten + committed
    rowsLost := s.rowsLost + (rows - committed) }

/-- Retaining a bundle, or giving it up after the last attempt (lines 84-113). -/
def retain (s : StoreLoop) (attempts : ℕ) (bundle : FlushBundle) : StoreLoop :=
  let failed := attempts + 1
  let s := { s with flushErrors := s.flushErrors + 1 }
  if failed < flushBackoffSecs.length + 1 then
    { s with pendingRetry := some ⟨bundle, failed⟩ }
  else { s with rowsLost := s.rowsLost + bundle.totalRows }

/-- Part 1 of the loop (lines 60-135); `done` is the fate of the task in flight if it
    has finished. -/
def reap (s : StoreLoop) (done : Option FlushRun) : StoreLoop :=
  match done, s.bgFlush with
  | some r, some bundle =>
    let attempts := s.inflightAttempts
    let rowsAtRisk := s.inflightRows
    let s := { s with bgFlush := none, inflightAttempts := 0, inflightRows := 0 }
    match bundle.flushWithProgress r (.start s.captureId) with
    | (some o, fs) =>
      let s := { s with captureId := fs.captureId }.settle o
      match o.retry with
      | some bundle => s.retain attempts bundle
      | none => s
    | (none, fs) =>
      { s with captureId := fs.captureId, flushErrors := s.flushErrors + 1 }.joinError rowsAtRisk
        fs.progress
  | _, _ => s

/-- `tokio::spawn(bundle.flush_with_progress(..))` with its bookkeeping. -/
def spawn (s : StoreLoop) (bundle : FlushBundle) (attempts : ℕ) : StoreLoop :=
  { s with bgFlush := some bundle, inflightAttempts := attempts, inflightRows := bundle.totalRows }

/-- The retained bundle goes first, once its delay has passed (lines 138-162). -/
def scheduleRetry (s : StoreLoop) (due : Bool) : StoreLoop :=
  match s.bgFlush, s.pendingRetry with
  | none, some pr => if due then { s with pendingRetry := none }.spawn pr.bundle pr.attempts else s
  | _, _ => s

/-- A fresh bundle when a writer is full or the timer has expired (lines 165-182). -/
def scheduleFresh (s : StoreLoop) (timer : Bool) : StoreLoop :=
  if s.bgFlush.isNone ∧ s.pendingRetry.isNone ∧ s.writer.hasPending ∧
      (s.writer.anyWriterFull ∨ timer) then
    match s.writer.takeFlushBundle with
    | (some bundle, w) => { s with writer := w }.spawn bundle 0
    | (none, w) => { s with writer := w }
  else s

end StoreLoop

/-! ## Ingest -/

/-- What `take_scalars` and `take_others` give for one shared buffer. -/
structure Shard where
  scalars : List ScalarRow
  others : List WriterRow

/-- An update from the fallback channel with what the PV cache and, on a miss, the
    lookup in the database say about its name. -/
structure FallbackUpdate where
  update : PvUpdate
  cached : Option Int32
  resolved : Except String Int32

namespace BatchWriter

/-- One shared buffer emptied into the writers (lines 190-205). Both ingest functions
    leave the writers alone when there is nothing to ingest. -/
def ingestShard (b : BatchWriter) (shard : Shard) : BatchWriter :=
  (b.ingestScalars shard.scalars).ingestOtherRows shard.others

/-- One update of the fallback channel (lines 212-230): `dispatch_sync`, and on a
    cache miss `dispatch`, whose error is ignored. -/
def dispatchFallback (f : Formats) (b : BatchWriter) (u : FallbackUpdate) : BatchWriter :=
  match u.cached with
  | some pvId => b.dispatchWithId f u.update pvId .valueChanged
  | none =>
    match u.resolved with
    | .ok pvId => b.dispatchWithId f u.update pvId .valueChanged
    | .error _ => b

end BatchWriter

/-- Rows and array elements a row stands for. -/
def StoredRow.units : StoredRow → ℕ
  | scalar _ => 1
  | other (.array c) => c.len
  | other _ => 1

namespace BatchWriter

/-- Rows and array elements the push of `row` adds. -/
def acceptedRow (b : BatchWriter) (row : StoredRow) : ℕ :=
  bif (b.pushRow row).1.isAccepted then row.units else 0

/-- Rows and array elements that pushing `rows` adds. -/
def acceptedOthers (b : BatchWriter) : List WriterRow → ℕ
  | [] => 0
  | r :: rs => b.acceptedRow (.other r) + (b.pushOther r).2.acceptedOthers rs

/-- Rows and array elements the shared buffers add. -/
def acceptedShards (b : BatchWriter) : List Shard → ℕ
  | [] => 0
  | shard :: rest =>
    shard.scalars.length + (b.ingestScalars shard.scalars).acceptedOthers shard.others +
      (b.ingestShard shard).acceptedShards rest

/-- The id an update is dispatched with. -/
def fallbackId (u : FallbackUpdate) : Option Int32 :=
  match u.cached with
  | some pvId => some pvId
  | none => u.resolved.toOption

/-- The row a fallback update is pushed as, if its name resolves and it serialises. -/
def fallbackRow (f : Formats) (u : FallbackUpdate) : Option StoredRow := do
  (rowOf f u.update (← fallbackId u) .valueChanged).toOption

/-- Rows and array elements the fallback updates add. -/
def acceptedFallback (f : Formats) (b : BatchWriter) : List FallbackUpdate → ℕ
  | [] => 0
  | u :: us =>
    ((fallbackRow f u).elim 0 fun row => b.acceptedRow row) +
      acceptedFallback f (b.dispatchFallback f u) us

end BatchWriter

/-- What one pass of the loop meets. -/
structure Iteration where
  finished : Option FlushRun
  retryDue : Bool
  timer : Bool
  shards : List Shard
  fallback : List FallbackUpdate

namespace StoreLoop

/-- Updates taken from the fallback channel in one pass (line 232). -/
def fallbackBatch : ℕ := 10000

/-- Part 3 of the loop (lines 184-245). -/
def ingest (f : Formats) (s : StoreLoop) (shards : List Shard) (fallback : List FallbackUpdate) :
    StoreLoop :=
  if s.pendingRetry.isNone then
    let nShared := (shards.map fun sh => sh.scalars.length + sh.others.length).sum
    let taken := fallback.take fallbackBatch
    let w := shards.foldl BatchWriter.ingestShard s.writer
    let batchTotal := nShared + taken.length
    { s with
      writer := taken.foldl (BatchWriter.dispatchFallback f) w
      totalReceived := s.totalReceived + batchTotal
      totalStored := s.totalStored + batchTotal
      accepted := s.accepted + s.writer.acceptedShards shards + w.acceptedFallback f taken }
  else s

/-- One pass of the loop (lines 56-305). -/
def iterate (f : Formats) (s : StoreLoop) (i : Iteration) : StoreLoop :=
  (((s.reap i.finished).scheduleRetry i.retryDue).scheduleFresh i.timer).ingest f i.shards i.fallback

/-! ## Shutdown -/

/-- Stage 1 (lines 312-361): the task in flight is awaited or aborted; a bundle to be
    retried is retained whatever its attempts. -/
def shutdownInflight (s : StoreLoop) (r : FlushRun) : StoreLoop :=
  match s.bgFlush with
  | none => s
  | some bundle =>
    let s := { s with bgFlush := none }
    match bundle.flushWithProgress r (.start s.captureId) with
    | (some o, fs) =>
      let s := { s with
        captureId := fs.captureId
        totalWritten := s.totalWritten + o.report.total
        rowsLost := s.rowsLost + o.lostRows }
      match o.retry with
      | some bundle => { s with pendingRetry := some ⟨bundle, s.inflightAttempts + 1⟩ }
      | none => s
    | (none, fs) => { s with captureId := fs.captureId }.joinError s.inflightRows fs.progress

/-- The final flush of a bundle, which stages 2 and 3 share (lines 371-407 and
    429-468): what it would retry is lost as well. -/
def finalFlush (s : StoreLoop) (bundle : FlushBundle) (r : FlushRun) : StoreLoop :=
  match bundle.flushWithProgress r (.start s.captureId) with
  | (some o, fs) =>
    { s with
      captureId := fs.captureId
      totalWritten := s.totalWritten + o.report.total
      rowsLost := s.rowsLost + (o.lostRows + o.retryRows) }
  | (none, fs) => { s with captureId := fs.captureId }.joinError bundle.totalRows fs.progress

/-- Stage 2 (lines 364-408). -/
def shutdownRetry (s : StoreLoop) (r : FlushRun) : StoreLoop :=
  match s.pendingRetry with
  | none => s
  | some pr => { s with pendingRetry := none }.finalFlush pr.bundle r

/-- The drain of stage 3 (lines 411-420). -/
def shutdownDrain (s : StoreLoop) (shards : List Shard) : StoreLoop :=
  { s with
    writer := shards.foldl BatchWriter.ingestShard s.writer
    accepted := s.accepted + s.writer.acceptedShards shards }

/-- The flush of stage 3 (lines 422-470). -/
def shutdownFlush (s : StoreLoop) (r : FlushRun) : StoreLoop :=
  match s.writer.takeFlushBundle with
  | (none, w) => { s with writer := w }
  | (some bundle, w) => { s with writer := w }.finalFlush bundle r

end StoreLoop

/-- What the shutdown meets. -/
structure Shutdown where
  inflight : FlushRun
  retry : FlushRun
  shards : List Shard
  final : FlushRun

namespace StoreLoop

/-- The shutdown up to its last flush. -/
def shutdownDrained (s : StoreLoop) (d : Shutdown) : StoreLoop :=
  ((s.shutdownInflight d.inflight).shutdownRetry d.retry).shutdownDrain d.shards

/-- The graceful shutdown (lines 311-470). -/
def shutdown (s : StoreLoop) (d : Shutdown) : StoreLoop :=
  (s.shutdownDrained d).shutdownFlush d.final

/-! ## What becomes of a bundle in flight -/

theorem settle_eq (s : StoreLoop) (o : FlushOutcome) : s.settle o = { s with
    totalWritten := s.totalWritten + o.report.total
    flushErrors := if 0 < o.lostRows then s.flushErrors + 1 else s.flushErrors
    rowsLost := s.rowsLost + o.lostRows } := by
  unfold settle
  split_ifs with h
  · rfl
  · have hzero : o.lostRows = 0 := by omega
    rw [hzero]
    rfl

/-- The states part 1 can leave when the task of bundle `b` has finished: the task died,
    nothing is to be retried, the rest is retained, or the rest is given up. -/
inductive Reaped (s : StoreLoop) (b : FlushBundle) (r : FlushRun) : StoreLoop → Prop where
  | died {fs : FlushState} (hflush : b.flushWithProgress r (.start s.captureId) = (none, fs)) :
    Reaped s b r { s with
      bgFlush := none
      inflightAttempts := 0
      inflightRows := 0
      captureId := fs.captureId
      flushErrors := s.flushErrors + 1
      totalWritten := s.totalWritten + fs.progress
      rowsLost := s.rowsLost + (s.inflightRows - fs.progress) }
  | settled {o : FlushOutcome} {fs : FlushState} (flushErrors : ℕ)
    (hflush : b.flushWithProgress r (.start s.captureId) = (some o, fs)) (hretry : o.retry = none) :
    Reaped s b r { s with
      bgFlush := none
      inflightAttempts := 0
      inflightRows := 0
      captureId := fs.captureId
      flushErrors := flushErrors
      totalWritten := s.totalWritten + o.report.total
      rowsLost := s.rowsLost + o.lostRows }
  | retained {o : FlushOutcome} {fs : FlushState} {keep : FlushBundle} (flushErrors : ℕ)
    (hflush : b.flushWithProgress r (.start s.captureId) = (some o, fs))
    (hretry : o.retry = some keep) (hagain : s.inflightAttempts + 1 < flushBackoffSecs.length + 1) :
    Reaped s b r { s with
      bgFlush := none
      inflightAttempts := 0
      inflightRows := 0
      captureId := fs.captureId
      flushErrors := flushErrors
      totalWritten := s.totalWritten + o.report.total
      rowsLost := s.rowsLost + o.lostRows
      pendingRetry := some ⟨keep, s.inflightAttempts + 1⟩ }
  | exhausted {o : FlushOutcome} {fs : FlushState} {keep : FlushBundle} (flushErrors : ℕ)
    (hflush : b.flushWithProgress r (.start s.captureId) = (some o, fs))
    (hretry : o.retry = some keep) (hlast : flushBackoffSecs.length + 1 ≤ s.inflightAttempts + 1) :
    Reaped s b r { s with
      bgFlush := none
      inflightAttempts := 0
      inflightRows := 0
      captureId := fs.captureId
      flushErrors := flushErrors
      totalWritten := s.totalWritten + o.report.total
      rowsLost := s.rowsLost + o.lostRows + keep.totalRows }

theorem reaped_reap {s : StoreLoop} {b : FlushBundle} (hb : s.bgFlush = some b) (r : FlushRun) :
    Reaped s b r (s.reap (some r)) := by
  unfold reap
  rw [hb]
  dsimp only
  rcases hflush : b.flushWithProgress r (.start s.captureId) with ⟨_ | o, fs⟩
  · exact .died hflush
  · dsimp only
    rw [settle_eq]
    cases hretry : o.retry with
    | none => exact .settled _ hflush hretry
    | some keep =>
      unfold retain
      dsimp only
      by_cases hagain : s.inflightAttempts + 1 < flushBackoffSecs.length + 1
      · rw [if_pos hagain]
        exact .retained _ hflush hretry hagain
      · rw [if_neg hagain]
        exact .exhausted _ hflush hretry (by omega)

theorem reap_of_idle {s : StoreLoop} {done : Option FlushRun} (h : done = none ∨ s.bgFlush = none) :
    s.reap done = s := by
  unfold reap
  rcases h with rfl | hb
  · rfl
  · rw [hb]
    cases done <;> rfl

/-- The states stage 1 of the shutdown can leave when bundle `b` is in flight. -/
inductive Joined (s : StoreLoop) (b : FlushBundle) (r : FlushRun) : StoreLoop → Prop where
  | died {fs : FlushState} (hflush : b.flushWithProgress r (.start s.captureId) = (none, fs)) :
    Joined s b r { s with
      bgFlush := none
      captureId := fs.captureId
      totalWritten := s.totalWritten + fs.progress
      rowsLost := s.rowsLost + (s.inflightRows - fs.progress) }
  | settled {o : FlushOutcome} {fs : FlushState}
    (hflush : b.flushWithProgress r (.start s.captureId) = (some o, fs)) (hretry : o.retry = none) :
    Joined s b r { s with
      bgFlush := none
      captureId := fs.captureId
      totalWritten := s.totalWritten + o.report.total
      rowsLost := s.rowsLost + o.lostRows }
  | retained {o : FlushOutcome} {fs : FlushState} {keep : FlushBundle}
    (hflush : b.flushWithProgress r (.start s.captureId) = (some o, fs))
    (hretry : o.retry = some keep) :
    Joined s b r { s with
      bgFlush := none
      captureId := fs.captureId
      totalWritten := s.totalWritten + o.report.total
      rowsLost := s.rowsLost + o.lostRows
      pendingRetry := some ⟨keep, s.inflightAttempts + 1⟩ }

theorem joined_shutdownInflight {s : StoreLoop} {b : FlushBundle} (hb : s.bgFlush = some b)
    (r : FlushRun) : Joined s b r (s.shutdownInflight r) := by
  unfold shutdownInflight
  rw [hb]
  dsimp only
  rcases hflush : b.flushWithProgress r (.start s.captureId) with ⟨_ | o, fs⟩
  · exact .died hflush
  · dsimp only
    cases hretry : o.retry with
    | none => exact .settled hflush hretry
    | some keep => exact .retained hflush hretry

end StoreLoop

end AuraEpics.Store
