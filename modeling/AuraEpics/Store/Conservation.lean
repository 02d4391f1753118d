import AuraEpics.Store.Loop
import AuraEpics.Lib.Runs

/-!
# Conservation of rows in the store loop

Rows move from the batch writer into a bundle, with it into a flush task, back
into a retained bundle, and end up written or counted as lost. `Balanced` says
that none of these moves loses or doubles a row; the invariant that carries it
also says that a task in flight and a retained bundle never coexist, so that
retaining a bundle overwrites nothing.

Result: `storeLoop_conserves`, as long as no JSON row is buffered, every row the
batch writer has taken is written, lost, in flight, retained or still buffered,
and at the end it is written or lost.
-/

namespace AuraEpics.Store

open AuraEpics.Core Runs

/-! ## Pushes add what they accept -/

theorem RowWriter.push_length {ρ : Type} (size : ρ → ℕ) (w : RowWriter ρ) (row : ρ) :
    (w.push size row).2.buffer.length =
      w.buffer.length + bif (w.push size row).1.isAccepted then 1 else 0 := by
  unfold push
  by_cases hfull : w.buffer ≠ [] ∧ w.maxBufferBytes < w.currentBytes + size row
  · rw [if_pos hfull]
    rfl
  · rw [if_neg hfull]
    dsimp only
    split_ifs <;> simp [PushResult.isAccepted]

theorem ScalarWriter.push_length (w : ScalarWriter) (row : ScalarRow) :
    (w.push row).2.buffer.length =
      w.buffer.length + bif (w.push row).1.isAccepted then 1 else 0 := by
  unfold push
  by_cases hfull : w.buffer ≠ [] ∧
      w.maxBufferBytes < w.buffer.length * scalarRowMemSize + scalarRowMemSize
  · rw [if_pos hfull]
    rfl
  · rw [if_neg hfull]
    dsimp only
    split_ifs <;> simp [PushResult.isAccepted]

theorem ArrayWriter.push_len (w : ArrayWriter) (c : ArrayCapture) :
    (w.push c).2.len = w.len + bif (w.push c).1.isAccepted then c.len else 0 := by
  unfold push
  by_cases hempty : c.len = 0
  · rw [if_pos hempty, hempty]
    rfl
  by_cases hfull : ¬w.isEmpty ∧ w.maxBufferBytes < w.currentBytes + c.estBytes
  · rw [if_neg hempty, if_pos hfull]
    rfl
  · rw [if_neg hempty, if_neg hfull]
    rcases c with ⟨time, pvId, sev, st, values | values⟩ <;> dsimp only <;> split_ifs <;>
      simp [PushResult.isAccepted, len, numRows, strRows, ArrayCapture.len] <;> omega

namespace BatchWriter

theorem pushRow_totalBuffered (b : BatchWriter) (row : StoredRow) :
    (b.pushRow row).2.totalBuffered = b.totalBuffered + b.acceptedRow row := by
  unfold acceptedRow
  rcases row with r | (r | c | r | r)
  · have := ScalarWriter.push_length b.scalar r
    simp only [pushRow, totalBuffered, StoredRow.units]
    omega
  · have := RowWriter.push_length StringRow.memSize b.string r
    simp only [pushRow, pushOther, StringWriter.push, totalBuffered, StoredRow.units]
    omega
  · have := ArrayWriter.push_len b.array c
    simp only [pushRow, pushOther, totalBuffered, StoredRow.units]
    omega
  · have := RowWriter.push_length JsonRow.memSize b.json r
    simp only [pushRow, pushOther, JsonWriter.push, totalBuffered, StoredRow.units]
    omega
  · have := RowWriter.push_length ImageRow.memSize b.image r
    simp only [pushRow, pushOther, ImageWriter.push, totalBuffered, StoredRow.units]
    omega

theorem ingestScalars_totalBuffered (b : BatchWriter) (rows : List ScalarRow) :
    (b.ingestScalars rows).totalBuffered = b.totalBuffered + rows.length := by
  unfold ingestScalars
  split_ifs with hnil
  · simp [hnil]
  · simp only [totalBuffered, List.length_append]
    omega

theorem pushOthers_totalBuffered (b : BatchWriter) (rows : List WriterRow) :
    (b.pushOthers rows).totalBuffered = b.totalBuffered + b.acceptedOthers rows := by
  induction rows generalizing b with
  | nil => rfl
  | cons r rs ih =>
    have hr := b.pushRow_totalBuffered (.other r)
    have hrs := ih (b.pushOther r).2
    simp only [pushRow] at hr
    simp only [pushOthers, List.foldl_cons, acceptedOthers] at hrs ⊢
    omega

theorem ingestShards_totalBuffered (b : BatchWriter) (shards : List Shard) :
    (shards.foldl ingestShard b).totalBuffered = b.totalBuffered + b.acceptedShards shards := by
  induction shards generalizing b with
  | nil => rfl
  | cons sh rest ih =>
    have hscalars := b.ingestScalars_totalBuffered sh.scalars
    have hothers := (b.ingestScalars sh.scalars).pushOthers_totalBuffered sh.others
    have hshard : (b.ingestShard sh).totalBuffered =
        ((b.ingestScalars sh.scalars).pushOthers sh.others).totalBuffered := rfl
    rw [List.foldl_cons, ih, acceptedShards]
    omega

theorem dispatchWithId_totalBuffered (f : Formats) (b : BatchWriter) (u : PvUpdate) (pvId : Int32)
    (reason : StoreReason) :
    (b.dispatchWithId f u pvId reason).totalBuffered =
      b.totalBuffered + ((rowOf f u pvId reason).toOption.elim 0 fun row => b.acceptedRow row) := by
  unfold dispatchWithId
  dsimp only
  cases h : rowOf f u pvId reason with
  | error e => rfl
  | ok row =>
    have hpush : ∀ n, ({ b with totalDispatched := n }).acceptedRow row = b.acceptedRow row := by
      intro n
      rcases row with r | (r | c | r | r) <;> rfl
    dsimp only [Except.toOption, Option.elim_some]
    rw [pushRow_totalBuffered, hpush]
    rfl

theorem dispatchFallback_totalBuffered (f : Formats) (b : BatchWriter) (u : FallbackUpdate) :
    (b.dispatchFallback f u).totalBuffered =
      b.totalBuffered + ((fallbackRow f u).elim 0 fun row => b.acceptedRow row) := by
  unfold dispatchFallback fallbackRow fallbackId
  cases u.cached with
  | some pvId => exact dispatchWithId_totalBuffered f b _ _ _
  | none =>
    cases u.resolved with
    | ok pvId => exact dispatchWithId_totalBuffered f b _ _ _
    | error e => rfl

theorem fallback_totalBuffered (f : Formats) (b : BatchWriter) (us : List FallbackUpdate) :
    (us.foldl (dispatchFallback f) b).totalBuffered = b.totalBuffered + b.acceptedFallback f us := by
  induction us generalizing b with
  | nil => rfl
  | cons u us ih =>
    rw [List.foldl_cons, ih, acceptedFallback, dispatchFallback_totalBuffered]
    omega

/-- Taking a bundle moves all buffered rows into it. -/
theorem takeFlushBundle_cases (b : BatchWriter) :
    (b.totalBuffered = 0 ∧ b.takeFlushBundle = (none, b)) ∨
    ∃ bundle w, b.takeFlushBundle = (some bundle, w) ∧ bundle.totalRows = b.totalBuffered ∧
      w.totalBuffered = 0 ∧ bundle.jsonRows = b.json.buffer ∧ w.json.buffer = [] := by
  unfold takeFlushBundle
  split_ifs with h
  · refine .inr ⟨_, _, rfl, ?_, rfl, rfl, rfl⟩
    simp only [FlushBundle.totalRows, totalBuffered, ArrayWriter.len]
    omega
  · refine .inl ⟨?_, rfl⟩
    simp only [hasPending, not_or, not_not, ArrayWriter.isEmpty] at h
    obtain ⟨h₁, h₂, ⟨h₃, h₄⟩, h₅, h₆⟩ := h
    simp [totalBuffered, ArrayWriter.len, h₁, h₂, h₃, h₄, h₅, h₆]

end BatchWriter

/-! ## A flush without JSON rows -/

section Flush

variable {r : FlushRun} {b : FlushBundle} {cid : Int64} {fs : FlushState}

theorem FlushBundle.totalRows_eq_plainRows (hjson : b.jsonRows = []) : b.totalRows = b.plainRows := by
  simp [totalRows, plainRows, hjson]

theorem tablesWeight_nil_rows (ts : List JsonTable) : tablesWeight [] ts = 0 := by
  induction ts with
  | nil => rfl
  | cons t ts ih => rw [tablesWeight_cons, ih, tableCopyRows_nil]

theorem flush_returned (hjson : b.jsonRows = []) {o : FlushOutcome}
    (h : b.flushWithProgress r (.start cid) = (some o, fs)) :
    o.report.total + o.lostRows + o.retryRows = b.totalRows ∧
      ∀ keep, o.retry = some keep → keep.jsonRows = [] := by
  have hspec := flushWithProgress_spec r b (.start cid) ⟨rfl, rfl, rfl⟩
  rw [h] at hspec
  obtain ⟨k, hacc⟩ := hspec
  obtain ⟨w, x, hw, hx, hsum⟩ := hacc.plain
  have hretry := hacc.retryJson
  rw [hjson, tablesWeight_nil_rows] at hw hx
  rw [hjson, List.filter_nil] at hretry
  have hrows : o.retryRows = o.retryPlain := by
    unfold FlushOutcome.retryJson at hretry
    unfold FlushOutcome.retryRows FlushOutcome.retryPlain
    cases hk : o.retry with
    | none => rfl
    | some keep =>
      rw [hk] at hretry
      exact FlushBundle.totalRows_eq_plainRows hretry
  refine ⟨?_, fun keep hkeep => ?_⟩
  · rw [FlushBundle.totalRows_eq_plainRows hjson]
    omega
  · rwa [FlushOutcome.retryJson, hkeep] at hretry

theorem flush_stopped (hjson : b.jsonRows = [])
    (h : b.flushWithProgress r (.start cid) = (none, fs)) : fs.progress ≤ b.totalRows := by
  have hspec := flushWithProgress_spec r b (.start cid) ⟨rfl, rfl, rfl⟩
  rw [h] at hspec
  obtain ⟨-, hprog, -⟩ := hspec
  rw [hjson, tablesWeight_nil_rows] at hprog
  rw [FlushBundle.totalRows_eq_plainRows hjson]
  omega

end Flush

/-! ## The invariant of the loop -/

namespace StoreLoop

/-- Rows of the bundle in flight. -/
def inflight (s : StoreLoop) : ℕ := s.bgFlush.elim 0 FlushBundle.totalRows

/-- Rows of the retained bundle. -/
def retained (s : StoreLoop) : ℕ := s.pendingRetry.elim 0 fun pr => pr.bundle.totalRows

/-- Every row the batch writer has taken is in exactly one place. -/
def Balanced (s : StoreLoop) : Prop :=
  s.totalWritten + s.rowsLost + s.inflight + s.retained + s.writer.totalBuffered = s.accepted

/-- What a pass keeps. The last three fields say why no bundle is overwritten and why
    flushes count in rows. -/
structure Conserving (s : StoreLoop) : Prop where
  balanced : s.Balanced
  exclusive : s.bgFlush.isSome → s.pendingRetry = none
  flying : ∀ b, s.bgFlush = some b → s.inflightRows = b.totalRows ∧ b.jsonRows = []
  retaining : ∀ pr, s.pendingRetry = some pr → pr.bundle.jsonRows = []

theorem conserving_start (w : BatchWriter) (h : w.totalBuffered = 0) : (start w).Conserving where
  balanced := by simp [Balanced, start, inflight, retained, h]
  exclusive _ := rfl
  flying _ h := by cases h
  retaining _ h := by cases h

variable {s : StoreLoop}

theorem Conserving.reap (hs : s.Conserving) (done : Option FlushRun) : (s.reap done).Conserving := by
  cases done with
  | none => rwa [reap_of_idle (.inl rfl)]
  | some r =>
    cases hb : s.bgFlush with
    | none => rwa [reap_of_idle (.inr hb)]
    | some b =>
      obtain ⟨hrows, hjson⟩ := hs.flying b hb
      have hnone : s.pendingRetry = none := hs.exclusive (by simp [hb])
      have hbal := hs.balanced
      simp only [Balanced, inflight, retained, hb, hnone, Option.elim_some, Option.elim_none] at hbal
      have hreaped := reaped_reap hb r
      generalize s.reap (some r) = t at hreaped ⊢
      cases hreaped with
      | died hflush =>
        have hprog := flush_stopped hjson hflush
        refine ⟨?_, by simp, by simp, by simp [hnone]⟩
        simp only [Balanced, inflight, retained, hnone, Option.elim_none]
        omega
      | settled _ hflush hretry =>
        obtain ⟨hsum, -⟩ := flush_returned hjson hflush
        rw [FlushOutcome.retryRows, hretry, Option.elim_none] at hsum
        refine ⟨?_, by simp, by simp, by simp [hnone]⟩
        simp only [Balanced, inflight, retained, hnone, Option.elim_none]
        omega
      | retained _ hflush hretry hagain =>
        obtain ⟨hsum, hkeep⟩ := flush_returned hjson hflush
        rw [FlushOutcome.retryRows, hretry, Option.elim_some] at hsum
        refine ⟨?_, by simp, by simp, by simpa using hkeep _ hretry⟩
        simp only [Balanced, inflight, StoreLoop.retained, Option.elim_none, Option.elim_some]
        omega
      | exhausted _ hflush hretry hlast =>
        obtain ⟨hsum, -⟩ := flush_returned hjson hflush
        rw [FlushOutcome.retryRows, hretry, Option.elim_some] at hsum
        refine ⟨?_, by simp, by simp, by simp [hnone]⟩
        simp only [Balanced, inflight, StoreLoop.retained, hnone, Option.elim_none]
        omega

theorem Conserving.scheduleRetry (hs : s.Conserving) (due : Bool) :
    (s.scheduleRetry due).Conserving := by
  unfold StoreLoop.scheduleRetry
  cases hb : s.bgFlush with
  | some b => exact hs
  | none =>
    cases hp : s.pendingRetry with
    | none => exact hs
    | some pr =>
      dsimp only
      split_ifs
      · have hbal := hs.balanced
        have hjson := hs.retaining pr hp
        refine ⟨?_, by simp [spawn], by simp [spawn, hjson], by simp [spawn]⟩
        simp only [Balanced, inflight, retained, spawn, hb, hp, Option.elim_none,
          Option.elim_some] at hbal ⊢
        omega
      · exact hs

theorem Conserving.scheduleFresh (hs : s.Conserving) (hjson : s.writer.json.buffer = [])
    (timer : Bool) : (s.scheduleFresh timer).Conserving := by
  unfold StoreLoop.scheduleFresh
  split_ifs with h
  · obtain ⟨hb, hp, -⟩ := h
    rw [Option.isNone_iff_eq_none] at hb hp
    have hbal := hs.balanced
    simp only [Balanced, inflight, retained, hb, hp, Option.elim_none] at hbal
    rcases s.writer.takeFlushBundle_cases with ⟨-, htake⟩ | ⟨b, w, htake, hrows, hw, hbj, -⟩
    · rw [htake]
      exact hs
    · rw [htake]
      refine ⟨?_, by simp [spawn, hp], by simp [spawn, hbj, hjson], by simp [spawn, hp]⟩
      simp only [Balanced, inflight, retained, spawn, hp, hrows, hw, Option.elim_none,
        Option.elim_some]
      omega
  · exact hs

theorem Conserving.ingest (f : Formats) (hs : s.Conserving) (shards : List Shard)
    (fallback : List FallbackUpdate) : (s.ingest f shards fallback).Conserving := by
  unfold StoreLoop.ingest
  split_ifs
  · refine ⟨?_, hs.exclusive, hs.flying, hs.retaining⟩
    have hbal := hs.balanced
    have hshards := s.writer.ingestShards_totalBuffered shards
    have hfallback := (shards.foldl BatchWriter.ingestShard s.writer).fallback_totalBuffered f
      (fallback.take fallbackBatch)
    simp only [Balanced, inflight, retained] at hbal ⊢
    omega
  · exact hs

theorem reap_writer (s : StoreLoop) (done : Option FlushRun) : (s.reap done).writer = s.writer := by
  cases done with
  | none => rw [reap_of_idle (.inl rfl)]
  | some r =>
    cases hb : s.bgFlush with
    | none => rw [reap_of_idle (.inr hb)]
    | some b =>
      have hreaped := reaped_reap hb r
      generalize s.reap (some r) = t at hreaped ⊢
      cases hreaped <;> rfl

theorem scheduleRetry_writer (s : StoreLoop) (due : Bool) :
    (s.scheduleRetry due).writer = s.writer := by
  unfold StoreLoop.scheduleRetry
  split
  · split_ifs <;> rfl
  · rfl

theorem Conserving.iterate (f : Formats) (hs : s.Conserving) (hjson : s.writer.json.buffer = [])
    (i : Iteration) : (s.iterate f i).Conserving := by
  refine (((hs.reap i.finished).scheduleRetry i.retryDue).scheduleFresh ?_ i.timer).ingest f _ _
  rw [scheduleRetry_writer, reap_writer]
  exact hjson

/-! ## Shutdown -/

theorem Conserving.shutdownInflight (hs : s.Conserving) (r : FlushRun) :
    (s.shutdownInflight r).Conserving ∧ (s.shutdownInflight r).bgFlush = none := by
  cases hb : s.bgFlush with
  | none =>
    unfold StoreLoop.shutdownInflight
    rw [hb]
    exact ⟨hs, hb⟩
  | some b =>
    obtain ⟨hrows, hjson⟩ := hs.flying b hb
    have hnone : s.pendingRetry = none := hs.exclusive (by simp [hb])
    have hbal := hs.balanced
    simp only [Balanced, inflight, retained, hb, hnone, Option.elim_some, Option.elim_none] at hbal
    have hjoined := joined_shutdownInflight hb r
    generalize s.shutdownInflight r = t at hjoined ⊢
    cases hjoined with
    | died hflush =>
      have hprog := flush_stopped hjson hflush
      refine ⟨⟨?_, by simp, by simp, by simp [hnone]⟩, rfl⟩
      simp only [Balanced, inflight, retained, hnone, Option.elim_none]
      omega
    | settled hflush hretry =>
      obtain ⟨hsum, -⟩ := flush_returned hjson hflush
      rw [FlushOutcome.retryRows, hretry, Option.elim_none] at hsum
      refine ⟨⟨?_, by simp, by simp, by simp [hnone]⟩, rfl⟩
      simp only [Balanced, inflight, retained, hnone, Option.elim_none]
      omega
    | retained hflush hretry =>
      obtain ⟨hsum, hkeep⟩ := flush_returned hjson hflush
      rw [FlushOutcome.retryRows, hretry, Option.elim_some] at hsum
      refine ⟨⟨?_, by simp, by simp, by simpa using hkeep _ hretry⟩, rfl⟩
      simp only [Balanced, inflight, StoreLoop.retained, Option.elim_none, Option.elim_some]
      omega

/-- The last flush of a bundle moves its rows to the written and the lost. -/
theorem finalFlush_counts (s : StoreLoop) {b : FlushBundle} (hjson : b.jsonRows = []) (r : FlushRun) :
    (s.finalFlush b r).totalWritten + (s.finalFlush b r).rowsLost =
        s.totalWritten + s.rowsLost + b.totalRows ∧
      (s.finalFlush b r).bgFlush = s.bgFlush ∧ (s.finalFlush b r).pendingRetry = s.pendingRetry ∧
      (s.finalFlush b r).writer = s.writer ∧ (s.finalFlush b r).accepted = s.accepted := by
  unfold finalFlush
  rcases hf : b.flushWithProgress r (.start s.captureId) with ⟨_ | o, fs⟩
  · have hprog := flush_stopped hjson hf
    refine ⟨?_, rfl, rfl, rfl, rfl⟩
    simp only [joinError]
    omega
  · obtain ⟨hsum, -⟩ := flush_returned hjson hf
    refine ⟨?_, rfl, rfl, rfl, rfl⟩
    dsimp only
    omega

/-- After stages 1 and 2 and the drain, all that is not written or lost is buffered. -/
theorem Conserving.shutdownDrained (hs : s.Conserving) (d : Shutdown) :
    (s.shutdownDrained d).totalWritten + (s.shutdownDrained d).rowsLost +
      (s.shutdownDrained d).writer.totalBuffered = (s.shutdownDrained d).accepted := by
  obtain ⟨hinv, hb⟩ := hs.shutdownInflight d.inflight
  unfold StoreLoop.shutdownDrained
  generalize s.shutdownInflight d.inflight = s₁ at hinv hb
  have hbal := hinv.balanced
  simp only [Balanced, inflight, retained, hb, Option.elim_none] at hbal
  unfold shutdownRetry
  cases hp : s₁.pendingRetry with
  | none =>
    have hdrain := s₁.writer.ingestShards_totalBuffered d.shards
    simp only [hp, Option.elim_none] at hbal
    simp only [shutdownDrain]
    omega
  | some pr =>
    obtain ⟨hsum, -, -, hw, ha⟩ :=
      ({ s₁ with pendingRetry := none } : StoreLoop).finalFlush_counts (hinv.retaining pr hp) d.retry
    dsimp only at hsum hw ha ⊢
    generalize finalFlush { s₁ with pendingRetry := none } pr.bundle d.retry = s₂ at hsum hw ha
    have hdrain := s₂.writer.ingestShards_totalBuffered d.shards
    simp only [hp, Option.elim_some] at hbal
    simp only [shutdownDrain]
    rw [hw] at hdrain
    rw [hw, ha]
    omega

theorem shutdownFlush_counts (hjson : s.writer.json.buffer = [])
    (hs : s.totalWritten + s.rowsLost + s.writer.totalBuffered = s.accepted) (r : FlushRun) :
    (s.shutdownFlush r).totalWritten + (s.shutdownFlush r).rowsLost = (s.shutdownFlush r).accepted := by
  unfold shutdownFlush
  rcases s.writer.takeFlushBundle_cases with ⟨hzero, htake⟩ | ⟨b, w, htake, hrows, hw, hbj, -⟩
  · rw [htake]
    dsimp only
    omega
  · rw [htake]
    dsimp only
    obtain ⟨hsum, -, -, -, ha⟩ :=
      ({ s with writer := w } : StoreLoop).finalFlush_counts (hbj.trans hjson) r
    dsimp only at hsum ha
    rw [hsum, ha]
    omega

end StoreLoop

/-! ## Main theorem -/

open StoreLoop

/-- The state `run` starts in: a pipeline with empty buffers and `conns` connections. -/
def initial (config : BatchWriterConfig) (conns : ℕ) : StoreLoop :=
  .start ((BatchWriter.new config).withPool conns)

/-- **Main theorem**: in every run in which no JSON row is buffered, the loop is
    balanced between any two passes, and after the shutdown every row taken is written
    or counted as lost. -/
theorem storeLoop_conserves (f : Formats) (config : BatchWriterConfig) (conns : ℕ)
    (passes : List Iteration) (d : Shutdown)
    (hpasses : AlongStates (iterate f) (fun s => s.writer.json.buffer = []) (initial config conns)
      passes)
    (hdrain : ((run (iterate f) (initial config conns) passes).shutdownDrained d).writer.json.buffer =
      []) :
    AlongStates (iterate f) Balanced (initial config conns) passes ∧
      let s := (run (iterate f) (initial config conns) passes).shutdown d
      s.totalWritten + s.rowsLost = s.accepted := by
  have hinv : AlongStates (iterate f) Conserving (initial config conns) passes :=
    hpasses.preserved (fun s i hjson _ hs => hs.iterate f hjson i) (conserving_start _ rfl)
  refine ⟨hinv.mono fun s hs => hs.balanced, ?_⟩
  exact shutdownFlush_counts hdrain (hinv.last.shutdownDrained d) d.final

/-- A string row and two array elements come in, the timer starts their flush, and the
    connection breaks under the string COPY. -/
def brokenFlush : List Iteration :=
  let quiet : Iteration := ⟨none, false, false, [], []⟩
  let lostConnection : CopyIO := fun target _ =>
    if target = .string then some (.error ⟨"connection reset by peer", true⟩) else some (.ok ())
  [{ quiet with shards := [⟨[], [.string ⟨.epoch, 1, "open", 0, 0⟩,
      .array ⟨.epoch, 2, 0, 0, .numeric [.zero, .zero]⟩]⟩] },
    { quiet with timer := true },
    { quiet with finished := some ⟨lostConnection, true⟩ }]

/-- A shutdown during which a scalar row is drained and every COPY commits. -/
def cleanShutdown : Shutdown :=
  let commits : FlushRun := ⟨fun _ _ => some (.ok ()), true⟩
  ⟨commits, commits, [⟨[⟨0, 1, .zero, 0, 0, 0⟩], []⟩], commits⟩

/-- After `brokenFlush` one row is retained; `cleanShutdown` writes it and the drained
    one, four rows in all. -/
theorem storeLoop_conserves_brokenFlush :
    let f : Formats := ⟨fun _ => .ok [], fun _ => .ok .null, fun _ => ""⟩
    let s := run (iterate f) (initial .default 1) brokenFlush
    s.retained = 1 ∧ (s.shutdown cleanShutdown).totalWritten = 4 ∧
      AlongStates (iterate f) Balanced (initial .default 1) brokenFlush ∧
      (s.shutdown cleanShutdown).totalWritten + (s.shutdown cleanShutdown).rowsLost =
        (s.shutdown cleanShutdown).accepted := by
  intro f s
  refine ⟨by decide +kernel, by decide +kernel, ?_⟩
  exact storeLoop_conserves f .default 1 brokenFlush cleanShutdown
    (by decide +kernel) (by decide +kernel)

end AuraEpics.Store
