import AuraEpics.Ingest.Thread
import AuraEpics.Lib.Runs

/-!
# The end of an ingest thread

`run_ingest_shard` (`crates/aura-ingest/src/thread.rs`, lines 42-402) drains at most 65536
events from its channel, deals with them, and returns when it finds the shutdown flag set and
neither `local_events` nor `local_slow` has moved. It does not look at the channel again. A
fast-path event of an unknown PV moves neither counter, and events may be queued between the
drain and the test.

* `Channel`: a shard with its channel and the flag, and what has been sent and dealt with;
* `Act`: the two halves of a pass, and what the rest of the program does meanwhile;
* `Keeps`: a test that does not give up queued events.

Results: `drained_iff`, for which runs a thread that has returned has dealt with all events;
`returned_of_passes`, it does return once the flag is set.
-/

namespace AuraEpics.Ingest

open Numeric AuraEpics.Types AuraEpics.Session AuraEpics.Store Runs

/-- The bound of a drain (line 50). -/
def drainMax : ℕ := 65536

/-- What a pass finds beside the channel and the flag. -/
structure Finds where
  cache : String → Option Int32
  batchNow : ℕ
  statsNow : ℕ
  scanNow : ℕ
  scanPgUs : Int64
  active : Int32 → Bool
  config : HeartbeatConfig

/-- The pass with the events it has drained, and the flag as its test reads it. -/
def Finds.pass (p : Finds) (events : List TaggedEvent) (shutdown : Bool) : Pass :=
  { events, cache := p.cache, batchNow := p.batchNow, statsNow := p.statsNow, scanNow := p.scanNow,
    scanPgUs := p.scanPgUs, active := p.active, config := p.config, shutdown }

/-- A shard with its channel. `draining` holds between the drain of a pass and its end;
    `sent` and `processed` are all events sent and dealt with so far. -/
structure Channel where
  shard : Shard
  queue : List TaggedEvent
  eventBuf : List TaggedEvent
  draining : Bool
  shutdown : Bool
  sent : List TaggedEvent
  processed : List TaggedEvent

/-- What may happen next: events are sent, the flag is set, and the thread drains its channel or
    finishes the pass. -/
inductive Act where
  | send (events : List TaggedEvent)
  | stop
  | drain
  | finish (finds : Finds)

/-- The event moves neither `local_events` nor `local_slow`. -/
def Unplaced (cache : String → Option Int32) (t : TaggedEvent) : Prop :=
  isDelta t.event = true ∧ pvIdOf cache t.pvId t.pvName = none

instance (cache : String → Option Int32) (t : TaggedEvent) : Decidable (Unplaced cache t) :=
  inferInstanceAs (Decidable (_ ∧ _))

namespace Channel

/-- A running shard, with events queued already. -/
def start (shard : Shard) (queue : List TaggedEvent) : Channel where
  shard := { shard with running := true }
  queue := queue
  eventBuf := []
  draining := false
  shutdown := false
  sent := queue
  processed := []

/-- One action. Nothing is sent once the flag is set. -/
def step (f : Formats) (before : ℕ → Binary32 → Bool) (c : Channel) : Act → Channel
  | .send events =>
    if c.shutdown then c else { c with queue := c.queue ++ events, sent := c.sent ++ events }
  | .stop => { c with shutdown := true }
  | .drain =>
    if c.shard.running ∧ c.draining = false then
      { c with eventBuf := c.queue.take drainMax, queue := c.queue.drop drainMax, draining := true }
    else c
  | .finish finds =>
    if c.shard.running ∧ c.draining = true then
      { c with
        shard := (c.shard.pass f before (finds.pass c.eventBuf c.shutdown)).1
        eventBuf := []
        draining := false
        processed := c.processed ++ c.eventBuf }
    else c

/-- A thread that has returned has dealt with all events that were sent. -/
def Drained (c : Channel) : Prop := c.shard.running = false → c.processed = c.sent

/-- If nothing of the batch moves a counter and the flag is set, no event is left in the
    channel. -/
def Keeps (c : Channel) : Act → Prop
  | .finish finds =>
    c.shard.running = true → c.draining = true → c.shutdown = true →
      (∀ t ∈ c.eventBuf, Unplaced finds.cache t) → c.queue = []
  | _ => True

/-- What the thread has not dealt with is in the batch or in the channel; once it has returned
    there is no batch and no more sending. -/
structure Consistent (c : Channel) : Prop where
  sent : c.sent = c.processed ++ (c.eventBuf ++ c.queue)
  buffer : c.draining = false → c.eventBuf = []
  returned : c.shard.running = false → c.shutdown = true ∧ c.draining = false

end Channel

/-! ## The test of a pass -/

theorem slow_counts (f : Formats) (cache : String → Option Int32) (b : Batch) (t : TaggedEvent) :
    (b.slow f cache t).localEvents = b.localEvents ∧
      (b.slow f cache t).localSlow = b.localSlow + 1 := by
  unfold Batch.slow
  dsimp only
  rcases b.engine.processEvent t.pvName t.event with ⟨_ | update, engine⟩
  · exact ⟨rfl, rfl⟩
  · dsimp only
    cases pvIdOf cache t.pvId update.pvName with
    | none => exact ⟨rfl, rfl⟩
    | some pvId => exact ⟨rfl, rfl⟩

/-- Every event but an unplaced one moves one of the counters. -/
theorem handle_counts (f : Formats) (cache : String → Option Int32) (now : ℕ) (b : Batch)
    (t : TaggedEvent) :
    (b.handle f cache now t).localEvents + (b.handle f cache now t).localSlow =
      b.localEvents + b.localSlow + if Unplaced cache t then 0 else 1 := by
  cases hdelta : isDelta t.event with
  | true =>
    rcases b.handle_delta f cache now hdelta with ⟨hid, hhandle⟩ | ⟨pvId, stats, hb, row, hid, hhandle⟩
    · rw [hhandle, if_pos ⟨hdelta, hid⟩]
      rfl
    · rw [hhandle, if_neg fun h => Option.some_ne_none pvId (hid.symm.trans h.2)]
      show b.localEvents + 1 + b.localSlow = _
      omega
  | false =>
    obtain ⟨hevents, hslow⟩ := slow_counts f cache b t
    rw [b.handle_slow f cache now hdelta, hevents, hslow,
      if_neg fun h => Bool.false_ne_true (hdelta.symm.trans h.1)]
    omega

theorem foldl_handle_idle (f : Formats) (cache : String → Option Int32) (now : ℕ) (b : Batch)
    (ts : List TaggedEvent) :
    (ts.foldl (Batch.handle f cache now) b).localEvents +
        (ts.foldl (Batch.handle f cache now) b).localSlow = 0 ↔
      b.localEvents + b.localSlow = 0 ∧ ∀ t ∈ ts, Unplaced cache t := by
  induction ts generalizing b with
  | nil => simp
  | cons t ts ih =>
    rw [List.foldl_cons, ih, handle_counts]
    by_cases hunplaced : Unplaced cache t
    · simp [hunplaced]
    · simp [hunplaced]

/-- A pass ends the thread when the flag is set and all its events are unplaced. -/
theorem running_pass (f : Formats) (before : ℕ → Binary32 → Bool) {s : Shard} (p : Pass)
    (hrun : s.running = true) :
    (s.pass f before p).1.running = false ↔
      p.shutdown = true ∧ ∀ t ∈ p.events, Unplaced p.cache t := by
  have hidle : ((s.batch f p).localEvents = 0 ∧ (s.batch f p).localSlow = 0) ↔
      ∀ t ∈ p.events, Unplaced p.cache t := by
    rw [← Nat.add_eq_zero_iff]
    unfold Shard.batch
    rw [foldl_handle_idle]
    exact and_iff_right rfl
  unfold Shard.pass
  rw [if_pos hrun]
  dsimp only
  rw [Bool.not_eq_false', decide_eq_true_eq, hidle]
  exact and_comm

/-! ## Runs -/

namespace Channel

variable (f : Formats) (before : ℕ → Binary32 → Bool)

theorem consistent_start (shard : Shard) (queue : List TaggedEvent) :
    (start shard queue).Consistent :=
  ⟨rfl, fun _ => rfl, fun h => absurd h (by simp [start])⟩

theorem consistent_step (c : Channel) (act : Act) (h : c.Consistent) :
    (c.step f before act).Consistent := by
  obtain ⟨hsent, hbuffer, hreturned⟩ := h
  cases act with
  | send events =>
    simp only [step]
    by_cases hstop : c.shutdown = true
    · rw [if_pos hstop]
      exact ⟨hsent, hbuffer, hreturned⟩
    · rw [if_neg hstop]
      refine ⟨?_, hbuffer, hreturned⟩
      show c.sent ++ events = c.processed ++ (c.eventBuf ++ (c.queue ++ events))
      rw [hsent]
      simp only [List.append_assoc]
  | stop => exact ⟨hsent, hbuffer, fun hrun => ⟨rfl, (hreturned hrun).2⟩⟩
  | drain =>
    simp only [step]
    by_cases hdue : c.shard.running = true ∧ c.draining = false
    · rw [if_pos hdue]
      refine ⟨?_, fun hdone => absurd hdone (by simp), fun hrun => ?_⟩
      · show c.sent = c.processed ++ (c.queue.take drainMax ++ c.queue.drop drainMax)
        rw [List.take_append_drop, hsent, hbuffer hdue.2]
        rfl
      · exact absurd hrun (by simp [hdue.1])
    · rw [if_neg hdue]
      exact ⟨hsent, hbuffer, hreturned⟩
  | finish finds =>
    simp only [step]
    by_cases hdue : c.shard.running = true ∧ c.draining = true
    · rw [if_pos hdue]
      refine ⟨?_, fun _ => rfl, fun hrun => ⟨?_, rfl⟩⟩
      · show c.sent = c.processed ++ c.eventBuf ++ ([] ++ c.queue)
        rw [hsent, List.nil_append, List.append_assoc]
      · exact ((running_pass f before _ hdue.1).1 hrun).1
    · rw [if_neg hdue]
      exact ⟨hsent, hbuffer, hreturned⟩

/-- A step that does not end the thread keeps `Drained`, if the thread that has returned stays
    as it is. -/
theorem drained_step_iff (c : Channel) (act : Act) (hc : c.Consistent) (h : c.Drained) :
    (c.step f before act).Drained ↔ c.Keeps act := by
  cases act with
  | send events =>
    refine iff_of_true (fun hrun => ?_) trivial
    simp only [step] at hrun ⊢
    by_cases hstop : c.shutdown = true
    · rw [if_pos hstop] at hrun ⊢
      exact h hrun
    · rw [if_neg hstop] at hrun
      exact absurd (hc.returned hrun).1 hstop
  | stop => exact iff_of_true h trivial
  | drain =>
    refine iff_of_true (fun hrun => ?_) trivial
    simp only [step] at hrun ⊢
    by_cases hdue : c.shard.running = true ∧ c.draining = false
    · rw [if_pos hdue] at hrun
      exact absurd hrun (by simp [hdue.1])
    · rw [if_neg hdue] at hrun ⊢
      exact h hrun
  | finish finds =>
    by_cases hdue : c.shard.running = true ∧ c.draining = true
    · have hstep : c.step f before (.finish finds) = { c with
          shard := (c.shard.pass f before (finds.pass c.eventBuf c.shutdown)).1
          eventBuf := []
          draining := false
          processed := c.processed ++ c.eventBuf } := if_pos hdue
      have hall : c.processed ++ c.eventBuf = c.sent ↔ c.queue = [] := by
        rw [hc.sent, ← List.append_assoc]
        exact List.self_eq_append_right
      have hends := running_pass f before (finds.pass c.eventBuf c.shutdown) hdue.1
      rw [hstep]
      constructor
      · intro hdrained _ _ hstop hunplaced
        exact hall.1 (hdrained (hends.2 ⟨hstop, hunplaced⟩))
      · intro hkeeps hrun
        obtain ⟨hstop, hunplaced⟩ := hends.1 hrun
        exact hall.2 (hkeeps hdue.1 hdue.2 hstop hunplaced)
    · have hstep : c.step f before (.finish finds) = c := if_neg hdue
      rw [hstep]
      exact iff_of_true h fun hrun hdraining => absurd ⟨hrun, hdraining⟩ hdue

/-- **Main theorem.** A thread that has returned has dealt with every event exactly if no test of
    the run found the flag set, a batch of unplaced events only, and events in the channel. -/
theorem drained_iff (shard : Shard) (queue : List TaggedEvent) (acts : List Act) :
    AlongStates (step f before) Drained (start shard queue) acts ↔
      AlongSteps (step f before) Keeps (start shard queue) acts := by
  refine alongStates_iff_alongSteps_of_invariant (consistent_step f before)
    (drained_step_iff f before) (consistent_start shard queue) ?_ acts
  exact fun hrun => absurd hrun (by simp [start])

/-! ## The thread returns -/

/-- The passes one after another. -/
def passes (finds : List Finds) : List Act := finds.flatMap fun p => [.drain, .finish p]

theorem step_returned {c : Channel} (h : c.shard.running = false) (act : Act) :
    (c.step f before act).shard.running = false := by
  cases act with
  | send events =>
    simp only [step]
    split_ifs <;> exact h
  | stop => exact h
  | drain =>
    simp only [step]
    rw [if_neg (by simp [h])]
    exact h
  | finish finds =>
    simp only [step]
    rw [if_neg (by simp [h])]
    exact h

theorem run_returned {c : Channel} (h : c.shard.running = false) (acts : List Act) :
    (run (step f before) c acts).shard.running = false := by
  have hstep : ∀ (c : Channel) act, c.shard.running = false →
      (c.step f before act).shard.running = false := fun c act h => step_returned f before h act
  exact (alongStates_of_step hstep h acts).last

theorem divCeil_sub_lt {len m n : ℕ} (hm : 0 < m) (hlen : 0 < len) (h : divCeil len m < n + 1) :
    divCeil (len - m) m < n := by
  unfold divCeil at h ⊢
  rw [Nat.div_lt_iff_lt_mul hm] at h ⊢
  rw [Nat.succ_mul] at h
  have hn : 0 < n := by
    apply Nat.pos_of_ne_zero
    rintro rfl
    omega
  have hbatch : m ≤ n * m := Nat.le_mul_of_pos_left m hn
  omega

/-- With the flag set a pass over an empty channel is the last, and every other one takes a full
    batch or empties the channel. -/
theorem returned_of_passes {c : Channel} (hstop : c.shutdown = true) (hdraining : c.draining = false)
    {finds : List Finds} (hlen : divCeil c.queue.length drainMax < finds.length) :
    (run (step f before) c (passes finds)).shard.running = false := by
  induction finds generalizing c with
  | nil => exact absurd hlen (Nat.not_lt_zero _)
  | cons p finds ih =>
    show (run (step f before) ((c.step f before .drain).step f before (.finish p))
      (passes finds)).shard.running = false
    cases hrun : c.shard.running with
    | false =>
      exact run_returned f before
        (step_returned f before (step_returned f before hrun .drain) (.finish p)) _
    | true =>
      have hdrain : c.step f before .drain =
          { c with eventBuf := c.queue.take drainMax, queue := c.queue.drop drainMax,
                   draining := true } := if_pos ⟨hrun, hdraining⟩
      have hfinish : (c.step f before .drain).step f before (.finish p) =
          { c with
            shard := (c.shard.pass f before (p.pass (c.queue.take drainMax) c.shutdown)).1
            eventBuf := []
            queue := c.queue.drop drainMax
            draining := false
            processed := c.processed ++ c.queue.take drainMax } := by
        rw [hdrain]
        exact if_pos ⟨hrun, rfl⟩
      rw [hfinish]
      by_cases hempty : c.queue = []
      · have hends : (c.shard.pass f before (p.pass (c.queue.take drainMax) c.shutdown)).1.running =
            false := by
          rw [running_pass f before _ hrun]
          have hnone : c.queue.take drainMax = [] := by rw [hempty, List.take_nil]
          refine ⟨hstop, fun t (ht : t ∈ c.queue.take drainMax) => ?_⟩
          rw [hnone] at ht
          cases ht
        exact run_returned f before hends _
      · have hpos : 0 < c.queue.length := List.length_pos_of_ne_nil hempty
        refine ih hstop rfl ?_
        show divCeil (c.queue.drop drainMax).length drainMax < finds.length
        rw [List.length_drop]
        exact divCeil_sub_lt (by decide) hpos hlen

/-! ## Events given up -/

/-- An update of a PV without an id. -/
def stray : TaggedEvent := ⟨"GONE", 0, .scalarDelta .zero ⟨0, 0, 0, 0⟩⟩

/-- A pass that finds no PV in the cache. -/
def emptyCache : Finds where
  cache := fun _ => none
  batchNow := 0
  statsNow := 0
  scanNow := 0
  scanPgUs := 0
  active := fun _ => false
  config := ⟨0, []⟩

/-- A test that does not keep the queued events is the end of `Drained`. -/
theorem not_drained_of_gives_up {shard : Shard} {queue : List TaggedEvent} {acts : List Act}
    {finds : Finds} (hrun : (run (step f before) (start shard queue) acts).shard.running = true)
    (hgives : ¬(run (step f before) (start shard queue) acts).Keeps (.finish finds)) :
    ¬AlongStates (step f before) Drained (start shard queue) (acts ++ [.finish finds]) := by
  intro h
  have hconsistent : (run (step f before) (start shard queue) acts).Consistent :=
    (alongStates_of_step (consistent_step f before) (consistent_start shard queue) acts).last
  have hlast := h.last
  rw [run_append] at hlast
  refine hgives ((drained_step_iff f before _ (.finish finds) hconsistent ?_).1 hlast)
  exact fun hdone => absurd hdone (by simp [hrun])

/-- Events behind a full batch of updates without an id are left in the channel. -/
theorem not_drained_of_full_batch (shard : Shard) {queue : List TaggedEvent} {finds : Finds}
    (hlen : drainMax < queue.length) (hall : ∀ t ∈ queue, Unplaced finds.cache t) :
    ¬AlongStates (step f before) Drained (start shard queue) [.stop, .drain, .finish finds] := by
  have hrun : (run (step f before) (start shard queue) [.stop, .drain]).shard.running = true := rfl
  refine not_drained_of_gives_up f before hrun fun hkeeps => ?_
  have hrest : queue.drop drainMax = [] :=
    hkeeps rfl rfl rfl fun t ht => hall t (List.mem_of_mem_take ht)
  rw [List.drop_eq_nil_iff] at hrest
  omega

/-- The last of 65537 updates of a PV without an id is left in the channel, and so is an event
    that is sent after the last drain. -/
theorem events_given_up :
    (¬AlongStates (step constantFormats fun _ _ => false) Drained
      (start (.start [] ⟨0⟩ 0) (List.replicate (drainMax + 1) stray))
      [.stop, .drain, .finish emptyCache]) ∧
    ¬AlongStates (step constantFormats fun _ _ => false) Drained (start (.start [] ⟨0⟩ 0) [])
      [.drain, .send [stray], .stop, .finish emptyCache] := by
  have hstray : Unplaced emptyCache.cache stray := ⟨rfl, rfl⟩
  constructor
  · apply not_drained_of_full_batch
    · rw [List.length_replicate]
      exact Nat.lt_succ_self drainMax
    · intro t ht
      obtain rfl : t = stray := List.eq_of_mem_replicate ht
      exact hstray
  · have hrun : (run (step constantFormats fun _ _ => false) (start (.start [] ⟨0⟩ 0) [])
        [.drain, .send [stray], .stop]).shard.running = true := rfl
    refine not_drained_of_gives_up _ _ hrun fun hkeeps => ?_
    have hqueue : [stray] = [] := hkeeps rfl rfl rfl fun t ht => by cases ht
    cases hqueue

end Channel

end AuraEpics.Ingest
