import AuraEpics.Ingest.Thread
import AuraEpics.Lib.Runs
import AuraEpics.Session.Bus
import AuraEpics.Store.SharedBuffer

/-!
# Which PVs are ingested

The main loop subscribes to PVs by three routes: at startup (`src/main.rs`, lines 439-572),
on a Redis command (lines 785-828) and on a NOTIFY (lines 977-1003). Startup and the Redis
route start the ingest threads when there are monitors and no threads yet; the threads
register the PVs of these monitors and no others (`crates/aura-ingest/src/thread.rs`, lines
455-485). The NOTIFY route starts no thread and drops its monitors.

Which of the requested PVs `handlers::subscribe_pvs` subscribes is decided by the network and
is part of the step. A push of a thread finds its `SharedBuffer` as the other threads have
left it. The main loop's own engine only collects metadata and is left out.

Result: `ingested_iff`, when the threads run as soon as a PV is subscribed and every value of
a subscribed PV that converts becomes a row.
-/

namespace AuraEpics.Main

open Numeric AuraEpics.Ingest AuraEpics.Session AuraEpics.Store Runs

variable {n maxLen : ℕ}

/-! ## Pushing a row -/

/-- `push_scalar` or `push_other`. -/
def pushRow (b : SharedBuffer maxLen) : StoredRow → Bool × SharedBuffer maxLen
  | .scalar r => b.pushScalar r
  | .other r => b.pushOther r

/-- The queue of the row is not full. -/
def HasRoom (b : SharedBuffer maxLen) : StoredRow → Prop
  | .scalar _ => b.scalars.items.length < maxLen
  | .other _ => b.others.items.length < maxLen

/-- The row is at the end of its queue. -/
def EndsWith (b : SharedBuffer maxLen) : StoredRow → Prop
  | .scalar r => [r] <:+ b.scalars.items
  | .other r => [r] <:+ b.others.items

/-- The push returns `true` and leaves the row in the buffer. -/
def Stores (b : SharedBuffer maxLen) (row : StoredRow) : Prop :=
  (pushRow b row).1 = true ∧ EndsWith (pushRow b row).2 row

theorem stores_iff (b : SharedBuffer maxLen) (row : StoredRow) : Stores b row ↔ HasRoom b row := by
  cases row with
  | scalar r =>
    show (b.pushScalar r).1 = true ∧ [r] <:+ (b.pushScalar r).2.scalars.items ↔
      b.scalars.items.length < maxLen
    unfold SharedBuffer.pushScalar SharedBuffer.lockScalar
    obtain ⟨hroom, q, hpush⟩ | ⟨hfull, hpush⟩ := b.scalars.push_cases r
    · rw [hpush]
      exact iff_of_true ⟨rfl, BoundedQueue.suffix_of_push hpush⟩ hroom
    · rw [hpush]
      exact iff_of_false (fun h => Bool.false_ne_true h.1) hfull
  | other r =>
    show (b.pushOther r).1 = true ∧ [r] <:+ (b.pushOther r).2.others.items ↔
      b.others.items.length < maxLen
    unfold SharedBuffer.pushOther SharedBuffer.lockOther
    obtain ⟨hroom, q, hpush⟩ | ⟨hfull, hpush⟩ := b.others.push_cases r
    · rw [hpush]
      exact iff_of_true ⟨rfl, BoundedQueue.suffix_of_push hpush⟩ hroom
    · rw [hpush]
      exact iff_of_false (fun h => Bool.false_ne_true h.1) hfull

/-! ## The main loop -/

/-- The main loop with `n + 1` ingest threads once they are started. `subscribed` are the PVs
    subscribed by one of the routes and not unsubscribed since, `everSubscribed` says that
    there has been one, and `spawnedWith` are the PVs the threads were started with. -/
structure IngestMain (n : ℕ) where
  monitors : List String
  shards : Option (Fin (n + 1) → Ingest.Shard)
  subscribed : List String
  everSubscribed : Bool
  spawnedWith : List String

/-- A step of the main loop, or a pass of an ingest thread with the buffers its pushes
    find. -/
inductive MainAct (n maxLen : ℕ) where
  | redis (requested ok unsubscribed : List String) (now : ℕ)
  | notifySubscribe (ok : List String)
  | notifyUnsubscribe (pvs : List String)
  | pass (i : Fin (n + 1)) (p : Pass) (found : ℕ → SharedBuffer maxLen)

namespace IngestMain

/-- `subscribe_pvs` has subscribed the PVs `ok`. -/
def noteSubscribed (s : IngestMain n) (ok : List String) : IngestMain n := { s with
  subscribed := s.subscribed ++ ok
  everSubscribed := s.everSubscribed || !ok.isEmpty }

/-- `setup_shards_and_spawn` (thread.rs, lines 455-485). -/
def setupShardsAndSpawn (s : IngestMain n) (defaultHeartbeatS : Binary32) (now : ℕ) :
    IngestMain n := { s with
  shards := some fun i =>
    .start (s.monitors.filter fun name => shardForPv name (n + 1) = i) defaultHeartbeatS now
  monitors := []
  spawnedWith := s.monitors }

/-- `if !monitors.is_empty() && ingest_handles.is_empty()` (lines 811-828). -/
def spawnIfNeeded (s : IngestMain n) (defaultHeartbeatS : Binary32) (now : ℕ) : IngestMain n :=
  if s.monitors ≠ [] ∧ s.shards.isNone then s.setupShardsAndSpawn defaultHeartbeatS now else s

/-- Startup (lines 439-572): subscribe, then spawn if there are monitors. -/
def start (ok : List String) (defaultHeartbeatS : Binary32) (now : ℕ) : IngestMain n :=
  let s : IngestMain n := noteSubscribed ⟨[], none, [], false, []⟩ ok
  spawnIfNeeded { s with monitors := ok } defaultHeartbeatS now

/-- An unsubscribe of the Redis branch (lines 833-857); the order of `monitors` is not
    read. -/
def unsubscribe (s : IngestMain n) (pv : String) : IngestMain n := { s with
  monitors := s.monitors.erase pv
  subscribed := s.subscribed.filter (· ≠ pv) }

variable (f : Formats) (before : ℕ → Binary32 → Bool) (defaultHeartbeatS : Binary32)

/-- One step. The shutdown flag is set only after the main loop. -/
def step (s : IngestMain n) : MainAct n maxLen → IngestMain n
  | .redis requested ok unsubscribed now =>
    let s := if requested = [] then s else
      let s := s.noteSubscribed ok
      spawnIfNeeded { s with monitors := s.monitors ++ ok } defaultHeartbeatS now
    unsubscribed.foldl unsubscribe s
  | .notifySubscribe ok => s.noteSubscribed ok
  | .notifyUnsubscribe pvs => { s with subscribed := s.subscribed.filter (· ∉ pvs) }
  | .pass i p _ =>
    match s.shards with
    | none => s
    | some shards =>
      let (shard, _) := (shards i).pass f before { p with shutdown := false }
      { s with shards := some (Function.update shards i shard) }

/-- Once a PV has been subscribed, the ingest threads have been started. -/
def Started (s : IngestMain n) : Prop := s.everSubscribed → s.shards.isSome

/-- The batch of thread `i` when it comes to the event after `pre`. -/
def batchAfter (shards : Fin (n + 1) → Ingest.Shard) (i : Fin (n + 1)) (p : Pass)
    (pre : List TaggedEvent) : Batch :=
  pre.foldl (Batch.handle f p.cache p.batchNow) (shards i).freshBatch

/-- `P` holds of each event of a subscribed PV with an id that converts to a Normative Type,
    with the thread's batch at this event. -/
def ForConverting (s : IngestMain n) (i : Fin (n + 1)) (p : Pass)
    (P : Batch → TaggedEvent → Int32 → Core.NormativeType → Prop) : Prop :=
  ∀ shards, s.shards = some shards → ∀ pre t post, p.events = pre ++ t :: post →
    t.pvName ∈ s.subscribed → ∀ pvId, pvIdOf p.cache t.pvId t.pvName = some pvId →
    ∀ nt, converted t.event = some nt → P (batchAfter f shards i p pre) t pvId nt

/-- Every such event of a pass yields a row in the `SharedBuffer`. -/
def Yields (s : IngestMain n) : MainAct n maxLen → Prop
  | .pass i p found => s.ForConverting f i p fun b t pvId nt =>
    ∃ row, slowPathRow f ⟨t.pvName, none, nt⟩ pvId = some row ∧
      (b.handle f p.cache p.batchNow t).handed = b.handed ++ [row] ∧
      Stores (found b.handed.length) row
  | _ => True

/-- The condition: the NOTIFY route subscribes to PVs only when the threads run, and an event
    that converts is of a PV its thread was started with and finds room in the buffer. -/
def Covered (s : IngestMain n) : MainAct n maxLen → Prop
  | .notifySubscribe ok => ok ≠ [] → s.shards.isSome
  | .pass i p found => s.ForConverting f i p fun b t pvId nt =>
    (t.pvName ∈ s.spawnedWith ∧ shardForPv t.pvName (n + 1) = i) ∧
      ∀ row, slowPathRow f ⟨t.pvName, none, nt⟩ pvId = some row → HasRoom (found b.handed.length) row
  | _ => True

/-! ## Engines of the threads -/

/-- The threads know the PVs they were started with, each in its shard. -/
def Assigned (s : IngestMain n) : Prop :=
  ∀ shards, s.shards = some shards → ∀ i, (shards i).engine.Named ∧
    ∀ name, (shards i).engine.Registered name ↔
      name ∈ s.spawnedWith ∧ shardForPv name (n + 1) = i

theorem assigned_spawn (s : IngestMain n) (now : ℕ) :
    (s.setupShardsAndSpawn defaultHeartbeatS now).Assigned := by
  intro shards hshards i
  obtain rfl := Option.some.inj hshards
  refine ⟨IngestEngine.foldl_registerPv_named (fun _ _ h => by cases h) _, fun name => ?_⟩
  show (List.foldl IngestEngine.registerPv .new _).Registered name ↔ _
  rw [IngestEngine.foldl_registerPv_registered, List.mem_filter, decide_eq_true_iff]
  exact or_iff_left Bool.false_ne_true

theorem Assigned.spawnIfNeeded {s : IngestMain n} (h : s.Assigned) (now : ℕ) :
    (s.spawnIfNeeded defaultHeartbeatS now).Assigned := by
  unfold IngestMain.spawnIfNeeded
  split_ifs
  · exact assigned_spawn defaultHeartbeatS s now
  · exact h

/-- Unsubscribing leaves the threads alone. -/
theorem foldl_unsubscribe (s : IngestMain n) (pvs : List String) :
    (pvs.foldl unsubscribe s).shards = s.shards ∧
      (pvs.foldl unsubscribe s).spawnedWith = s.spawnedWith ∧
      (pvs.foldl unsubscribe s).everSubscribed = s.everSubscribed := by
  induction pvs generalizing s with
  | nil => exact ⟨rfl, rfl, rfl⟩
  | cons pv pvs ih => exact ih (s.unsubscribe pv)

theorem Assigned.pass {s : IngestMain n} (h : s.Assigned) {shards : Fin (n + 1) → Ingest.Shard}
    (hshards : s.shards = some shards) (i : Fin (n + 1)) (p : Pass) :
    Assigned { s with
      shards := some (Function.update shards i ((shards i).pass f before p).1) } := by
  intro shards' hshards' j
  obtain rfl := Option.some.inj hshards'
  rw [Function.update_apply]
  split_ifs with hj
  · subst hj
    obtain ⟨hnamed, hregistered⟩ := h shards hshards j
    rw [Ingest.Shard.pass_engine]
    split_ifs
    · have hsame := (shards j).freshBatch.foldl_handle_samePvs f p.cache p.batchNow hnamed p.events
      exact ⟨hsame.named hnamed, fun name => (hsame.registered name).trans (hregistered name)⟩
    · exact ⟨hnamed, hregistered⟩
  · exact h shards hshards j

theorem Assigned.step {s : IngestMain n} (h : s.Assigned) (a : MainAct n maxLen) :
    (s.step f before defaultHeartbeatS a).Assigned := by
  cases a with
  | redis requested ok unsubscribed now =>
    show Assigned (List.foldl unsubscribe _ unsubscribed)
    intro shards hshards
    rw [(foldl_unsubscribe _ unsubscribed).1] at hshards
    rw [(foldl_unsubscribe _ unsubscribed).2.1]
    revert shards
    show Assigned (if requested = [] then s else _)
    split_ifs
    · exact h
    · exact Assigned.spawnIfNeeded defaultHeartbeatS (s := { s.noteSubscribed ok with
        monitors := (s.noteSubscribed ok).monitors ++ ok }) h now
  | notifySubscribe ok => exact h
  | notifyUnsubscribe pvs => exact h
  | pass i p found =>
    show Assigned (match s.shards with | none => s | some shards => _)
    cases hshards : s.shards with
    | none => exact h
    | some shards => exact h.pass f before hshards i _

/-! ## One step -/

/-- An event that converts yields a row exactly if its PV is registered and there is room. -/
theorem yields_row_iff {b : Batch} (hnamed : b.engine.Named) {p : Pass} {t : TaggedEvent}
    {pvId : Int32} {nt : Core.NormativeType} (hid : pvIdOf p.cache t.pvId t.pvName = some pvId)
    (hnt : converted t.event = some nt) (found : ℕ → SharedBuffer maxLen) :
    (∃ row, slowPathRow f ⟨t.pvName, none, nt⟩ pvId = some row ∧
      (b.handle f p.cache p.batchNow t).handed = b.handed ++ [row] ∧
      Stores (found b.handed.length) row) ↔
    b.engine.Registered t.pvName ∧
      ∀ row, slowPathRow f ⟨t.pvName, none, nt⟩ pvId = some row →
        HasRoom (found b.handed.length) row := by
  have hdelta : isDelta t.event = false := by
    cases hevent : t.event with
    | scalarDelta v a | stringDelta v a | arrayDelta v a =>
      rw [hevent] at hnt
      cases hnt
    | _ => rfl
  rw [b.handle_slow f p.cache p.batchNow hdelta]
  obtain ⟨hskip, e, -, hslow⟩ |
    ⟨nt', e, hreg, hnt', -, ⟨hid', -⟩ | ⟨pvId', row, hid', hrow, hslow⟩⟩ :=
    b.slow_cases f p.cache hnamed t
  · have hnot : ¬b.engine.Registered t.pvName := by
      refine hskip.resolve_right fun hnone => ?_
      rw [hnone] at hnt
      cases hnt
    refine iff_of_false ?_ fun h => hnot h.1
    rintro ⟨row, -, hhanded, -⟩
    rw [hslow] at hhanded
    exact List.cons_ne_nil _ _ (List.self_eq_append_right.mp hhanded)
  · rw [hid] at hid'
    cases hid'
  · cases hnt.symm.trans hnt'
    cases hid.symm.trans hid'
    rw [hslow]
    constructor
    · rintro ⟨row', hrow', -, hstores⟩
      refine ⟨hreg, fun row'' hrow'' => ?_⟩
      cases hrow'.symm.trans hrow''
      exact (stores_iff _ _).mp hstores
    · rintro ⟨-, hroom⟩
      exact ⟨row, hrow, rfl, (stores_iff _ _).mpr (hroom row hrow)⟩

theorem started_spawnIfNeeded {s : IngestMain n} (h : s.everSubscribed → s.monitors ≠ [] ∨ s.shards.isSome)
    (now : ℕ) : (s.spawnIfNeeded defaultHeartbeatS now).Started := by
  unfold IngestMain.spawnIfNeeded
  split_ifs with hspawn
  · exact fun _ => rfl
  · intro hever
    obtain hmonitors | hsome := h hever
    · cases hshards : s.shards with
      | none => exact absurd ⟨hmonitors, by rw [hshards]; rfl⟩ hspawn
      | some shards => rfl
    · exact hsome

/-- The routes that start the threads keep them started. -/
theorem Started.subscribe {s : IngestMain n} (h : s.Started) (ok : List String) (now : ℕ) :
    (spawnIfNeeded { s.noteSubscribed ok with monitors := s.monitors ++ ok } defaultHeartbeatS
      now).Started := by
  refine started_spawnIfNeeded defaultHeartbeatS (fun hever => ?_) now
  show s.monitors ++ ok ≠ [] ∨ s.shards.isSome
  cases ok with
  | nil =>
    have hever' : (s.everSubscribed || false) = true := hever
    rw [Bool.or_false] at hever'
    exact .inr (h hever')
  | cons pv ok => exact .inl (by simp)

/-- A step is covered exactly if it yields its rows and leaves the threads started. -/
theorem step_iff {s : IngestMain n} (hassigned : s.Assigned) (hstarted : s.Started)
    (a : MainAct n maxLen) :
    s.Yields f a ∧ (s.step f before defaultHeartbeatS a).Started ↔ s.Covered f a := by
  cases a with
  | redis requested ok unsubscribed now =>
    refine iff_of_true ⟨trivial, ?_⟩ trivial
    show Started (List.foldl unsubscribe _ unsubscribed)
    unfold Started
    rw [(foldl_unsubscribe _ unsubscribed).1, (foldl_unsubscribe _ unsubscribed).2.2]
    show Started (if requested = [] then s else _)
    split_ifs
    · exact hstarted
    · exact hstarted.subscribe defaultHeartbeatS ok now
  | notifySubscribe ok =>
    show True ∧ ((s.everSubscribed || !ok.isEmpty) = true → s.shards.isSome) ↔
      (ok ≠ [] → s.shards.isSome)
    rw [Bool.or_eq_true, Bool.not_eq_true', List.isEmpty_eq_false_iff]
    exact ⟨fun h hok => h.2 (.inr hok), fun h => ⟨trivial, fun hor => hor.elim hstarted h⟩⟩
  | notifyUnsubscribe pvs => exact iff_of_true ⟨trivial, hstarted⟩ trivial
  | pass i p found =>
    have hkeeps : (s.step f before defaultHeartbeatS (.pass i p found)).Started := by
      show Started (match s.shards with | none => s | some shards => _)
      cases hshards : s.shards with
      | none => exact hstarted
      | some shards => exact fun _ => rfl
    refine (and_iff_left hkeeps).trans ?_
    refine forall₂_congr fun shards hshards => forall₄_congr fun pre t post _ => ?_
    refine forall₃_congr fun _ pvId hid => forall₂_congr fun nt hnt => ?_
    obtain ⟨hnamed, hregistered⟩ := hassigned shards hshards i
    have hsame := (shards i).freshBatch.foldl_handle_samePvs f p.cache p.batchNow hnamed pre
    refine (yields_row_iff f (hsame.named hnamed) hid hnt found).trans ?_
    refine and_congr_left fun _ => ?_
    exact (hsame.registered t.pvName).trans (hregistered t.pvName)

/-! ## Main theorem -/

/-- **Main theorem**: in a run of the main loop the ingest threads run as soon as a PV is
    subscribed, and every value of a subscribed PV with an id that converts yields a row,
    exactly if every step is covered. -/
theorem ingested_iff (ok : List String) (now : ℕ) (acts : List (MainAct n maxLen)) :
    AlongStates (step f before defaultHeartbeatS) Started (start ok defaultHeartbeatS now) acts ∧
      AlongSteps (step f before defaultHeartbeatS) (Yields f) (start ok defaultHeartbeatS now)
        acts ↔
    AlongSteps (step f before defaultHeartbeatS) (Covered f) (start ok defaultHeartbeatS now)
      acts := by
  have hstarted : (start ok defaultHeartbeatS now : IngestMain n).Started :=
    Started.subscribe (n := n) defaultHeartbeatS (s := ⟨[], none, [], false, []⟩)
      (fun h => absurd h Bool.false_ne_true) ok now
  have hassigned : (start ok defaultHeartbeatS now : IngestMain n).Assigned :=
    Assigned.spawnIfNeeded defaultHeartbeatS (fun _ h => by cases h) now
  rw [alongStates_and_alongSteps_iff, and_iff_right hstarted]
  refine alongSteps_congr (J := fun s => Assigned s ∧ Started s) ?_ ?_ ⟨hassigned, hstarted⟩ acts
  · rintro s a ⟨hs, -⟩ ⟨-, hstarted'⟩
    exact ⟨hs.step f before defaultHeartbeatS a, hstarted'⟩
  · rintro s a ⟨hs, hs'⟩
    exact step_iff f before defaultHeartbeatS hs hs' a

/-- A pass that drains a value of the PV `pv`, whose id is in the cache. -/
def valueOf (pv : String) : Pass where
  events := [⟨pv, 0, .value (.struct [("value", .scalar (.double .one))])⟩]
  cache := fun _ => some 7
  batchNow := 0
  statsNow := 0
  scanNow := 0
  scanPgUs := 0
  active := fun _ => false
  config := ⟨0, []⟩
  shutdown := false

/-- Two threads, and a PV whose subscription comes after their start by a Redis command: its
    value is skipped. And a PV subscribed by NOTIFY when nothing was subscribed at startup:
    there are no threads. -/
theorem lateSubscriber_skipped :
    let late : List (MainAct 1 10) :=
      [.redis ["B"] ["B"] [] 0,
        .pass ⟨shardForPv "B" 2, shardForPv_lt (by decide) "B"⟩ (valueOf "B") fun _ => .new]
    let notify : List (MainAct 1 10) := [.notifySubscribe ["A"]]
    ¬AlongSteps (step constantFormats (fun _ _ => false) ⟨0⟩) (Yields constantFormats)
        (start ["A"] ⟨0⟩ 0) late ∧
      ¬AlongStates (step constantFormats (fun _ _ => false) ⟨0⟩) Started
        (start [] ⟨0⟩ 0) notify := by
  intro late notify
  constructor
  · rintro ⟨-, hyields, -⟩
    obtain ⟨row, -, hhanded, -⟩ :=
      hyields _ rfl [] _ [] rfl (by decide +kernel) 7 rfl _ rfl
    have hlen := congrArg List.length hhanded
    rw [List.length_append, List.length_singleton] at hlen
    exact absurd hlen (by decide +kernel)
  · rintro ⟨-, hstarted⟩
    exact absurd (hstarted rfl) Bool.false_ne_true

end IngestMain

end AuraEpics.Main
