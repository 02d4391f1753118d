import AuraEpics.Store.Loop
import AuraEpics.Store.SharedBuffer

/-!
# The outstanding bundle of the store loop

The store loop run part by part (`crates/aura-store/src/store_loop.rs`, lines 56-236 and
311-470) beside the shared buffers it empties and the producers that fill them. Every
bundle gets a label when it is taken from the writers and keeps it through its retries;
`attempts` counts per label the flushes the loop has started, `finals` those the shutdown
has.

Result: `outstanding_bundle`, no state has a bundle in flight beside a retained one, a
retained bundle leaves only into a flush, nothing is taken from the buffers while there is
one, and no bundle is flushed more than six times and once more at shutdown.
-/

namespace AuraEpics.Store

open AuraEpics.Core Runs

/-! ## The loop, part by part -/

/-- Where the loop stands: the next part of a pass, or the next stage of the shutdown. -/
inductive LoopStage where
  | reap | retry | fresh | ingest
  | stopInflight | stopRetry | stopDrain | stopFlush | stopped
  deriving DecidableEq, Repr

/-- The stages in which a bundle may be in flight. -/
def LoopStage.canFly : LoopStage → Bool
  | .reap | .retry | .fresh | .ingest | .stopInflight => true
  | _ => false

/-- What a part of the loop meets; each reads its own fields. -/
structure LoopInput where
  finished : Option FlushRun
  retryDue : Bool
  timer : Bool
  fallback : List FallbackUpdate
  cancelled : Bool
  flush : FlushRun

/-- The store loop with its buffers. `nextLabel`, `flying` and `kept` are the labels of the
    next bundle, of the one in flight and of the one retained. -/
structure Outstanding (maxLen : ℕ) where
  loop : StoreLoop
  bufs : List (SharedBuffer maxLen)
  stage : LoopStage
  nextLabel : ℕ
  flying : ℕ
  kept : ℕ
  attempts : ℕ → ℕ
  finals : ℕ → ℕ

/-- A push of a producer into one of the buffers, or a part of the loop. -/
inductive LoopAct where
  | pushScalar (buf : ℕ) (row : ScalarRow)
  | pushOther (buf : ℕ) (row : WriterRow)
  | loop (i : LoopInput)

/-- `take_scalars` and `take_others` of a buffer. -/
def SharedBuffer.takeShard {maxLen : ℕ} (b : SharedBuffer maxLen) : Shard × SharedBuffer maxLen :=
  (⟨b.takeScalars.1, b.takeScalars.2.takeOthers.1⟩, b.takeScalars.2.takeOthers.2)

namespace Outstanding

variable {maxLen : ℕ}

/-- The loop before its first pass. -/
def start (writer : BatchWriter) (bufs : List (SharedBuffer maxLen)) : Outstanding maxLen where
  loop := .start writer
  bufs := bufs
  stage := .reap
  nextLabel := 0
  flying := 0
  kept := 0
  attempts := fun _ => 0
  finals := fun _ => 0

/-- One more flush of the bundle labelled `label`. -/
def countIn (counts : ℕ → ℕ) (label : ℕ) : ℕ → ℕ :=
  Function.update counts label (counts label + 1)

/-- Part 1 (lines 60-135): a bundle to be retried keeps its label. -/
def reap (s : Outstanding maxLen) (i : LoopInput) : Outstanding maxLen := { s with
  loop := s.loop.reap i.finished
  kept := if i.finished.isSome ∧ s.loop.bgFlush.isSome then s.flying else s.kept
  stage := .retry }

/-- The first half of part 2 (lines 138-162). -/
def retry (s : Outstanding maxLen) (i : LoopInput) : Outstanding maxLen :=
  let loop := s.loop.scheduleRetry i.retryDue
  if s.loop.bgFlush.isNone ∧ loop.bgFlush.isSome then
    { s with
      loop := loop
      flying := s.kept
      attempts := countIn s.attempts s.kept
      stage := .fresh }
  else { s with loop := loop, stage := .fresh }

/-- The second half of part 2 (lines 165-182). -/
def fresh (s : Outstanding maxLen) (i : LoopInput) : Outstanding maxLen :=
  let loop := s.loop.scheduleFresh i.timer
  if s.loop.bgFlush.isNone ∧ loop.bgFlush.isSome then
    { s with
      loop := loop
      flying := s.nextLabel
      nextLabel := s.nextLabel + 1
      attempts := countIn s.attempts s.nextLabel
      stage := .ingest }
  else { s with loop := loop, stage := .ingest }

/-- Part 3 (lines 184-245) and the end of the pass: only without a retained bundle are the
    buffers emptied. -/
def ingest (f : Formats) (s : Outstanding maxLen) (i : LoopInput) : Outstanding maxLen :=
  let s := if s.loop.pendingRetry.isNone then
      { s with
        loop := s.loop.ingest f (s.bufs.map fun b => b.takeShard.1) i.fallback
        bufs := s.bufs.map fun b => b.takeShard.2 }
    else s
  { s with stage := if i.cancelled then .stopInflight else .reap }

/-- Stage 1 of the shutdown (lines 312-361). -/
def stopInflight (s : Outstanding maxLen) (i : LoopInput) : Outstanding maxLen := { s with
  loop := s.loop.shutdownInflight i.flush
  kept := if s.loop.bgFlush.isSome then s.flying else s.kept
  stage := .stopRetry }

/-- Stage 2 (lines 364-408). -/
def stopRetry (s : Outstanding maxLen) (i : LoopInput) : Outstanding maxLen := { s with
  loop := s.loop.shutdownRetry i.flush
  finals := if s.loop.pendingRetry.isSome then countIn s.finals s.kept else s.finals
  stage := .stopDrain }

/-- The drain of stage 3 (lines 411-420). -/
def stopDrain (s : Outstanding maxLen) : Outstanding maxLen := { s with
  loop := s.loop.shutdownDrain (s.bufs.map fun b => b.takeShard.1)
  bufs := s.bufs.map fun b => b.takeShard.2
  stage := .stopFlush }

/-- The flush of stage 3 (lines 422-470). -/
def stopFlush (s : Outstanding maxLen) (i : LoopInput) : Outstanding maxLen :=
  let s := if s.loop.writer.hasPending then
      { s with finals := countIn s.finals s.nextLabel, nextLabel := s.nextLabel + 1 }
    else s
  { s with loop := s.loop.shutdownFlush i.flush, stage := .stopped }

/-- The next part of the loop. -/
def advance (f : Formats) (s : Outstanding maxLen) (i : LoopInput) : Outstanding maxLen :=
  match s.stage with
  | .reap => s.reap i
  | .retry => s.retry i
  | .fresh => s.fresh i
  | .ingest => s.ingest f i
  | .stopInflight => s.stopInflight i
  | .stopRetry => s.stopRetry i
  | .stopDrain => s.stopDrain
  | .stopFlush => s.stopFlush i
  | .stopped => s

/-- One step of the loop or of a producer. -/
def step (f : Formats) (s : Outstanding maxLen) : LoopAct → Outstanding maxLen
  | .pushScalar k row => { s with bufs := s.bufs.modify k fun b => (b.pushScalar row).2 }
  | .pushOther k row => { s with bufs := s.bufs.modify k fun b => (b.pushOther row).2 }
  | .loop i => s.advance f i

theorem retry_loop (s : Outstanding maxLen) (i : LoopInput) :
    (s.retry i).loop = s.loop.scheduleRetry i.retryDue ∧ (s.retry i).stage = .fresh ∧
      (s.retry i).bufs = s.bufs := by
  unfold retry
  dsimp only
  split_ifs <;> exact ⟨rfl, rfl, rfl⟩

theorem fresh_loop (s : Outstanding maxLen) (i : LoopInput) :
    (s.fresh i).loop = s.loop.scheduleFresh i.timer ∧ (s.fresh i).stage = .ingest ∧
      (s.fresh i).bufs = s.bufs := by
  unfold fresh
  dsimp only
  split_ifs <;> exact ⟨rfl, rfl, rfl⟩

theorem ingest_loop (f : Formats) (s : Outstanding maxLen) (i : LoopInput) :
    (s.ingest f i).loop = s.loop.ingest f (s.bufs.map fun b => b.takeShard.1) i.fallback := by
  unfold ingest
  by_cases h : s.loop.pendingRetry.isNone
  · rw [if_pos h]
  · rw [if_neg h]
    unfold StoreLoop.ingest
    rw [if_neg h]

/-- Its four parts make the pass of `StoreLoop.iterate`. -/
theorem run_pass (f : Formats) {s : Outstanding maxLen} (hs : s.stage = .reap) (i : LoopInput) :
    (run (step f) s [.loop i, .loop i, .loop i, .loop i]).loop =
      s.loop.iterate f ⟨i.finished, i.retryDue, i.timer, s.bufs.map fun b => b.takeShard.1,
        i.fallback⟩ := by
  obtain ⟨hretry, hretryStage, hretryBufs⟩ := (s.reap i).retry_loop i
  obtain ⟨hfresh, hfreshStage, hfreshBufs⟩ := ((s.reap i).retry i).fresh_loop i
  have hone : s.advance f i = s.reap i := by unfold advance; rw [hs]
  have htwo : (s.reap i).advance f i = (s.reap i).retry i := rfl
  have hthree : ((s.reap i).retry i).advance f i = ((s.reap i).retry i).fresh i := by
    unfold advance
    rw [hretryStage]
  have hfour : (((s.reap i).retry i).fresh i).advance f i =
      (((s.reap i).retry i).fresh i).ingest f i := by
    unfold advance
    rw [hfreshStage]
  show ((((s.advance f i).advance f i).advance f i).advance f i).loop = _
  rw [hone, htwo, hthree, hfour, ingest_loop, hfresh, hretry, hfreshBufs, hretryBufs]
  rfl

/-! ## What the parts do to the bundles -/

end Outstanding

namespace StoreLoop

theorem scheduleRetry_cases (s : StoreLoop) (due : Bool) :
    s.scheduleRetry due = s ∨ ∃ pr, s.bgFlush = none ∧ s.pendingRetry = some pr ∧
      s.scheduleRetry due = ({ s with pendingRetry := none }).spawn pr.bundle pr.attempts := by
  unfold scheduleRetry
  split
  next pr hb hp =>
    split_ifs
    · exact .inr ⟨pr, hb, hp, rfl⟩
    · exact .inl rfl
  next => exact .inl rfl

theorem scheduleFresh_cases (s : StoreLoop) (timer : Bool) :
    (∃ w, s.scheduleFresh timer = { s with writer := w }) ∨
    ∃ b w, s.bgFlush = none ∧ s.pendingRetry = none ∧
      s.scheduleFresh timer = ({ s with writer := w }).spawn b 0 := by
  unfold scheduleFresh
  split_ifs with h
  · obtain ⟨hb, hp, -⟩ := h
    rw [Option.isNone_iff_eq_none] at hb hp
    split
    next b w _ => exact .inr ⟨b, w, hb, hp, rfl⟩
    next w _ => exact .inl ⟨w, rfl⟩
  · exact .inl ⟨s.writer, rfl⟩

/-- The bundle in flight with its attempts, and the one retained. -/
def bundles (s : StoreLoop) : Option FlushBundle × ℕ × Option PendingRetry :=
  (s.bgFlush, s.inflightAttempts, s.pendingRetry)

theorem ingest_bundles (f : Formats) (s : StoreLoop) (shards : List Shard)
    (fallback : List FallbackUpdate) : (s.ingest f shards fallback).bundles = s.bundles := by
  unfold ingest
  split_ifs <;> rfl

theorem finalFlush_bundles (s : StoreLoop) (b : FlushBundle) (r : FlushRun) :
    (s.finalFlush b r).bundles = s.bundles := by
  unfold finalFlush
  split <;> rfl

theorem shutdownFlush_bundles (s : StoreLoop) (r : FlushRun) :
    (s.shutdownFlush r).bundles = s.bundles := by
  unfold shutdownFlush
  split
  · rfl
  · rw [finalFlush_bundles]
    rfl

end StoreLoop

namespace Outstanding

/-! ## The invariant -/

/-- Attempts of a bundle before it is given up. -/
def maxAttempts : ℕ := flushBackoffSecs.length + 1

/-- What every part of the loop keeps. -/
structure Tracked (s : Outstanding maxLen) : Prop where
  exclusive : s.loop.bgFlush.isSome → s.loop.pendingRetry = none
  flying : s.loop.bgFlush.isSome →
    s.attempts s.flying = s.loop.inflightAttempts + 1 ∧ s.flying < s.nextLabel
  kept : ∀ pr, s.loop.pendingRetry = some pr → s.attempts s.kept = pr.attempts ∧ s.kept < s.nextLabel
  again : ∀ pr, s.loop.pendingRetry = some pr → s.stage.canFly → pr.attempts < maxAttempts
  attempted : ∀ label, s.attempts label ≤ maxAttempts
  unused : ∀ label, s.nextLabel ≤ label → s.attempts label = 0 ∧ s.finals label = 0
  final : ∀ label, s.finals label ≤ 1
  noFinal : s.stage.canFly ∨ s.stage = .stopRetry → ∀ label, s.finals label = 0
  joined : ¬s.stage.canFly → s.loop.bgFlush = none
  ended : ¬s.stage.canFly → s.stage ≠ .stopRetry → s.loop.pendingRetry = none

theorem tracked_start (writer : BatchWriter) (bufs : List (SharedBuffer maxLen)) :
    (start writer bufs).Tracked where
  exclusive _ := rfl
  flying h := by cases h
  kept _ h := by cases h
  again _ h := by cases h
  attempted _ := Nat.zero_le _
  unused _ _ := ⟨rfl, rfl⟩
  final _ := Nat.zero_le _
  noFinal _ _ := rfl
  joined _ := rfl
  ended _ _ := rfl

variable {s : Outstanding maxLen} {loop : StoreLoop} {stage : LoopStage}

theorem countIn_self (counts : ℕ → ℕ) (label : ℕ) : countIn counts label label = counts label + 1 :=
  Function.update_self ..

theorem countIn_of_ne {counts : ℕ → ℕ} {label other : ℕ} (h : other ≠ label) :
    countIn counts label other = counts other := Function.update_of_ne h ..

/-- A part that changes neither the bundles nor their labels. -/
theorem Tracked.same_bundles (hs : s.Tracked) (hfrom : s.stage.canFly) (hto : stage.canFly)
    (hloop : loop.bundles = s.loop.bundles) (bufs : List (SharedBuffer maxLen)) :
    ({ s with loop := loop, bufs := bufs, stage := stage } : Outstanding maxLen).Tracked := by
  obtain ⟨hb, ha, hp⟩ : loop.bgFlush = s.loop.bgFlush ∧
      loop.inflightAttempts = s.loop.inflightAttempts ∧ loop.pendingRetry = s.loop.pendingRetry := by
    simpa only [StoreLoop.bundles, Prod.mk.injEq] using hloop
  exact {
    exclusive := by rw [hb, hp]; exact hs.exclusive
    flying := by rw [hb, ha]; exact hs.flying
    kept := by rw [hp]; exact hs.kept
    again := by rw [hp]; exact fun pr hpr _ => hs.again pr hpr hfrom
    attempted := hs.attempted
    unused := hs.unused
    final := hs.final
    noFinal := fun _ => hs.noFinal (.inl hfrom)
    joined := fun h => (h hto).elim
    ended := fun h => (h hto).elim }

/-- A part that starts a flush of the bundle labelled `label`. -/
theorem Tracked.spawned (hs : s.Tracked) (hfrom : s.stage.canFly) (hto : stage.canFly)
    {label next : ℕ} (hp : loop.pendingRetry = none)
    (hattempts : s.attempts label = loop.inflightAttempts) (hagain : s.attempts label < maxAttempts)
    (hlabel : label < next) (hnext : s.nextLabel ≤ next) :
    ({ s with
      loop := loop
      stage := stage
      nextLabel := next
      flying := label
      attempts := countIn s.attempts label } : Outstanding maxLen).Tracked where
  exclusive _ := hp
  flying _ := by
    dsimp only
    rw [countIn_self, hattempts]
    exact ⟨rfl, hlabel⟩
  kept pr h := by
    dsimp only at h
    rw [hp] at h
    cases h
  again pr h := by
    dsimp only at h
    rw [hp] at h
    cases h
  attempted other := by
    dsimp only
    by_cases h : other = label
    · rw [h, countIn_self]
      omega
    · rw [countIn_of_ne h]
      exact hs.attempted other
  unused other h := by
    dsimp only at h ⊢
    rw [countIn_of_ne (by omega)]
    exact hs.unused other (by omega)
  final := hs.final
  noFinal _ := hs.noFinal (.inl hfrom)
  joined h := (h hto).elim
  ended h := (h hto).elim

/-- A part after which nothing is in flight, and what is retained is what was. -/
theorem Tracked.landed (hs : s.Tracked) (hfrom : s.stage.canFly) (hb : s.loop.bgFlush.isSome)
    (hnone : loop.bgFlush = none)
    (hkept : ∀ pr, loop.pendingRetry = some pr →
      pr.attempts = s.loop.inflightAttempts + 1 ∧ (stage.canFly → pr.attempts < maxAttempts))
    (hto : stage.canFly ∨ stage = .stopRetry) :
    ({ s with loop := loop, kept := s.flying, stage := stage } : Outstanding maxLen).Tracked where
  exclusive h := by
    dsimp only at h
    rw [hnone] at h
    cases h
  flying h := by
    dsimp only at h
    rw [hnone] at h
    cases h
  kept pr hpr := by
    obtain ⟨hattempts, hlabel⟩ := hs.flying hb
    dsimp only
    rw [(hkept pr hpr).1, hattempts]
    exact ⟨rfl, hlabel⟩
  again pr hpr := (hkept pr hpr).2
  attempted := hs.attempted
  unused := hs.unused
  final := hs.final
  noFinal _ := hs.noFinal (.inl hfrom)
  joined _ := hnone
  ended hopen hstage := (hto.elim hopen hstage).elim

theorem Tracked.reap (hs : s.Tracked) (hstage : s.stage = .reap) (i : LoopInput) :
    (s.reap i).Tracked := by
  have hfrom : s.stage.canFly := by rw [hstage]; rfl
  unfold Outstanding.reap
  by_cases hdone : i.finished.isSome ∧ s.loop.bgFlush.isSome
  · obtain ⟨r, hr⟩ := Option.isSome_iff_exists.mp hdone.1
    obtain ⟨b, hb⟩ := Option.isSome_iff_exists.mp hdone.2
    have hnone := hs.exclusive hdone.2
    have hreaped := StoreLoop.reaped_reap hb r
    rw [if_pos hdone, hr]
    generalize s.loop.reap (some r) = loop at hreaped ⊢
    cases hreaped with
    | died _ => exact hs.landed hfrom hdone.2 rfl (by simp [hnone]) (.inl rfl)
    | settled _ _ _ => exact hs.landed hfrom hdone.2 rfl (by simp [hnone]) (.inl rfl)
    | retained _ _ _ hagain =>
      refine hs.landed hfrom hdone.2 rfl (fun pr hpr => ?_) (.inl rfl)
      rw [← Option.some.inj hpr]
      exact ⟨rfl, fun _ => hagain⟩
    | exhausted _ _ _ _ => exact hs.landed hfrom hdone.2 rfl (by simp [hnone]) (.inl rfl)
  · have hidle : i.finished = none ∨ s.loop.bgFlush = none := by
      rwa [not_and_or, Option.not_isSome_iff_eq_none, Option.not_isSome_iff_eq_none] at hdone
    rw [if_neg hdone, StoreLoop.reap_of_idle hidle]
    exact hs.same_bundles hfrom rfl rfl s.bufs

theorem Tracked.retry (hs : s.Tracked) (hstage : s.stage = .retry) (i : LoopInput) :
    (s.retry i).Tracked := by
  have hfrom : s.stage.canFly := by rw [hstage]; rfl
  unfold Outstanding.retry
  dsimp only
  rcases s.loop.scheduleRetry_cases i.retryDue with hsame | ⟨pr, hb, hp, hspawn⟩
  · rw [hsame, if_neg (by simp)]
    exact hs.same_bundles hfrom rfl rfl s.bufs
  · obtain ⟨hattempts, hlabel⟩ := hs.kept pr hp
    rw [hspawn, if_pos (by simp [hb, StoreLoop.spawn])]
    refine hs.spawned hfrom rfl rfl hattempts ?_ hlabel le_rfl
    rw [hattempts]
    exact hs.again pr hp hfrom

theorem Tracked.fresh (hs : s.Tracked) (hstage : s.stage = .fresh) (i : LoopInput) :
    (s.fresh i).Tracked := by
  have hfrom : s.stage.canFly := by rw [hstage]; rfl
  unfold Outstanding.fresh
  dsimp only
  rcases s.loop.scheduleFresh_cases i.timer with ⟨w, hsame⟩ | ⟨b, w, hb, hp, hspawn⟩
  · rw [hsame, if_neg (by simp)]
    have hbundles : ({ s.loop with writer := w } : StoreLoop).bundles = s.loop.bundles := rfl
    exact hs.same_bundles hfrom rfl hbundles s.bufs
  · obtain ⟨hunused, -⟩ := hs.unused s.nextLabel le_rfl
    rw [hspawn, if_pos (by simp [hb, StoreLoop.spawn])]
    refine hs.spawned hfrom rfl hp hunused ?_ (Nat.lt_succ_self _) (Nat.le_succ _)
    rw [hunused]
    decide

theorem Tracked.ingest (hs : s.Tracked) (hstage : s.stage = .ingest) (f : Formats) (i : LoopInput) :
    (s.ingest f i).Tracked := by
  have hfrom : s.stage.canFly := by rw [hstage]; rfl
  have hto : (if i.cancelled then LoopStage.stopInflight else .reap).canFly := by
    split_ifs <;> rfl
  unfold Outstanding.ingest
  by_cases hnone : s.loop.pendingRetry.isNone
  · rw [if_pos hnone]
    exact hs.same_bundles hfrom hto (s.loop.ingest_bundles f _ i.fallback) _
  · rw [if_neg hnone]
    exact hs.same_bundles hfrom hto rfl s.bufs

theorem Tracked.stopInflight (hs : s.Tracked) (hstage : s.stage = .stopInflight) (i : LoopInput) :
    (s.stopInflight i).Tracked := by
  have hfrom : s.stage.canFly := by rw [hstage]; rfl
  unfold Outstanding.stopInflight
  cases hb : s.loop.bgFlush with
  | some b =>
    have hflying : s.loop.bgFlush.isSome := by rw [hb]; rfl
    have hnone := hs.exclusive hflying
    have hjoined := StoreLoop.joined_shutdownInflight hb i.flush
    generalize s.loop.shutdownInflight i.flush = loop at hjoined ⊢
    cases hjoined with
    | died _ => exact hs.landed hfrom hflying rfl (by simp [hnone]) (.inr rfl)
    | settled _ _ => exact hs.landed hfrom hflying rfl (by simp [hnone]) (.inr rfl)
    | retained _ _ =>
      refine hs.landed hfrom hflying rfl (fun pr hpr => ?_) (.inr rfl)
      rw [← Option.some.inj hpr]
      exact ⟨rfl, fun hopen => by cases hopen⟩
  | none =>
    have hsame : s.loop.shutdownInflight i.flush = s.loop := by
      unfold StoreLoop.shutdownInflight
      rw [hb]
    rw [hsame]
    exact {
      exclusive := hs.exclusive
      flying := hs.flying
      kept := hs.kept
      again := fun _ _ hopen => by cases hopen
      attempted := hs.attempted
      unused := hs.unused
      final := hs.final
      noFinal := fun _ => hs.noFinal (.inl hfrom)
      joined := fun _ => hb
      ended := fun _ h => (h rfl).elim }

/-- A part of the shutdown after its first stage; `finals` counts what it flushes. -/
theorem Tracked.after_join (hs : s.Tracked) (hto : ¬stage.canFly)
    {next : ℕ} {finals : ℕ → ℕ} (hb : loop.bgFlush = none) (hp : loop.pendingRetry = none)
    (hstage : stage ≠ .stopRetry) (hnext : s.nextLabel ≤ next)
    (hfinals : ∀ label, finals label ≤ 1 ∧ (next ≤ label → finals label = 0))
    (bufs : List (SharedBuffer maxLen)) :
    ({ s with
      loop := loop
      bufs := bufs
      stage := stage
      nextLabel := next
      finals := finals } : Outstanding maxLen).Tracked where
  exclusive _ := hp
  flying h := by
    dsimp only at h
    rw [hb] at h
    cases h
  kept pr h := by
    dsimp only at h
    rw [hp] at h
    cases h
  again _ _ h := (hto h).elim
  attempted := hs.attempted
  unused label h := ⟨(hs.unused label (hnext.trans h)).1, (hfinals label).2 h⟩
  final label := (hfinals label).1
  noFinal h := (h.elim hto hstage).elim
  joined _ := hb
  ended _ _ := hp

theorem Tracked.stopRetry (hs : s.Tracked) (hstage : s.stage = .stopRetry) (i : LoopInput) :
    (s.stopRetry i).Tracked := by
  have hfrom : ¬s.stage.canFly := by rw [hstage]; decide
  have hb := hs.joined hfrom
  have hzero := hs.noFinal (.inr hstage)
  unfold Outstanding.stopRetry StoreLoop.shutdownRetry
  cases hp : s.loop.pendingRetry with
  | none =>
    refine hs.after_join (by decide) hb hp (by decide) le_rfl (fun label => ?_) s.bufs
    dsimp only [Option.isSome_none]
    rw [if_neg (by decide), hzero]
    exact ⟨by decide, fun _ => rfl⟩
  | some pr =>
    obtain ⟨-, hlabel⟩ := hs.kept pr hp
    have hbundles := ({ s.loop with pendingRetry := none } : StoreLoop).finalFlush_bundles pr.bundle i.flush
    obtain ⟨hb', -, hp'⟩ := by simpa only [StoreLoop.bundles, Prod.mk.injEq] using hbundles
    refine hs.after_join (by decide) (hb'.trans hb) hp' (by decide) le_rfl (fun label => ?_) s.bufs
    dsimp only [Option.isSome_some]
    rw [if_pos rfl]
    by_cases h : label = s.kept
    · rw [h, countIn_self, hzero]
      exact ⟨by decide, fun hle => by omega⟩
    · rw [countIn_of_ne h, hzero]
      exact ⟨by decide, fun _ => rfl⟩

theorem Tracked.stopDrain (hs : s.Tracked) (hstage : s.stage = .stopDrain) : s.stopDrain.Tracked := by
  have hfrom : ¬s.stage.canFly := by rw [hstage]; decide
  have hp := hs.ended hfrom (by rw [hstage]; decide)
  have hto : ¬LoopStage.stopFlush.canFly := by decide
  have hdrained : (s.loop.shutdownDrain (s.bufs.map fun b => b.takeShard.1)).bgFlush = none :=
    hs.joined hfrom
  exact hs.after_join hto hdrained hp (by decide) le_rfl
    (fun label => ⟨hs.final label, fun h => (hs.unused label h).2⟩) _

theorem Tracked.stopFlush (hs : s.Tracked) (hstage : s.stage = .stopFlush) (i : LoopInput) :
    (s.stopFlush i).Tracked := by
  have hfrom : ¬s.stage.canFly := by rw [hstage]; decide
  have hbundles := s.loop.shutdownFlush_bundles i.flush
  obtain ⟨hb, -, hp⟩ := by simpa only [StoreLoop.bundles, Prod.mk.injEq] using hbundles
  have hbnone := hb.trans (hs.joined hfrom)
  have hpnone := hp.trans (hs.ended hfrom (by rw [hstage]; decide))
  unfold Outstanding.stopFlush
  dsimp only
  split_ifs with hpending
  · refine hs.after_join (by decide) hbnone hpnone (by decide) (Nat.le_succ _)
      (fun label => ?_) s.bufs
    dsimp only
    by_cases h : label = s.nextLabel
    · rw [h, countIn_self, (hs.unused _ le_rfl).2]
      exact ⟨by decide, fun hle => by omega⟩
    · rw [countIn_of_ne h]
      exact ⟨hs.final label, fun hle => (hs.unused label (by omega)).2⟩
  · exact hs.after_join (by decide) hbnone hpnone (by decide) le_rfl
      (fun label => ⟨hs.final label, fun h => (hs.unused label h).2⟩) s.bufs

theorem Tracked.advance (hs : s.Tracked) (f : Formats) (i : LoopInput) : (s.advance f i).Tracked := by
  unfold Outstanding.advance
  cases hstage : s.stage with
  | reap => exact hs.reap hstage i
  | retry => exact hs.retry hstage i
  | fresh => exact hs.fresh hstage i
  | ingest => exact hs.ingest hstage f i
  | stopInflight => exact hs.stopInflight hstage i
  | stopRetry => exact hs.stopRetry hstage i
  | stopDrain => exact hs.stopDrain hstage
  | stopFlush => exact hs.stopFlush hstage i
  | stopped => exact hs

theorem Tracked.step (hs : s.Tracked) (f : Formats) (act : LoopAct) : (s.step f act).Tracked := by
  cases act with
  | loop i => exact hs.advance f i
  | _ =>
    exact ⟨hs.exclusive, hs.flying, hs.kept, hs.again, hs.attempted, hs.unused, hs.final, hs.noFinal,
      hs.joined, hs.ended⟩

/-! ## Main theorem -/

/-- A state without two outstanding bundles, and with no bundle flushed too often. -/
structure Safe (s : Outstanding maxLen) : Prop where
  exclusive : ¬(s.loop.bgFlush.isSome ∧ s.loop.pendingRetry.isSome)
  attempted : ∀ label, s.attempts label ≤ maxAttempts
  final : ∀ label, s.finals label ≤ 1

/-- What a part of the loop does with a retained bundle, with the buffers and with a bundle
    that is to be retried. -/
structure Careful (f : Formats) (s : Outstanding maxLen) (i : LoopInput) : Prop where
  /-- A retained bundle stays, or goes into its next flush. -/
  kept : ∀ pr, s.loop.pendingRetry = some pr →
    (s.advance f i).loop.pendingRetry = some pr ∨
    ((s.advance f i).loop.bgFlush = some pr.bundle ∧ (s.advance f i).flying = s.kept ∧
      (s.advance f i).attempts s.kept = s.attempts s.kept + 1) ∨
    (s.stage = .stopRetry ∧ (s.advance f i).finals s.kept = s.finals s.kept + 1 ∧
      (s.advance f i).loop = { s.loop with pendingRetry := none }.finalFlush pr.bundle i.flush)
  /-- Nothing is taken from a buffer while there is one. -/
  paused : s.loop.pendingRetry.isSome → (s.advance f i).bufs = s.bufs
  /-- What is to be retried is retained up to the fifth attempt, and lost after the sixth. -/
  retried : ∀ b r o fs keep, s.stage = .reap → i.finished = some r → s.loop.bgFlush = some b →
    b.flushWithProgress r (.start s.loop.captureId) = (some o, fs) → o.retry = some keep →
    (s.attempts s.flying < maxAttempts ∧
      (s.advance f i).loop.pendingRetry = some ⟨keep, s.attempts s.flying⟩ ∧
      (s.advance f i).kept = s.flying) ∨
    (s.attempts s.flying = maxAttempts ∧ (s.advance f i).loop.pendingRetry = none ∧
      (s.advance f i).loop.rowsLost = s.loop.rowsLost + o.lostRows + keep.totalRows)

theorem Tracked.pendingRetry_kept (hs : s.Tracked) (f : Formats) (i : LoopInput) {pr : PendingRetry}
    (hp : s.loop.pendingRetry = some pr) :
    (s.advance f i).loop.pendingRetry = some pr ∨
    ((s.advance f i).loop.bgFlush = some pr.bundle ∧ (s.advance f i).flying = s.kept ∧
      (s.advance f i).attempts s.kept = s.attempts s.kept + 1) ∨
    (s.stage = .stopRetry ∧ (s.advance f i).finals s.kept = s.finals s.kept + 1 ∧
      (s.advance f i).loop = { s.loop with pendingRetry := none }.finalFlush pr.bundle i.flush) := by
  have hb : s.loop.bgFlush = none := by
    by_contra hsome
    rw [hs.exclusive (Option.ne_none_iff_isSome.mp hsome)] at hp
    cases hp
  unfold Outstanding.advance
  cases hstage : s.stage with
  | reap =>
    left
    show (s.loop.reap i.finished).pendingRetry = some pr
    rwa [StoreLoop.reap_of_idle (.inr hb)]
  | retry =>
    dsimp only [Outstanding.retry]
    rcases s.loop.scheduleRetry_cases i.retryDue with hsame | ⟨pr', -, hp', hspawn⟩
    · rw [hsame, if_neg (by simp)]
      exact .inl hp
    · obtain rfl : pr = pr' := Option.some.inj (hp.symm.trans hp')
      rw [hspawn, if_pos (by simp [hb, StoreLoop.spawn])]
      exact .inr (.inl ⟨rfl, rfl, countIn_self _ _⟩)
  | fresh =>
    left
    dsimp only [Outstanding.fresh]
    rcases s.loop.scheduleFresh_cases i.timer with ⟨w, hsame⟩ | ⟨b, w, -, hnone, -⟩
    · rw [hsame, if_neg (by simp)]
      exact hp
    · rw [hp] at hnone
      cases hnone
  | ingest =>
    left
    unfold Outstanding.ingest
    rw [if_neg (by simp [hp])]
    exact hp
  | stopInflight =>
    left
    show (s.loop.shutdownInflight i.flush).pendingRetry = some pr
    unfold StoreLoop.shutdownInflight
    rwa [hb]
  | stopRetry =>
    right; right
    unfold Outstanding.stopRetry StoreLoop.shutdownRetry
    rw [hp]
    exact ⟨rfl, countIn_self _ _, rfl⟩
  | stopDrain =>
    rw [hs.ended (by rw [hstage]; decide) (by rw [hstage]; decide)] at hp
    cases hp
  | stopFlush =>
    rw [hs.ended (by rw [hstage]; decide) (by rw [hstage]; decide)] at hp
    cases hp
  | stopped => exact .inl hp

theorem Tracked.buffers_paused (hs : s.Tracked) (f : Formats) (i : LoopInput)
    (hp : s.loop.pendingRetry.isSome) : (s.advance f i).bufs = s.bufs := by
  unfold Outstanding.advance
  cases hstage : s.stage with
  | retry => dsimp only [Outstanding.retry]; split_ifs <;> rfl
  | fresh => dsimp only [Outstanding.fresh]; split_ifs <;> rfl
  | ingest =>
    unfold Outstanding.ingest
    rw [if_neg (by rw [Option.isNone_iff_eq_none]; exact Option.isSome_iff_ne_none.mp hp)]
  | stopDrain =>
    rw [hs.ended (by rw [hstage]; decide) (by rw [hstage]; decide)] at hp
    cases hp
  | stopFlush => dsimp only [Outstanding.stopFlush]; split_ifs <;> rfl
  | _ => rfl

theorem Tracked.retried_or_lost (hs : s.Tracked) (f : Formats) (i : LoopInput) {b keep : FlushBundle}
    {r : FlushRun} {o : FlushOutcome} {fs : FlushState} (hstage : s.stage = .reap)
    (hdone : i.finished = some r) (hb : s.loop.bgFlush = some b)
    (hflush : b.flushWithProgress r (.start s.loop.captureId) = (some o, fs))
    (hretry : o.retry = some keep) :
    (s.attempts s.flying < maxAttempts ∧
      (s.advance f i).loop.pendingRetry = some ⟨keep, s.attempts s.flying⟩ ∧
      (s.advance f i).kept = s.flying) ∨
    (s.attempts s.flying = maxAttempts ∧ (s.advance f i).loop.pendingRetry = none ∧
      (s.advance f i).loop.rowsLost = s.loop.rowsLost + o.lostRows + keep.totalRows) := by
  have hsome : s.loop.bgFlush.isSome := by rw [hb]; rfl
  obtain ⟨hattempts, -⟩ := hs.flying hsome
  have hmax := hs.attempted s.flying
  have hnone := hs.exclusive hsome
  have hreaped := StoreLoop.reaped_reap hb r
  unfold Outstanding.advance Outstanding.reap
  rw [hstage, hdone]
  dsimp only
  rw [if_pos ⟨rfl, hsome⟩, hattempts]
  generalize s.loop.reap (some r) = loop at hreaped ⊢
  cases hreaped with
  | died h =>
    rw [hflush] at h
    cases h
  | settled _ h hnothing =>
    rw [hflush] at h
    cases h
    rw [hretry] at hnothing
    cases hnothing
  | retained _ h hkeep hagain =>
    rw [hflush] at h
    cases h
    rw [hretry] at hkeep
    cases hkeep
    exact .inl ⟨hagain, rfl, rfl⟩
  | exhausted _ h hkeep hlast =>
    rw [hflush] at h
    cases h
    rw [hretry] at hkeep
    cases hkeep
    refine .inr ⟨?_, hnone, rfl⟩
    rw [hattempts] at hmax
    exact le_antisymm hmax hlast

theorem Tracked.safe (hs : s.Tracked) : s.Safe where
  exclusive h := by
    have hp := h.2
    rw [hs.exclusive h.1] at hp
    cases hp
  attempted := hs.attempted
  final := hs.final

theorem Tracked.careful (hs : s.Tracked) (f : Formats) (i : LoopInput) : s.Careful f i where
  kept _ hp := hs.pendingRetry_kept f i hp
  paused hp := hs.buffers_paused f i hp
  retried _ _ _ _ _ hstage hdone hb hflush hretry :=
    hs.retried_or_lost f i hstage hdone hb hflush hretry

/-- **Main theorem**: from any writers and buffers, in every state of every run with any
    producers, through the passes and the stages of the shutdown: a flush in flight and a
    retained bundle never coexist and no bundle is flushed more than six times and once at
    shutdown; and in every part of the loop, a retained bundle stays or goes into its next
    flush, nothing is taken from the buffers while there is one, and a bundle that is to be
    retried is retained unless it has had six attempts, when its rows are counted as lost. -/
theorem outstanding_bundle (f : Formats) (writer : BatchWriter) (bufs : List (SharedBuffer maxLen))
    (acts : List LoopAct) :
    AlongStates (step f) Safe (start writer bufs) acts ∧
      AlongSteps (step f) (fun s act => ∀ i, act = .loop i → s.Careful f i) (start writer bufs)
        acts := by
  have hinv : AlongStates (step f) Tracked (start writer bufs) acts :=
    alongStates_of_step (fun s act hs => hs.step f act) (tracked_start writer bufs) acts
  refine ⟨hinv.mono fun s hs => hs.safe, hinv.steps fun s act hs i _ => ?_⟩
  exact hs.careful f i

end Outstanding

end AuraEpics.Store
