import AuraEpics.Discover.Orchestrator

/-!
# Changes reflected in commands

Whether a change of `pv_config` reaches the commands of the orchestrator depends on two
records that are kept apart: `last_poll`, from which the next query starts, and the PVs
the poller knows. `Tracked` says in each phase of a cycle that a PV on which table and
poller differ is found by the query to come.

Result: `cycle_reflects`, after a complete cycle the last command about a PV is a
subscribe exactly if its row is enabled.
-/

namespace AuraEpics.Discover

open AuraEpics.Store Latest Runs

namespace Discovery

/-! ## States of the orchestrator -/

/-- What holds in every state: the reconciler is in step, and before startup the
    orchestrator is new. -/
structure Sound (s : Discovery) : Prop where
  inStep : s.orch.InStep
  new : (s.phase = .starting ∨ ∃ all, s.phase = .loaded all) →
    s.orch = .new s.orch.nameServers s.orch.lastPoll
  loaded : ∀ all, s.phase = .loaded all → ∀ c ∈ all, c.enabled = true

theorem sound_new (table : PvTable) (nameServers : List String) (minUtc : ℤ) :
    (new table nameServers minUtc).Sound := by
  refine ⟨Orchestrator.inStep_new nameServers minUtc, fun _ => rfl, fun all h => ?_⟩
  cases h

theorem touch_cases (batches : List (List String)) :
    Phase.touch batches = .idle ∨ ∃ rest, Phase.touch batches = .touching rest := by
  unfold Phase.touch
  split_ifs
  · exact .inl rfl
  · exact .inr ⟨_, rfl⟩

/-- The snapshot of `startup`. -/
theorem Sound.start {s : Discovery} (hs : s.Sound) {all : List PvConfig}
    (h : s.phase = .loaded all) (now : ℤ) :
    let o := ((s.orch.startup all now).2.foldl Orchestrator.executeResolve
      ((s.orch.startup all now).1, [])).1
    Orchestrator.Processed s.orch all o ∧ o.lastPoll = now := by
  rw [hs.new (.inr ⟨all, h⟩)]
  exact Orchestrator.startup_processed _ _ now (hs.loaded all h)

/-- A state whose phase is neither of those before startup. -/
theorem sound_of_started {s : Discovery} (hstep : s.orch.InStep)
    (hphase : s.phase ≠ .starting ∧ ∀ all, s.phase ≠ .loaded all) : s.Sound := by
  refine ⟨hstep, ?_, fun all h => absurd h (hphase.2 all)⟩
  rintro (h | ⟨all, h⟩)
  · exact absurd h hphase.1
  · exact absurd h (hphase.2 all)

theorem touch_started (batches : List (List String)) :
    Phase.touch batches ≠ .starting ∧ ∀ all, Phase.touch batches ≠ .loaded all := by
  rcases touch_cases batches with h | ⟨rest, h⟩
  · simp [h]
  · simp [h]

theorem Sound.moves {s s' : Discovery} {act : Act} (hs : s.Sound) (hm : Moves s act s') :
    s'.Sound := by
  cases hm with
  | statement stmt now => exact ⟨hs.inStep, hs.new, hs.loaded⟩
  | load h =>
    refine ⟨hs.inStep, fun _ => hs.new (.inl h), ?_⟩
    rintro all hall c hc
    cases hall
    exact PvTable.enabled_of_mem_getAllEnabled hc
  | start now h => exact sound_of_started (hs.start h now).1.inStep (touch_started _)
  | query h => exact sound_of_started hs.inStep (by simp)
  | @stamp fresh now h =>
    refine sound_of_started ⟨hs.inStep.resolved, hs.inStep.pending, hs.inStep.notFound⟩ ?_
    dsimp only
    split_ifs <;> simp
  | snapshot h => exact sound_of_started hs.inStep (by simp)
  | noSnapshot h => exact sound_of_started hs.inStep (by simp)
  | @process all h =>
    refine sound_of_started ?_ (touch_started _)
    cases all with
    | some all => exact (Orchestrator.process_processed hs.inStep all).1.inStep
    | none =>
      show (s.orch.process none).1.InStep
      rw [Orchestrator.process_none hs.inStep]
      exact hs.inStep
  | touch ok now h => exact sound_of_started hs.inStep (touch_started _)
  | flush ok h =>
    exact sound_of_started ⟨hs.inStep.resolved, hs.inStep.pending, hs.inStep.notFound⟩ (by simp [h])
  | nothing => exact hs

/-! ## What the query to come finds -/

/-- Table and poller agree on the PV. -/
def Agrees (s : Discovery) (name : String) : Prop :=
  s.table.Enabled name ↔ name ∈ s.orch.poller.known

/-- The next query finds the row of the PV. -/
def Due (s : Discovery) (name : String) : Prop := s.table.ChangedSince s.orch.lastPoll name

/-- If the PV has a row, the poller agrees with it when the cycle is over, or `slack`
    holds. After a query that found something, a snapshot is still to come. -/
def Covers (s : Discovery) (name : String) (slack : Prop) : Prop :=
  match s.phase with
  | .starting => True
  | .loaded _ => True
  | .polled => True
  | .queried fresh => fresh = [] → name ∈ s.table → s.Agrees name ∨ slack
  | .ready (some all) => name ∈ s.table → (s.table.Enabled name ↔ name ∈ freshMap all) ∨ slack
  | _ => name ∈ s.table → s.Agrees name ∨ slack

/-- Outside of a cycle. -/
theorem covers_of_agrees {s : Discovery} {name : String} {slack : Prop}
    (hphase : s.phase = .idle ∨ s.phase = .ready none ∨ ∃ batches, s.phase = .touching batches) :
    s.Covers name slack ↔ (name ∈ s.table → s.Agrees name ∨ slack) := by
  unfold Covers
  rcases hphase with h | h | ⟨batches, h⟩ <;> simp only [h]

theorem covers_touch {s : Discovery} {name : String} {slack : Prop} {batches : List (List String)}
    (hphase : s.phase = .touch batches) :
    s.Covers name slack ↔ (name ∈ s.table → s.Agrees name ∨ slack) := by
  apply covers_of_agrees
  rcases touch_cases batches with h | ⟨rest, h⟩
  · exact .inl (hphase.trans h)
  · exact .inr (.inr ⟨rest, hphase.trans h⟩)

theorem mem_freshMap_getAllEnabled (table : PvTable) (name : String) :
    name ∈ freshMap table.getAllEnabled ↔ table.Enabled name := by
  rw [mem_freshMap_iff, ← PvTable.exists_mem_getAllEnabled_iff]
  constructor
  · rintro ⟨c, hc, -, hname⟩
    exact ⟨c, hc, hname⟩
  · rintro ⟨c, hc, hname⟩
    exact ⟨c, hc, PvTable.enabled_of_mem_getAllEnabled hc, hname⟩

/-- A step keeps a PV covered if it leaves its row alone or gives it slack. Where the
    snapshot fails there must be no need of it, and at startup it must still be right when
    the clock is read. -/
theorem Covers.moves {s s' : Discovery} {act : Act} (hs : s.Sound) (hm : Moves s act s')
    {name : String} {slack slack' : Prop} (h : s.Covers name slack)
    (hsnap : act = .getAllEnabled false → s.phase = .polled → name ∈ s.table →
      s.Agrees name ∨ slack')
    (hrow : name ∈ s'.table →
      (name ∈ s.table ∧ (s'.table.Enabled name ↔ s.table.Enabled name)) ∨ slack')
    (hslack : s'.phase ≠ .polled → (∀ all, s.phase ≠ .loaded all) → name ∈ s'.table →
      slack → slack')
    (hload : ∀ now all, act = .startUp now → s.phase = .loaded all → s'.orch.lastPoll = now →
      s'.table = s.table → name ∈ s.table →
      (s.table.Enabled name ↔ name ∈ freshMap all) ∨ slack') :
    s'.Covers name slack' := by
  -- what is said of the row before the step holds after it, against the same target
  have hkeep : ∀ target : Prop, s'.phase ≠ .polled → (∀ all, s.phase ≠ .loaded all) →
      (name ∈ s.table → (s.table.Enabled name ↔ target) ∨ slack) →
      name ∈ s'.table → (s'.table.Enabled name ↔ target) ∨ slack' := by
    intro target hpol hld hold hmem
    rcases hrow hmem with ⟨hmem', hen⟩ | hsl
    · rcases hold hmem' with hag | hsl
      · exact .inl (hen.trans hag)
      · exact .inr (hslack hpol hld hmem hsl)
    · exact .inr hsl
  have hsame : s'.phase = s.phase → s'.orch.poller = s.orch.poller → s'.Covers name slack' := by
    intro hphase' hpoller
    unfold Covers Agrees at h ⊢
    rw [hphase', hpoller]
    rw [hphase'] at hkeep
    cases hphase : s.phase with
    | starting => trivial
    | loaded all => trivial
    | polled => trivial
    | queried fresh =>
      rw [hphase] at h
      exact fun hnil => hkeep _ (by simp [hphase]) (by simp [hphase]) (h hnil)
    | ready all =>
      rw [hphase] at h
      cases all with
      | some all => exact hkeep _ (by simp [hphase]) (by simp [hphase]) h
      | none => exact hkeep _ (by simp [hphase]) (by simp [hphase]) h
    | idle =>
      rw [hphase] at h
      exact hkeep _ (by simp [hphase]) (by simp [hphase]) h
    | touching batches =>
      rw [hphase] at h
      exact hkeep _ (by simp [hphase]) (by simp [hphase]) h
  cases hm with
  | statement stmt now => exact hsame rfl rfl
  | load h => trivial
  | @start all now hphase =>
    rw [covers_touch rfl]
    intro hmem
    show (s.table.Enabled name ↔ _) ∨ slack'
    rw [(hs.start hphase now).1.known name]
    exact hload now all rfl hphase (hs.start hphase now).2 rfl hmem
  | query hphase =>
    rw [covers_of_agrees (.inl hphase)] at h
    exact fun _ => hkeep _ (by simp) (by simp [hphase]) h
  | @stamp fresh now hphase =>
    unfold Covers at h
    rw [hphase] at h
    by_cases hnil : fresh = []
    · rw [covers_of_agrees (.inl (by simp [hnil, hs.inStep.pending]))]
      exact hkeep _ (by simp [hnil, hs.inStep.pending]) (by simp [hphase]) (h hnil)
    · unfold Covers
      simp only [if_neg hnil]
  | snapshot hphase =>
    intro _
    exact .inl (mem_freshMap_getAllEnabled s.table name).symm
  | noSnapshot hphase => exact hsnap rfl hphase
  | @process all hphase =>
    rw [covers_touch rfl]
    unfold Covers at h
    rw [hphase] at h
    have hpol : Phase.touch (s.orch.process all).2 ≠ .polled := by
      rcases touch_cases (s.orch.process all).2 with h | ⟨rest, h⟩ <;> simp [h]
    cases all with
    | some all =>
      have hknown := (Orchestrator.process_processed hs.inStep all).1.known name
      unfold Agrees
      rw [hknown]
      exact hkeep _ hpol (by simp [hphase]) h
    | none =>
      unfold Agrees
      rw [Orchestrator.process_none hs.inStep] at hkeep ⊢
      exact hkeep _ (by simp [Phase.touch]) (by simp [hphase]) h
  | @touch names batches ok now hphase =>
    rw [covers_touch rfl]
    rw [covers_of_agrees (.inr (.inr ⟨_, hphase⟩))] at h
    have hpol : Phase.touch batches ≠ .polled := by
      rcases touch_cases batches with h | ⟨rest, h⟩ <;> simp [h]
    exact hkeep _ hpol (by simp [hphase]) h
  | flush ok hphase => exact hsame rfl rfl
  | nothing => exact hsame rfl rfl

/-- The condition on a step, for one PV: a statement is stamped later than `last_poll`;
    where `last_poll` is set without a snapshot to come, it does not pass the stamp of a
    change that has not been seen; the snapshot does not fail when it is needed for the
    PV, nor a publication that carries a command about it. -/
def Careful (name : String) (s : Discovery) (act : Act) : Prop :=
  match act, s.phase with
  | .statement _ now, _ => s.orch.lastPoll < now
  | .touch _ now, _ => s.orch.lastPoll < now
  | .startUp now, .loaded all =>
    name ∈ s.table → (s.table.Enabled name ↔ name ∈ freshMap all) ∨ s.table.ChangedSince now name
  | .stampPoll now, .queried [] => s.Due name → s.table.ChangedSince now name
  | .getAllEnabled ok, .polled => ok = true ∨ (name ∈ s.table → s.Agrees name ∨ s.Due name)
  | .flush ok, .idle => ok = true ∨ latest (requestsOf s.orch.commands) name = none
  | _, _ => True

/-- What a careful step does to the row of the PV. -/
theorem row_moves {s s' : Discovery} {act : Act} (hm : Moves s act s') {name : String}
    (hc : Careful name s act) :
    s'.table.lookup name = s.table.lookup name ∨ name ∉ s'.table ∨ s'.Due name := by
  cases hm with
  | statement stmt now =>
    rcases s.table.exec_cases stmt now name with
      ⟨hsame, -⟩ | ⟨-, -, -, row, hrow, hnow⟩ | ⟨-, -, -, row, hrow, hnow⟩ | ⟨-, -, hnone⟩
    · exact .inl hsame
    · exact .inr (.inr ⟨row, hrow, hnow ▸ hc⟩)
    · exact .inr (.inr ⟨row, hrow, hnow ▸ hc⟩)
    · exact .inr (.inl (AList.lookup_eq_none.1 hnone))
  | @touch names batches ok now h =>
    cases ok with
    | false => exact .inl rfl
    | true =>
      rcases PvTable.update_cases ({ · with expectedIoc := s.orch.nameServers.head? }) now
        (fun _ => rfl) s.table names name with hsame | ⟨-, row, hrow, hnow⟩
      · exact .inl hsame
      · exact .inr (.inr ⟨row, hrow, hnow ▸ hc⟩)
  | _ => exact .inl rfl

/-- A PV on which table and poller differ is found by the query to come. -/
def Tracked (s : Discovery) (name : String) : Prop := s.Covers name (s.Due name)

theorem Tracked.step {s : Discovery} {act : Act} {name : String} (hs : s.Sound)
    (h : s.Tracked name) (hc : Careful name s act) : (s.step act).Tracked name := by
  have hm := moves_step s act
  generalize s.step act = s' at hm ⊢
  refine Covers.moves hs hm h ?_ ?_ ?_ ?_
  · rintro rfl hphase hmem
    unfold Careful at hc
    rw [hphase] at hc
    cases hm with
    | noSnapshot _ => exact hc.resolve_left Bool.false_ne_true hmem
    | nothing => exact hc.resolve_left Bool.false_ne_true hmem
  · intro hmem
    rcases row_moves hm hc with hsame | hnot | hdue
    · exact .inl ⟨(PvTable.mem_congr hsame).1 hmem, PvTable.enabled_congr hsame⟩
    · exact absurd hmem hnot
    · exact .inr hdue
  · intro hpol hld hmem hdue
    rcases row_moves hm hc with hsame | hnot | hdue'
    · -- the row is the same, and `last_poll` moves only in two steps
      have hlast : s'.orch.lastPoll = s.orch.lastPoll → s'.Due name := by
        intro hlast
        show ∃ row, s'.table.lookup name = some row ∧ s'.orch.lastPoll < row.updatedAt
        rw [hsame, hlast]
        exact hdue
      cases hm with
      | @start all now hphase => exact absurd hphase (hld all)
      | @stamp fresh now hphase =>
        by_cases hnil : fresh = []
        · subst hnil
          unfold Careful at hc
          rw [hphase] at hc
          exact hc hdue
        · exact absurd (if_neg hnil) hpol
      | @process all hphase =>
        apply hlast
        cases all with
        | some all => exact (Orchestrator.process_processed hs.inStep all).2
        | none =>
          show (s.orch.process none).1.lastPoll = _
          rw [Orchestrator.process_none hs.inStep]
      | _ => exact hlast rfl
    · exact absurd hmem hnot
    · exact hdue'
  · rintro now all rfl hphase hlast htable hmem
    unfold Careful at hc
    rw [hphase] at hc
    refine (hc hmem).imp_right fun hch => ?_
    show s'.table.ChangedSince s'.orch.lastPoll name
    rw [hlast, htable]
    exact hch

/-! ## What the commands say -/

/-- The last command about the PV is a subscribe exactly if the poller knows it. -/
def Recorded (s : Discovery) (name : String) : Prop :=
  latest (requestsOf (s.published ++ s.orch.commands)) name = some true ↔
    name ∈ s.orch.poller.known

theorem recorded_processed {o o' : Orchestrator} {all : List PvConfig}
    (hp : Orchestrator.Processed o all o') (published : List IngestCommand) {name : String}
    (h : latest (requestsOf (published ++ o.commands)) name = some true ↔ name ∈ o.poller.known) :
    latest (requestsOf (published ++ o'.commands)) name = some true ↔ name ∈ o'.poller.known := by
  obtain ⟨added, hcmds, hadded⟩ := hp.latest
  have hreq : requestsOf (published ++ o'.commands) =
      requestsOf (published ++ o.commands) ++ requestsOf added := by
    rw [hcmds, ← List.append_assoc]
    exact List.flatMap_append
  rw [hreq, latest_append, hadded name, hp.known name]
  by_cases hfresh : name ∈ freshMap all
  · by_cases hknown : name ∈ o.poller.known
    · simpa [hfresh, hknown] using h
    · simp [hfresh, hknown]
  · by_cases hknown : name ∈ o.poller.known
    · simp [hfresh, hknown]
    · simpa [hfresh, hknown] using h

theorem Recorded.step {s : Discovery} {act : Act} {name : String} (hs : s.Sound)
    (h : s.Recorded name) (hc : Careful name s act) : (s.step act).Recorded name := by
  have hm := moves_step s act
  generalize s.step act = s' at hm ⊢
  cases hm with
  | start now hphase => exact recorded_processed (hs.start hphase now).1 s.published h
  | @process all hphase =>
    cases all with
    | some all =>
      exact recorded_processed (Orchestrator.process_processed hs.inStep all).1 s.published h
    | none =>
      unfold Recorded
      rw [Orchestrator.process_none hs.inStep]
      exact h
  | flush ok hphase =>
    unfold Careful at hc
    rw [hphase] at hc
    have hreq : ∀ cmds, requestsOf (s.published ++ cmds) =
        requestsOf s.published ++ requestsOf cmds := fun _ => List.flatMap_append
    unfold Recorded at h ⊢
    cases ok with
    | true => simpa using h
    | false =>
      have hnone := hc.resolve_left Bool.false_ne_true
      rw [hreq, latest_append, hnone] at h
      simpa using h
  | _ => exact h

/-! ## A complete cycle -/

/-- Startup is over. -/
def Started (s : Discovery) : Prop := s.phase ≠ .starting ∧ ∀ all, s.phase ≠ .loaded all

theorem Started.moves {s s' : Discovery} {act : Act} (h : s.Started) (hm : Moves s act s') :
    s'.Started := by
  cases hm with
  | load hphase => exact absurd hphase h.1
  | start now hphase => exact absurd hphase (h.2 _)
  | process hphase => exact touch_started _
  | touch ok now hphase => exact touch_started _
  | stamp now hphase =>
    unfold Started
    dsimp only
    split_ifs <;> simp
  | statement stmt now => exact h
  | flush ok hphase => exact h
  | nothing => exact h
  | query hphase => simp [Started]
  | snapshot hphase => simp [Started]
  | noSnapshot hphase => simp [Started]

/-- A step that is no statement about the PV and no failed snapshot. -/
def Spares (name : String) (act : Act) : Prop :=
  (∀ stmt now, act = .statement stmt now → name ∉ stmt.names) ∧ act ≠ .getAllEnabled false

/-- A step that is no statement about the PV keeps its row, up to `expected_ioc`. -/
theorem row_spares {s s' : Discovery} {act : Act} (hm : Moves s act s') {name : String}
    (hspares : ∀ stmt now, act = .statement stmt now → name ∉ stmt.names) :
    (name ∈ s'.table ↔ name ∈ s.table) ∧ (s'.table.Enabled name ↔ s.table.Enabled name) := by
  have hsame : s'.table.lookup name = s.table.lookup name → (name ∈ s'.table ↔ name ∈ s.table) ∧
      (s'.table.Enabled name ↔ s.table.Enabled name) :=
    fun heq => ⟨PvTable.mem_congr heq, PvTable.enabled_congr heq⟩
  cases hm with
  | statement stmt now =>
    exact hsame (PvTable.lookup_exec_of_notMem (hspares stmt now rfl) s.table now)
  | @touch names batches ok now hphase =>
    cases ok with
    | false => exact hsame rfl
    | true =>
      have hlook := PvTable.lookup_update ({ · with expectedIoc := s.orch.nameServers.head? })
        now (fun _ => rfl) s.table names name
      by_cases hin : name ∈ names
      · rw [if_pos hin] at hlook
        dsimp only
        rw [if_pos rfl]
        constructor
        · rw [← AList.lookup_isSome, hlook, Option.isSome_map, AList.lookup_isSome]
        · unfold PvTable.Enabled
          rw [hlook]
          simp
      · exact hsame (hlook.trans (if_neg hin))
  | _ => exact hsame rfl

theorem Covers.spares {s : Discovery} {act : Act} {name : String} (hs : s.Sound)
    (hstart : s.Started) (h : s.Covers name False) (hspares : Spares name act) :
    (s.step act).Covers name False := by
  have hm := moves_step s act
  generalize s.step act = s' at hm ⊢
  obtain ⟨hmem, hen⟩ := row_spares hm hspares.1
  refine Covers.moves hs hm h (fun hact => absurd hact hspares.2) ?_ (fun _ _ _ h => h) ?_
  · exact fun hmem' => .inl ⟨hmem.1 hmem', hen⟩
  · exact fun now all _ hphase => absurd hphase (hstart.2 all)

/-- Before a cycle: a PV that the poller is wrong about is due. -/
structure Followed (s : Discovery) (name : String) : Prop where
  sound : s.Sound
  tracked : s.Tracked name
  recorded : s.Recorded name

theorem followed_new (table : PvTable) (nameServers : List String) (minUtc : ℤ) (name : String) :
    (new table nameServers minUtc).Followed name := by
  refine ⟨sound_new table nameServers minUtc, trivial, ?_⟩
  simp [Recorded, new, Orchestrator.new, requestsOf]

theorem Followed.step {s : Discovery} {act : Act} {name : String} (h : s.Followed name)
    (hc : Careful name s act) : (s.step act).Followed name :=
  ⟨h.sound.moves (moves_step s act), h.tracked.step h.sound hc, h.recorded.step h.sound hc⟩

/-- In a cycle: the snapshot is still to come, or the poller is right about the PV. -/
structure Caught (s : Discovery) (name : String) : Prop where
  sound : s.Sound
  started : s.Started
  covers : s.Covers name False
  recorded : s.Recorded name

theorem Caught.step {s : Discovery} {act : Act} {name : String} (h : s.Caught name)
    (hc : Careful name s act) (hspares : Spares name act) : (s.step act).Caught name :=
  ⟨h.sound.moves (moves_step s act), h.started.moves (moves_step s act),
    h.covers.spares h.sound h.started hspares, h.recorded.step h.sound hc⟩

/-- The query that opens a cycle. -/
theorem Followed.query {s : Discovery} {name : String} (h : s.Followed name)
    (hidle : s.phase = .idle) : (s.step (.getChangedSince true)).Caught name := by
  have hstep : s.step (.getChangedSince true) =
      { s with phase := .queried (s.table.getChangedSince s.orch.lastPoll) } := by
    unfold Discovery.step
    rw [hidle]
    rfl
  have htrack := h.tracked
  unfold Tracked at htrack
  rw [covers_of_agrees (.inl hidle)] at htrack
  rw [hstep]
  refine ⟨?_, by simp [Started], ?_, h.recorded⟩
  · rw [← hstep]
    exact h.sound.moves (moves_step s _)
  · intro hnil hmem
    refine .inl ((htrack hmem).resolve_right fun hdue => ?_)
    exact PvTable.getChangedSince_ne_nil hdue hnil

/-- **Main theorem**: in a run of careful steps from the start of the orchestrator, after a
    complete cycle in which no statement is about a PV that has a row, the last command
    about it, published or queued, is a subscribe exactly if the row is enabled. Queries
    and publications may fail on the way where `Careful` allows it. -/
theorem cycle_reflects (table : PvTable) (nameServers : List String) (minUtc : ℤ) (name : String)
    (before cycle : List Act)
    (hcareful : AlongSteps step (Careful name) (new table nameServers minUtc)
      (before ++ .getChangedSince true :: cycle))
    (hidle : (run (new table nameServers minUtc) before).phase = .idle)
    (hspares : ∀ stmt now, .statement stmt now ∈ cycle → name ∉ stmt.names)
    (hsnap : .getAllEnabled false ∉ cycle) :
    let s := run (new table nameServers minUtc) (before ++ .getChangedSince true :: cycle)
    s.phase = .idle → name ∈ s.table →
      (latest (requestsOf (s.published ++ s.orch.commands)) name = some true ↔
        s.table.Enabled name) := by
  intro s hend hmem
  obtain ⟨hbefore, hquery, hcycle⟩ := alongSteps_append.1 hcareful
  have hfollowed : Followed (run (new table nameServers minUtc) before) name :=
    (AlongSteps.invariant (I := (Followed · name)) (fun s act hc h => Followed.step h hc) hbefore
      (followed_new table nameServers minUtc name)).last
  have hquiet : ∀ act ∈ cycle, Spares name act := by
    intro act hact
    refine ⟨?_, fun heq => hsnap (heq ▸ hact)⟩
    rintro stmt now rfl
    exact hspares stmt now hact
  have hcaught : Caught s name := by
    have hrun : s = Runs.run step
        (step (run (new table nameServers minUtc) before) (.getChangedSince true)) cycle :=
      run_append _ before (.getChangedSince true :: cycle)
    rw [hrun]
    exact (AlongSteps.invariant (I := (Caught · name)) (fun s act hc h => Caught.step h hc.1 hc.2)
      (hcycle.and_mem hquiet) (hfollowed.query hidle)).last
  have hcov := hcaught.covers
  rw [covers_of_agrees (.inl hend)] at hcov
  exact hcaught.recorded.trans ((hcov hmem).resolve_right id).symm

/-- A PV inserted after a snapshot and before a query that fail is picked up by the cycle
    after them. -/
theorem cycle_reflects_inserted :
    let before : List Act := [.loadAll true, .startUp 1, .flush false,
      .statement (.insert [⟨"B", none, true⟩]) 2, .getChangedSince true, .stampPoll 3,
      .getAllEnabled false, .statement (.insert [⟨"A", none, true⟩]) 4, .getChangedSince false]
    let cycle : List Act := [.stampPoll 5, .getAllEnabled true, .process, .touch true 6]
    let s := run (new ∅ ["10.0.1.5:5075"] 0) (before ++ .getChangedSince true :: cycle)
    s.phase = .idle ∧ "A" ∈ s.table ∧
      (latest (requestsOf (s.published ++ s.orch.commands)) "A" = some true ↔
        s.table.Enabled "A") := by
  intro before cycle s
  have hend : s.phase = .idle := by decide +kernel
  have hmem : "A" ∈ s.table := by decide +kernel
  refine ⟨hend, hmem, cycle_reflects ∅ _ 0 "A" before cycle ?_ (by decide +kernel) ?_ (by decide) hend
    hmem⟩
  · refine ⟨trivial, fun h => absurd h (by decide +kernel), .inr rfl, ?_, trivial, trivial,
      .inr fun h => absurd h (by decide +kernel), ?_, trivial, trivial, trivial, .inl rfl, trivial,
      ?_, trivial⟩
    · show (1 : ℤ) < 2
      decide
    · show (3 : ℤ) < 4
      decide
    · show (5 : ℤ) < 6
      decide
  · intro stmt now h
    simp [cycle] at h

/-- A change of the heartbeat of a subscribed PV: the cycle and the flush after it succeed,
    and there is no command for it. -/
theorem heartbeat_not_in_commands :
    let started := run (new ((∅ : PvTable).insert "A" ⟨some 10, none, true, 0⟩) [] 0)
      [.loadAll true, .startUp 1, .flush true]
    let s := run started [.statement (.updateHeartbeat ["A"] (some 20)) 2, .getChangedSince true,
      .stampPoll 3, .getAllEnabled true, .process, .flush true]
    s.phase = .idle ∧ (s.table.lookup "A").map ConfigRow.heartbeatS = some (some 20) ∧
      s.published = started.published ∧ s.orch.commands = [] := by
  decide +kernel

end Discovery

end AuraEpics.Discover
