import AuraEpics.Discover.Orchestrator

/-!
# What the orchestrator tracks

The snapshot of the poller and the three sets of the reconciler are updated by different
code from the same changes. Here the calls of `run`
(`crates/aura-discover/src/orchestrator.rs`, lines 229-262) are taken as a whole, on
whatever content of `pv_config` their queries find.

* `startUp` and `cycle`: the two calls, when their queries succeed;
* `Tracks`: the three sets split the PVs the poller knows;
* `namings`: the subscribe batches that name a PV.

Result: `tracks_and_names_once`, every call keeps the sets in line with the poller, and
between its addition and its removal a PV is named once.
-/

namespace AuraEpics.Discover

open AuraEpics.Store Runs

/-- What a call finds: `pv_config` at each of its queries, and the clock. -/
structure Findings where
  changed : PvTable
  enabled : PvTable
  now : ℤ
  deriving DecidableEq

namespace Orchestrator

/-- `startup` (lines 74-97) with its actions resolved as in `run` (lines 234-239). -/
def startUp (o : Orchestrator) (f : Findings) : Orchestrator :=
  let (o, actions) := o.startup f.enabled.getAllEnabled f.now
  (actions.foldl executeResolve (o, [])).1

/-- `cycle` (lines 100-162). -/
def cycle (o : Orchestrator) (f : Findings) : Orchestrator :=
  let fresh := f.changed.getChangedSince o.lastPoll
  let o := { o with lastPoll := f.now }
  if fresh = [] ∧ o.reconciler.pending = [] then o
  else (o.process (if fresh = [] then none else some f.enabled.getAllEnabled)).1

/-- The three sets of the reconciler split the PVs the poller knows. -/
structure Tracks (o : Orchestrator) : Prop where
  resolvedPending : List.Disjoint o.reconciler.resolved o.reconciler.pending
  resolvedNotFound : List.Disjoint o.reconciler.resolved o.reconciler.notFound
  pendingNotFound : List.Disjoint o.reconciler.pending o.reconciler.notFound
  union : ∀ name, name ∈ o.poller.known ↔
    name ∈ o.reconciler.resolved ∨ name ∈ o.reconciler.pending ∨ name ∈ o.reconciler.notFound

theorem InStep.tracks {o : Orchestrator} (h : o.InStep) : o.Tracks := by
  obtain ⟨hres, hpend, hnf⟩ := h
  constructor
  · rw [hpend]
    exact List.disjoint_nil_right _
  · rw [hnf]
    exact List.disjoint_nil_right _
  · rw [hnf]
    exact List.disjoint_nil_right _
  · intro name
    rw [← hres name, hpend, hnf]
    simp

/-- A snapshot does not read `last_poll`. -/
theorem Processed.of_lastPoll {o o' : Orchestrator} {all : List PvConfig} {now : ℤ}
    (h : Processed { o with lastPoll := now } all o') :
    Processed o all o' :=
  ⟨h.known, h.inStep, h.commands⟩

end Orchestrator

/-! ## Namings -/

/-- The subscribe batches among the commands that name the PV. -/
def namings (name : String) (cmds : List IngestCommand) : List (List String) :=
  cmds.filterMap fun
    | .subscribeBatch pvs _ => if name ∈ pvs then some pvs else none
    | _ => none

/-- One batch names the PV, and once. -/
def NamedOnce (name : String) (cmds : List IngestCommand) : Prop :=
  ∃ pvs, namings name cmds = [pvs] ∧ pvs.count name = 1

theorem namings_append (name : String) (cmds cmds' : List IngestCommand) :
    namings name (cmds ++ cmds') = namings name cmds ++ namings name cmds' :=
  List.filterMap_append

theorem namings_batched (name : String) (ioc : Option String) (pvs gone : List String) :
    namings name (Orchestrator.batched (.subscribeBatch · ioc) pvs ++
      Orchestrator.batched .unsubscribeBatch gone) = if name ∈ pvs then [pvs] else [] := by
  have hgone : namings name (Orchestrator.batched .unsubscribeBatch gone) = [] := by
    unfold Orchestrator.batched
    split_ifs <;> rfl
  rw [namings_append, hgone, List.append_nil]
  unfold Orchestrator.batched
  by_cases hnil : pvs = []
  · subst hnil
    rfl
  · rw [if_neg hnil]
    by_cases hmem : name ∈ pvs
    · simp [namings, hmem]
    · simp [namings, hmem]

/-! ## Calls -/

/-- The calls `run` makes. -/
inductive Call where
  | startup (f : Findings)
  | cycle (f : Findings)
  | flush
  deriving DecidableEq

/-- The orchestrator, and whether `startup` is over. -/
structure Running where
  orch : Orchestrator
  started : Bool
  deriving DecidableEq

namespace Running

/-- The orchestrator before `startup`. -/
def new (nameServers : List String) (minUtc : ℤ) : Running :=
  { orch := .new nameServers minUtc, started := false }

/-- One call; a call that is not due does nothing. -/
def step (s : Running) (call : Call) : Running :=
  match call, s.started with
  | .startup f, false => { orch := s.orch.startUp f, started := true }
  | .cycle f, true => { s with orch := s.orch.cycle f }
  -- `take` empties the batch
  | .flush, _ => { s with orch := { s.orch with commands := [] } }
  | _, _ => s

/-- The commands a call queues. -/
def queued (s : Running) (call : Call) : List IngestCommand :=
  (s.step call).orch.commands.drop s.orch.commands.length

/-- The call adds the PV, and up to the last of the calls after it the PV stays. -/
structure Period (s : Running) (name : String) (call : Call) (calls : List Call) : Prop where
  absent : name ∉ s.orch.poller.known
  added : name ∈ (s.step call).orch.poller.known
  kept : AlongSteps step (fun s _ => name ∈ s.orch.poller.known) (s.step call) calls

/-- Within each period of the run one batch that is queued names the PV. -/
def NamesOnce (s : Running) (calls : List Call) : Prop :=
  ∀ name before call during rest, calls = before ++ call :: during ++ rest →
    Period (run step s before) name call during →
      NamedOnce name (outputs step queued (run step s before) (call :: during))

/-! ## One call -/

/-- What holds after every call: the reconciler is in step, and before startup the
    orchestrator is new. -/
structure Sound (s : Running) : Prop where
  inStep : s.orch.InStep
  new : s.started = false → s.orch = .new s.orch.nameServers s.orch.lastPoll

theorem sound_new (nameServers : List String) (minUtc : ℤ) : (new nameServers minUtc).Sound :=
  ⟨Orchestrator.inStep_new nameServers minUtc, fun _ => rfl⟩

/-- What a call does. -/
inductive Called (s : Running) : Running → Prop where
  | nothing : Called s s
  | flushed : Called s { s with orch := { s.orch with commands := [] } }
  | polled (now : ℤ) (hstarted : s.started = true) :
      Called s { s with orch := { s.orch with lastPoll := now } }
  | processed {s' : Running} {all : List PvConfig}
      (hproc : Orchestrator.Processed s.orch all s'.orch) (hstarted : s'.started = true) :
      Called s s'

theorem called_cycle {s : Running} (hs : s.Sound) (hstarted : s.started = true) (f : Findings) :
    Called s { s with orch := s.orch.cycle f } := by
  have hstep : { s.orch with lastPoll := f.now }.InStep :=
    ⟨hs.inStep.resolved, hs.inStep.pending, hs.inStep.notFound⟩
  unfold Orchestrator.cycle
  by_cases hnil : f.changed.getChangedSince s.orch.lastPoll = []
  · have hquiet : f.changed.getChangedSince s.orch.lastPoll = [] ∧
        s.orch.reconciler.pending = [] := ⟨hnil, hs.inStep.pending⟩
    simp only [if_pos hquiet]
    exact .polled f.now hstarted
  · have hbusy : ¬(f.changed.getChangedSince s.orch.lastPoll = [] ∧
        s.orch.reconciler.pending = []) := fun h => hnil h.1
    simp only [if_neg hbusy, if_neg hnil]
    have hproc := (Orchestrator.process_processed hstep f.enabled.getAllEnabled).1
    exact .processed hproc.of_lastPoll hstarted

theorem called_startup {s : Running} (hs : s.Sound) (hnew : s.started = false) (f : Findings) :
    Called s { orch := s.orch.startUp f, started := true } := by
  have hproc := (Orchestrator.startup_processed s.orch.nameServers s.orch.lastPoll f.now
    (fun c hc => PvTable.enabled_of_mem_getAllEnabled hc :
      ∀ c ∈ f.enabled.getAllEnabled, c.enabled = true)).1
  rw [← hs.new hnew] at hproc
  exact .processed hproc rfl

theorem called_step {s : Running} (hs : s.Sound) (call : Call) : Called s (s.step call) := by
  unfold step
  split
  · next f hnew => exact called_startup hs hnew f
  · next f hstarted => exact called_cycle hs hstarted f
  · exact .flushed
  · exact .nothing

theorem Sound.step {s : Running} (hs : s.Sound) (call : Call) : (s.step call).Sound := by
  have hcall := called_step hs call
  generalize s.step call = s' at hcall ⊢
  cases hcall with
  | nothing => exact hs
  | flushed =>
    refine ⟨⟨hs.inStep.resolved, hs.inStep.pending, hs.inStep.notFound⟩, fun hnew => ?_⟩
    have horch := hs.new hnew
    show { s.orch with commands := [] } = Orchestrator.new s.orch.nameServers s.orch.lastPoll
    rw [← horch, horch]
    rfl
  | polled now hstarted =>
    refine ⟨⟨hs.inStep.resolved, hs.inStep.pending, hs.inStep.notFound⟩, fun hnew => ?_⟩
    exact absurd (hstarted.symm.trans hnew) Bool.noConfusion
  | processed hproc hstarted =>
    refine ⟨hproc.inStep, fun hnew => ?_⟩
    exact absurd (hstarted.symm.trans hnew) Bool.noConfusion

/-- The subscribe batch of a call names the PVs the call adds, each once. -/
theorem namings_queued {s : Running} (hs : s.Sound) (call : Call) :
    ∃ pvs : List String, pvs.Nodup ∧
      (∀ name, name ∈ pvs ↔
        name ∈ (s.step call).orch.poller.known ∧ name ∉ s.orch.poller.known) ∧
      ∀ name, namings name (s.queued call) = if name ∈ pvs then [pvs] else [] := by
  have hcall := called_step hs call
  unfold queued
  generalize s.step call = s' at hcall ⊢
  -- a call that leaves poller and queue alone, or empties the queue
  have hquiet : s'.orch.poller = s.orch.poller →
      s'.orch.commands.drop s.orch.commands.length = [] → ∃ pvs : List String, pvs.Nodup ∧
        (∀ name, name ∈ pvs ↔ name ∈ s'.orch.poller.known ∧ name ∉ s.orch.poller.known) ∧
        ∀ name, namings name (s'.orch.commands.drop s.orch.commands.length) =
          if name ∈ pvs then [pvs] else [] := by
    intro hpoller hcmds
    refine ⟨[], List.nodup_nil, fun name => ?_, fun name => ?_⟩
    · simp [hpoller]
    · rw [hcmds]
      rfl
  cases hcall with
  | nothing => exact hquiet rfl (List.drop_length ..)
  | flushed => exact hquiet rfl List.drop_nil
  | polled now hstarted => exact hquiet rfl (List.drop_length ..)
  | processed hproc hstarted =>
    obtain ⟨pvs, gone, hcmds, hnodup, hpvs, -⟩ := hproc.commands
    refine ⟨pvs, hnodup, fun name => ?_, fun name => ?_⟩
    · rw [hpvs name, hproc.known name]
    · rw [hcmds, List.drop_left]
      exact namings_batched name s.orch.nameServers.head? pvs gone

/-! ## Runs -/

theorem sound_run {s : Running} (hs : s.Sound) (calls : List Call) :
    AlongStates step Sound s calls :=
  alongStates_of_step (fun _ call hs => hs.step call) hs calls

/-- While a PV is known no batch names it. -/
theorem namings_outputs_of_kept {s : Running} {name : String} {calls : List Call} (hs : s.Sound)
    (hkept : AlongSteps step (fun s _ => name ∈ s.orch.poller.known) s calls) :
    namings name (outputs step queued s calls) = [] := by
  induction calls generalizing s with
  | nil => rfl
  | cons call calls ih =>
    obtain ⟨hknown, hrest⟩ := hkept
    obtain ⟨pvs, -, hpvs, hnamings⟩ := namings_queued hs call
    have hnot : name ∉ pvs := fun hmem => ((hpvs name).1 hmem).2 hknown
    show namings name (s.queued call ++ outputs step queued (s.step call) calls) = []
    rw [namings_append, hnamings name, if_neg hnot, ih (hs.step call) hrest]
    rfl

theorem Period.namedOnce {s : Running} {name : String} {call : Call} {calls : List Call}
    (hs : s.Sound) (h : s.Period name call calls) :
    NamedOnce name (outputs step queued s (call :: calls)) := by
  obtain ⟨pvs, hnodup, hpvs, hnamings⟩ := namings_queued hs call
  have hmem : name ∈ pvs := (hpvs name).2 ⟨h.added, h.absent⟩
  refine ⟨pvs, ?_, List.count_eq_one_of_mem hnodup hmem⟩
  show namings name (s.queued call ++ outputs step queued (s.step call) calls) = [pvs]
  rw [namings_append, hnamings name, if_pos hmem, namings_outputs_of_kept (hs.step call) h.kept]
  rfl

/-- **Main theorem.** After every call the three sets of the reconciler split the PVs the
    poller knows, and from its addition to its removal a PV is named by one batch, once. -/
theorem tracks_and_names_once (nameServers : List String) (minUtc : ℤ) (calls : List Call) :
    AlongStates step (fun s => s.orch.Tracks) (new nameServers minUtc) calls ∧
      (new nameServers minUtc).NamesOnce calls := by
  have hsound := sound_run (sound_new nameServers minUtc) calls
  refine ⟨hsound.mono fun s hs => hs.inStep.tracks, ?_⟩
  rintro name before call during rest rfl hperiod
  rw [List.append_assoc] at hsound
  exact hperiod.namedOnce hsound.before

/-- A PV that is there at startup and gone in the first cycle. -/
example :
    let table : PvTable := AList.insert "PV" ⟨none, none, true, 1⟩ ∅
    (new ["ioc:5075"] 0).Period "PV" (.startup ⟨∅, table, 2⟩)
      [.flush, .cycle ⟨AList.insert "PV" ⟨none, none, false, 3⟩ ∅, ∅, 4⟩] :=
  ⟨by decide +kernel, by decide +kernel, by decide +kernel⟩

end Running

end AuraEpics.Discover
