import AuraEpics.Discover.Poller
import AuraEpics.Lib.Runs

/-!
# The orchestrator

Model of `Orchestrator` (`crates/aura-discover/src/orchestrator.rs`, lines 35-262) next to
the table it polls. Between two awaits of `startup`, `cycle` and `flush_commands` any
statement may be committed, so each await is a step of its own:

* `startup`: `loadAll`, then `startUp`, then a `touch` for each batch of resolved PVs;
* `cycle`: `getChangedSince`, `stampPoll`, `getAllEnabled`, `process`, then a `touch` for
  each batch of resolved PVs;
* `flush_commands`: `flush`.

A step that waits for the database or for Redis says whether it succeeds. The `UPDATE`
of a resolved batch is made while `process` is still running, but what `process` does
after it depends on the orchestrator alone, so that the `touch` comes last.

Result: `process_processed` and `startup_processed`, what a snapshot comes to.
-/

namespace AuraEpics.Discover

open AuraEpics.Store Latest

/-- `Orchestrator` (lines 36-50); `nameServers` are the addresses as `to_string` writes
    them. -/
structure Orchestrator where
  poller : ConfigPoller
  reconciler : Reconciler
  commands : List IngestCommand
  nameServers : List String
  lastPoll : ℤ
  deriving DecidableEq

namespace Orchestrator

/-- `new` (lines 53-71). -/
def new (nameServers : List String) (minUtc : ℤ) : Orchestrator :=
  { poller := ⟨∅⟩, reconciler := ⟨[], [], []⟩, commands := [], nameServers, lastPoll := minUtc }

/-- `resolve_batch` (lines 186-226): the batches of names it updates in the table come
    with the orchestrator. -/
def resolveBatch (o : Orchestrator) (names : List String) :
    Orchestrator × List (List String) :=
  if names = [] then (o, [])
  else
    let (reconciler, toSubscribe) := o.reconciler.markResolved names
    let commands :=
      if toSubscribe = [] then o.commands
      else o.commands ++ [.subscribeBatch toSubscribe o.nameServers.head?]
    ({ o with reconciler, commands }, if o.nameServers = [] then [] else [names])

/-- One pass of the loop over the actions (lines 124-148). -/
def execute (acc : Orchestrator × List (List String)) (action : Action) :
    Orchestrator × List (List String) :=
  let (o, touched) := acc
  match action with
  | .resolve names =>
    let (o, batches) := o.resolveBatch names
    (o, touched ++ batches)
  | .unsubscribe names =>
    if names = [] then (o, touched)
    else ({ o with commands := o.commands ++ [.unsubscribeBatch names] }, touched)
  | .subscribe entries =>
    ({ o with commands := o.commands ++ entries.map fun (pv, ioc) => .subscribe pv ioc }, touched)
  | .updateFilter _ => (o, touched)
  | .alert => (o, touched)

/-- The retry of the pending PVs (lines 151-159). -/
def retryPending (acc : Orchestrator × List (List String)) : Orchestrator × List (List String) :=
  let (o, touched) := acc
  if o.reconciler.pending = [] then (o, touched)
  else
    let (o, batches) := o.resolveBatch o.reconciler.pending
    (o, touched ++ batches)

/-- The rest of `cycle` once the snapshot is there (lines 111-161); `none` is a cycle that
    found no changed row and only retries the pending PVs. -/
def process (o : Orchestrator) (all : Option (List PvConfig)) :
    Orchestrator × List (List String) :=
  let (changes, poller) :=
    match all with
    | some all => o.poller.diff all
    | none => ([], o.poller)
  let (reconciler, actions) := o.reconciler.reconcile changes
  retryPending (actions.foldl execute ({ o with poller, reconciler }, []))

/-- `startup` (lines 74-97) once the snapshot is there. -/
def startup (o : Orchestrator) (all : List PvConfig) (now : ℤ) : Orchestrator × List Action :=
  let (reconciler, actions) := o.reconciler.reconcile (all.map .added)
  ({ o with poller := ⟨freshMap all⟩, reconciler, lastPoll := now }, actions)

/-- One pass of the loop of `run` over the startup actions (lines 235-239). -/
def executeResolve (acc : Orchestrator × List (List String)) (action : Action) :
    Orchestrator × List (List String) :=
  let (o, touched) := acc
  match action with
  | .resolve names =>
    let (o, batches) := o.resolveBatch names
    (o, touched ++ batches)
  | _ => (o, touched)

/-- The reconciler has resolved the PVs the poller knows, and no PV is pending or given
    up. -/
structure InStep (o : Orchestrator) : Prop where
  resolved : ∀ name, name ∈ o.reconciler.resolved ↔ name ∈ o.poller.known
  pending : o.reconciler.pending = []
  notFound : o.reconciler.notFound = []

theorem inStep_new (nameServers : List String) (minUtc : ℤ) : (new nameServers minUtc).InStep :=
  ⟨fun _ => by simp [new], rfl, rfl⟩

/-! ## What a snapshot comes to -/

/-- The command about a batch of PVs, if there are any. -/
def batched (command : List String → IngestCommand) (pvs : List String) : List IngestCommand :=
  if pvs = [] then [] else [command pvs]

theorem requestsOf_batched (command : List String → IngestCommand) {b : Bool}
    (h : ∀ pvs, (command pvs).requests = pvs.map fun pv => (pv, b)) (pvs : List String) :
    requestsOf (batched command pvs) = pvs.map fun pv => (pv, b) := by
  unfold batched requestsOf
  split_ifs with hnil
  · rw [hnil]
    rfl
  · rw [List.flatMap_singleton, h]

/-- The commands a snapshot adds: subscribe to what is new, unsubscribe from what is
    gone. -/
structure Processed (o : Orchestrator) (all : List PvConfig) (o' : Orchestrator) : Prop where
  known : ∀ name, name ∈ o'.poller.known ↔ name ∈ freshMap all
  inStep : o'.InStep
  commands : ∃ pvs gone, o'.commands = o.commands ++
      (batched (.subscribeBatch · o.nameServers.head?) pvs ++ batched .unsubscribeBatch gone) ∧
    pvs.Nodup ∧
    (∀ name, name ∈ pvs ↔ name ∈ freshMap all ∧ name ∉ o.poller.known) ∧
    ∀ name, name ∈ gone ↔ name ∈ o.poller.known ∧ name ∉ freshMap all

theorem resolveBatch_spec (o : Orchestrator) (names : List String) :
    let o' := (o.resolveBatch names).1
    (∀ name, name ∈ o'.reconciler.resolved ↔ name ∈ o.reconciler.resolved ∨ name ∈ names) ∧
    (∀ name, name ∈ o'.reconciler.pending ↔ name ∈ o.reconciler.pending ∧ name ∉ names) ∧
    o'.reconciler.notFound ⊆ o.reconciler.notFound ∧
    o'.poller = o.poller ∧ o'.lastPoll = o.lastPoll ∧
    ∃ pvs, o'.commands = o.commands ++ batched (.subscribeBatch · o.nameServers.head?) pvs ∧
      pvs.Nodup ∧ ∀ name, name ∈ pvs ↔ name ∈ names ∧ name ∉ o.reconciler.resolved := by
  unfold resolveBatch
  by_cases hnil : names = []
  · subst hnil
    refine ⟨by simp, by simp, List.Subset.refl _, rfl, rfl, [], ?_, List.nodup_nil, by simp⟩
    exact (List.append_nil _).symm
  · rw [if_neg hnil]
    have hmark := Reconciler.foldl_markResolvedName o.reconciler [] names
    refine ⟨fun name => (hmark name).1, fun name => (hmark name).2.1,
      fun name hname => ((hmark name).2.2.1.1 hname).1, rfl, rfl,
      (o.reconciler.markResolved names).2, ?_, ?_, fun name => ?_⟩
    · dsimp only [batched]
      split_ifs with hempty
      · exact (List.append_nil _).symm
      · rfl
    · exact Reconciler.nodup_foldl_markResolvedName names (List.nil_subset _) List.nodup_nil
    · refine (hmark name).2.2.2.trans ?_
      simp

/-- The requests of one kind. -/
theorem latest_map_const (pvs : List String) (b : Bool) (name : String) :
    latest (pvs.map fun pv => (pv, b)) name = if name ∈ pvs then some b else none := by
  split_ifs with h
  · refine latest_eq_some (List.mem_map.2 ⟨name, h, rfl⟩) fun b' hb' => ?_
    obtain ⟨pv, -, hpv⟩ := List.mem_map.1 hb'
    cases hpv
    rfl
  · rw [latest_eq_none_iff, List.map_map]
    simpa using h

/-- What was asked for last, of the commands a snapshot adds. -/
theorem Processed.latest {o o' : Orchestrator} {all : List PvConfig} (h : Processed o all o') :
    ∃ added, o'.commands = o.commands ++ added ∧ ∀ name,
      latest (requestsOf added) name =
        if name ∈ freshMap all ∧ name ∉ o.poller.known then some true
        else if name ∈ o.poller.known ∧ name ∉ freshMap all then some false else none := by
  obtain ⟨pvs, gone, hcmds, -, hpvs, hgone⟩ := h.commands
  refine ⟨_, hcmds, fun name => ?_⟩
  rw [requestsOf, List.flatMap_append]
  show Latest.latest (requestsOf _ ++ requestsOf _) name = _
  rw [latest_append, requestsOf_batched (.subscribeBatch · o.nameServers.head?) fun _ => rfl,
    requestsOf_batched .unsubscribeBatch fun _ => rfl, latest_map_const, latest_map_const]
  simp only [hpvs name, hgone name]
  by_cases hfresh : name ∈ freshMap all
  · simp [hfresh]
  · simp [hfresh]

/-- The actions of a plan in turn. -/
theorem foldl_execute_actions (o : Orchestrator) (plan : Plan) :
    let o' := (plan.actions.foldl execute (o, [])).1
    let resolved := (o.resolveBatch plan.toResolve).1
    o'.reconciler = resolved.reconciler ∧ o'.poller = resolved.poller ∧
    o'.lastPoll = resolved.lastPoll ∧
    o'.commands = resolved.commands ++ batched .unsubscribeBatch plan.toUnsubscribe := by
  unfold Plan.actions
  rw [List.foldl_append, List.foldl_append]
  have hresolve : ((if plan.toResolve = [] then [] else [Action.resolve plan.toResolve]).foldl
      execute (o, [])).1 = (o.resolveBatch plan.toResolve).1 := by
    split_ifs with hnil
    · rw [hnil]
      rfl
    · rfl
  have hfilter : ∀ acc, (if plan.toUpdateFilter = [] then []
      else [Action.updateFilter plan.toUpdateFilter]).foldl execute acc = acc := by
    intro acc
    split_ifs <;> rfl
  rw [hfilter, ← hresolve]
  generalize List.foldl execute (o, [])
    (if plan.toResolve = [] then [] else [Action.resolve plan.toResolve]) = acc
  unfold batched
  split_ifs with hnil
  · exact ⟨rfl, rfl, rfl, (List.append_nil _).symm⟩
  · have hexec : execute acc (.unsubscribe plan.toUnsubscribe) =
        ({ acc.1 with commands := acc.1.commands ++ [.unsubscribeBatch plan.toUnsubscribe] }, acc.2) :=
      if_neg hnil
    rw [List.foldl_cons, List.foldl_nil, hexec]
    exact ⟨rfl, rfl, rfl, rfl⟩

/-- What the actions of some changes come to, if no added PV is resolved and every
    modified one is. -/
theorem execute_reconciled (o : Orchestrator) (changes : List PvChange)
    (hpend : o.reconciler.pending = [])
    (hadd : ∀ c, .added c ∈ changes → c.pvName ∉ o.reconciler.resolved)
    (hmod : ∀ c, .modified c ∈ changes →
      c.pvName ∈ o.reconciler.resolved ∧ .removed c.pvName ∉ changes) :
    let out := o.reconciler.reconcile changes
    let o' := (out.2.foldl execute ({ o with reconciler := out.1 }, [])).1
    (∀ name, name ∈ o'.reconciler.resolved ↔ (∃ c, .added c ∈ changes ∧ c.pvName = name) ∨
      (name ∈ o.reconciler.resolved ∧ .removed name ∉ changes)) ∧
    o'.reconciler.pending = [] ∧ o'.reconciler.notFound ⊆ o.reconciler.notFound ∧
    o'.poller = o.poller ∧ o'.lastPoll = o.lastPoll ∧
    ∃ pvs gone, o'.commands = o.commands ++
        (batched (.subscribeBatch · o.nameServers.head?) pvs ++ batched .unsubscribeBatch gone) ∧
      pvs.Nodup ∧
      (∀ name, name ∈ pvs ↔ ∃ c, .added c ∈ changes ∧ c.pvName = name) ∧
      ∀ name, name ∈ gone ↔ .removed name ∈ changes := by
  intro out o'
  obtain ⟨hres, hpnd, hnf, hto, hun⟩ := Reconciler.foldl_reconcileChange (r := o.reconciler)
    ⟨[], [], []⟩ hmod
  generalize hfold : changes.foldl Reconciler.reconcileChange (o.reconciler, ⟨[], [], []⟩) = fold
    at hres hpnd hnf hto hun
  obtain ⟨r, plan⟩ := fold
  have hout : out = (r, plan.actions) := by
    show o.reconciler.reconcile changes = _
    unfold Reconciler.reconcile
    rw [hfold]
  simp only [hpend, List.not_mem_nil, false_or] at hres hpnd hto hun
  obtain ⟨hrec, hpoll, hlast, hcmds⟩ := foldl_execute_actions { o with reconciler := r } plan
  obtain ⟨hres', hpnd', hnf', hpoll', hlast', pvs, hcmds', hnodup, hpvs⟩ :=
    resolveBatch_spec { o with reconciler := r } plan.toResolve
  dsimp only at hrec hpoll hlast hcmds hres' hpnd' hnf' hpoll' hlast' hcmds' hpvs
  have ho' : o' = (plan.actions.foldl execute ({ o with reconciler := r }, [])).1 := by
    show (out.2.foldl execute ({ o with reconciler := out.1 }, [])).1 = _
    rw [hout]
  rw [ho']
  refine ⟨fun name => ?_, ?_, ?_, hpoll.trans hpoll', hlast.trans hlast', pvs,
    plan.toUnsubscribe, ?_, hnodup, fun name => ?_, hun⟩
  · rw [hrec, hres' name, hres name, hto name, or_comm]
  · rw [hrec, List.eq_nil_iff_forall_not_mem]
    intro name hname
    obtain ⟨hin, hnot⟩ := (hpnd' name).1 hname
    exact hnot ((hto name).2 (hpnd name hin))
  · rw [hrec]
    exact fun name hname => hnf (hnf' hname)
  · rw [hcmds, hcmds', List.append_assoc]
  · rw [hpvs name, hto name]
    apply and_iff_left_of_imp
    rintro ⟨c, hc, rfl⟩ hin
    exact hadd c hc ((hres c.pvName).1 hin).1

/-- `process` on a snapshot. -/
theorem process_processed {o : Orchestrator} (hstep : o.InStep) (all : List PvConfig) :
    Processed o all (o.process (some all)).1 ∧
      (o.process (some all)).1.lastPoll = o.lastPoll := by
  have hadded := added_mem_changes_iff o.poller all
  have hremoved := removed_mem_changes_iff o.poller all
  obtain ⟨hres, hpend, hnf, hpoll, hlast, pvs, gone, hcmds, hnodup, hpvs, hgone⟩ :=
    execute_reconciled { o with poller := (o.poller.diff all).2 } (o.poller.changes all)
      hstep.pending
      (fun c hc hin => ((hadded c.pvName).1 ⟨c, hc, rfl⟩).2 ((hstep.resolved _).1 hin))
      (fun c hc => by
        obtain ⟨hknown, hfresh⟩ := known_of_modified_mem_changes o.poller all hc
        exact ⟨(hstep.resolved _).2 hknown, fun hrem => ((hremoved _).1 hrem).2 hfresh⟩)
  generalize hout : (o.reconciler.reconcile (o.poller.changes all)).2.foldl execute
    ({ o with poller := (o.poller.diff all).2,
              reconciler := (o.reconciler.reconcile (o.poller.changes all)).1 }, []) = out
    at hres hpend hnf hpoll hlast hcmds
  have hproc : o.process (some all) = out := by
    show retryPending ((o.reconciler.reconcile (o.poller.changes all)).2.foldl execute
      ({ o with poller := (o.poller.diff all).2,
                reconciler := (o.reconciler.reconcile (o.poller.changes all)).1 }, [])) = out
    rw [hout]
    exact if_pos hpend
  rw [hproc]
  have hknown : ∀ name, name ∈ out.1.poller.known ↔ name ∈ freshMap all := by
    intro name
    rw [hpoll]
    exact mem_known_diff_iff o.poller all name
  refine ⟨⟨hknown, ⟨fun name => ?_, hpend, ?_⟩, pvs, gone, hcmds, hnodup, fun name => ?_,
    fun name => ?_⟩, hlast⟩
  · rw [hres name, hadded name, hremoved name, hknown name]
    have hold := hstep.resolved name
    constructor
    · rintro (⟨hfresh, -⟩ | ⟨hin, hnot⟩)
      · exact hfresh
      · by_contra hfresh
        exact hnot ⟨hold.1 hin, hfresh⟩
    · intro hfresh
      by_cases hin : name ∈ o.poller.known
      · exact .inr ⟨hold.2 hin, fun h => h.2 hfresh⟩
      · exact .inl ⟨hfresh, hin⟩
  · exact List.subset_nil.1 (hstep.notFound ▸ hnf)
  · rw [hpvs name, hadded name]
  · rw [hgone name, hremoved name]

/-- A cycle with nothing pending and no snapshot does nothing. -/
theorem process_none {o : Orchestrator} (hstep : o.InStep) : o.process none = (o, []) := by
  show (if o.reconciler.pending = [] then (o, []) else _) = _
  exact if_pos hstep.pending

/-- A plan without unsubscribes only resolves. -/
theorem foldl_executeResolve_actions {plan : Plan} (hnil : plan.toUnsubscribe = [])
    (acc : Orchestrator × List (List String)) :
    plan.actions.foldl executeResolve acc = plan.actions.foldl execute acc := by
  refine List.foldl_ext _ _ _ fun acc action haction => ?_
  unfold Plan.actions at haction
  rw [if_pos hnil, List.append_nil, List.mem_append] at haction
  rcases haction with h | h
  · split_ifs at h
    · cases h
    · rw [List.mem_singleton.1 h]
      rfl
  · split_ifs at h
    · cases h
    · rw [List.mem_singleton.1 h]
      rfl

/-- Startup on a snapshot of enabled PVs, with the PVs it resolves. -/
theorem startup_processed (nameServers : List String) (minUtc now : ℤ) {all : List PvConfig}
    (hall : ∀ c ∈ all, c.enabled = true) :
    let o := new nameServers minUtc
    let out := o.startup all now
    Processed o all (out.2.foldl executeResolve (out.1, [])).1 ∧
      (out.2.foldl executeResolve (out.1, [])).1.lastPoll = now := by
  intro o out
  have hadded : ∀ name, (∃ c, PvChange.added c ∈ all.map .added ∧ c.pvName = name) ↔
      name ∈ freshMap all := by
    intro name
    rw [mem_freshMap_iff]
    constructor
    · rintro ⟨c, hc, rfl⟩
      obtain ⟨c', hc', heq⟩ := List.mem_map.1 hc
      cases heq
      exact ⟨c, hc', hall c hc', rfl⟩
    · rintro ⟨c, hc, -, rfl⟩
      exact ⟨c, List.mem_map.2 ⟨c, hc, rfl⟩, rfl⟩
  have hremoved : ∀ name, PvChange.removed name ∉ all.map .added := by
    intro name hname
    obtain ⟨c, -, hc⟩ := List.mem_map.1 hname
    cases hc
  have hmodified : ∀ c, PvChange.modified c ∉ all.map .added := by
    intro c hc
    obtain ⟨c', -, hc'⟩ := List.mem_map.1 hc
    cases hc'
  obtain ⟨hres, hpend, hnf, hpoll, hlast, pvs, gone, hcmds, hnodup, hpvs, hgone⟩ :=
    execute_reconciled { o with poller := ⟨freshMap all⟩, lastPoll := now } (all.map .added)
      rfl (fun _ _ => List.not_mem_nil) (fun c hc => absurd hc (hmodified c))
  have hexec : out.2.foldl executeResolve (out.1, []) = out.2.foldl execute (out.1, []) := by
    obtain ⟨-, -, -, -, hun⟩ := Reconciler.foldl_reconcileChange (r := o.reconciler) ⟨[], [], []⟩
      fun c (hc : .modified c ∈ all.map PvChange.added) => absurd hc (hmodified c)
    apply foldl_executeResolve_actions
    rw [List.eq_nil_iff_forall_not_mem]
    intro name hname
    rcases (hun name).1 hname with h | h
    · cases h
    · exact hremoved name h
  rw [hexec]
  have hknown : ∀ name, name ∈ (out.2.foldl execute (out.1, [])).1.poller.known ↔
      name ∈ freshMap all := by
    intro name
    have : (out.2.foldl execute (out.1, [])).1.poller = ⟨freshMap all⟩ := hpoll
    rw [this]
  refine ⟨⟨hknown, ⟨fun name => ?_, hpend, List.subset_nil.1 hnf⟩, pvs, gone, hcmds, hnodup,
    fun name => ?_, fun name => ?_⟩, hlast⟩
  · rw [hknown name, ← hadded name]
    refine (hres name).trans (or_iff_left ?_)
    exact fun h => List.not_mem_nil h.1
  · rw [hpvs name, hadded name]
    exact (and_iff_left (AList.notMem_empty name)).symm
  · rw [hgone name]
    constructor
    · exact fun h => absurd h (hremoved name)
    · exact fun h => absurd h.1 (AList.notMem_empty name)

end Orchestrator

/-! ## Steps -/

/-- How far `startup` or `cycle` has come. -/
inductive Phase where
  | starting
  | loaded (all : List PvConfig)
  | idle
  | queried (fresh : List PvConfig)
  | polled
  | ready (all : Option (List PvConfig))
  | touching (batches : List (List String))
  deriving DecidableEq, Repr

/-- The phase in which the remaining batches are updated in the table. -/
def Phase.touch (batches : List (List String)) : Phase :=
  if batches = [] then .idle else .touching batches

/-- The orchestrator, the table and the commands published so far. -/
structure Discovery where
  table : PvTable
  orch : Orchestrator
  phase : Phase
  published : List IngestCommand
  deriving DecidableEq

/-- The steps; `now` is the time a statement is stamped with or a clock is read. -/
inductive Act where
  | statement (stmt : Statement) (now : ℤ)
  | loadAll (ok : Bool)
  | startUp (now : ℤ)
  | getChangedSince (ok : Bool)
  | stampPoll (now : ℤ)
  | getAllEnabled (ok : Bool)
  | process
  | touch (ok : Bool) (now : ℤ)
  | flush (ok : Bool)
  deriving DecidableEq, Repr

namespace Discovery

/-- The orchestrator before `startup`. -/
def new (table : PvTable) (nameServers : List String) (minUtc : ℤ) : Discovery :=
  { table, orch := .new nameServers minUtc, phase := .starting, published := [] }

/-- One step; an action that is not due does nothing. -/
def step (s : Discovery) (act : Act) : Discovery :=
  match act, s.phase with
  | .statement stmt now, _ => { s with table := s.table.exec stmt now }
  -- a failed query ends `run`, and the process starts over
  | .loadAll ok, .starting => if ok then { s with phase := .loaded s.table.getAllEnabled } else s
  | .startUp now, .loaded all =>
    let (orch, actions) := s.orch.startup all now
    let (orch, batches) := actions.foldl Orchestrator.executeResolve (orch, [])
    { s with orch, phase := .touch batches }
  | .getChangedSince ok, .idle =>
    if ok then { s with phase := .queried (s.table.getChangedSince s.orch.lastPoll) } else s
  -- lines 108-112
  | .stampPoll now, .queried fresh =>
    { s with
      orch := { s.orch with lastPoll := now },
      phase :=
        if fresh = [] then if s.orch.reconciler.pending = [] then .idle else .ready none
        else .polled }
  | .getAllEnabled ok, .polled =>
    { s with phase := if ok then .ready (some s.table.getAllEnabled) else .idle }
  | .process, .ready all =>
    let (orch, batches) := s.orch.process all
    { s with orch, phase := .touch batches }
  -- the result of the `UPDATE` is ignored
  | .touch ok now, .touching (names :: batches) =>
    { s with
      table :=
        if ok then
          s.table.update names ({ · with expectedIoc := s.orch.nameServers.head? }) now
        else s.table
      phase := .touch batches }
  -- `take` empties the batch before the commands are published
  | .flush ok, .idle =>
    { s with
      orch := { s.orch with commands := [] }
      published := if ok then s.published ++ s.orch.commands else s.published }
  | _, _ => s

/-- A run of steps. -/
def run (s : Discovery) (acts : List Act) : Discovery := Runs.run step s acts

/-- The steps that are due, and what they do. -/
inductive Moves (s : Discovery) : Act → Discovery → Prop where
  | statement (stmt : Statement) (now : ℤ) :
      Moves s (.statement stmt now) { s with table := s.table.exec stmt now }
  | load (h : s.phase = .starting) :
      Moves s (.loadAll true) { s with phase := .loaded s.table.getAllEnabled }
  | start {all : List PvConfig} (now : ℤ) (h : s.phase = .loaded all) :
      Moves s (.startUp now)
        { s with
          orch := ((s.orch.startup all now).2.foldl Orchestrator.executeResolve
            ((s.orch.startup all now).1, [])).1
          phase := .touch ((s.orch.startup all now).2.foldl Orchestrator.executeResolve
            ((s.orch.startup all now).1, [])).2 }
  | query (h : s.phase = .idle) :
      Moves s (.getChangedSince true)
        { s with phase := .queried (s.table.getChangedSince s.orch.lastPoll) }
  | stamp {fresh : List PvConfig} (now : ℤ) (h : s.phase = .queried fresh) :
      Moves s (.stampPoll now)
        { s with
          orch := { s.orch with lastPoll := now }
          phase :=
            if fresh = [] then if s.orch.reconciler.pending = [] then .idle else .ready none
            else .polled }
  | snapshot (h : s.phase = .polled) :
      Moves s (.getAllEnabled true) { s with phase := .ready (some s.table.getAllEnabled) }
  | noSnapshot (h : s.phase = .polled) : Moves s (.getAllEnabled false) { s with phase := .idle }
  | process {all : Option (List PvConfig)} (h : s.phase = .ready all) :
      Moves s .process
        { s with orch := (s.orch.process all).1, phase := .touch (s.orch.process all).2 }
  | touch {names : List String} {batches : List (List String)} (ok : Bool) (now : ℤ)
      (h : s.phase = .touching (names :: batches)) :
      Moves s (.touch ok now)
        { s with
          table :=
            if ok then
              s.table.update names ({ · with expectedIoc := s.orch.nameServers.head? }) now
            else s.table
          phase := .touch batches }
  | flush (ok : Bool) (h : s.phase = .idle) :
      Moves s (.flush ok)
        { s with
          orch := { s.orch with commands := [] }
          published := if ok then s.published ++ s.orch.commands else s.published }
  | nothing (act : Act) : Moves s act s

theorem step_flush {s : Discovery} (h : s.phase = .idle) (ok : Bool) :
    s.step (.flush ok) =
      { s with
        orch := { s.orch with commands := [] }
        published := if ok then s.published ++ s.orch.commands else s.published } := by
  obtain ⟨table, orch, phase, published⟩ := s
  cases h
  rfl

theorem step_flush_of_ne {s : Discovery} (h : s.phase ≠ .idle) (ok : Bool) :
    s.step (.flush ok) = s := by
  obtain ⟨table, orch, phase, published⟩ := s
  cases phase with
  | idle => exact absurd rfl h
  | _ => rfl

theorem moves_step (s : Discovery) (act : Act) : Moves s act (s.step act) := by
  unfold step
  split
  · exact .statement _ _
  · next ok h =>
    cases ok with
    | true => exact .load h
    | false => exact .nothing _
  · next now all h => exact .start now h
  · next ok h =>
    cases ok with
    | true => exact .query h
    | false => exact .nothing _
  · next now fresh h => exact .stamp now h
  · next ok h =>
    cases ok with
    | true => exact .snapshot h
    | false => exact .noSnapshot h
  · next all h => exact .process h
  · next ok now names batches h => exact .touch ok now h
  · next ok h => exact .flush ok h
  · exact .nothing _

end Discovery

end AuraEpics.Discover
