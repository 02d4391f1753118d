import Mathlib.Logic.Function.Basic
import Mathlib.Data.List.Dedup

/-!
# PVA driver

Model of the tables of `PvaDriver` (`crates/aura-net/src/runtime/driver.rs`, lines
84-112) and of the operations on them: `monitor_batch`, `unsubscribe`, `hot_add_ioc`
and `remove_session`. A `HashMap` that is only read by key is a function to `Option`.

The network answers searches, `AddMonitorBatch` commands and bulk subscriptions; the
answers are arguments. An event loop and its session never write to the tables, so the
tables after an operation depend on these answers only. The event loops themselves are
modelled in `EventLoop`.

Results:
* `subscribed_monitorBatch`: after `monitor_batch` the driver is subscribed to what it
  was subscribed to and to the PVs reported as subscribed;
* `subscribed_unsubscribe`: after `unsubscribe` it is subscribed to what it was without
  the PVs named.
-/

namespace AuraEpics.Runtime

/-- A command channel: the channel of the `session`-th session of an event loop. -/
structure ChannelId where
  task : ℕ
  session : ℕ
  deriving DecidableEq, Repr

/-- `PvaDriver` (lines 84-112). `spawned` numbers the tasks `spawn_event_loop` starts; a
    cancellation token is named by the task that holds its clone. -/
structure PvaDriver (Addr : Type) where
  nameServers : List Addr
  pvServerCache : String → Option Addr
  failedPvs : List String
  sessionCommands : Addr → Option ChannelId
  iocPvs : Addr → Option (List String)
  cancelTokens : Addr → Option ℕ
  spawned : ℕ

/-- What `add_monitors_bulk` comes to for one PV (session.rs, lines 911-1222): no
    response to CREATE_CHANNEL, a channel that was refused, a channel without a response
    to INIT, or a monitor that was started. -/
inductive BulkOutcome where
  | unanswered
  | rejected
  | notInit
  | started
  deriving DecidableEq, Repr

/-- The results of `add_monitors_bulk`; `true` stands for `Ok`. A PV whose channel was
    never answered is not among them. -/
def bulkResults (outcome : String → BulkOutcome) (pvs : List String) : List (String × Bool) :=
  pvs.filterMap fun pv =>
    match outcome pv with
    | .unanswered => none
    | .rejected => some (pv, false)
    | .notInit => some (pv, false)
    | .started => some (pv, true)

/-- What becomes of an `AddMonitorBatch` command (lines 316-357): the channel is closed,
    no reply comes in time, or the session replies. -/
inductive AddAnswer where
  | unsent
  | timedOut
  | replied (outcome : String → BulkOutcome)

/-- The answers of the network to one `monitor_batch`. `found₁ k` and `found₂ k` say
    which PVs the `k`-th name server finds in each search round; `opened` says what a
    new session comes to, `none` if the connection fails. -/
structure BatchAnswers (Addr : Type) where
  found₁ : ℕ → String → Bool
  found₂ : ℕ → String → Bool
  added : Addr → AddAnswer
  opened : Addr → Option (String → BulkOutcome)

namespace PvaDriver

variable {Addr : Type}

/-- `PvaDriver::new` (lines 115-136). -/
def new (nameServers : List Addr) : PvaDriver Addr where
  nameServers := nameServers
  pvServerCache := fun _ => none
  failedPvs := []
  sessionCommands := fun _ => none
  iocPvs := fun _ => none
  cancelTokens := fun _ => none
  spawned := 0

/-- The PVs the driver is subscribed to, as the main loop asks for them with
    `pv_server_cache().contains_key`. -/
def Subscribed (d : PvaDriver Addr) (pv : String) : Prop := (d.pvServerCache pv).isSome

instance (d : PvaDriver Addr) (pv : String) : Decidable (d.Subscribed pv) :=
  inferInstanceAs (Decidable (_ = true))

/-! ## Search -/

/-- `pv_to_server.entry(pv).or_insert(addr)` for every PV found (lines 216-218). -/
def orInsert (addr : Addr) (routes : List (String × Addr)) (pvs : List String) :
    List (String × Addr) :=
  pvs.foldl (fun m pv => if (m.lookup pv).isSome then m else m ++ [(pv, addr)]) routes

/-- `partitions[k]` (lines 196-201). -/
def partition (names : List String) (n k : ℕ) : List String :=
  names.zipIdx.filterMap fun p => if p.2 % n = k then some p.1 else none

/-- `pv_to_server` after both search rounds (lines 186-263). -/
def searchRoutes (servers : List Addr) (names : List String) (found₁ found₂ : ℕ → String → Bool) :
    List (String × Addr) :=
  let round1 := servers.zipIdx.foldl (fun m s =>
    orInsert s.1 m ((partition names servers.length s.2).filter (found₁ s.2))) []
  let unfound := names.filter fun pv => (round1.lookup pv).isNone
  servers.zipIdx.foldl (fun m s => orInsert s.1 m (unfound.filter (found₂ s.2))) round1

/-- `server_pvs` (lines 294-297), the PVs of each IOC that was found to have some. -/
def serverPvs [DecidableEq Addr] (routes : List (String × Addr)) : List (Addr × List String) :=
  (routes.map Prod.snd).eraseDups.map fun addr =>
    (addr, (routes.filter fun r => r.2 = addr).map Prod.fst)

/-! ## Tables -/

variable [DecidableEq Addr]

/-- `pv_server_cache.insert(pv, addr)` for every result that is `Ok`. -/
def insertOk (cache : String → Option Addr) (addr : Addr) (results : List (String × Bool)) :
    String → Option Addr :=
  results.foldl (fun c r => if r.2 then Function.update c r.1 (some addr) else c) cache

/-- The tables after an existing session has replied (lines 331-345). -/
def recordExisting (d : PvaDriver Addr) (addr : Addr) (pvs : List String)
    (results : List (String × Bool)) : PvaDriver Addr :=
  let cache := insertOk d.pvServerCache addr results
  { d with
    pvServerCache := cache
    iocPvs := match d.iocPvs addr with
      | some existing =>
        Function.update d.iocPvs addr (some (existing ++ pvs.filter fun p => (cache p).isSome))
      | none => d.iocPvs }

/-- The entries `spawn_event_loop` makes (lines 464-470). -/
def spawnEventLoop (d : PvaDriver Addr) (addr : Addr) : PvaDriver Addr :=
  { d with
    sessionCommands := Function.update d.sessionCommands addr (some ⟨d.spawned, 0⟩)
    cancelTokens := Function.update d.cancelTokens addr (some d.spawned)
    spawned := d.spawned + 1 }

/-- The tables after a new session has been opened (lines 402-415). -/
def recordNew (d : PvaDriver Addr) (addr : Addr) (pvs : List String)
    (results : List (String × Bool)) : PvaDriver Addr :=
  let d := { d with pvServerCache := insertOk d.pvServerCache addr results }
  if results.any Prod.snd then
    spawnEventLoop { d with iocPvs := Function.update d.iocPvs addr (some pvs) } addr
  else d

/-! ## monitor_batch -/

/-- The driver inside `monitor_batch`: its tables, the results so far and the sessions
    still to be opened. -/
structure Progress (Addr : Type) where
  driver : PvaDriver Addr
  results : List (String × Bool)
  newIocPvs : List (Addr × List String)

/-- One pass of the loop over `existing_ioc_pvs` (lines 316-357). -/
def addExisting (answers : Addr → AddAnswer) (p : Progress Addr) (e : Addr × List String) :
    Progress Addr :=
  match answers e.1 with
  | .replied outcome =>
    let results := bulkResults outcome e.2
    { p with
      driver := p.driver.recordExisting e.1 e.2 results
      results := p.results ++ results }
  | .timedOut => { p with newIocPvs := p.newIocPvs ++ [e] }
  | .unsent => { p with newIocPvs := p.newIocPvs ++ [e] }

/-- One pass of the loop over the subscribe tasks (lines 399-419). -/
def collectNew (answers : Addr → Option (String → BulkOutcome)) (p : Progress Addr)
    (e : Addr × List String) : Progress Addr :=
  match answers e.1 with
  | some outcome =>
    let results := bulkResults outcome e.2
    { p with
      driver := p.driver.recordNew e.1 e.2 results
      results := p.results ++ results }
  | none => p

/-- `monitor_batch` between the search and its return (lines 286-419). -/
def subscribeRoutes (d : PvaDriver Addr) (routes : List (String × Addr))
    (answers : BatchAnswers Addr) : Progress Addr :=
  let servers := serverPvs routes
  let existing := servers.filter fun e => (d.sessionCommands e.1).isSome
  let fresh := servers.filter fun e => (d.sessionCommands e.1).isNone
  let p := existing.foldl (addExisting answers.added) ⟨d, [], fresh⟩
  p.newIocPvs.foldl (collectNew answers.opened) p

/-- `PvaDriver::monitor_batch` (lines 160-460): the results and the tables afterwards. -/
def monitorBatch (d : PvaDriver Addr) (names : List String) (answers : BatchAnswers Addr) :
    List (String × Bool) × PvaDriver Addr :=
  if d.nameServers = [] then (names.map fun pv => (pv, false), d)
  else
    let routes := searchRoutes d.nameServers names answers.found₁ answers.found₂
    let missing := names.filter fun pv => (routes.lookup pv).isNone
    let p := subscribeRoutes { d with failedPvs := missing } routes answers
    (p.results ++ missing.map fun pv => (pv, false), p.driver)

/-! ## unsubscribe, hot_add_ioc, remove_session -/

/-- One pass of the loop of `unsubscribe` (lines 601-615), without the `RemoveMonitor`
    command it sends. -/
def unsubscribeOne (d : PvaDriver Addr) (pv : String) : PvaDriver Addr :=
  match d.pvServerCache pv with
  | none => d
  | some addr =>
    { d with
      pvServerCache := Function.update d.pvServerCache pv none
      iocPvs := match d.iocPvs addr with
        | some pvs => Function.update d.iocPvs addr (some (pvs.filter fun p => p ≠ pv))
        | none => d.iocPvs }

/-- `PvaDriver::unsubscribe` (lines 600-616). -/
def unsubscribe (d : PvaDriver Addr) (pvs : List String) : PvaDriver Addr :=
  pvs.foldl unsubscribeOne d

/-- The PVs `hot_add_ioc` searches for (lines 630-637). -/
def hotAddSearch (d : PvaDriver Addr) (configured : List String) : List String :=
  (d.failedPvs ++ configured.filter fun pv => (d.pvServerCache pv).isNone).dedup

/-- The tables after `hot_add_ioc` has subscribed to `found` on a new session (lines
    687-698). -/
def recordHotAdd (d : PvaDriver Addr) (addr : Addr) (found : List String)
    (results : List (String × Bool)) : PvaDriver Addr :=
  if results.any Prod.snd then
    spawnEventLoop { d with
      pvServerCache := insertOk d.pvServerCache addr results
      failedPvs := d.failedPvs.filter fun p => (p, true) ∉ results
      iocPvs := Function.update d.iocPvs addr (some found) } addr
  else d

/-- `PvaDriver::hot_add_ioc` (lines 624-701). `search` and `opened` are `none` if the
    connection fails. -/
def hotAddIoc (d : PvaDriver Addr) (addr : Addr) (configured : List String)
    (search : Option (String → Bool)) (opened : Option (String → BulkOutcome)) :
    List String × PvaDriver Addr :=
  match search, opened with
  | some isFound, some outcome =>
    let found := (d.hotAddSearch configured).filter isFound
    let results := bulkResults outcome found
    ((results.filter Prod.snd).map Prod.fst, d.recordHotAdd addr found results)
  | _, _ => ([], d)

/-- `PvaDriver::remove_session` (lines 704-715), without cancelling the token. -/
def removeSession (d : PvaDriver Addr) (addr : Addr) : PvaDriver Addr :=
  { d with
    cancelTokens := Function.update d.cancelTokens addr none
    failedPvs := d.failedPvs ++ (d.iocPvs addr).getD []
    iocPvs := Function.update d.iocPvs addr none
    sessionCommands := Function.update d.sessionCommands addr none
    pvServerCache := fun pv =>
      match d.pvServerCache pv with
      | some a => if a = addr then none else some a
      | none => none }

/-! ## The cache after an operation -/

theorem removeSession_pvServerCache (d : PvaDriver Addr) (addr : Addr) (pv : String) :
    (d.removeSession addr).pvServerCache pv =
      if d.pvServerCache pv = some addr then none else d.pvServerCache pv := by
  unfold removeSession
  dsimp only
  cases d.pvServerCache pv with
  | none => simp
  | some a => simp

omit [DecidableEq Addr] in
theorem insertOk_apply (cache : String → Option Addr) (addr : Addr) (results : List (String × Bool))
    (pv : String) :
    insertOk cache addr results pv = if (pv, true) ∈ results then some addr else cache pv := by
  induction results generalizing cache with
  | nil => simp [insertOk]
  | cons r results ih =>
    obtain ⟨name, ok⟩ := r
    show insertOk (if ok then Function.update cache name (some addr) else cache) addr results pv = _
    rw [ih]
    cases ok
    · simp
    · by_cases h : pv = name
      · subst h
        simp
      · simp [h]

theorem mem_of_mem_bulkResults {outcome : String → BulkOutcome} {pvs : List String}
    {r : String × Bool} (h : r ∈ bulkResults outcome pvs) : r.1 ∈ pvs := by
  obtain ⟨pv, hpv, hr⟩ := List.mem_filterMap.1 h
  cases hout : outcome pv with
  | unanswered => rw [hout] at hr; cases hr
  | rejected => rw [hout] at hr; cases hr; exact hpv
  | notInit => rw [hout] at hr; cases hr; exact hpv
  | started => rw [hout] at hr; cases hr; exact hpv

theorem any_bulkResults (outcome : String → BulkOutcome) (pvs : List String) :
    (bulkResults outcome pvs).any Prod.snd = true ↔ ∃ pv ∈ pvs, outcome pv = .started := by
  rw [List.any_eq_true]
  constructor
  · rintro ⟨r, hr, hok⟩
    obtain ⟨pv, hpv, hout⟩ := List.mem_filterMap.1 hr
    refine ⟨pv, hpv, ?_⟩
    cases h : outcome pv with
    | unanswered => rw [h] at hout; cases hout
    | rejected => rw [h] at hout; cases hout; cases hok
    | notInit => rw [h] at hout; cases hout; cases hok
    | started => rfl
  · rintro ⟨pv, hpv, hout⟩
    refine ⟨(pv, true), List.mem_filterMap.2 ⟨pv, hpv, ?_⟩, rfl⟩
    rw [hout]

omit [DecidableEq Addr] in
theorem mem_of_mem_orInsert {addr : Addr} {pvs : List String} {routes : List (String × Addr)}
    {r : String × Addr} (h : r ∈ orInsert addr routes pvs) : r ∈ routes ∨ r.1 ∈ pvs := by
  induction pvs generalizing routes with
  | nil => exact .inl h
  | cons pv pvs ih =>
    rcases ih h with hr | hr
    · dsimp only at hr
      split_ifs at hr with hpv
      · exact .inl hr
      · rcases List.mem_append.1 hr with hr | hr
        · exact .inl hr
        · rw [List.mem_singleton.1 hr]
          exact .inr List.mem_cons_self
    · exact .inr (List.mem_cons_of_mem pv hr)

omit [DecidableEq Addr] in
/-- A search round routes only PVs that were asked for. -/
theorem mem_of_mem_round {names : List String} (asked : ℕ → List String)
    (hasked : ∀ k, ∀ pv ∈ asked k, pv ∈ names) (servers : List (Addr × ℕ))
    {routes : List (String × Addr)} (hroutes : ∀ r ∈ routes, r.1 ∈ names) :
    ∀ r ∈ servers.foldl (fun m s => orInsert s.1 m (asked s.2)) routes, r.1 ∈ names := by
  induction servers generalizing routes with
  | nil => exact hroutes
  | cons s servers ih =>
    refine ih fun r hr => ?_
    rcases mem_of_mem_orInsert hr with hr | hr
    · exact hroutes r hr
    · exact hasked s.2 r.1 hr

omit [DecidableEq Addr] in
theorem mem_of_mem_searchRoutes {servers : List Addr} {names : List String}
    {found₁ found₂ : ℕ → String → Bool} {r : String × Addr}
    (h : r ∈ searchRoutes servers names found₁ found₂) : r.1 ∈ names := by
  have hpart : ∀ k, ∀ pv ∈ (partition names servers.length k).filter (found₁ k), pv ∈ names := by
    intro k pv hpv
    obtain ⟨p, hp, hpick⟩ := List.mem_filterMap.1 (List.mem_filter.1 hpv).1
    split_ifs at hpick
    rw [← Option.some.inj hpick]
    exact List.fst_mem_of_mem_zipIdx hp
  have hround1 := @mem_of_mem_round Addr names _ hpart servers.zipIdx [] (by simp)
  unfold searchRoutes at h
  dsimp only at h
  generalize servers.zipIdx.foldl _ [] = round1 at h hround1
  refine mem_of_mem_round (fun k => (names.filter fun pv => (round1.lookup pv).isNone).filter
    (found₂ k)) ?_ servers.zipIdx hround1 r h
  intro k pv hpv
  exact (List.mem_filter.1 (List.mem_filter.1 hpv).1).1

theorem mem_of_mem_serverPvs {routes : List (String × Addr)} {e : Addr × List String}
    (he : e ∈ serverPvs routes) {pv : String} (hpv : pv ∈ e.2) : ∃ r ∈ routes, r.1 = pv := by
  obtain ⟨addr, -, rfl⟩ := List.mem_map.1 he
  obtain ⟨r, hr, rfl⟩ := List.mem_map.1 hpv
  exact ⟨r, (List.mem_filter.1 hr).1, rfl⟩

omit [DecidableEq Addr] in
/-- `or_insert` gives no PV a second entry. -/
theorem nodup_orInsert (addr : Addr) {routes : List (String × Addr)}
    (h : (routes.map Prod.fst).Nodup) (pvs : List String) :
    ((orInsert addr routes pvs).map Prod.fst).Nodup := by
  induction pvs generalizing routes with
  | nil => exact h
  | cons pv pvs ih =>
    refine ih ?_
    dsimp only
    split_ifs with hpv
    · exact h
    · have hnot : pv ∉ routes.map Prod.fst := by
        intro hmem
        obtain ⟨r, hr, rfl⟩ := List.mem_map.1 hmem
        exact hpv (List.lookup_isSome_iff.2 ⟨r, hr, by simp⟩)
      rw [List.map_append, List.map_singleton]
      refine h.append (List.nodup_singleton pv) ?_
      rw [List.disjoint_singleton]
      exact hnot

omit [DecidableEq Addr] in
theorem nodup_searchRoutes (servers : List Addr) (names : List String)
    (found₁ found₂ : ℕ → String → Bool) :
    ((searchRoutes servers names found₁ found₂).map Prod.fst).Nodup := by
  have hround : ∀ (asked : ℕ → List String) (es : List (Addr × ℕ)) (routes : List (String × Addr)),
      (routes.map Prod.fst).Nodup →
      ((es.foldl (fun m s => orInsert s.1 m (asked s.2)) routes).map Prod.fst).Nodup := by
    intro asked es
    induction es with
    | nil => exact fun _ h => h
    | cons e es ih => exact fun _ h => ih _ (nodup_orInsert e.1 h (asked e.2))
  have hround1 := hround (fun k => (partition names servers.length k).filter (found₁ k))
    servers.zipIdx [] List.nodup_nil
  unfold searchRoutes
  dsimp only
  generalize servers.zipIdx.foldl _ [] = round1 at hround1 ⊢
  exact hround (fun k => (names.filter fun pv => (round1.lookup pv).isNone).filter (found₂ k))
    servers.zipIdx round1 hround1

theorem nodup_serverPvs {routes : List (String × Addr)} (h : (routes.map Prod.fst).Nodup)
    {e : Addr × List String} (he : e ∈ serverPvs routes) : e.2.Nodup := by
  obtain ⟨addr, -, rfl⟩ := List.mem_map.1 he
  exact h.sublist (List.filter_sublist.map Prod.fst)

/-- What holds inside `monitor_batch` for a batch of `names` started with tables `d`. -/
structure Progress.Sound (d : PvaDriver Addr) (names : List String) (p : Progress Addr) : Prop where
  cache_iff : ∀ pv, p.driver.Subscribed pv ↔ d.Subscribed pv ∨ (pv, true) ∈ p.results
  results_mem : ∀ r ∈ p.results, r.1 ∈ names
  new_mem : ∀ e ∈ p.newIocPvs, ∀ pv ∈ e.2, pv ∈ names

section Progress

variable {d : PvaDriver Addr} {names : List String} {p : Progress Addr}

omit [DecidableEq Addr] in
/-- Recording results keeps the progress sound, whatever the other tables become. -/
theorem Progress.Sound.record (h : p.Sound d names) {addr : Addr} {results : List (String × Bool)}
    (hresults : ∀ r ∈ results, r.1 ∈ names) {driver : PvaDriver Addr}
    (hcache : driver.pvServerCache = insertOk p.driver.pvServerCache addr results) :
    Sound d names ⟨driver, p.results ++ results, p.newIocPvs⟩ := by
  refine ⟨fun pv => ?_, fun r hr => ?_, h.new_mem⟩
  · show (driver.pvServerCache pv).isSome ↔ _
    rw [hcache, insertOk_apply, List.mem_append, ← or_assoc, ← h.cache_iff pv]
    split_ifs with hpv
    · simp [hpv]
    · simp only [hpv, or_false]
      exact Iff.rfl
  · rcases List.mem_append.1 hr with hr | hr
    · exact h.results_mem r hr
    · exact hresults r hr

theorem Progress.Sound.addExisting (h : p.Sound d names) (answers : Addr → AddAnswer)
    {e : Addr × List String} (he : ∀ pv ∈ e.2, pv ∈ names) :
    (addExisting answers p e).Sound d names := by
  have hfallback : Progress.Sound d names { p with newIocPvs := p.newIocPvs ++ [e] } := by
    refine ⟨h.cache_iff, h.results_mem, fun e' he' => ?_⟩
    rcases List.mem_append.1 he' with he' | he'
    · exact h.new_mem e' he'
    · rw [List.mem_singleton.1 he']
      exact he
  unfold PvaDriver.addExisting
  cases answers e.1 with
  | unsent => exact hfallback
  | timedOut => exact hfallback
  | replied outcome => exact h.record (fun r hr => he r.1 (mem_of_mem_bulkResults hr)) rfl

theorem pvServerCache_recordNew (d : PvaDriver Addr) (addr : Addr) (pvs : List String)
    (results : List (String × Bool)) :
    (d.recordNew addr pvs results).pvServerCache = insertOk d.pvServerCache addr results := by
  unfold recordNew
  dsimp only
  split_ifs
  · rfl
  · rfl

theorem Progress.Sound.collectNew (h : p.Sound d names)
    (answers : Addr → Option (String → BulkOutcome)) {e : Addr × List String}
    (he : ∀ pv ∈ e.2, pv ∈ names) : (collectNew answers p e).Sound d names := by
  unfold PvaDriver.collectNew
  cases answers e.1 with
  | none => exact h
  | some outcome =>
    exact h.record (fun r hr => he r.1 (mem_of_mem_bulkResults hr)) (pvServerCache_recordNew ..)

omit [DecidableEq Addr] in
theorem Progress.Sound.foldl {step : Progress Addr → Addr × List String → Progress Addr}
    (hstep : ∀ p e, p.Sound d names → (∀ pv ∈ e.2, pv ∈ names) → (step p e).Sound d names)
    (es : List (Addr × List String)) (hes : ∀ e ∈ es, ∀ pv ∈ e.2, pv ∈ names)
    (h : p.Sound d names) : (es.foldl step p).Sound d names := by
  induction es generalizing p with
  | nil => exact h
  | cons e es ih =>
    refine ih (fun e' he' => hes e' (List.mem_cons_of_mem e he')) (hstep p e h ?_)
    exact hes e List.mem_cons_self

end Progress

theorem subscribeRoutes_sound (d : PvaDriver Addr) {names : List String}
    {routes : List (String × Addr)} (hroutes : ∀ r ∈ routes, r.1 ∈ names)
    (answers : BatchAnswers Addr) : (d.subscribeRoutes routes answers).Sound d names := by
  have hservers : ∀ e ∈ serverPvs routes, ∀ pv ∈ e.2, pv ∈ names := by
    intro e he pv hpv
    obtain ⟨r, hr, rfl⟩ := mem_of_mem_serverPvs he hpv
    exact hroutes r hr
  have hstart : Progress.Sound d names ⟨d, [],
      (serverPvs routes).filter fun e => (d.sessionCommands e.1).isNone⟩ :=
    ⟨by simp, by simp, fun e he => hservers e (List.mem_filter.1 he).1⟩
  have hexisting := hstart.foldl (fun p e hp => hp.addExisting answers.added)
    ((serverPvs routes).filter fun e => (d.sessionCommands e.1).isSome)
    fun e he => hservers e (List.mem_filter.1 he).1
  exact hexisting.foldl (fun p e hp => hp.collectNew answers.opened) _ hexisting.new_mem

/-- After `monitor_batch` the driver is subscribed to what it was subscribed to and to
    the PVs the call reports as subscribed. -/
theorem subscribed_monitorBatch (d : PvaDriver Addr) (names : List String)
    (answers : BatchAnswers Addr) (pv : String) :
    (d.monitorBatch names answers).2.Subscribed pv ↔
      d.Subscribed pv ∨ (pv, true) ∈ (d.monitorBatch names answers).1 := by
  unfold monitorBatch
  split_ifs with hservers
  · simp
  · simp only [List.mem_append, List.mem_map, Prod.mk.injEq, Bool.false_eq_true, and_false,
      exists_false, or_false]
    exact (subscribeRoutes_sound _ (fun _ => mem_of_mem_searchRoutes) answers).cache_iff pv

/-- `monitor_batch` reports on no PV it was not asked for. -/
theorem mem_of_mem_monitorBatch {d : PvaDriver Addr} {names : List String}
    {answers : BatchAnswers Addr} {r : String × Bool}
    (h : r ∈ (d.monitorBatch names answers).1) : r.1 ∈ names := by
  unfold monitorBatch at h
  split_ifs at h with hservers
  · obtain ⟨pv, hpv, rfl⟩ := List.mem_map.1 h
    exact hpv
  · rcases List.mem_append.1 h with h | h
    · exact (subscribeRoutes_sound _ (fun _ => mem_of_mem_searchRoutes) answers).results_mem r h
    · obtain ⟨pv, hpv, rfl⟩ := List.mem_map.1 h
      exact (List.mem_filter.1 hpv).1

theorem subscribed_unsubscribe (d : PvaDriver Addr) (pvs : List String) (pv : String) :
    (d.unsubscribe pvs).Subscribed pv ↔ d.Subscribed pv ∧ pv ∉ pvs := by
  induction pvs generalizing d with
  | nil => simp [unsubscribe]
  | cons q pvs ih =>
    show ((d.unsubscribeOne q).unsubscribe pvs).Subscribed pv ↔ _
    have hone : (d.unsubscribeOne q).Subscribed pv ↔ d.Subscribed pv ∧ pv ≠ q := by
      unfold unsubscribeOne Subscribed
      cases hq : d.pvServerCache q with
      | none =>
        refine ⟨fun hpv => ⟨hpv, ?_⟩, And.left⟩
        rintro rfl
        simp [hq] at hpv
      | some addr =>
        show (Function.update d.pvServerCache q none pv).isSome ↔ _
        by_cases hpv : pv = q
        · simp [hpv]
        · simp [hpv]
    rw [ih, hone, List.mem_cons, not_or, and_assoc]

end PvaDriver

end AuraEpics.Runtime
