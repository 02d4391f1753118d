import AuraEpics.Runtime.EventLoop

/-!
# Reconnects

An event loop captures the PVs of its IOC when it is spawned
(`crates/aura-net/src/runtime/driver.rs`, line 472) and subscribes to them again after
every reconnect. The driver keeps its own list, `ioc_pvs`, and changes it on later
subscribes and unsubscribes.

Result: `reconnects_match_iocPvs`, in runs that never change the list of an IOC while
an event loop for it is alive, what a loop reports and subscribes to again is what the
driver lists for its IOC at that moment. `lateSubscribe_not_resubscribed` shows that
the condition is needed.
-/

namespace AuraEpics.Runtime

open Runs

variable {Addr : Type}

/-! ## The invariant -/

/-- Every live loop has captured what the table lists for its IOC. -/
def Matches (iocPvs : Addr → Option (List String)) (loops : List (EventLoop Addr)) : Prop :=
  ∀ l ∈ loops, l.Live → l.reconnectPvs = (iocPvs l.addr).getD []

/-- Some event loop for the IOC is alive. -/
def LiveAt (loops : List (EventLoop Addr)) (addr : Addr) : Prop := ∃ l ∈ loops, l.addr = addr ∧ l.Live

/-- A change of an event loop that keeps what it captured, and does not revive it. -/
structure Keeps (f : EventLoop Addr → EventLoop Addr) : Prop where
  addr : ∀ l, (f l).addr = l.addr
  reconnectPvs : ∀ l, (f l).reconnectPvs = l.reconnectPvs
  live : ∀ l, (f l).Live → l.Live

theorem mem_modify {α : Type} {l : List α} {i : ℕ} {f : α → α} {x : α} (h : x ∈ l.modify i f) :
    x ∈ l ∨ ∃ y ∈ l, x = f y := by
  obtain ⟨j, hj⟩ := List.mem_iff_getElem?.1 h
  rw [List.getElem?_modify] at hj
  obtain ⟨y, hy, hx⟩ := Option.map_eq_some_iff.1 hj
  have hmem := List.mem_of_getElem? hy
  split_ifs at hx
  · exact .inr ⟨y, hmem, hx.symm⟩
  · exact .inl (hx ▸ hmem)

theorem Matches.modify {iocPvs : Addr → Option (List String)} {loops : List (EventLoop Addr)}
    (h : Matches iocPvs loops) (i : ℕ) {f : EventLoop Addr → EventLoop Addr} (hf : Keeps f) :
    Matches iocPvs (loops.modify i f) := by
  intro l hl hlive
  rcases mem_modify hl with hl | ⟨l', hl', rfl⟩
  · exact h l hl hlive
  · rw [hf.reconnectPvs, hf.addr]
    exact h l' hl' (hf.live l' hlive)

/-- The table may change for IOCs without a live loop. -/
theorem Matches.congr {iocPvs iocPvs' : Addr → Option (List String)}
    {loops : List (EventLoop Addr)} (h : Matches iocPvs loops)
    (heq : ∀ addr, LiveAt loops addr → iocPvs' addr = iocPvs addr) : Matches iocPvs' loops := by
  intro l hl hlive
  rw [heq l.addr ⟨l, hl, rfl, hlive⟩]
  exact h l hl hlive

/-! ### Every step of a loop keeps what it captured -/

theorem keeps_cancel : Keeps fun l : EventLoop Addr => { l with cancelled := true } :=
  ⟨fun _ => rfl, fun _ => rfl, fun _ => id⟩

/-- The other steps change the phase and the session of a loop that is alive, and do
    nothing to one that has returned. -/
theorem Keeps.of_phase {f : EventLoop Addr → EventLoop Addr}
    (hreturned : ∀ l : EventLoop Addr, l.phase = .returned → f l = l)
    (hshape : ∀ l, ∃ phase session, f l = { l with phase := phase, session := session }) :
    Keeps f := by
  refine ⟨fun l => ?_, fun l => ?_, fun l hlive hret => ?_⟩
  · obtain ⟨phase, session, h⟩ := hshape l
    rw [h]
  · obtain ⟨phase, session, h⟩ := hshape l
    rw [h]
  · rw [hreturned l hret] at hlive
    exact hlive hret

theorem reconnectTop_shape (l : EventLoop Addr) :
    ∃ phase session, l.reconnectTop = { l with phase := phase, session := session } := by
  unfold EventLoop.reconnectTop
  split_ifs
  · exact ⟨.returned, l.session, rfl⟩
  · exact ⟨.waiting, l.session, rfl⟩

theorem keeps_enqueue (cmd : SessionCommand) : Keeps fun l : EventLoop Addr => l.enqueue cmd := by
  refine Keeps.of_phase (fun l h => ?_) fun l => ?_
  · unfold EventLoop.enqueue
    rw [h]
  · unfold EventLoop.enqueue
    split
    · exact ⟨_, l.session, rfl⟩
    · exact ⟨l.phase, l.session, rfl⟩

theorem keeps_handleCommand (outcome : String → BulkOutcome) (isActive : Bool) :
    Keeps fun l : EventLoop Addr => l.handleCommand outcome isActive := by
  refine Keeps.of_phase (fun l h => ?_) fun l => ?_
  · unfold EventLoop.handleCommand
    rw [h]
  · unfold EventLoop.handleCommand
    split
    · exact ⟨_, l.session, rfl⟩
    · exact ⟨_, l.session, rfl⟩
    · exact ⟨l.phase, l.session, rfl⟩

theorem keeps_disconnect : Keeps (@EventLoop.disconnect Addr) := by
  refine Keeps.of_phase (fun l h => ?_) fun l => ?_
  · unfold EventLoop.disconnect
    rw [h]
  · unfold EventLoop.disconnect
    split
    · split_ifs
      · exact ⟨_, l.session, rfl⟩
      · exact reconnectTop_shape l
    · exact ⟨l.phase, l.session, rfl⟩

theorem keeps_wake (elapsed sleepWins : Bool) :
    Keeps fun l : EventLoop Addr => l.wake elapsed sleepWins := by
  refine Keeps.of_phase (fun l h => ?_) fun l => ?_
  · unfold EventLoop.wake
    rw [h]
  · unfold EventLoop.wake
    split
    · split_ifs
      · exact ⟨_, l.session, rfl⟩
      · exact ⟨_, l.session, rfl⟩
      · exact ⟨l.phase, l.session, rfl⟩
    · exact ⟨l.phase, l.session, rfl⟩

theorem keeps_connectDone (ok : Bool) : Keeps fun l : EventLoop Addr => l.connectDone ok := by
  refine Keeps.of_phase (fun l h => ?_) fun l => ?_
  · unfold EventLoop.connectDone
    rw [h]
  · unfold EventLoop.connectDone
    split
    · split_ifs
      · exact ⟨_, l.session, rfl⟩
      · exact reconnectTop_shape l
    · exact ⟨l.phase, l.session, rfl⟩

theorem keeps_resubscribe (outcome : String → BulkOutcome) :
    Keeps fun l : EventLoop Addr => l.resubscribe outcome := by
  refine Keeps.of_phase (fun l h => ?_) fun l => ?_
  · unfold EventLoop.resubscribe
    rw [h]
  · unfold EventLoop.resubscribe
    split
    · split_ifs
      · exact ⟨_, l.session + 1, rfl⟩
      · exact reconnectTop_shape l
    · exact ⟨l.phase, l.session, rfl⟩

/-! ## The condition -/

variable [DecidableEq Addr]

/-- The step does not change the list of an IOC with a live event loop: no PV is added to
    its session or taken off it, and no session is opened for it or removed. -/
def ListKept (s : System Addr) : Action Addr → Prop
  | .receiveReply =>
    match s.task with
    | .awaiting addr pvs _ (some results) _ _ =>
      LiveAt s.loops addr → ∀ pv ∈ pvs, (pv, true) ∉ results ∧ ¬s.driver.Subscribed pv
    | _ => True
  | .openSession (some outcome) =>
    match s.task with
    | .adding [] ((addr, pvs) :: _) => LiveAt s.loops addr → ∀ pv ∈ pvs, outcome pv ≠ .started
    | _ => True
  | .unsubscribe pvs =>
    ∀ pv ∈ pvs, ∀ addr, s.driver.pvServerCache pv = some addr → LiveAt s.loops addr →
      pv ∉ (s.driver.iocPvs addr).getD []
  | .hotAddIoc addr configured (some isFound) (some outcome) =>
    LiveAt s.loops addr →
      ∀ pv ∈ (s.driver.hotAddSearch configured).filter isFound, outcome pv ≠ .started
  | .removeSession addr => ¬LiveAt s.loops addr
  | _ => True

/-! ## One step -/

section Step

variable {s : System Addr}

/-- The loops and the table of a state match. -/
def Consistent (s : System Addr) : Prop := Matches s.driver.iocPvs s.loops

omit [DecidableEq Addr] in
theorem Consistent.onLoop (h : Consistent s) (i : ℕ) {f : EventLoop Addr → EventLoop Addr}
    (hf : Keeps f) : Consistent (s.onLoop i f) := Matches.modify h i hf

omit [DecidableEq Addr] in
theorem Consistent.send (h : Consistent s) (chan : ChannelId) (cmd : SessionCommand) :
    Matches s.driver.iocPvs (s.send chan cmd).loops :=
  System.send_loops cmd (fun i => h.modify i (keeps_enqueue cmd)) h chan

omit [DecidableEq Addr] in
theorem Consistent.sendAdd (h : Consistent s) : Consistent s.sendAdd := by
  unfold System.sendAdd
  split
  · split
    · split_ifs
      · show Matches (s.send _ _).driver.iocPvs _
        rw [System.driver_send]
        exact h.send _ _
      · exact h
    · exact h
  · exact h

/-- A reply of an existing session that reports nothing new leaves the table as it is. -/
theorem Consistent.receiveReply (h : Consistent s) (hkept : ListKept s .receiveReply) :
    Consistent s.receiveReply := by
  unfold System.receiveReply
  unfold ListKept at hkept
  split
  · rename_i addr pvs _ results _ _ htask
    rw [htask] at hkept
    refine Matches.congr h fun a hlive => ?_
    show (s.driver.recordExisting addr pvs results).iocPvs a = _
    unfold PvaDriver.recordExisting
    dsimp only
    cases hentry : s.driver.iocPvs addr with
    | none => rfl
    | some existing =>
      dsimp only
      by_cases ha : a = addr
      · subst ha
        have hnone : pvs.filter (fun p =>
            (PvaDriver.insertOk s.driver.pvServerCache a results p).isSome) = [] := by
          refine List.filter_eq_nil_iff.2 fun pv hpv => ?_
          obtain ⟨hres, hsub⟩ := hkept hlive pv hpv
          rw [PvaDriver.insertOk_apply, if_neg hres]
          exact hsub
        rw [hnone, List.append_nil, Function.update_self, hentry]
      · rw [Function.update_of_ne ha]
  · exact h

/-- A session opened for an IOC without a live loop. -/
theorem Consistent.spawn (h : Consistent s) (pvs : List String) {driver : PvaDriver Addr}
    {addr : Addr} (hdead : ¬LiveAt s.loops addr)
    (hioc : driver.iocPvs = Function.update s.driver.iocPvs addr (some pvs))
    (session : PvaSession) : Consistent (s.spawn driver addr session) := by
  have hold : Matches driver.iocPvs s.loops := by
    refine Matches.congr h fun a hlive => ?_
    rw [hioc, Function.update_of_ne]
    rintro rfl
    exact hdead hlive
  intro l hl hlive
  rcases List.mem_append.1 hl with hl | hl
  · exact hold l hl hlive
  · rw [List.mem_singleton.1 hl]
    rfl

theorem iocPvs_recordNew_of_any {d : PvaDriver Addr} {addr : Addr} {pvs : List String}
    {results : List (String × Bool)} (hany : results.any Prod.snd = true) :
    (d.recordNew addr pvs results).iocPvs = Function.update d.iocPvs addr (some pvs) := by
  unfold PvaDriver.recordNew
  dsimp only
  rw [if_pos hany]
  rfl

theorem Consistent.openSession (h : Consistent s) {outcome : Option (String → BulkOutcome)}
    (hkept : ListKept s (.openSession outcome)) : Consistent (s.openSession outcome) := by
  unfold System.openSession
  split
  · rename_i addr pvs fresh htask
    cases outcome with
    | none => exact h
    | some outcome =>
      unfold ListKept at hkept
      rw [htask] at hkept
      dsimp only
      split_ifs with hany
      · refine Consistent.spawn (s := { s with task := .adding [] fresh }) h pvs ?_
          (iocPvs_recordNew_of_any hany) _
        intro hlive
        obtain ⟨pv, hpv, hout⟩ := (PvaDriver.any_bulkResults outcome pvs).1 hany
        exact hkept hlive pv hpv hout
      · show Matches (s.driver.recordNew addr pvs (bulkResults outcome pvs)).iocPvs s.loops
        unfold PvaDriver.recordNew
        dsimp only
        rw [if_neg hany]
        exact h
  · exact h

theorem Consistent.hotAddIoc (h : Consistent s) {addr : Addr} {configured : List String}
    {search : Option (String → Bool)} {opened : Option (String → BulkOutcome)}
    (hkept : ListKept s (.hotAddIoc addr configured search opened)) :
    Consistent (s.hotAddIoc addr configured search opened) := by
  unfold System.hotAddIoc
  split
  · rename_i isFound outcome
    dsimp only
    split_ifs with hany
    · refine Consistent.spawn h ((s.driver.hotAddSearch configured).filter isFound) ?_ ?_ _
      · intro hlive
        obtain ⟨pv, hpv, hout⟩ := (PvaDriver.any_bulkResults _ _).1 hany
        exact hkept hlive pv hpv hout
      · unfold PvaDriver.recordHotAdd
        rw [if_pos hany]
        rfl
    · exact h
  · exact h

omit [DecidableEq Addr] in
theorem liveAt_of_modify {loops : List (EventLoop Addr)} {i : ℕ}
    {f : EventLoop Addr → EventLoop Addr} (hf : Keeps f) {addr : Addr}
    (h : LiveAt (loops.modify i f) addr) : LiveAt loops addr := by
  obtain ⟨l, hl, haddr, hlive⟩ := h
  rcases mem_modify hl with hl | ⟨l', hl', rfl⟩
  · exact ⟨l, hl, haddr, hlive⟩
  · exact ⟨l', hl', (hf.addr l').symm.trans haddr, hf.live l' hlive⟩

/-- The loops after one pass of `unsubscribe`, whether or not a command was sent. -/
theorem unsubscribeOne_loops {P : List (EventLoop Addr) → Prop} {pv : String}
    (henqueue : ∀ i, P (s.loops.modify i (·.enqueue (.removeMonitor pv)))) (h : P s.loops) :
    P (s.unsubscribeOne pv).loops := by
  unfold System.unsubscribeOne
  split
  · exact h
  · dsimp only
    split
    · exact System.send_loops _ henqueue h _
    · exact h

theorem driver_unsubscribeOne (s : System Addr) (pv : String) :
    (s.unsubscribeOne pv).driver = s.driver.unsubscribeOne pv := by
  unfold System.unsubscribeOne
  split
  · rename_i hnone
    unfold PvaDriver.unsubscribeOne
    rw [hnone]
  · rfl

theorem iocPvs_unsubscribeOne (d : PvaDriver Addr) (q : String) (addr : Addr) :
    (d.unsubscribeOne q).iocPvs addr =
      if d.pvServerCache q = some addr then (d.iocPvs addr).map (List.filter fun p => p ≠ q)
      else d.iocPvs addr := by
  unfold PvaDriver.unsubscribeOne
  cases hcache : d.pvServerCache q with
  | none => simp
  | some a =>
    dsimp only
    by_cases ha : addr = a
    · subst ha
      rw [if_pos rfl]
      cases hentry : d.iocPvs addr with
      | none => simp [hentry]
      | some pvs => simp
    · have hne : ¬some a = some addr := fun h => ha (Option.some.inj h).symm
      rw [if_neg hne]
      cases d.iocPvs a with
      | none => rfl
      | some pvs => exact Function.update_of_ne ha _ _

theorem mem_iocPvs_of_unsubscribeOne {d : PvaDriver Addr} {q pv : String} {addr : Addr}
    (h : pv ∈ ((d.unsubscribeOne q).iocPvs addr).getD []) : pv ∈ (d.iocPvs addr).getD [] := by
  rw [iocPvs_unsubscribeOne] at h
  split_ifs at h
  · cases hentry : d.iocPvs addr with
    | none => simp [hentry] at h
    | some pvs =>
      rw [hentry, Option.map_some, Option.getD_some] at h
      exact (List.mem_filter.1 h).1
  · exact h

theorem pvServerCache_of_unsubscribeOne {d : PvaDriver Addr} {q pv : String} {addr : Addr}
    (h : (d.unsubscribeOne q).pvServerCache pv = some addr) : d.pvServerCache pv = some addr := by
  unfold PvaDriver.unsubscribeOne at h
  split at h
  · exact h
  · dsimp only at h
    by_cases hq : pv = q
    · rw [hq, Function.update_self] at h
      cases h
    · rwa [Function.update_of_ne hq] at h

theorem Consistent.unsubscribeOne (h : Consistent s) {pv : String}
    (hkept : ∀ addr, s.driver.pvServerCache pv = some addr → LiveAt s.loops addr →
      pv ∉ (s.driver.iocPvs addr).getD []) : Consistent (s.unsubscribeOne pv) := by
  have hbase : Matches (s.driver.unsubscribeOne pv).iocPvs s.loops := by
    refine Matches.congr h fun addr hlive => ?_
    rw [iocPvs_unsubscribeOne]
    split_ifs with hcache
    · have hnot := hkept addr hcache hlive
      cases hentry : s.driver.iocPvs addr with
      | none => rfl
      | some pvs =>
        rw [hentry, Option.getD_some] at hnot
        have hall : ∀ p ∈ pvs, (decide (p ≠ pv)) = true := by
          intro p hp
          have : p ≠ pv := fun heq => hnot (heq ▸ hp)
          simp [this]
        rw [Option.map_some, List.filter_eq_self.2 hall]
    · rfl
  unfold Consistent
  rw [driver_unsubscribeOne]
  exact unsubscribeOne_loops (fun i => hbase.modify i (keeps_enqueue _)) hbase

/-- The condition of an `unsubscribe` holds again after each of its passes: the tables
    only shrink. -/
theorem Consistent.unsubscribe (h : Consistent s) (pvs : List String)
    (hkept : ListKept s (.unsubscribe pvs)) : Consistent (pvs.foldl System.unsubscribeOne s) := by
  induction pvs generalizing s with
  | nil => exact h
  | cons q pvs ih =>
    rw [List.foldl_cons]
    refine ih (h.unsubscribeOne (hkept q List.mem_cons_self)) ?_
    intro pv hpv addr hcache hlive hmem
    rw [driver_unsubscribeOne] at hcache hmem
    refine hkept pv (List.mem_cons_of_mem q hpv) addr (pvServerCache_of_unsubscribeOne hcache) ?_
      (mem_iocPvs_of_unsubscribeOne hmem)
    revert hlive
    exact unsubscribeOne_loops (P := fun loops => LiveAt loops addr → LiveAt s.loops addr)
      (fun i => liveAt_of_modify (keeps_enqueue _)) fun hlive => hlive

theorem Consistent.removeSession (h : Consistent s) {addr : Addr} (hdead : ¬LiveAt s.loops addr) :
    Consistent (s.removeSession addr) := by
  have hbase : Matches (s.driver.removeSession addr).iocPvs s.loops := by
    refine Matches.congr h fun a hlive => ?_
    refine Function.update_of_ne ?_ _ _
    rintro rfl
    exact hdead hlive
  unfold System.removeSession
  dsimp only
  split
  · exact hbase.modify _ keeps_cancel
  · exact hbase

theorem Consistent.step (h : Consistent s) (a : Action Addr) (hkept : ListKept s a) :
    Consistent (s.step a) := by
  have hidle : ∀ s', Consistent s' → Consistent (s.whenIdle s') := by
    intro s' hs'
    unfold System.whenIdle
    split
    · exact hs'
    · exact h
  cases a with
  | monitorBatch names found₁ found₂ =>
    refine hidle _ ?_
    unfold System.startBatch
    split_ifs
    · exact h
    · exact h
  | sendAdd => exact h.sendAdd
  | receiveReply => exact h.receiveReply hkept
  | replyTimeout =>
    show Consistent s.replyTimeout
    unfold System.replyTimeout
    split
    · exact h
    · exact h
  | openSession outcome => exact h.openSession hkept
  | batchDone =>
    obtain ⟨-, hstep⟩ | hstep := s.step_batchDone
    · rw [hstep]
      exact h
    · rw [hstep]
      exact h
  | unsubscribe pvs => exact hidle _ (h.unsubscribe pvs hkept)
  | hotAddIoc addr configured search opened => exact hidle _ (h.hotAddIoc hkept)
  | removeSession addr => exact hidle _ (h.removeSession hkept)
  | setNameServers servers => exact hidle _ h
  | routeReconnect =>
    refine hidle _ ?_
    unfold System.routeReconnect
    split
    · exact h
    · exact h
  | handleCommand i outcome isActive =>
    exact Matches.modify h i (keeps_handleCommand outcome isActive)
  | deliver i pv => exact h
  | disconnect i => exact h.onLoop i keeps_disconnect
  | wake i elapsed sleepWins => exact h.onLoop i (keeps_wake elapsed sleepWins)
  | connectDone i ok => exact h.onLoop i (keeps_connectDone ok)
  | resubscribe i outcome =>
    show Consistent (s.resubscribe i outcome)
    unfold System.resubscribe
    split
    · exact h
    · exact Matches.modify h i (keeps_resubscribe outcome)

end Step

/-! ## Runs -/

/-- The PVs an event names are those the driver lists for the IOC. -/
def Event.Listed (d : PvaDriver Addr) : Event Addr → Prop
  | .disconnected addr pvs => pvs = (d.iocPvs addr).getD []
  | .reconnected addr pvs => pvs = (d.iocPvs addr).getD []
  | .resubscribes addr pvs => pvs = (d.iocPvs addr).getD []
  | .bus _ _ => True

omit [DecidableEq Addr] in
theorem Consistent.listed {s : System Addr} (h : Consistent s) (a : Action Addr) :
    ∀ e ∈ s.emits a, e.Listed s.driver := by
  have hloop : ∀ {i : ℕ} {l : EventLoop Addr}, s.loops[i]? = some l → l.Live →
      l.reconnectPvs = (s.driver.iocPvs l.addr).getD [] := by
    intro i l hl hlive
    exact h l (List.mem_of_getElem? hl) hlive
  intro e he
  cases a with
  | deliver i pv =>
    simp only [System.emits] at he
    split at he
    · split_ifs at he
      · rw [List.mem_singleton.1 he]
        trivial
      · cases he
    · cases he
  | disconnect i =>
    simp only [System.emits] at he
    split at he
    · rename_i l hl
      split at he
      · rename_i session queue hphase
        split_ifs at he
        · cases he
        · rw [List.mem_singleton.1 he]
          refine hloop hl ?_
          intro hret
          rw [hphase] at hret
          cases hret
      · cases he
    · cases he
  | resubscribe i outcome =>
    simp only [System.emits] at he
    split at he
    · rename_i l hl
      split_ifs at he with hphase hok
      · have hlive : l.Live := by
          unfold EventLoop.Live
          rw [hphase]
          decide
        rcases List.mem_cons.1 he with rfl | he
        · exact hloop hl hlive
        · rw [List.mem_singleton.1 he]
          exact hloop hl hlive
      · have hlive : l.Live := by
          unfold EventLoop.Live
          rw [hphase]
          decide
        rw [List.mem_singleton.1 he]
        exact hloop hl hlive
      · cases he
    · cases he
  | _ => cases he

/-- **Main theorem**: in every run from a new driver whose steps do not change the list of
    an IOC with a live event loop, the PVs a loop subscribes to again after a reconnect,
    and those its lifecycle events name, are the PVs the driver lists for the IOC in the
    state the step is taken from. -/
theorem reconnects_match_iocPvs (nameServers : List Addr) (before after : List (Action Addr))
    (a : Action Addr)
    (h : AlongSteps System.step ListKept (System.new nameServers) (before ++ a :: after)) :
    ∀ e ∈ (run System.step (System.new nameServers) before).emits a,
      e.Listed (run System.step (System.new nameServers) before).driver := by
  have hstart : Consistent (System.new nameServers) := by
    intro l hl
    cases hl
  have hinv := h.invariant (I := Consistent) (fun s a hkept hs => hs.step a hkept) hstart
  exact hinv.before.listed a

/-! ## Examples -/

section Examples

/-- Everything asked for is found, and every subscription succeeds. -/
def allFound (_ : ℕ) (_ : String) : Bool := true
def allStarted (_ : String) : BulkOutcome := .started

/-- Subscribing to `pv` on a new session. -/
def subscribeNew (pv : String) : List (Action ℕ) :=
  [.monitorBatch [pv] allFound allFound, .openSession (some allStarted), .batchDone]

/-- Subscribing to `pv` on the session of loop 0. -/
def subscribeExisting (pv : String) : List (Action ℕ) :=
  [.monitorBatch [pv] allFound allFound, .sendAdd, .handleCommand 0 allStarted true, .receiveReply, .batchDone]

/-- Loop 0 loses its connection and gets it back. -/
def loseConnection : List (Action ℕ) := [.disconnect 0, .wake 0 true true, .connectDone 0 true]

theorem reconnects_match_iocPvs_once :
    let before := subscribeNew "A" ++ loseConnection
    let s := run System.step (System.new [0]) before
    AlongSteps System.step ListKept (System.new [0]) (before ++ [.resubscribe 0 allStarted]) ∧
      .reconnected 0 ["A"] ∈ s.emits (.resubscribe 0 allStarted) ∧
      (Event.reconnected 0 ["A"]).Listed s.driver := by
  intro before s
  have hsteps : AlongSteps System.step ListKept (System.new [0])
      (before ++ [.resubscribe 0 allStarted]) := by
    refine ⟨trivial, ?_, trivial, trivial, trivial, trivial, trivial, trivial⟩
    rintro ⟨l, hl, -⟩
    cases hl
  have hmem : .reconnected 0 ["A"] ∈ s.emits (.resubscribe 0 allStarted) := by decide +kernel
  exact ⟨hsteps, hmem, reconnects_match_iocPvs [0] before [] _ hsteps _ hmem⟩

/-- A PV added to the session later is not subscribed to again, and one unsubscribed
    since is. -/
theorem lateSubscribe_not_resubscribed :
    let before := subscribeNew "A" ++ subscribeExisting "B" ++ [.unsubscribe ["A"]] ++ loseConnection
    let s := run System.step (System.new [0]) before
    s.emits (.resubscribe 0 allStarted) = [.resubscribes 0 ["A"], .reconnected 0 ["A"]] ∧
      s.driver.iocPvs 0 = some ["B"] := by
  decide +kernel

end Examples

end AuraEpics.Runtime
