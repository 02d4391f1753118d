import AuraEpics.Runtime.Reconnect

/-!
# One live session for each IOC

`remove_session` cancels the token of an event loop and drops its command channel, and
`spawn_event_loop` replaces both (`crates/aura-net/src/runtime/driver.rs`, lines 463-470
and 704-715). A loop looks at its token only between sessions: before and while it waits to
reconnect, but not while a session runs, and a token that is replaced is not cancelled.

A loop has been removed or replaced if the token in the table is no longer its own
(`Superseded`).

Results, for runs in which a session is removed only while its loop waits, replaced only when
its loop has returned, and a PV goes to a loop only if no other holds it (`Orderly`):
* a loop that has been removed or replaced delivers no more events: one that waits sees its
  token cancelled and returns;
* every PV has at most one monitor among the sessions that run.

`removedSession_delivers` shows that the condition is needed.
-/

namespace AuraEpics.Runtime

open Runs

variable {Addr : Type}

/-! ## Loops -/

namespace EventLoop

/-- The commands the session of a loop has not read. -/
def queue (l : EventLoop Addr) : List SessionCommand :=
  match l.phase with
  | .running _ queue => queue
  | _ => []

/-- The PVs a command adds. -/
def addedBy : SessionCommand → List String
  | .addMonitorBatch pvs _ => pvs
  | .removeMonitor _ => []

/-- The PVs the session monitors or has been told to. -/
def started (l : EventLoop Addr) : List String := l.monitors ++ l.queue.flatMap addedBy

/-- The PVs the loop may come to monitor, now or after a reconnect. -/
def held (l : EventLoop Addr) : List String := l.reconnectPvs ++ l.started

/-- The loop has returned, or waits with its token cancelled. -/
def Stopped (l : EventLoop Addr) : Prop :=
  l.phase = .returned ∨ l.cancelled = true ∧ l.phase = .waiting

end EventLoop

/-- The monitors of all sessions that run. -/
def liveMonitors (loops : List (EventLoop Addr)) : List String := loops.flatMap EventLoop.monitors

namespace EventLoop

variable {l : EventLoop Addr}

theorem started_of_running {session : PvaSession} {queue : List SessionCommand}
    (h : l.phase = .running session queue) :
    l.started = session.monitors ++ queue.flatMap addedBy := by
  unfold started EventLoop.monitors EventLoop.queue
  rw [h]

theorem started_eq_nil (h : ∀ session queue, l.phase ≠ .running session queue) : l.started = [] := by
  unfold started EventLoop.monitors EventLoop.queue
  cases hphase : l.phase with
  | running session queue => exact absurd hphase (h session queue)
  | _ => rfl

theorem not_stopped_of_running (h : l.Running) : ¬l.Stopped := by
  obtain ⟨session, queue, hphase⟩ := h
  unfold Stopped
  simp [hphase]

theorem running_of_mem_monitors {pv : String} (h : pv ∈ l.monitors) : l.Running := by
  unfold monitors at h
  split at h
  · rename_i session queue hphase
    exact ⟨session, queue, hphase⟩
  · cases h

end EventLoop

/-! ## Steps of one loop -/

/-- A step after which a loop holds no more than before, and has stopped if it had. -/
structure Evolves (l l' : EventLoop Addr) : Prop where
  addr : l'.addr = l.addr
  cancelled : l'.cancelled = l.cancelled
  reconnectPvs : l'.reconnectPvs = l.reconnectPvs
  held : ∀ pv ∈ l'.started, pv ∈ l.held
  nodup : l.reconnectPvs.Nodup → l.started.Nodup → l'.started.Nodup
  stopped : l.Stopped → l'.Stopped

namespace Evolves

theorem refl (l : EventLoop Addr) : Evolves l l :=
  ⟨rfl, rfl, rfl, fun _ hpv => List.mem_append_right _ hpv, fun _ h => h, id⟩

/-- The session of the loop, if there is one, goes on with less. -/
theorem of_sublist {l l' : EventLoop Addr} (haddr : l'.addr = l.addr)
    (hcancelled : l'.cancelled = l.cancelled) (hpvs : l'.reconnectPvs = l.reconnectPvs)
    (hstarted : l'.started.Sublist l.started) (hstopped : l.Stopped → l'.Stopped) : Evolves l l' :=
  ⟨haddr, hcancelled, hpvs, fun _ hpv => List.mem_append_right _ (hstarted.subset hpv),
    fun _ h => h.sublist hstarted, hstopped⟩

/-- The loop goes on without a session. -/
theorem of_phase {l : EventLoop Addr} {phase : Phase}
    (hphase : ∀ session queue, phase ≠ .running session queue)
    (hstopped : l.Stopped → ({ l with phase := phase } : EventLoop Addr).Stopped) :
    Evolves l { l with phase := phase } := by
  refine of_sublist rfl rfl rfl ?_ hstopped
  rw [EventLoop.started_eq_nil hphase]
  exact List.nil_sublist _

end Evolves

/-- The top of the reconnect loop is reached from a session or an attempt to connect. -/
theorem evolves_reconnectTop {l : EventLoop Addr} (h : ¬l.Stopped) : Evolves l l.reconnectTop := by
  unfold EventLoop.reconnectTop
  split_ifs
  · exact .of_phase (by simp) fun hstopped => absurd hstopped h
  · exact .of_phase (by simp) fun hstopped => absurd hstopped h

theorem evolves_disconnect (l : EventLoop Addr) : Evolves l l.disconnect := by
  unfold EventLoop.disconnect
  split
  · rename_i session queue hphase
    have hrunning := EventLoop.not_stopped_of_running ⟨session, queue, hphase⟩
    split_ifs
    · exact .of_phase (by simp) fun _ => .inl rfl
    · exact evolves_reconnectTop hrunning
  · exact .refl l

/-- The token is what keeps a loop from going on to connect. -/
theorem evolves_wake {l : EventLoop Addr} {elapsed sleepWins : Bool}
    (hfair : l.cancelled = true → elapsed = true → sleepWins = false) :
    Evolves l (l.wake elapsed sleepWins) := by
  unfold EventLoop.wake
  split
  · rename_i hphase
    split_ifs with hcancelled helapsed
    · exact .of_phase (by simp) fun _ => .inl rfl
    · refine .of_phase (by simp) fun hstopped => absurd hcancelled ?_
      obtain hreturned | ⟨htoken, -⟩ := hstopped
      · rw [hphase] at hreturned
        cases hreturned
      · rw [htoken, helapsed, hfair htoken helapsed]
        decide
    · exact .refl l
  · exact .refl l

theorem evolves_connectDone (l : EventLoop Addr) (ok : Bool) : Evolves l (l.connectDone ok) := by
  unfold EventLoop.connectDone
  split
  · rename_i hphase
    have hgoing : ¬l.Stopped := by simp [EventLoop.Stopped, hphase]
    split_ifs
    · exact .of_phase (by simp) fun hstopped => absurd hstopped hgoing
    · exact evolves_reconnectTop hgoing
  · exact .refl l

theorem evolves_resubscribe (l : EventLoop Addr) (outcome : String → BulkOutcome) :
    Evolves l (l.resubscribe outcome) := by
  unfold EventLoop.resubscribe
  split
  · rename_i hphase
    have hgoing : ¬l.Stopped := by simp [EventLoop.Stopped, hphase]
    split_ifs
    · have hstarted : EventLoop.started { l with
            session := l.session + 1
            phase := .running (PvaSession.addMonitorsBulk ⟨[], []⟩ outcome l.reconnectPvs) [] } =
          l.reconnectPvs.filter fun pv => outcome pv = .started :=
        (List.append_nil _).trans (List.nil_append _)
      refine ⟨rfl, rfl, rfl, fun pv hpv => ?_, fun hnodup _ => ?_, fun h => absurd h hgoing⟩
      · rw [hstarted] at hpv
        exact List.mem_append_left _ (List.mem_filter.1 hpv).1
      · rw [hstarted]
        exact hnodup.filter _
    · exact evolves_reconnectTop hgoing
  · exact .refl l

theorem evolves_handleCommand (l : EventLoop Addr) (outcome : String → BulkOutcome)
    (isActive : Bool) : Evolves l (l.handleCommand outcome isActive) := by
  unfold EventLoop.handleCommand
  split
  · rename_i session pvs reply queue hphase
    have hrunning := EventLoop.not_stopped_of_running ⟨_, _, hphase⟩
    refine .of_sublist rfl rfl rfl ?_ fun h => absurd h hrunning
    rw [EventLoop.started_of_running hphase]
    -- what the command starts, it adds
    show ((session.monitors ++ pvs.filter _) ++ queue.flatMap EventLoop.addedBy).Sublist
      (session.monitors ++ (pvs ++ queue.flatMap EventLoop.addedBy))
    rw [List.append_assoc]
    exact ((List.filter_sublist.append_right _).append_left _)
  · rename_i session pv queue hphase
    have hrunning := EventLoop.not_stopped_of_running ⟨_, _, hphase⟩
    refine .of_sublist rfl rfl rfl ?_ fun h => absurd h hrunning
    rw [EventLoop.started_of_running hphase]
    have hsub : (session.removeMonitorInline pv isActive).monitors.Sublist session.monitors := by
      unfold PvaSession.removeMonitorInline
      split_ifs
      · exact List.erase_sublist
      · exact List.Sublist.refl _
    exact hsub.append_right _
  · exact .refl l

theorem evolves_removeMonitor (l : EventLoop Addr) (pv : String) :
    Evolves l (l.enqueue (.removeMonitor pv)) := by
  unfold EventLoop.enqueue
  split
  · rename_i session queue hphase
    have hrunning := EventLoop.not_stopped_of_running ⟨_, _, hphase⟩
    refine .of_sublist rfl rfl rfl ?_ fun h => absurd h hrunning
    rw [EventLoop.started_of_running hphase]
    show (session.monitors ++
      (queue ++ [SessionCommand.removeMonitor pv]).flatMap EventLoop.addedBy).Sublist _
    rw [List.flatMap_append]
    simp [EventLoop.addedBy]
  · exact .refl l

/-! ## The invariant -/

/-- The batches `monitor_batch` still has to work off. -/
def MainTask.batches : MainTask Addr → List (Addr × List String)
  | .idle => []
  | .adding existing fresh => existing ++ fresh
  | .awaiting addr pvs _ _ existing fresh => (addr, pvs) :: (existing ++ fresh)

/-- What holds of event loop `i`: the token in the table is its own or it has stopped, and the
    lists of PVs it works with have no repetitions. -/
structure LoopOk (tokens : Addr → Option ℕ) (i : ℕ) (l : EventLoop Addr) : Prop where
  current : tokens l.addr = some i ∨ l.Stopped
  reconnectPvs : l.reconnectPvs.Nodup
  started : l.started.Nodup

/-- The tokens in the table are not cancelled, every loop has its own there or has stopped, and
    no two loops with tokens there hold the same PV. -/
structure Exclusive (s : System Addr) : Prop where
  spawned : s.driver.spawned = s.loops.length
  token : ∀ addr i, s.driver.cancelTokens addr = some i →
    ∃ l, s.loops[i]? = some l ∧ l.addr = addr ∧ l.cancelled = false
  loop : ∀ i l, s.loops[i]? = some l → LoopOk s.driver.cancelTokens i l
  disjoint : ∀ i j l l', i ≠ j → s.loops[i]? = some l → s.loops[j]? = some l' →
    s.driver.cancelTokens l.addr = some i → s.driver.cancelTokens l'.addr = some j →
    l.held.Disjoint l'.held
  batches : ∀ e ∈ s.task.batches, e.2.Nodup

section Steps

variable {s : System Addr}

/-- A running loop has its token in the table. -/
theorem Exclusive.current (h : Exclusive s) {i : ℕ} {l : EventLoop Addr} (hl : s.loops[i]? = some l)
    (hrun : l.Running) : s.driver.cancelTokens l.addr = some i :=
  (h.loop i l hl).current.resolve_right (EventLoop.not_stopped_of_running hrun)

theorem Exclusive.nodup (h : Exclusive s) : (liveMonitors s.loops).Nodup := by
  refine List.nodup_flatMap.2 ⟨fun l hl => ?_, ?_⟩
  · obtain ⟨i, hi⟩ := List.mem_iff_getElem?.1 hl
    exact (h.loop i l hi).started.sublist (List.sublist_append_left _ _)
  · refine List.pairwise_iff_getElem.2 fun i j hi hj hij => ?_
    have hli : s.loops[i]? = some s.loops[i] := List.getElem?_eq_getElem hi
    have hlj : s.loops[j]? = some s.loops[j] := List.getElem?_eq_getElem hj
    intro pv hpv hpv'
    have hti := h.current hli (EventLoop.running_of_mem_monitors hpv)
    have htj := h.current hlj (EventLoop.running_of_mem_monitors hpv')
    exact h.disjoint i j _ _ hij.ne hli hlj hti htj
      (List.mem_append_right _ (List.mem_append_left _ hpv))
      (List.mem_append_right _ (List.mem_append_left _ hpv'))

/-- A change of one loop that leaves it its place: what it holds more, no other loop with its
    token in the table holds. -/
theorem Exclusive.onLoop (h : Exclusive s) (i : ℕ) {f : EventLoop Addr → EventLoop Addr}
    (haddr : ∀ l, s.loops[i]? = some l → (f l).addr = l.addr ∧ (f l).cancelled = l.cancelled)
    (hok : ∀ l, s.loops[i]? = some l → LoopOk s.driver.cancelTokens i (f l))
    (hheld : ∀ l, s.loops[i]? = some l → s.driver.cancelTokens l.addr = some i →
      ∀ pv ∈ (f l).held, pv ∈ l.held ∨
        ∀ j l', s.loops[j]? = some l' → s.driver.cancelTokens l'.addr = some j → j ≠ i →
          pv ∉ l'.held) :
    Exclusive (s.onLoop i f) := by
  have hget (j : ℕ) (l : EventLoop Addr) (hl : (s.onLoop i f).loops[j]? = some l) :
      ∃ l', s.loops[j]? = some l' ∧ (j ≠ i ∧ l = l' ∨ j = i ∧ l = f l') := by
    replace hl : (s.loops.modify i f)[j]? = some l := hl
    rw [List.getElem?_modify] at hl
    obtain ⟨l', hl', rfl⟩ := Option.map_eq_some_iff.1 hl
    refine ⟨l', hl', ?_⟩
    split_ifs with hij
    · exact .inr ⟨hij.symm, rfl⟩
    · exact .inl ⟨fun heq => hij heq.symm, rfl⟩
  refine ⟨?_, fun addr j htoken => ?_, fun j l hl => ?_, ?_, h.batches⟩
  · show s.driver.spawned = (s.loops.modify i f).length
    rw [List.length_modify]
    exact h.spawned
  · obtain ⟨l, hl, rfl, huncancelled⟩ := h.token addr j htoken
    show ∃ l', (s.loops.modify i f)[j]? = some l' ∧ _
    rw [List.getElem?_modify, hl]
    refine ⟨_, rfl, ?_⟩
    split_ifs with hij
    · subst hij
      exact ⟨(haddr l hl).1, (haddr l hl).2.trans huncancelled⟩
    · exact ⟨rfl, huncancelled⟩
  · obtain ⟨l', hl', ⟨-, rfl⟩ | ⟨rfl, rfl⟩⟩ := hget j l hl
    · exact h.loop j l hl'
    · exact hok l' hl'
  · intro j k l l' hjk hl hl' hj hk pv hpv hpv'
    obtain ⟨m, hm, ⟨hji, rfl⟩ | ⟨rfl, rfl⟩⟩ := hget j l hl
    · obtain ⟨m', hm', ⟨hki, rfl⟩ | ⟨rfl, rfl⟩⟩ := hget k l' hl'
      · exact h.disjoint j k l l' hjk hm hm' hj hk hpv hpv'
      · rw [(haddr m' hm').1] at hk
        rcases hheld m' hm' hk pv hpv' with hold | hfree
        · exact h.disjoint j k l m' hjk hm hm' hj hk hpv hold
        · exact hfree j l hm hj hji hpv
    · obtain ⟨m', hm', ⟨hki, rfl⟩ | ⟨rfl, rfl⟩⟩ := hget k l' hl'
      · rw [(haddr m hm).1] at hj
        rcases hheld m hm hj pv hpv with hold | hfree
        · exact h.disjoint j k m l' hjk hm hm' hj hk hold hpv'
        · exact hfree k l' hm' hk hki hpv'
      · exact hjk rfl

/-- A loop goes on by itself. -/
theorem Exclusive.evolve (h : Exclusive s) (i : ℕ) {f : EventLoop Addr → EventLoop Addr}
    (hf : ∀ l, s.loops[i]? = some l → Evolves l (f l)) : Exclusive (s.onLoop i f) := by
  refine h.onLoop i (fun l hl => ⟨(hf l hl).addr, (hf l hl).cancelled⟩) (fun l hl => ?_)
    fun l hl _ pv hpv => .inl ?_
  · have hok := h.loop i l hl
    have hevolves := hf l hl
    refine ⟨?_, ?_, hevolves.nodup hok.reconnectPvs hok.started⟩
    · rw [hevolves.addr]
      exact hok.current.imp_right hevolves.stopped
    · rw [hevolves.reconnectPvs]
      exact hok.reconnectPvs
  · rcases List.mem_append.1 hpv with hpv | hpv
    · rw [(hf l hl).reconnectPvs] at hpv
      exact List.mem_append_left _ hpv
    · exact (hf l hl).held pv hpv

/-- Only the loops, their tokens and the batches under way matter. -/
theorem Exclusive.congr {s' : System Addr} (h : Exclusive s) (hloops : s'.loops = s.loops)
    (htokens : s'.driver.cancelTokens = s.driver.cancelTokens)
    (hspawned : s'.driver.spawned = s.driver.spawned)
    (hbatches : ∀ e ∈ s'.task.batches, e.2.Nodup) : Exclusive s' := by
  refine ⟨?_, ?_, ?_, ?_, hbatches⟩
  · rw [hspawned, hloops]
    exact h.spawned
  · rw [hloops, htokens]
    exact h.token
  · rw [hloops, htokens]
    exact h.loop
  · rw [hloops, htokens]
    exact h.disjoint

/-! ### Handing PVs to a loop -/

/-- No loop whose token is in the table holds any of the PVs. -/
def Unheld (s : System Addr) (pvs : List String) : Prop :=
  ∀ i l, s.loops[i]? = some l → s.driver.cancelTokens l.addr = some i → ∀ pv ∈ pvs, pv ∉ l.held

/-- No loop but `k` whose token is in the table holds any of the PVs, and the session of loop `k`
    neither monitors one nor has been told to. -/
def UnheldBut (s : System Addr) (k : ℕ) (pvs : List String) : Prop :=
  ∀ i l, s.loops[i]? = some l → s.driver.cancelTokens l.addr = some i → ∀ pv ∈ pvs,
    if i = k then pv ∉ l.started else pv ∉ l.held

/-- The loop whose token is in the table for the IOC, if any, has returned. -/
def Vacant (s : System Addr) (addr : Addr) : Prop :=
  ∀ i l, s.driver.cancelTokens addr = some i → s.loops[i]? = some l → l.phase = .returned

/-- An `AddMonitorBatch` reaches the session of a running loop. -/
theorem Exclusive.enqueueAdd (h : Exclusive s) (chan : ChannelId) {pvs : List String} (reply : ℕ)
    (hopen : s.isOpen chan = true) (hpvs : pvs.Nodup) (hun : UnheldBut s chan.task pvs) :
    Exclusive (s.send chan (.addMonitorBatch pvs reply)) := by
  have hrunning (l : EventLoop Addr) (hl : s.loops[chan.task]? = some l) :
      ∃ session queue, l.phase = .running session queue := by
    unfold System.isOpen at hopen
    rw [hl] at hopen
    dsimp only at hopen
    split at hopen
    · rename_i session queue hphase
      exact ⟨session, queue, hphase⟩
    · cases hopen
  have hstarted (l : EventLoop Addr) (hl : s.loops[chan.task]? = some l) :
      (l.enqueue (.addMonitorBatch pvs reply)).started = l.started ++ pvs := by
    obtain ⟨session, queue, hphase⟩ := hrunning l hl
    rw [EventLoop.started_of_running hphase]
    unfold EventLoop.enqueue
    rw [hphase]
    show session.monitors ++
      (queue ++ [SessionCommand.addMonitorBatch pvs reply]).flatMap EventLoop.addedBy = _
    rw [List.flatMap_append, List.flatMap_singleton, List.append_assoc]
    rfl
  have hkeeps : Keeps fun l : EventLoop Addr => l.enqueue (.addMonitorBatch pvs reply) :=
    keeps_enqueue _
  have hcancelled (l : EventLoop Addr) :
      (l.enqueue (.addMonitorBatch pvs reply)).cancelled = l.cancelled := by
    unfold EventLoop.enqueue
    split <;> rfl
  unfold System.send
  rw [if_pos hopen]
  refine h.onLoop chan.task (fun l _ => ⟨hkeeps.addr l, hcancelled l⟩) (fun l hl => ?_)
    fun l hl htoken pv hpv => ?_
  · have hok := h.loop _ l hl
    have htoken := h.current hl (hrunning l hl)
    refine ⟨?_, ?_, ?_⟩
    · rw [hkeeps.addr l]
      exact .inl htoken
    · rw [hkeeps.reconnectPvs l]
      exact hok.reconnectPvs
    · rw [hstarted l hl]
      refine hok.started.append hpvs fun pv hpv hpv' => ?_
      have hfree := hun chan.task l hl htoken pv hpv'
      rw [if_pos rfl] at hfree
      exact hfree hpv
  · unfold EventLoop.held at hpv
    rw [hkeeps.reconnectPvs l, hstarted l hl, ← List.append_assoc] at hpv
    rcases List.mem_append.1 hpv with hpv | hpv
    · exact .inl hpv
    · refine .inr fun j l' hl' hj hne => ?_
      have hfree := hun j l' hl' hj pv hpv
      rwa [if_neg hne] at hfree

variable [DecidableEq Addr]

theorem Exclusive.spawn (h : Exclusive s) {driver : PvaDriver Addr} {addr : Addr}
    {pvs : List String} {outcome : String → BulkOutcome} (hvacant : Vacant s addr)
    (hun : Unheld s pvs) (hpvs : pvs.Nodup) (hlist : driver.iocPvs addr = some pvs)
    (htokens : driver.cancelTokens =
      Function.update s.driver.cancelTokens addr (some s.driver.spawned))
    (hspawned : driver.spawned = s.driver.spawned + 1) :
    Exclusive (s.spawn driver addr (PvaSession.addMonitorsBulk ⟨[], []⟩ outcome pvs)) := by
  let new : EventLoop Addr := ⟨addr, pvs, false, 0,
    .running (PvaSession.addMonitorsBulk ⟨[], []⟩ outcome pvs) []⟩
  have hloops : (s.spawn driver addr (PvaSession.addMonitorsBulk ⟨[], []⟩ outcome pvs)).loops =
      s.loops ++ [new] := by
    unfold System.spawn
    rw [hlist]
    rfl
  have hstarted : new.started = pvs.filter fun pv => outcome pv = .started :=
    (List.append_nil _).trans (List.nil_append _)
  have hheld : ∀ pv ∈ new.held, pv ∈ pvs := by
    intro pv hpv
    rcases List.mem_append.1 hpv with hpv | hpv
    · exact hpv
    · rw [hstarted] at hpv
      exact (List.mem_filter.1 hpv).1
  have hget (i : ℕ) (l : EventLoop Addr) (hl : (s.loops ++ [new])[i]? = some l) :
      s.loops[i]? = some l ∨ i = s.driver.spawned ∧ l = new := by
    rw [List.getElem?_append] at hl
    split_ifs at hl with hi
    · exact .inl hl
    · obtain ⟨hlast, rfl⟩ := List.getElem?_eq_some_iff.1 hl
      rw [List.length_singleton] at hlast
      refine .inr ⟨by rw [h.spawned]; omega, ?_⟩
      simp
  -- a loop that keeps its token is not for this IOC
  have hold {i : ℕ} {l : EventLoop Addr} (hl : s.loops[i]? = some l)
      (htoken : driver.cancelTokens l.addr = some i) : s.driver.cancelTokens l.addr = some i := by
    rw [htokens] at htoken
    by_cases haddr : l.addr = addr
    · rw [haddr, Function.update_self] at htoken
      have hi := (List.getElem?_eq_some_iff.1 hl).1
      have := Option.some.inj htoken
      have := h.spawned
      omega
    · rwa [Function.update_of_ne haddr] at htoken
  refine ⟨?_, fun a i htoken => ?_, fun i l hl => ?_, ?_, h.batches⟩
  · rw [hloops]
    show driver.spawned = _
    rw [hspawned, h.spawned, List.length_append, List.length_singleton]
  · replace htoken : driver.cancelTokens a = some i := htoken
    rw [htokens] at htoken
    rw [hloops]
    by_cases haddr : a = addr
    · subst haddr
      rw [Function.update_self] at htoken
      obtain rfl := Option.some.inj htoken
      refine ⟨new, ?_, rfl, rfl⟩
      rw [h.spawned, List.getElem?_append_right le_rfl, Nat.sub_self]
      rfl
    · rw [Function.update_of_ne haddr] at htoken
      obtain ⟨l, hl, hmine, huncancelled⟩ := h.token a i htoken
      refine ⟨l, ?_, hmine, huncancelled⟩
      rwa [List.getElem?_append_left (List.getElem?_eq_some_iff.1 hl).1]
  · rw [hloops] at hl
    show LoopOk driver.cancelTokens i l
    obtain hl | ⟨rfl, rfl⟩ := hget i l hl
    · have hok := h.loop i l hl
      refine ⟨?_, hok.reconnectPvs, hok.started⟩
      rw [htokens]
      by_cases haddr : l.addr = addr
      · -- the loop that had the token for this IOC has returned
        refine .inr (hok.current.elim (fun htoken => .inl ?_) id)
        exact hvacant i l (haddr ▸ htoken) hl
      · rw [Function.update_of_ne haddr]
        exact hok.current
    · refine ⟨.inl ?_, hpvs, ?_⟩
      · rw [htokens]
        exact Function.update_self ..
      · rw [hstarted]
        exact hpvs.filter _
  · rw [hloops]
    intro i j l l' hij hl hl' hi hj
    replace hi : driver.cancelTokens l.addr = some i := hi
    replace hj : driver.cancelTokens l'.addr = some j := hj
    obtain hl | ⟨rfl, rfl⟩ := hget i l hl
    · obtain hl' | ⟨rfl, rfl⟩ := hget j l' hl'
      · exact h.disjoint i j l l' hij hl hl' (hold hl hi) (hold hl' hj)
      · exact fun pv hpv hpv' => hun i l hl (hold hl hi) pv (hheld pv hpv') hpv
    · obtain hl' | ⟨rfl, rfl⟩ := hget j l' hl'
      · exact fun pv hpv hpv' => hun j l' hl' (hold hl' hj) pv (hheld pv hpv) hpv'
      · exact absurd rfl hij

/-! ### Removing sessions -/

/-- The loop whose token is in the table for the IOC, if any, waits or has returned. -/
def Resting (s : System Addr) (addr : Addr) : Prop :=
  ∀ i l, s.driver.cancelTokens addr = some i → s.loops[i]? = some l →
    l.phase = .waiting ∨ l.phase = .returned

/-- The token of the IOC is cancelled, and with it the loop it belongs to. -/
theorem getElem?_removeSession (s : System Addr) (addr : Addr) (i : ℕ) :
    (s.removeSession addr).loops[i]? = s.loops[i]?.map fun l =>
      if s.driver.cancelTokens addr = some i then { l with cancelled := true } else l := by
  unfold System.removeSession
  dsimp only
  cases s.driver.cancelTokens addr with
  | none => simp
  | some j =>
    show (s.loops.modify j _)[i]? = _
    rw [List.getElem?_modify]
    simp only [Option.some.injEq]
    split_ifs <;> rfl

theorem Exclusive.removeSession (h : Exclusive s) {addr : Addr} (hrest : Resting s addr) :
    Exclusive (s.removeSession addr) := by
  have htokens : (s.removeSession addr).driver.cancelTokens =
      Function.update s.driver.cancelTokens addr none := rfl
  -- another IOC keeps its token, and its loop is not cancelled
  have hother {a : Addr} {i : ℕ}
      (htoken : (s.removeSession addr).driver.cancelTokens a = some i) :
      s.driver.cancelTokens a = some i ∧
        (s.removeSession addr).loops[i]? = s.loops[i]? := by
    rw [htokens] at htoken
    by_cases ha : a = addr
    · rw [ha, Function.update_self] at htoken
      cases htoken
    rw [Function.update_of_ne ha] at htoken
    have hne : s.driver.cancelTokens addr ≠ some i := by
      intro htoken'
      obtain ⟨l, hl, rfl, -⟩ := h.token a i htoken
      obtain ⟨l', hl', rfl, -⟩ := h.token addr i htoken'
      exact ha (congrArg EventLoop.addr (Option.some.inj (hl.symm.trans hl')))
    refine ⟨htoken, ?_⟩
    rw [getElem?_removeSession]
    simp [hne]
  refine ⟨?_, fun a i htoken => ?_, fun i l hl => ?_, ?_, ?_⟩
  · have hlength : (s.removeSession addr).loops.length = s.loops.length := by
      unfold System.removeSession
      dsimp only
      split
      · exact List.length_modify ..
      · rfl
    exact h.spawned.trans hlength.symm
  · obtain ⟨htoken, hloop⟩ := hother htoken
    rw [hloop]
    exact h.token a i htoken
  · rw [getElem?_removeSession] at hl
    obtain ⟨l', hl', rfl⟩ := Option.map_eq_some_iff.1 hl
    have hok := h.loop i l' hl'
    rw [htokens]
    split_ifs with htoken
    · -- it waits with a cancelled token from now on
      refine ⟨.inr ?_, hok.reconnectPvs, hok.started⟩
      obtain hwaiting | hreturned := hrest i l' htoken hl'
      · exact .inr ⟨rfl, hwaiting⟩
      · exact .inl hreturned
    · refine ⟨?_, hok.reconnectPvs, hok.started⟩
      by_cases haddr : l'.addr = addr
      · exact .inr (hok.current.resolve_left fun hcurrent => htoken (haddr ▸ hcurrent))
      · rw [Function.update_of_ne haddr]
        exact hok.current
  · intro i j l l' hij hl hl' hi hj
    obtain ⟨hi, hloop⟩ := hother hi
    obtain ⟨hj, hloop'⟩ := hother hj
    exact h.disjoint i j l l' hij (hloop ▸ hl) (hloop' ▸ hl') hi hj
  · have htask : (s.removeSession addr).task = s.task := by
      unfold System.removeSession
      dsimp only
      split <;> rfl
    rw [htask]
    exact h.batches

end Steps

/-! ## The condition -/

variable [DecidableEq Addr]

/-- A session is removed only while its loop waits or has returned, and `select!` does not let
    the backoff win over a cancelled token; a session is opened only for an IOC whose loop has
    returned or that has none in the table; and a PV goes to a loop only while no loop with
    its token in the table holds it. -/
def Orderly (s : System Addr) : Action Addr → Prop
  | .removeSession addr => s.task = .idle → Resting s addr
  | .wake i elapsed sleepWins =>
    ∀ l, s.loops[i]? = some l → l.cancelled = true → elapsed = true → sleepWins = false
  | .openSession (some outcome) =>
    match s.task with
    | .adding [] ((addr, pvs) :: _) =>
      (∃ pv ∈ pvs, outcome pv = .started) → Vacant s addr ∧ Unheld s pvs
    | _ => True
  | .hotAddIoc addr configured (some isFound) (some outcome) =>
    let found := (s.driver.hotAddSearch configured).filter isFound
    s.task = .idle → (∃ pv ∈ found, outcome pv = .started) → Vacant s addr ∧ Unheld s found
  | .sendAdd =>
    match s.task with
    | .adding ((addr, pvs) :: _) _ =>
      ∀ chan, s.driver.sessionCommands addr = some chan → s.isOpen chan = true →
        UnheldBut s chan.task pvs
    | _ => True
  | _ => True

section Step

variable {s : System Addr}

theorem Exclusive.startBatch (h : Exclusive s) (names : List String)
    (found₁ found₂ : ℕ → String → Bool) : Exclusive (s.startBatch names found₁ found₂) := by
  unfold System.startBatch
  split_ifs
  · exact h
  · refine h.congr rfl rfl rfl fun e he => ?_
    have hservers : e ∈ PvaDriver.serverPvs
        (PvaDriver.searchRoutes s.driver.nameServers names found₁ found₂) := by
      rcases List.mem_append.1 he with he | he
      · exact (List.mem_filter.1 he).1
      · exact (List.mem_filter.1 he).1
    exact PvaDriver.nodup_serverPvs (PvaDriver.nodup_searchRoutes ..) hservers

omit [DecidableEq Addr] in
theorem Exclusive.sendAdd (h : Exclusive s) (horderly : Orderly s .sendAdd) :
    Exclusive s.sendAdd := by
  unfold System.sendAdd
  unfold Orderly at horderly
  split
  · rename_i addr pvs existing fresh htask
    have hbatches : ∀ e ∈ (addr, pvs) :: (existing ++ fresh), e.2.Nodup := by
      have := h.batches
      rw [htask] at this
      exact this
    rw [htask] at horderly
    split
    · rename_i chan hchan
      split_ifs with hopen
      · have hpvs := hbatches (addr, pvs) List.mem_cons_self
        have hsent := h.enqueueAdd chan s.replies hopen hpvs (horderly chan hchan hopen)
        exact hsent.congr rfl rfl rfl hbatches
      · refine h.congr rfl rfl rfl fun e he => hbatches e ?_
        simp only [MainTask.batches, List.mem_append, List.mem_cons] at he ⊢
        tauto
    · exact h.congr rfl rfl rfl fun e he => hbatches e (List.mem_cons_of_mem _ he)
  · exact h

theorem Exclusive.receiveReply (h : Exclusive s) : Exclusive s.receiveReply := by
  unfold System.receiveReply
  split
  · rename_i addr pvs reply results existing fresh htask
    refine h.congr rfl rfl rfl fun e he => h.batches e ?_
    rw [htask]
    exact List.mem_cons_of_mem _ he
  · exact h

omit [DecidableEq Addr] in
theorem Exclusive.replyTimeout (h : Exclusive s) : Exclusive s.replyTimeout := by
  unfold System.replyTimeout
  split
  · rename_i addr pvs reply answer existing fresh htask
    refine h.congr rfl rfl rfl fun e he => h.batches e ?_
    rw [htask]
    simp only [MainTask.batches, List.mem_append, List.mem_cons] at he ⊢
    tauto
  · exact h

theorem recordNew_tables (d : PvaDriver Addr) (addr : Addr) (pvs : List String)
    {results : List (String × Bool)} (hany : results.any Prod.snd = true) :
    (d.recordNew addr pvs results).iocPvs addr = some pvs ∧
      (d.recordNew addr pvs results).cancelTokens =
        Function.update d.cancelTokens addr (some d.spawned) ∧
      (d.recordNew addr pvs results).spawned = d.spawned + 1 := by
  unfold PvaDriver.recordNew
  dsimp only
  rw [if_pos hany]
  exact ⟨Function.update_self .., rfl, rfl⟩

theorem Exclusive.openSession (h : Exclusive s) {outcome : Option (String → BulkOutcome)}
    (horderly : Orderly s (.openSession outcome)) : Exclusive (s.openSession outcome) := by
  unfold System.openSession
  split
  · rename_i addr pvs fresh htask
    have hbatches : ∀ e ∈ (addr, pvs) :: fresh, e.2.Nodup := by
      have := h.batches
      rw [htask] at this
      exact this
    have hrest : Exclusive { s with task := .adding [] fresh } :=
      h.congr rfl rfl rfl fun e he => hbatches e (List.mem_cons_of_mem _ he)
    cases outcome with
    | none => exact hrest
    | some outcome =>
      unfold Orderly at horderly
      rw [htask] at horderly
      dsimp only
      split_ifs with hany
      · obtain ⟨hvacant, hun⟩ := horderly ((PvaDriver.any_bulkResults outcome pvs).1 hany)
        obtain ⟨hlist, htokens, hspawned⟩ := recordNew_tables s.driver addr pvs hany
        exact hrest.spawn hvacant hun (hbatches (addr, pvs) List.mem_cons_self) hlist htokens
          hspawned
      · refine hrest.congr rfl ?_ ?_ hrest.batches
        · show (s.driver.recordNew addr pvs (bulkResults outcome pvs)).cancelTokens = _
          unfold PvaDriver.recordNew
          dsimp only
          rw [if_neg hany]
        · show (s.driver.recordNew addr pvs (bulkResults outcome pvs)).spawned = _
          unfold PvaDriver.recordNew
          dsimp only
          rw [if_neg hany]
  · exact h

theorem Exclusive.hotAddIoc (h : Exclusive s) {addr : Addr} {configured : List String}
    {search : Option (String → Bool)} {opened : Option (String → BulkOutcome)}
    (hidle : s.task = .idle) (horderly : Orderly s (.hotAddIoc addr configured search opened)) :
    Exclusive (s.hotAddIoc addr configured search opened) := by
  unfold System.hotAddIoc
  split
  · rename_i isFound outcome
    dsimp only
    split_ifs with hany
    · obtain ⟨hvacant, hun⟩ := horderly hidle ((PvaDriver.any_bulkResults _ _).1 hany)
      have hfound : ((s.driver.hotAddSearch configured).filter isFound).Nodup :=
        (List.nodup_dedup _).filter _
      refine h.spawn hvacant hun hfound ?_ ?_ ?_
      all_goals
        unfold PvaDriver.recordHotAdd
        rw [if_pos hany]
        first | rfl | exact Function.update_self ..
    · exact h
  · exact h

theorem Exclusive.unsubscribe (h : Exclusive s) (pvs : List String) :
    Exclusive (pvs.foldl System.unsubscribeOne s) := by
  induction pvs generalizing s with
  | nil => exact h
  | cons pv pvs ih =>
    refine ih ?_
    have htokens : (s.driver.unsubscribeOne pv).cancelTokens = s.driver.cancelTokens ∧
        (s.driver.unsubscribeOne pv).spawned = s.driver.spawned := by
      unfold PvaDriver.unsubscribeOne
      split
      · exact ⟨rfl, rfl⟩
      · exact ⟨rfl, rfl⟩
    unfold System.unsubscribeOne
    split
    · exact h
    · dsimp only
      split
      · rename_i chan _
        have hsend : Exclusive (s.send chan (.removeMonitor pv)) := by
          unfold System.send
          split_ifs
          · exact h.evolve _ fun l _ => evolves_removeMonitor l pv
          · exact h
        refine hsend.congr rfl ?_ ?_ hsend.batches
        · rw [System.driver_send]
          exact htokens.1
        · rw [System.driver_send]
          exact htokens.2
      · exact h.congr rfl htokens.1 htokens.2 h.batches

theorem Exclusive.step (h : Exclusive s) (a : Action Addr) (horderly : Orderly s a) :
    Exclusive (s.step a) := by
  have hidle : ∀ s', (s.task = .idle → Exclusive s') → Exclusive (s.whenIdle s') := by
    intro s' hs'
    unfold System.whenIdle
    split
    · rename_i htask
      exact hs' htask
    · exact h
  cases a with
  | monitorBatch names found₁ found₂ => exact hidle _ fun _ => h.startBatch names found₁ found₂
  | sendAdd => exact h.sendAdd horderly
  | receiveReply => exact h.receiveReply
  | replyTimeout => exact h.replyTimeout
  | openSession outcome => exact h.openSession horderly
  | batchDone =>
    obtain ⟨htask, hstep⟩ | hstep := s.step_batchDone
    · rw [hstep]
      exact h.congr rfl rfl rfl (by simp [MainTask.batches])
    · rw [hstep]
      exact h
  | unsubscribe pvs => exact hidle _ fun _ => h.unsubscribe pvs
  | hotAddIoc addr configured search opened => exact hidle _ fun htask => h.hotAddIoc htask horderly
  | removeSession addr => exact hidle _ fun htask => h.removeSession (horderly htask)
  | setNameServers servers => exact hidle _ fun _ => h.congr rfl rfl rfl h.batches
  | routeReconnect =>
    refine hidle _ fun _ => ?_
    unfold System.routeReconnect
    split
    · exact h.congr rfl rfl rfl h.batches
    · exact h
  | handleCommand i outcome isActive =>
    have hloop := h.evolve i fun l _ => evolves_handleCommand l outcome isActive
    refine hloop.congr rfl rfl rfl ?_
    -- the reply changes what the main task knows, not what it has to do
    show ∀ e ∈ (s.handleCommand i outcome isActive).task.batches, e.2.Nodup
    unfold System.handleCommand
    dsimp only
    split
    · rename_i pvs reply addr pvs' reply' existing fresh _ htask
      split_ifs
      · have := h.batches
        rw [htask] at this
        exact this
      · exact h.batches
    · exact h.batches
  | deliver i pv => exact h
  | disconnect i => exact h.evolve i fun l _ => evolves_disconnect l
  | wake i elapsed sleepWins => exact h.evolve i fun l hl => evolves_wake (horderly l hl)
  | connectDone i ok => exact h.evolve i fun l _ => evolves_connectDone l ok
  | resubscribe i outcome =>
    show Exclusive (s.resubscribe i outcome)
    unfold System.resubscribe
    split
    · exact h
    · have hloop := h.evolve i fun l _ => evolves_resubscribe l outcome
      exact hloop.congr rfl rfl rfl h.batches

end Step

/-! ## Removed and replaced loops -/

/-- The token in the table is not that of event loop `i`. -/
def Superseded (s : System Addr) (i : ℕ) : Prop :=
  ∃ l, s.loops[i]? = some l ∧ s.driver.cancelTokens l.addr ≠ some i

/-- What every step leaves of the loops and their tokens: a loop keeps its place and its
    IOC, and a token changes only to none or to that of a new loop. -/
structure Follows (s s' : System Addr) : Prop where
  loops : ∀ (i : ℕ) (l : EventLoop Addr), s.loops[i]? = some l →
    ∃ l' : EventLoop Addr, s'.loops[i]? = some l' ∧ l'.addr = l.addr
  tokens : ∀ addr, s'.driver.cancelTokens addr = s.driver.cancelTokens addr ∨
    s'.driver.cancelTokens addr = none ∨
    s'.driver.cancelTokens addr = some s.driver.spawned

section Follows

variable {s : System Addr}

omit [DecidableEq Addr] in
theorem Follows.of_eq {s' : System Addr} (hloops : s'.loops = s.loops)
    (htokens : s'.driver.cancelTokens = s.driver.cancelTokens) : Follows s s' where
  loops i l hl := ⟨l, by rw [hloops]; exact hl, rfl⟩
  tokens addr := .inl (by rw [htokens])

omit [DecidableEq Addr] in
theorem Follows.of_modify {s' : System Addr} {i : ℕ} {f : EventLoop Addr → EventLoop Addr}
    (hf : Keeps f) (hloops : s'.loops = s.loops.modify i f)
    (htokens : s'.driver.cancelTokens = s.driver.cancelTokens) : Follows s s' where
  loops j l hl := by
    rw [hloops, List.getElem?_modify, hl]
    refine ⟨_, rfl, ?_⟩
    split_ifs
    · exact hf.addr l
    · rfl
  tokens addr := .inl (by rw [htokens])

omit [DecidableEq Addr] in
theorem follows_onLoop (s : System Addr) (i : ℕ) {f : EventLoop Addr → EventLoop Addr}
    (hf : Keeps f) : Follows s (s.onLoop i f) := Follows.of_modify hf rfl rfl

theorem Follows.spawn {driver : PvaDriver Addr} {addr : Addr} (session : PvaSession)
    (htokens : driver.cancelTokens =
      Function.update s.driver.cancelTokens addr (some s.driver.spawned)) :
    Follows s (s.spawn driver addr session) where
  loops i l hl := by
    refine ⟨l, ?_, rfl⟩
    show (s.loops ++ [_])[i]? = some l
    rw [List.getElem?_append_left (List.getElem?_eq_some_iff.1 hl).1]
    exact hl
  tokens a := by
    show driver.cancelTokens a = _ ∨ driver.cancelTokens a = _ ∨ driver.cancelTokens a = _
    rw [htokens]
    by_cases ha : a = addr
    · subst ha
      exact .inr (.inr (Function.update_self ..))
    · exact .inl (Function.update_of_ne ha _ _)

omit [DecidableEq Addr] in
theorem follows_sendAdd (s : System Addr) : Follows s s.sendAdd := by
  unfold System.sendAdd
  split
  · rename_i addr pvs existing fresh _
    split
    · rename_i chan _
      split_ifs with hopen
      · refine Follows.of_modify (i := chan.task) (keeps_enqueue (.addMonitorBatch pvs s.replies)) ?_ ?_
        · unfold System.send
          rw [if_pos hopen]
          rfl
        · show (s.send _ _).driver.cancelTokens = _
          rw [System.driver_send]
      · exact Follows.of_eq rfl rfl
    · exact Follows.of_eq rfl rfl
  · exact Follows.of_eq rfl rfl

theorem follows_unsubscribe (s : System Addr) (pvs : List String) :
    Follows s (pvs.foldl System.unsubscribeOne s) := by
  -- no pass touches a token, so the passes compose
  have hpasses : ∀ (pvs : List String) (s : System Addr),
      (pvs.foldl System.unsubscribeOne s).driver.cancelTokens = s.driver.cancelTokens ∧
      ∀ (i : ℕ) (l : EventLoop Addr), s.loops[i]? = some l → ∃ l' : EventLoop Addr,
        (pvs.foldl System.unsubscribeOne s).loops[i]? = some l' ∧ l'.addr = l.addr := by
    intro pvs
    induction pvs with
    | nil => exact fun s => ⟨rfl, fun i l hl => ⟨l, hl, rfl⟩⟩
    | cons pv pvs ih =>
      intro s
      obtain ⟨htokens, hloops⟩ := ih (s.unsubscribeOne pv)
      have hone : (s.unsubscribeOne pv).driver.cancelTokens = s.driver.cancelTokens := by
        rw [driver_unsubscribeOne]
        unfold PvaDriver.unsubscribeOne
        split
        · rfl
        · rfl
      have hloop : ∀ (i : ℕ) (l : EventLoop Addr), s.loops[i]? = some l →
          ∃ l' : EventLoop Addr, (s.unsubscribeOne pv).loops[i]? = some l' ∧ l'.addr = l.addr := by
        intro i l hl
        refine unsubscribeOne_loops (P := fun loops =>
          ∃ l' : EventLoop Addr, loops[i]? = some l' ∧ l'.addr = l.addr) (fun j => ?_) ⟨l, hl, rfl⟩
        exact (follows_onLoop s j (keeps_enqueue (.removeMonitor pv))).loops i l hl
      refine ⟨htokens.trans hone, fun i l hl => ?_⟩
      obtain ⟨l₁, hl₁, haddr₁⟩ := hloop i l hl
      obtain ⟨l₂, hl₂, haddr₂⟩ := hloops i l₁ hl₁
      exact ⟨l₂, hl₂, haddr₂.trans haddr₁⟩
  obtain ⟨htokens, hloops⟩ := hpasses pvs s
  exact ⟨hloops, fun addr => .inl (by rw [htokens])⟩

theorem follows_removeSession (s : System Addr) (addr : Addr) :
    Follows s (s.removeSession addr) := by
  have htokens : ∀ a, (s.removeSession addr).driver.cancelTokens a = s.driver.cancelTokens a ∨
      (s.removeSession addr).driver.cancelTokens a = none ∨
      (s.removeSession addr).driver.cancelTokens a = some s.driver.spawned := by
    intro a
    show Function.update s.driver.cancelTokens addr none a = _ ∨ _
    by_cases ha : a = addr
    · subst ha
      exact .inr (.inl (Function.update_self ..))
    · exact .inl (Function.update_of_ne ha _ _)
  refine ⟨fun i l hl => ?_, htokens⟩
  unfold System.removeSession
  dsimp only
  split
  · exact (follows_onLoop s _ keeps_cancel).loops i l hl
  · exact ⟨l, hl, rfl⟩

theorem follows_openSession (s : System Addr) (outcome : Option (String → BulkOutcome)) :
    Follows s (s.openSession outcome) := by
  unfold System.openSession
  split
  · rename_i addr pvs fresh htask
    cases outcome with
    | none => exact Follows.of_eq rfl rfl
    | some outcome =>
      dsimp only
      split_ifs with hany
      · have hspawn := Follows.spawn (s := { s with task := .adding [] fresh })
          (PvaSession.addMonitorsBulk ⟨[], []⟩ outcome pvs)
          (recordNew_tables s.driver addr pvs hany).2.1
        exact ⟨hspawn.loops, hspawn.tokens⟩
      · refine Follows.of_eq rfl ?_
        show (s.driver.recordNew addr pvs (bulkResults outcome pvs)).cancelTokens = _
        unfold PvaDriver.recordNew
        dsimp only
        rw [if_neg hany]
  · exact Follows.of_eq rfl rfl

theorem follows_hotAddIoc (s : System Addr) (addr : Addr) (configured : List String)
    (search : Option (String → Bool)) (opened : Option (String → BulkOutcome)) :
    Follows s (s.hotAddIoc addr configured search opened) := by
  unfold System.hotAddIoc
  split
  · dsimp only
    split_ifs with hany
    · refine Follows.spawn _ ?_
      unfold PvaDriver.recordHotAdd
      rw [if_pos hany]
      rfl
    · exact Follows.of_eq rfl rfl
  · exact Follows.of_eq rfl rfl

theorem follows_step (s : System Addr) (a : Action Addr) : Follows s (s.step a) := by
  have hidle : ∀ s', Follows s s' → Follows s (s.whenIdle s') := by
    intro s' hs'
    unfold System.whenIdle
    split
    · exact hs'
    · exact Follows.of_eq rfl rfl
  cases a with
  | monitorBatch names found₁ found₂ =>
    refine hidle _ ?_
    unfold System.startBatch
    split_ifs
    · exact Follows.of_eq rfl rfl
    · exact Follows.of_eq rfl rfl
  | sendAdd => exact follows_sendAdd s
  | receiveReply =>
    show Follows s s.receiveReply
    unfold System.receiveReply
    split
    · exact Follows.of_eq rfl rfl
    · exact Follows.of_eq rfl rfl
  | replyTimeout =>
    show Follows s s.replyTimeout
    unfold System.replyTimeout
    split
    · exact Follows.of_eq rfl rfl
    · exact Follows.of_eq rfl rfl
  | openSession outcome => exact follows_openSession s outcome
  | batchDone =>
    obtain ⟨-, hstep⟩ | hstep := s.step_batchDone
    · rw [hstep]
      exact Follows.of_eq rfl rfl
    · rw [hstep]
      exact Follows.of_eq rfl rfl
  | unsubscribe pvs => exact hidle _ (follows_unsubscribe s pvs)
  | hotAddIoc addr configured search opened =>
    exact hidle _ (follows_hotAddIoc s addr configured search opened)
  | removeSession addr => exact hidle _ (follows_removeSession s addr)
  | setNameServers servers => exact hidle _ (Follows.of_eq rfl rfl)
  | routeReconnect =>
    refine hidle _ ?_
    unfold System.routeReconnect
    split
    · exact Follows.of_eq rfl rfl
    · exact Follows.of_eq rfl rfl
  | handleCommand i outcome isActive =>
    exact Follows.of_modify (keeps_handleCommand outcome isActive) rfl rfl
  | deliver i pv => exact Follows.of_eq rfl rfl
  | disconnect i => exact follows_onLoop s i keeps_disconnect
  | wake i elapsed sleepWins => exact follows_onLoop s i (keeps_wake elapsed sleepWins)
  | connectDone i ok => exact follows_onLoop s i (keeps_connectDone ok)
  | resubscribe i outcome =>
    show Follows s (s.resubscribe i outcome)
    unfold System.resubscribe
    split
    · exact Follows.of_eq rfl rfl
    · exact Follows.of_modify (keeps_resubscribe outcome) rfl rfl

/-- A loop that has been removed or replaced stays so: tokens are never reused. -/
theorem Superseded.step {i : ℕ} (h : Superseded s i) (hs : Exclusive s) (a : Action Addr) :
    Superseded (s.step a) i := by
  obtain ⟨l, hl, htoken⟩ := h
  obtain ⟨l', hl', haddr⟩ := (follows_step s a).loops i l hl
  refine ⟨l', hl', ?_⟩
  rw [haddr]
  have hi : i < s.driver.spawned := by
    rw [hs.spawned]
    exact (List.getElem?_eq_some_iff.1 hl).1
  rcases (follows_step s a).tokens l.addr with h | h | h
  · rw [h]
    exact htoken
  · rw [h]
    simp
  · rw [h]
    intro heq
    have := Option.some.inj heq
    omega

omit [DecidableEq Addr] in
/-- Only a running session delivers events. -/
theorem not_superseded_of_bus {i : ℕ} {pv : String} {a : Action Addr} (hs : Exclusive s)
    (h : .bus i pv ∈ s.emits a) : ¬Superseded s i := by
  have hdeliver : ∃ l, s.loops[i]? = some l ∧ pv ∈ l.monitors := by
    cases a with
    | deliver j q =>
      simp only [System.emits] at h
      split at h
      · rename_i l hl
        split_ifs at h with hq
        · cases List.mem_singleton.1 h
          exact ⟨l, hl, hq⟩
        · cases h
      · cases h
    | disconnect j =>
      simp only [System.emits] at h
      split at h
      · split at h
        · split_ifs at h
          · cases h
          · cases List.mem_singleton.1 h
        · cases h
      · cases h
    | resubscribe j outcome =>
      simp only [System.emits] at h
      split at h
      · split_ifs at h
        · simp at h
        · simp at h
        · cases h
      · cases h
    | _ => cases h
  obtain ⟨l, hl, hpv⟩ := hdeliver
  rintro ⟨l', hl', htoken⟩
  rw [hl] at hl'
  cases hl'
  exact htoken (hs.current hl (EventLoop.running_of_mem_monitors hpv))

end Follows

/-! ## Runs -/

/-- The action removes the session of event loop `i`, or spawns a loop with a new session
    for the same IOC. -/
def RemovesOrReplaces (s : System Addr) (a : Action Addr) (i : ℕ) : Prop :=
  ∃ l, s.loops[i]? = some l ∧
    (a = .removeSession l.addr ∧ s.task = .idle ∨
      ∃ l', (s.step a).loops = s.loops ++ [l'] ∧ l'.addr = l.addr ∧ l'.Running)

theorem RemovesOrReplaces.superseded {s : System Addr} {a : Action Addr} {i : ℕ}
    (h : RemovesOrReplaces s a i) (hs : Exclusive (s.step a)) : Superseded (s.step a) i := by
  obtain ⟨l, hl, ⟨rfl, hidle⟩ | ⟨l', hloops, haddr, hrun⟩⟩ := h
  · obtain ⟨l', hl', haddr⟩ := (follows_step s (.removeSession l.addr)).loops i l hl
    refine ⟨l', hl', ?_⟩
    rw [haddr]
    have hnone : (s.step (.removeSession l.addr)).driver.cancelTokens l.addr = none := by
      show (s.whenIdle (s.removeSession l.addr)).driver.cancelTokens l.addr = none
      unfold System.whenIdle
      rw [hidle]
      exact Function.update_self ..
    rw [hnone]
    simp
  · have hi : i < s.loops.length := (List.getElem?_eq_some_iff.1 hl).1
    refine ⟨l, by rw [hloops, List.getElem?_append_left hi]; exact hl, ?_⟩
    have hnew : (s.step a).loops[s.loops.length]? = some l' := by
      rw [hloops, List.getElem?_append_right (le_refl _)]
      simp
    have htoken := hs.current hnew hrun
    rw [haddr] at htoken
    rw [htoken]
    intro heq
    have := Option.some.inj heq
    omega

/-- A removed or replaced loop stays so along a run. -/
theorem Superseded.run {s : System Addr} {i : ℕ} (h : Superseded s i) (as : List (Action Addr))
    (hs : AlongStates System.step Exclusive s as) : Superseded (Runs.run System.step s as) i := by
  induction as generalizing s with
  | nil => exact h
  | cons a as ih => exact ih (h.step hs.1 a) hs.2

/-- **Main theorem**: in every orderly run from a new driver, an event loop whose session
    has been removed, or replaced by a new one, delivers no further event to the bus, and
    in every state each PV has at most one monitor among the running sessions. -/
theorem removedSessions_stop (nameServers : List Addr) (as : List (Action Addr))
    (h : AlongSteps System.step Orderly (System.new nameServers) as) :
    (∀ before a mid b after, as = before ++ a :: (mid ++ b :: after) →
      ∀ i, RemovesOrReplaces (run System.step (System.new nameServers) before) a i →
        ∀ pv, .bus i pv ∉
          (run System.step (System.new nameServers) (before ++ a :: mid)).emits b) ∧
    ∀ before, before <+: as →
      (liveMonitors (run System.step (System.new nameServers) before).loops).Nodup := by
  have hstart : Exclusive (System.new nameServers) := by
    refine ⟨rfl, ?_, ?_, ?_, ?_⟩
    · intro addr i htoken
      cases htoken
    · intro i l hl
      cases hl
    · intro i j l l' _ hl
      cases hl
    · intro e he
      cases he
  have hinv := h.invariant (I := Exclusive) (fun s a hord hs => hs.step a hord) hstart
  refine ⟨?_, fun before hpre => (alongStates_iff_prefixes.1 hinv before hpre).nodup⟩
  rintro before a mid b after rfl i hremoved pv hbus
  have hstates := alongStates_iff_prefixes.1 hinv
  have hafter : AlongStates System.step Exclusive
      (run System.step (System.new nameServers) (before ++ [a])) mid := by
    refine alongStates_iff_prefixes.2 fun pre hpre => ?_
    rw [← run_append]
    refine hstates _ ?_
    obtain ⟨rest, rfl⟩ := hpre
    exact ⟨rest ++ b :: after, by simp⟩
  have hsuper : Superseded (run System.step (System.new nameServers) (before ++ [a])) i := by
    rw [run_append]
    refine hremoved.superseded ?_
    have hhead := hafter.head
    rw [run_append] at hhead
    exact hhead
  have hlast := hsuper.run mid hafter
  rw [← run_append, List.append_assoc, List.singleton_append] at hlast
  refine not_superseded_of_bus (hstates _ ?_) hbus hlast
  exact ⟨b :: after, by simp⟩

/-! ## Examples -/

section Examples

/-- A session removed while its loop waits to reconnect. -/
theorem removedSessions_stop_waiting :
    let before : List (Action ℕ) := subscribeNew "A" ++ [.disconnect 0]
    let as := before ++ .removeSession 0 :: ([.wake 0 true false] ++ .deliver 0 "A" :: [])
    AlongSteps System.step Orderly (System.new [0]) as ∧
      RemovesOrReplaces (run System.step (System.new [0]) before) (.removeSession 0) 0 ∧
      .bus 0 "A" ∉ (run System.step (System.new [0])
        (before ++ .removeSession 0 :: [.wake 0 true false])).emits (.deliver 0 "A") := by
  intro before as
  have hsteps : AlongSteps System.step Orderly (System.new [0]) as := by
    refine ⟨trivial, fun _ => ⟨?_, ?_⟩, trivial, trivial, fun _ i l hi hl => ?_, ?_, trivial, trivial⟩
    · intro i l hi
      cases hi
    · intro i l hl
      cases hl
    · obtain rfl : i = 0 := (Option.some.inj hi).symm
      obtain rfl := Option.some.inj hl
      exact .inl rfl
    · exact fun _ _ _ _ => rfl
  have hremoves : RemovesOrReplaces (run System.step (System.new [0]) before)
      (.removeSession 0) 0 := ⟨⟨0, ["A"], false, 0, .waiting⟩, rfl, .inl ⟨rfl, rfl⟩⟩
  have hstop := (removedSessions_stop [0] as hsteps).1 before (.removeSession 0) [.wake 0 true false]
    (.deliver 0 "A") [] rfl 0 hremoves "A"
  exact ⟨hsteps, hremoves, hstop⟩

/-- A session removed while it runs goes on delivering events, and when its PV is found
    again there are two monitors for it. -/
theorem removedSession_delivers :
    let before := subscribeNew "A"
    let s := run System.step (System.new [0]) before
    let removed := s.step (.removeSession 0)
    RemovesOrReplaces s (.removeSession 0) 0 ∧
      removed.emits (.deliver 0 "A") = [.bus 0 "A"] ∧
      liveMonitors (removed.step (.hotAddIoc 0 ["A"] (some fun _ => true) (some allStarted))).loops =
        ["A", "A"] := by
  refine ⟨⟨⟨0, ["A"], false, 0, .running ⟨["A"], ["A"]⟩ []⟩, rfl, .inl ⟨rfl, rfl⟩⟩, ?_, ?_⟩
  · decide +kernel
  · decide +kernel

end Examples

end AuraEpics.Runtime
