import AuraEpics.Runtime.Driver
import AuraEpics.Lib.Runs

/-!
# Event loops

Model of the tasks that `spawn_event_loop` starts (`crates/aura-net/src/runtime/driver.rs`,
lines 463-595), of the sessions they run (`run_event_loop_with_commands`, session.rs, lines
777-827, `remove_monitor_inline`, lines 847-902, `add_monitors_bulk`, lines 911-1222) and of
the main task that drives them.

A `System` is the driver with its event loops and the channels between them. Its actions
are the steps of the main task and of the loops, in any order. `monitor_batch` waits for
the sessions it talks to, so it is several actions, and the loops go on in between. An
action that is not possible in a state leaves it as it is.

`emits` is what an action shows to the outside: monitor events for the bus, lifecycle
events, and the PVs a loop subscribes to again after a reconnect.
-/

namespace AuraEpics.Runtime

/-- `SessionCommand` (lines 20-33), as far as the driver sends them before its shutdown.
    A reply channel is named by a number. -/
inductive SessionCommand where
  | addMonitorBatch (pvNames : List String) (reply : ℕ)
  | removeMonitor (pvName : String)
  deriving DecidableEq, Repr

/-! ## Sessions -/

/-- The PVs of the active channels and of the monitors of a session, one entry for
    each. -/
structure PvaSession where
  channels : List String
  monitors : List String
  deriving DecidableEq, Repr

namespace PvaSession

/-- `PvaSession::add_monitors_bulk` (session.rs, lines 911-1222). -/
def addMonitorsBulk (s : PvaSession) (outcome : String → BulkOutcome) (pvs : List String) :
    PvaSession where
  channels := s.channels ++ pvs.filter fun pv => outcome pv = .notInit ∨ outcome pv = .started
  monitors := s.monitors ++ pvs.filter fun pv => outcome pv = .started

/-- `PvaSession::remove_monitor_inline` (session.rs, lines 847-902). `isActive` says
    whether the channel it finds for the PV is active: of several channels for one PV it
    may find any. -/
def removeMonitorInline (s : PvaSession) (pv : String) (isActive : Bool) : PvaSession :=
  if isActive ∧ pv ∈ s.channels then
    { channels := s.channels.filter fun c => c ≠ pv
      monitors := s.monitors.erase pv }
  else s

end PvaSession

/-! ## Event loops -/

/-- Where an event loop is: in `run_event_loop_with_commands` with the commands its
    session has not read, waiting for the backoff to pass, connecting, subscribing again,
    or at its end. -/
inductive Phase where
  | running (session : PvaSession) (queue : List SessionCommand)
  | waiting
  | connecting
  | subscribing
  | returned
  deriving DecidableEq, Repr

/-- The task of `spawn_event_loop`: what it captured, whether its token is cancelled, the
    number of its current session and where it is. -/
structure EventLoop (Addr : Type) where
  addr : Addr
  reconnectPvs : List String
  cancelled : Bool
  session : ℕ
  phase : Phase

namespace EventLoop

variable {Addr : Type}

/-- The task has not returned. -/
def Live (l : EventLoop Addr) : Prop := l.phase ≠ .returned

instance (l : EventLoop Addr) : Decidable l.Live := inferInstanceAs (Decidable (_ ≠ _))

/-- The monitors of the session the loop runs. -/
def monitors (l : EventLoop Addr) : List String :=
  match l.phase with
  | .running session _ => session.monitors
  | _ => []

/-- The loop runs a session, and its frames go to the bus. -/
def Running (l : EventLoop Addr) : Prop := ∃ session queue, l.phase = .running session queue

instance (l : EventLoop Addr) : Decidable l.Running :=
  match h : l.phase with
  | .running session queue => .isTrue ⟨session, queue, h⟩
  | .waiting => .isFalse fun ⟨_, _, h'⟩ => Phase.noConfusion (h.symm.trans h')
  | .connecting => .isFalse fun ⟨_, _, h'⟩ => Phase.noConfusion (h.symm.trans h')
  | .subscribing => .isFalse fun ⟨_, _, h'⟩ => Phase.noConfusion (h.symm.trans h')
  | .returned => .isFalse fun ⟨_, _, h'⟩ => Phase.noConfusion (h.symm.trans h')

/-- The top of the reconnect loop (lines 512-516). -/
def reconnectTop (l : EventLoop Addr) : EventLoop Addr :=
  if l.cancelled then { l with phase := .returned } else { l with phase := .waiting }

/-- The session ends (lines 486-513 and 576-591): without PVs there is no reconnect. -/
def disconnect (l : EventLoop Addr) : EventLoop Addr :=
  match l.phase with
  | .running _ _ =>
    if l.reconnectPvs = [] then { l with phase := .returned } else l.reconnectTop
  | _ => l

/-- The wait for the backoff or the token ends or goes on (lines 530-536). Where the backoff has
    passed and the token is cancelled, `select!` takes either branch: `sleepWins` says which. -/
def wake (l : EventLoop Addr) (elapsed sleepWins : Bool) : EventLoop Addr :=
  match l.phase with
  | .waiting =>
    if l.cancelled && !(elapsed && sleepWins) then { l with phase := .returned }
    else if elapsed then { l with phase := .connecting }
    else l
  | _ => l

/-- The connection is made or refused (lines 538-556). -/
def connectDone (l : EventLoop Addr) (ok : Bool) : EventLoop Addr :=
  match l.phase with
  | .connecting => if ok then { l with phase := .subscribing } else l.reconnectTop
  | _ => l

/-- Some PV of the reconnect list is subscribed to again. -/
def ResubscribeOk (l : EventLoop Addr) (outcome : String → BulkOutcome) : Prop :=
  l.phase = .subscribing ∧ (bulkResults outcome l.reconnectPvs).any Prod.snd

instance (l : EventLoop Addr) (outcome : String → BulkOutcome) :
    Decidable (l.ResubscribeOk outcome) := inferInstanceAs (Decidable (_ ∧ _))

/-- The subscriptions after a reconnect (lines 562-577). -/
def resubscribe (l : EventLoop Addr) (outcome : String → BulkOutcome) : EventLoop Addr :=
  match l.phase with
  | .subscribing =>
    if (bulkResults outcome l.reconnectPvs).any Prod.snd then
      { l with
        session := l.session + 1
        phase := .running (PvaSession.addMonitorsBulk ⟨[], []⟩ outcome l.reconnectPvs) [] }
    else l.reconnectTop
  | _ => l

/-- The session reads one command (session.rs, lines 800-824). -/
def handleCommand (l : EventLoop Addr) (outcome : String → BulkOutcome) (isActive : Bool) :
    EventLoop Addr :=
  match l.phase with
  | .running session (.addMonitorBatch pvs _ :: queue) =>
    { l with phase := .running (session.addMonitorsBulk outcome pvs) queue }
  | .running session (.removeMonitor pv :: queue) =>
    { l with phase := .running (session.removeMonitorInline pv isActive) queue }
  | _ => l

/-- A command is put in the channel of the session. -/
def enqueue (l : EventLoop Addr) (cmd : SessionCommand) : EventLoop Addr :=
  match l.phase with
  | .running session queue => { l with phase := .running session (queue ++ [cmd]) }
  | _ => l

end EventLoop

/-! ## The system -/

/-- Where the main task is: between operations, in the loop over the existing sessions of
    `monitor_batch`, or waiting there for the answer to an `AddMonitorBatch`. -/
inductive MainTask (Addr : Type) where
  | idle
  | adding (existing fresh : List (Addr × List String))
  | awaiting (addr : Addr) (pvs : List String) (reply : ℕ)
      (answer : Option (List (String × Bool))) (existing fresh : List (Addr × List String))

/-- The driver, the event loops in the order they were spawned, and the channels:
    `reconnects` is what the loops have sent on `reconnect_tx`, `replies` numbers the
    reply channels. -/
structure System (Addr : Type) where
  driver : PvaDriver Addr
  task : MainTask Addr
  loops : List (EventLoop Addr)
  reconnects : List (Addr × ChannelId)
  replies : ℕ

/-- The steps of the main task and of event loop `i`. -/
inductive Action (Addr : Type) where
  | monitorBatch (names : List String) (found₁ found₂ : ℕ → String → Bool)
  | sendAdd
  | receiveReply
  | replyTimeout
  | openSession (outcome : Option (String → BulkOutcome))
  | batchDone
  | unsubscribe (pvs : List String)
  | hotAddIoc (addr : Addr) (configured : List String) (search : Option (String → Bool))
      (opened : Option (String → BulkOutcome))
  | removeSession (addr : Addr)
  | setNameServers (servers : List Addr)
  | routeReconnect
  | handleCommand (i : ℕ) (outcome : String → BulkOutcome) (isActive : Bool)
  | deliver (i : ℕ) (pv : String)
  | disconnect (i : ℕ)
  | wake (i : ℕ) (elapsed sleepWins : Bool)
  | connectDone (i : ℕ) (ok : Bool)
  | resubscribe (i : ℕ) (outcome : String → BulkOutcome)

/-- What an action shows to the outside. `resubscribes` is the list a loop hands to
    `add_monitors_bulk` after a reconnect; `Connected` events are not modelled. -/
inductive Event (Addr : Type) where
  | bus (task : ℕ) (pv : String)
  | disconnected (addr : Addr) (pvs : List String)
  | reconnected (addr : Addr) (pvs : List String)
  | resubscribes (addr : Addr) (pvs : List String)
  deriving DecidableEq

namespace System

variable {Addr : Type}

def new (nameServers : List Addr) : System Addr := ⟨.new nameServers, .idle, [], [], 0⟩

/-- A change of event loop `i` alone. -/
def onLoop (s : System Addr) (i : ℕ) (f : EventLoop Addr → EventLoop Addr) : System Addr :=
  { s with loops := s.loops.modify i f }

/-- The session a channel belongs to still reads from it. -/
def isOpen (s : System Addr) (chan : ChannelId) : Bool :=
  match s.loops[chan.task]? with
  | some l =>
    match l.phase with
    | .running _ _ => l.session = chan.session
    | _ => false
  | none => false

/-- `tx.send(cmd)`; a closed channel drops the command. -/
def send (s : System Addr) (chan : ChannelId) (cmd : SessionCommand) : System Addr :=
  if s.isOpen chan then s.onLoop chan.task (·.enqueue cmd) else s

variable [DecidableEq Addr]

/-- The task `spawn_event_loop` starts (lines 472-486) for a session with these monitors.
    The driver has made its entries. -/
def spawn (s : System Addr) (driver : PvaDriver Addr) (addr : Addr) (session : PvaSession) :
    System Addr :=
  { s with
    driver := driver
    loops := s.loops ++
      [{ addr := addr
         reconnectPvs := (driver.iocPvs addr).getD []
         cancelled := false
         session := 0
         phase := .running session [] }] }

/-- `monitor_batch` up to its loops (lines 160-314). -/
def startBatch (s : System Addr) (names : List String) (found₁ found₂ : ℕ → String → Bool) :
    System Addr :=
  if s.driver.nameServers = [] then s
  else
    let routes := PvaDriver.searchRoutes s.driver.nameServers names found₁ found₂
    let missing := names.filter fun pv => (routes.lookup pv).isNone
    let servers := PvaDriver.serverPvs routes
    { s with
      driver := { s.driver with failedPvs := missing }
      task := .adding (servers.filter fun e => (s.driver.sessionCommands e.1).isSome)
        (servers.filter fun e => (s.driver.sessionCommands e.1).isNone) }

/-- The send in the loop over the existing sessions (lines 317-326 and 354-356). -/
def sendAdd (s : System Addr) : System Addr :=
  match s.task with
  | .adding ((addr, pvs) :: existing) fresh =>
    match s.driver.sessionCommands addr with
    | some chan =>
      if s.isOpen chan then
        { s.send chan (.addMonitorBatch pvs s.replies) with
          task := .awaiting addr pvs s.replies none existing fresh
          replies := s.replies + 1 }
      else { s with task := .adding existing (fresh ++ [(addr, pvs)]) }
    | none => { s with task := .adding existing fresh }
  | _ => s

/-- The reply arrives in time (lines 330-347). -/
def receiveReply (s : System Addr) : System Addr :=
  match s.task with
  | .awaiting addr pvs _ (some results) existing fresh =>
    { s with
      driver := s.driver.recordExisting addr pvs results
      task := .adding existing fresh }
  | _ => s

/-- No reply in time, or a session that ended (lines 348-351). -/
def replyTimeout (s : System Addr) : System Addr :=
  match s.task with
  | .awaiting addr pvs _ _ existing fresh =>
    { s with task := .adding existing (fresh ++ [(addr, pvs)]) }
  | _ => s

/-- The next new session (lines 362-419). -/
def openSession (s : System Addr) (outcome : Option (String → BulkOutcome)) : System Addr :=
  match s.task with
  | .adding [] ((addr, pvs) :: fresh) =>
    match outcome with
    | none => { s with task := .adding [] fresh }
    | some outcome =>
      let results := bulkResults outcome pvs
      let driver := s.driver.recordNew addr pvs results
      let s := { s with task := .adding [] fresh }
      if results.any Prod.snd then
        s.spawn driver addr (PvaSession.addMonitorsBulk ⟨[], []⟩ outcome pvs)
      else { s with driver := driver }
  | _ => s

/-- One pass of the loop of `unsubscribe` (lines 601-615). -/
def unsubscribeOne (s : System Addr) (pv : String) : System Addr :=
  match s.driver.pvServerCache pv with
  | none => s
  | some addr =>
    let s' := match s.driver.sessionCommands addr with
      | some chan => s.send chan (.removeMonitor pv)
      | none => s
    { s' with driver := s.driver.unsubscribeOne pv }

/-- `hot_add_ioc` (lines 624-701). -/
def hotAddIoc (s : System Addr) (addr : Addr) (configured : List String)
    (search : Option (String → Bool)) (opened : Option (String → BulkOutcome)) : System Addr :=
  match search, opened with
  | some isFound, some outcome =>
    let found := (s.driver.hotAddSearch configured).filter isFound
    let results := bulkResults outcome found
    let driver := s.driver.recordHotAdd addr found results
    if results.any Prod.snd then
      s.spawn driver addr (PvaSession.addMonitorsBulk ⟨[], []⟩ outcome found)
    else s
  | _, _ => s

/-- `remove_session` (lines 704-715): the token cancelled is the one in the table. -/
def removeSession (s : System Addr) (addr : Addr) : System Addr :=
  let s' := match s.driver.cancelTokens addr with
    | some i => s.onLoop i fun l => { l with cancelled := true }
    | none => s
  { s' with driver := s.driver.removeSession addr }

/-- The main loop routes the commands for an IOC to its new session (main.rs, lines
    619-622). -/
def routeReconnect (s : System Addr) : System Addr :=
  match s.reconnects with
  | (addr, chan) :: reconnects =>
    { s with
      driver := { s.driver with
        sessionCommands := Function.update s.driver.sessionCommands addr (some chan) }
      reconnects := reconnects }
  | [] => s

/-- A session handles a command; the reply to an `AddMonitorBatch` reaches the main task
    if it still waits for it. -/
def handleCommand (s : System Addr) (i : ℕ) (outcome : String → BulkOutcome) (isActive : Bool) :
    System Addr :=
  let task := match (s.loops[i]?).map EventLoop.phase, s.task with
    | some (.running _ (.addMonitorBatch pvs reply :: _)),
        .awaiting addr pvs' reply' none existing fresh =>
      if reply = reply' then
        .awaiting addr pvs' reply' (some (bulkResults outcome pvs)) existing fresh
      else s.task
    | _, _ => s.task
  { s.onLoop i (·.handleCommand outcome isActive) with task := task }

/-- A loop subscribes again after a reconnect and announces its new command channel. -/
def resubscribe (s : System Addr) (i : ℕ) (outcome : String → BulkOutcome) : System Addr :=
  match s.loops[i]? with
  | none => s
  | some l =>
    { s.onLoop i (·.resubscribe outcome) with
      reconnects := if l.ResubscribeOk outcome
        then s.reconnects ++ [(l.addr, ⟨i, l.session + 1⟩)] else s.reconnects }

/-- The main task begins an operation only between operations. -/
def whenIdle (s : System Addr) (s' : System Addr) : System Addr :=
  match s.task with
  | .idle => s'
  | _ => s

def step (s : System Addr) : Action Addr → System Addr
  | .monitorBatch names found₁ found₂ => s.whenIdle (s.startBatch names found₁ found₂)
  | .sendAdd => s.sendAdd
  | .receiveReply => s.receiveReply
  | .replyTimeout => s.replyTimeout
  | .openSession outcome => s.openSession outcome
  | .batchDone =>
    match s.task with
    | .adding [] [] => { s with task := .idle }
    | _ => s
  | .unsubscribe pvs => s.whenIdle (pvs.foldl unsubscribeOne s)
  | .hotAddIoc addr configured search opened =>
    s.whenIdle (s.hotAddIoc addr configured search opened)
  | .removeSession addr => s.whenIdle (s.removeSession addr)
  | .setNameServers servers =>
    s.whenIdle { s with driver := { s.driver with nameServers := servers } }
  | .routeReconnect => s.whenIdle s.routeReconnect
  | .handleCommand i outcome isActive => s.handleCommand i outcome isActive
  | .deliver _ _ => s
  | .disconnect i => s.onLoop i EventLoop.disconnect
  | .wake i elapsed sleepWins => s.onLoop i (·.wake elapsed sleepWins)
  | .connectDone i ok => s.onLoop i (·.connectDone ok)
  | .resubscribe i outcome => s.resubscribe i outcome

/-- `batchDone` ends the batch of the main task or does nothing. -/
theorem step_batchDone (s : System Addr) :
    (s.task = .adding [] [] ∧ s.step .batchDone = { s with task := .idle }) ∨
      s.step .batchDone = s := by
  unfold step
  dsimp only
  split
  · next htask => exact .inl ⟨htask, rfl⟩
  · exact .inr rfl

/-- The events of an action. -/
def emits (s : System Addr) : Action Addr → List (Event Addr)
  | .deliver i pv =>
    match s.loops[i]? with
    | some l => if pv ∈ l.monitors then [.bus i pv] else []
    | none => []
  | .disconnect i =>
    match s.loops[i]? with
    | some l =>
      match l.phase with
      | .running _ _ =>
        if l.reconnectPvs = [] then [] else [.disconnected l.addr l.reconnectPvs]
      | _ => []
    | none => []
  | .resubscribe i outcome =>
    match s.loops[i]? with
    | some l =>
      if l.phase = .subscribing then
        .resubscribes l.addr l.reconnectPvs ::
          if l.ResubscribeOk outcome then [.reconnected l.addr l.reconnectPvs] else []
      else []
    | none => []
  | _ => []

/-! ## Changes of one event loop -/

omit [DecidableEq Addr] in
@[simp] theorem driver_send (s : System Addr) (chan : ChannelId) (cmd : SessionCommand) :
    (s.send chan cmd).driver = s.driver := by
  unfold send
  split_ifs
  · rfl
  · rfl

omit [DecidableEq Addr] in
@[simp] theorem task_send (s : System Addr) (chan : ChannelId) (cmd : SessionCommand) :
    (s.send chan cmd).task = s.task := by
  unfold send
  split_ifs
  · rfl
  · rfl

omit [DecidableEq Addr] in
/-- A property of the loops that adding a command to a queue keeps is kept by `send`. -/
theorem send_loops {P : List (EventLoop Addr) → Prop} {s : System Addr} (cmd : SessionCommand)
    (henqueue : ∀ i, P (s.loops.modify i (·.enqueue cmd))) (h : P s.loops) (chan : ChannelId) :
    P (s.send chan cmd).loops := by
  unfold send
  split_ifs
  · exact henqueue chan.task
  · exact h

end System

end AuraEpics.Runtime
