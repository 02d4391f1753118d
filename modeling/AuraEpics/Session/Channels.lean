import Mathlib.Data.List.AList
import AuraEpics.Codec.FieldDesc

/-!
# Channels and monitors of a session

Model of the two tables of a session, the channels of `ConnectionState`
(`crates/aura-net/src/client/connection.rs`, lines 24-142) and the monitors of `PvaSession`
(`crates/aura-net/src/runtime/session.rs`, lines 583-595), and of the functions that change
them for one PV: `create_channel` (lines 641-680), `start_monitor` (lines 682-774),
`add_monitor_inline` (lines 832-842) and `remove_monitor_inline` (lines 845-897).

The two tables are keyed by ids and searched by name. A search takes the first entry it
meets, in an order that is not specified (`HashOrder`). A frame is given by what its payload
decodes to; `none` on the wire is a `recv_frame` that fails or runs out of time. Monitor
updates change no name, descriptor or key of the tables, so they do nothing here.
-/

namespace AuraEpics.Session

open AuraEpics.Codec

/-- An order in which a hash map yields its entries. -/
structure HashOrder (α : Type*) where
  yields : List α → List α
  perm : ∀ l, (yields l).Perm l

/-! ## Messages -/

/-- `StatusType` (messages/status.rs, lines 19-25). -/
inductive StatusType where
  | ok
  | warning
  | error
  | fatal
  deriving DecidableEq, Repr

/-- `PvaStatus` (messages/status.rs, lines 72-77), without the call tree it prints. -/
structure PvaStatus where
  statusType : StatusType
  message : String
  deriving DecidableEq, Repr

namespace PvaStatus

/-- `is_success` (lines 117-119). -/
def isSuccess (s : PvaStatus) : Bool := s.statusType = .ok || s.statusType = .warning

/-- `is_ok` (lines 125-127). -/
def isOk (s : PvaStatus) : Bool := s.statusType = .ok && s.message = ""

theorem isSuccess_of_isOk {s : PvaStatus} (h : s.isOk = true) : s.isSuccess = true := by
  unfold isOk isSuccess at *
  simp only [Bool.and_eq_true] at h
  rw [h.1, Bool.true_or]

end PvaStatus

/-- `CreateChannelResponse` (messages/channel.rs, lines 53-58). -/
structure CreateChannelResponse where
  clientChannelId : ℤ
  serverChannelId : ℤ
  status : PvaStatus
  deriving DecidableEq, Repr

/-- A monitor message after its header: the response to INIT, with its status and its
    descriptor as far as they are decodable, or anything else. -/
inductive MonitorMessage where
  | init (requestId : ℤ) (status : Option PvaStatus) (desc : Option FieldDesc)
  | update (requestId : ℤ)

/-- A frame; `none` is a payload that is not decodable. -/
inductive Frame where
  | createChannel (resp : Option CreateChannelResponse)
  | monitor (msg : Option MonitorMessage)
  | other

/-! ## Tables -/

/-- `ChannelState` (connection.rs, lines 28-39). -/
inductive ChannelState where
  | creating
  | active (serverChannelId : ℤ)
  | destroying
  | closed
  deriving DecidableEq, Repr

namespace ChannelState

/-- `is_active` (lines 42-44). -/
def isActive : ChannelState → Bool
  | active _ => true
  | _ => false

/-- `server_id` (lines 45-50). -/
def serverId : ChannelState → Option ℤ
  | active serverChannelId => some serverChannelId
  | _ => none

theorem serverId_isSome (s : ChannelState) : s.serverId.isSome = s.isActive := by
  cases s <;> rfl

end ChannelState

/-- `ChannelInfo` (connection.rs, lines 84-90) without its key. -/
structure ChannelInfo where
  pvName : String
  state : ChannelState
  deriving DecidableEq, Repr

/-- What identifies a `MonitorEntry` (lines 559-575): the name and the descriptor of its
    subscription. -/
structure MonitorSubscription where
  pvName : String
  typeDesc : Option FieldDesc

/-- The entries of a map that pass a test. -/
def retain {β : Type*} (map : AList fun _ : ℤ => β) (keep : β → Bool) : AList fun _ : ℤ => β :=
  ⟨map.entries.filter fun e => keep e.2, map.nodupKeys.sublist List.filter_sublist⟩

/-- The tables of a session, with the number of ids it has taken from `next_client_id`
    (connection.rs, lines 20-26). -/
structure SessionTables where
  channels : AList fun _ : ℤ => ChannelInfo
  monitors : AList fun _ : ℤ => MonitorSubscription
  taken : ℕ

/-- What the sends of `add_monitor_inline` come to. -/
structure Sends where
  create : Bool
  init : Bool
  start : Bool
  deriving DecidableEq, Repr

namespace SessionTables

/-- The tables of a new session. -/
def new : SessionTables := ⟨∅, ∅, 0⟩

/-- `info.state = …` for the channel of an id, if there is one. -/
def setState (s : SessionTables) (clientId : ℤ) (state : ChannelState) : SessionTables :=
  match s.channels.lookup clientId with
  | some info => { s with channels := s.channels.insert clientId { info with state := state } }
  | none => s

/-- `add_channel` (connection.rs, lines 107-118). -/
def addChannel (ids : ℕ → ℤ) (s : SessionTables) (pvName : String) : ℤ × SessionTables :=
  let clientId := ids s.taken
  (clientId, { s with
    channels := s.channels.insert clientId ⟨pvName, .creating⟩
    taken := s.taken + 1 })

/-- `activate_channel` (connection.rs, lines 121-130). -/
def activateChannel (s : SessionTables) (clientId serverId : ℤ) : SessionTables :=
  s.setState clientId (.active serverId)

/-- `close_channel` (connection.rs, lines 133-137). -/
def closeChannel (s : SessionTables) (clientId : ℤ) : SessionTables := s.setState clientId .closed

/-- `set_type_desc` for the monitor of a request, if there is one (lines 755-761). -/
def setTypeDesc (s : SessionTables) (requestId : ℤ) (desc : FieldDesc) : SessionTables :=
  match s.monitors.lookup requestId with
  | some mon =>
    { s with monitors := s.monitors.insert requestId { mon with typeDesc := some desc } }
  | none => s

/-! ## One PV -/

/-- The loop of `create_channel` (lines 657-679): the server's id of the channel, if it is
    created, and what is left on the wire. -/
def awaitChannel (clientId : ℤ) (s : SessionTables) :
    List (Option Frame) → Option ℤ × SessionTables × List (Option Frame)
  | [] => (none, s, [])
  | none :: wire => (none, s, wire)
  | some (.createChannel none) :: wire => (none, s, wire)
  | some (.createChannel (some resp)) :: wire =>
    if resp.clientChannelId = clientId then
      if resp.status.isOk then
        (some resp.serverChannelId, s.activateChannel clientId resp.serverChannelId, wire)
      else (none, s.closeChannel clientId, wire)
    else awaitChannel clientId s wire
  | some (.monitor _) :: wire => awaitChannel clientId s wire
  | some .other :: wire => awaitChannel clientId s wire

/-- `create_channel` (lines 641-680). -/
def createChannel (ids : ℕ → ℤ) (s : SessionTables) (pvName : String) (sent : Bool)
    (wire : List (Option Frame)) : Option ℤ × SessionTables × List (Option Frame) :=
  let (clientId, s) := s.addChannel ids pvName
  if sent then awaitChannel clientId s wire else (none, s, wire)

/-- The loop of `start_monitor` (lines 729-773). Only a refused INIT takes the monitor out of
    the table again. -/
def awaitInit (requestId : ℤ) (started : Bool) (s : SessionTables) :
    List (Option Frame) → Bool × SessionTables × List (Option Frame)
  | [] => (false, s, [])
  | none :: wire => (false, s, wire)
  | some (.monitor none) :: wire => (false, s, wire)
  | some (.monitor (some (.init rid status desc))) :: wire =>
    if rid = requestId then
      match status, desc with
      | none, _ => (false, s, wire)
      | some status, desc =>
        if status.isOk then
          match desc with
          | none => (false, s, wire)
          | some desc => (started, s.setTypeDesc requestId desc, wire)
        else (false, { s with monitors := s.monitors.erase requestId }, wire)
    else awaitInit requestId started s wire
  | some (.monitor (some (.update _))) :: wire => awaitInit requestId started s wire
  | some (.createChannel _) :: wire => awaitInit requestId started s wire
  | some .other :: wire => awaitInit requestId started s wire

/-- `start_monitor` (lines 682-774); `true` stands for `Ok`. -/
def startMonitor (ids : ℕ → ℤ) (s : SessionTables) (pvName : String) (sends : Sends)
    (wire : List (Option Frame)) : Bool × SessionTables × List (Option Frame) :=
  let requestId := ids s.taken
  let s := { s with taken := s.taken + 1 }
  if s.channels.entries.any fun e => e.2.pvName = pvName then
    if sends.init then
      awaitInit requestId sends.start
        { s with monitors := s.monitors.insert requestId ⟨pvName, none⟩ } wire
    else (false, s, wire)
  else (false, s, wire)

/-- `add_monitor_inline` (lines 832-842). -/
def addMonitorInline (ids : ℕ → ℤ) (s : SessionTables) (pvName : String) (sends : Sends)
    (wire : List (Option Frame)) : Bool × SessionTables × List (Option Frame) :=
  match s.createChannel ids pvName sends.create wire with
  | (none, s, wire) => (false, s, wire)
  | (some _, s, wire) => s.startMonitor ids pvName sends wire

/-- `remove_monitor_inline` (lines 845-897): the orders are those in which the two searches
    meet the entries. What it sends may be lost. -/
def removeMonitorInline (s : SessionTables) (pvName : String)
    (channelOrder : HashOrder (Sigma fun _ : ℤ => ChannelInfo))
    (monitorOrder : HashOrder (Sigma fun _ : ℤ => MonitorSubscription)) : SessionTables :=
  match (channelOrder.yields s.channels.entries).find? fun e => e.2.pvName = pvName with
  | none => s
  | some ⟨_, info⟩ =>
    match info.state.serverId with
    | none => s
    | some _ =>
      { s with
        monitors :=
          match (monitorOrder.yields s.monitors.entries).find? fun e => e.2.pvName = pvName with
          | some ⟨requestId, _⟩ => s.monitors.erase requestId
          | none => s.monitors
        channels := retain s.channels fun info => info.pvName ≠ pvName }

end SessionTables

end AuraEpics.Session
