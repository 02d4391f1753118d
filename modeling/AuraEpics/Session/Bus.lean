import AuraEpics.Session.Monitor
import AuraEpics.Lib.BoundedQueue
import AuraEpics.Lib.Runs

/-!
# Monitor bus

Model of the sharded bus between the sessions and the ingest threads
(`crates/aura-net/src/monitor/bus.rs`, lines 8-113). A `crossbeam` channel is a first-in
first-out queue that refuses what is beyond its capacity. The shard of a monitor is
computed once, when it is created (`runtime/session.rs`, lines 719-721 and 1053-1055), and
handed to every `send_to_shard`.

A send is a `try_send` and, if that failed, the count of the drop; `drain_into` is one
`try_recv` after the other. The steps of all sessions and all ingest threads may interleave
in any way.

Results: `shardForPv_lt` and `bus_conserves`.
-/

namespace AuraEpics.Session

open Runs BoundedQueue

/-! ## Shards -/

/-- The hash of `shard_for_pv` (lines 26-30): FNV-1a over the bytes of the name. -/
def fnv1a (bytes : List UInt8) : UInt64 :=
  bytes.foldl (fun hash byte => (hash ^^^ byte.toUInt64) * 0x100000001b3) 0xcbf29ce484222325

/-- `shard_for_pv` (lines 25-32). Without a shard the code panics. -/
def shardForPv (pvName : String) (nShards : ℕ) : ℕ :=
  (fnv1a pvName.toUTF8.toList).toNat % nShards

theorem shardForPv_lt {nShards : ℕ} (h : 0 < nShards) (pvName : String) :
    shardForPv pvName nShards < nShards := Nat.mod_lt _ h

/-! ## The bus -/

/-- What a monitor sends its events with. -/
structure BusMonitor where
  pvName : String
  pvId : Int32
  busShard : ℕ

/-- The bus of `n` shards of `cap` places, with the monitors that send on it.

    `counting` are the shards of the sends between a failed `try_send` and their
    `fetch_add`, `draining` how many `try_recv` the running `drain_into` of a shard may
    still make. The rest is history: per shard the sends, the ones that failed and the
    events delivered, and over all shards the events in the order they were accepted and
    the sends that returned an error. -/
structure MonitorBus (n cap : ℕ) where
  monitors : List BusMonitor
  txs : Fin n → BoundedQueue TaggedEvent cap
  dropped : ℕ
  counting : List (Fin n)
  draining : Fin n → ℕ
  sent : Fin n → ℕ
  failed : Fin n → ℕ
  delivered : Fin n → List TaggedEvent
  accepted : List (Fin n × TaggedEvent)
  errors : ℕ

/-- A step of a session (`subscribe`, `resolve`, `send`, `count`) or of an ingest thread. -/
inductive BusAct (n : ℕ) where
  | subscribe (pvName : String)
  | resolve (monitor : ℕ) (pvId : Int32)
  | send (monitor : ℕ) (event : MonitorEvent)
  | count (shard : Fin n)
  | drainInto (shard : Fin n) (max : ℕ)
  | tryRecv (shard : Fin n)

namespace MonitorBus

variable {n cap : ℕ}

/-- `create_bus` (lines 96-113). -/
def create : MonitorBus n cap where
  monitors := []
  txs := fun _ => .empty
  dropped := 0
  counting := []
  draining := fun _ => 0
  sent := fun _ => 0
  failed := fun _ => 0
  delivered := fun _ => []
  accepted := []
  errors := 0

/-- A new monitor of a session (session.rs, lines 712-727). -/
def subscribe (s : MonitorBus n cap) (pvName : String) : MonitorBus n cap :=
  if 0 < n then { s with monitors := s.monitors ++ [⟨pvName, 0, shardForPv pvName n⟩] } else s

/-- The `try_send` of `send_to_shard` (lines 36-47). -/
def trySend (s : MonitorBus n cap) (shard : Fin n) (tagged : TaggedEvent) : MonitorBus n cap :=
  let s := { s with sent := Function.update s.sent shard (s.sent shard + 1) }
  match (s.txs shard).push tagged with
  | some q => { s with
    txs := Function.update s.txs shard q
    accepted := s.accepted ++ [(shard, tagged)] }
  | none => { s with
    failed := Function.update s.failed shard (s.failed shard + 1)
    counting := shard :: s.counting }

/-- `send_to_shard` (lines 36-55) of a monitor; `txs[shard]` panics beyond the last
    shard. -/
def sendToShard (s : MonitorBus n cap) (mon : BusMonitor) (event : MonitorEvent) :
    MonitorBus n cap :=
  if h : mon.busShard < n then s.trySend ⟨mon.busShard, h⟩ ⟨mon.pvName, mon.pvId, event⟩ else s

/-- `dropped.fetch_add(1)` (line 52), after which the send returns its error. -/
def count (s : MonitorBus n cap) (shard : Fin n) : MonitorBus n cap :=
  if shard ∈ s.counting then
    { s with
      dropped := s.dropped + 1
      counting := s.counting.erase shard
      errors := s.errors + 1 }
  else s

/-- One pass of the loop of `drain_into` (lines 77-82): an event, or the end of the
    drain. -/
def tryRecv (s : MonitorBus n cap) (shard : Fin n) : MonitorBus n cap :=
  if s.draining shard = 0 then s
  else
    match (s.txs shard).pop with
    | some (tagged, q) => { s with
      txs := Function.update s.txs shard q
      delivered := Function.update s.delivered shard (s.delivered shard ++ [tagged])
      draining := Function.update s.draining shard (s.draining shard - 1) }
    | none => { s with draining := Function.update s.draining shard 0 }

/-- One step. A `drain_into` starts when the one before it has ended. -/
def step (s : MonitorBus n cap) : BusAct n → MonitorBus n cap
  | .subscribe pvName => s.subscribe pvName
  | .resolve i pvId => { s with monitors := s.monitors.modify i fun mon => { mon with pvId := pvId } }
  | .send i event =>
    match s.monitors[i]? with
    | some mon => s.sendToShard mon event
    | none => s
  | .count shard => s.count shard
  | .drainInto shard max =>
    if s.draining shard = 0 then { s with draining := Function.update s.draining shard max } else s
  | .tryRecv shard => s.tryRecv shard

/-- `total_dropped` (lines 59-61). -/
def totalDropped (s : MonitorBus n cap) : ℕ := s.dropped

/-- The events a shard has accepted, in order. -/
def acceptedBy (s : MonitorBus n cap) (shard : Fin n) : List TaggedEvent :=
  (s.accepted.filter (·.1 = shard)).map Prod.snd

/-! ## The invariant -/

/-- What every step keeps. -/
structure Conserving (s : MonitorBus n cap) : Prop where
  fifo : ∀ k, Fifo (s.acceptedBy k) (s.delivered k) (s.txs k)
  sent : ∀ k, (s.acceptedBy k).length + s.failed k = s.sent k
  counted : s.dropped = s.errors
  counting : s.dropped + s.counting.length = ∑ k, s.failed k
  monitors : ∀ mon ∈ s.monitors, mon.busShard = shardForPv mon.pvName n ∧ 0 < n
  routed : ∀ p ∈ s.accepted, (p.1 : ℕ) = shardForPv p.2.pvName n

theorem conserving_create : (create : MonitorBus n cap).Conserving where
  fifo _ := .start
  sent _ := rfl
  counted := rfl
  counting := by simp [create]
  monitors _ h := by cases h
  routed _ h := by cases h

variable {s : MonitorBus n cap}

/-- A step that leaves the queues and the history alone. -/
theorem Conserving.monitors_changed (hs : s.Conserving) {ms : List BusMonitor}
    (hms : ∀ mon ∈ ms, mon.busShard = shardForPv mon.pvName n ∧ 0 < n) :
    ({ s with monitors := ms } : MonitorBus n cap).Conserving :=
  ⟨hs.fifo, hs.sent, hs.counted, hs.counting, hms, hs.routed⟩

theorem Conserving.subscribe (hs : s.Conserving) (pvName : String) : (s.subscribe pvName).Conserving := by
  unfold MonitorBus.subscribe
  split_ifs with hn
  · apply hs.monitors_changed
    intro mon hmon
    rcases List.mem_append.mp hmon with hold | hnew
    · exact hs.monitors mon hold
    · rw [List.mem_singleton.mp hnew]
      exact ⟨rfl, hn⟩
  · exact hs

theorem Conserving.resolve (hs : s.Conserving) (i : ℕ) (pvId : Int32) :
    (s.step (.resolve i pvId)).Conserving := by
  apply hs.monitors_changed
  intro mon hmon
  obtain ⟨j, hj, rfl⟩ := List.mem_iff_getElem.mp hmon
  rw [List.getElem_modify]
  rw [List.length_modify] at hj
  have hold := hs.monitors _ (List.getElem_mem hj)
  split_ifs
  · exact hold
  · exact hold

theorem acceptedBy_concat (l : List (Fin n × TaggedEvent)) (shard k : Fin n) (tagged : TaggedEvent) :
    ((l ++ [(shard, tagged)]).filter (·.1 = k)).map Prod.snd =
      (l.filter (·.1 = k)).map Prod.snd ++ if shard = k then [tagged] else [] := by
  rw [List.filter_append, List.map_append]
  split_ifs with h
  · simp [h]
  · simp [h]

theorem Conserving.trySend (hs : s.Conserving) (shard : Fin n) (tagged : TaggedEvent)
    (hshard : (shard : ℕ) = shardForPv tagged.pvName n) : (s.trySend shard tagged).Conserving := by
  unfold MonitorBus.trySend
  dsimp only
  cases hpush : (s.txs shard).push tagged with
  | some q =>
    refine ⟨fun k => ?_, fun k => ?_, hs.counted, hs.counting, hs.monitors, ?_⟩
    · show Fifo (((s.accepted ++ [(shard, tagged)]).filter (·.1 = k)).map Prod.snd) (s.delivered k)
        (Function.update s.txs shard q k)
      rw [acceptedBy_concat]
      by_cases hk : k = shard
      · subst hk
        rw [if_pos rfl, Function.update_self]
        exact (hs.fifo k).push hpush
      · rw [if_neg (Ne.symm hk), Function.update_of_ne hk, List.append_nil]
        exact hs.fifo k
    · show (((s.accepted ++ [(shard, tagged)]).filter (·.1 = k)).map Prod.snd).length + s.failed k =
        Function.update s.sent shard (s.sent shard + 1) k
      have hsent : ((s.accepted.filter (·.1 = k)).map Prod.snd).length + s.failed k = s.sent k :=
        hs.sent k
      rw [acceptedBy_concat, List.length_append]
      by_cases hk : k = shard
      · subst hk
        rw [if_pos rfl, Function.update_self, List.length_singleton]
        omega
      · rw [if_neg (Ne.symm hk), Function.update_of_ne hk, List.length_nil]
        omega
    · intro p hp
      rcases List.mem_append.mp hp with hold | hnew
      · exact hs.routed p hold
      · rw [List.mem_singleton.mp hnew]
        exact hshard
  | none =>
    refine ⟨hs.fifo, fun k => ?_, hs.counted, ?_, hs.monitors, hs.routed⟩
    · show (s.acceptedBy k).length + Function.update s.failed shard (s.failed shard + 1) k =
        Function.update s.sent shard (s.sent shard + 1) k
      have hsent := hs.sent k
      by_cases hk : k = shard
      · subst hk
        rw [Function.update_self, Function.update_self]
        omega
      · rw [Function.update_of_ne hk, Function.update_of_ne hk, hsent]
    · show s.dropped + (shard :: s.counting).length =
        ∑ k, Function.update s.failed shard (s.failed shard + 1) k
      have hcount := hs.counting
      have hsplit := Finset.add_sum_erase Finset.univ s.failed (Finset.mem_univ shard)
      rw [Finset.sum_update_of_mem (Finset.mem_univ shard), List.length_cons,
        Finset.sdiff_singleton_eq_erase]
      omega

theorem Conserving.sendToShard (hs : s.Conserving) {mon : BusMonitor} (hmon : mon ∈ s.monitors)
    (event : MonitorEvent) : (s.sendToShard mon event).Conserving := by
  unfold MonitorBus.sendToShard
  split_ifs with h
  · exact hs.trySend ⟨mon.busShard, h⟩ ⟨mon.pvName, mon.pvId, event⟩ (hs.monitors mon hmon).1
  · exact hs

theorem Conserving.count (hs : s.Conserving) (shard : Fin n) : (s.count shard).Conserving := by
  unfold MonitorBus.count
  split_ifs with hmem
  · refine ⟨hs.fifo, hs.sent, ?_, ?_, hs.monitors, hs.routed⟩
    · show s.dropped + 1 = s.errors + 1
      rw [hs.counted]
    · show s.dropped + 1 + (s.counting.erase shard).length = ∑ k, s.failed k
      have hcount := hs.counting
      have hpos : 0 < s.counting.length := List.length_pos_of_mem hmem
      rw [List.length_erase_of_mem hmem]
      omega
  · exact hs

theorem Conserving.tryRecv (hs : s.Conserving) (shard : Fin n) : (s.tryRecv shard).Conserving := by
  unfold MonitorBus.tryRecv
  split_ifs with hidle
  · exact hs
  cases hpop : (s.txs shard).pop with
  | none => exact ⟨hs.fifo, hs.sent, hs.counted, hs.counting, hs.monitors, hs.routed⟩
  | some front =>
    obtain ⟨tagged, q⟩ := front
    refine ⟨fun k => ?_, hs.sent, hs.counted, hs.counting, hs.monitors, hs.routed⟩
    show Fifo (s.acceptedBy k) (Function.update s.delivered shard (s.delivered shard ++ [tagged]) k)
      (Function.update s.txs shard q k)
    by_cases hk : k = shard
    · subst hk
      rw [Function.update_self, Function.update_self]
      exact (hs.fifo k).pop hpop
    · rw [Function.update_of_ne hk, Function.update_of_ne hk]
      exact hs.fifo k

theorem Conserving.step (hs : s.Conserving) (act : BusAct n) : (s.step act).Conserving := by
  cases act with
  | subscribe pvName => exact hs.subscribe pvName
  | resolve i pvId => exact hs.resolve i pvId
  | send i event =>
    show (match s.monitors[i]? with
      | some mon => s.sendToShard mon event
      | none => s).Conserving
    cases hmon : s.monitors[i]? with
    | none => exact hs
    | some mon => exact hs.sendToShard (List.mem_of_getElem? hmon) event
  | count shard => exact hs.count shard
  | drainInto shard max =>
    unfold MonitorBus.step
    dsimp only
    split_ifs
    · exact ⟨hs.fifo, hs.sent, hs.counted, hs.counting, hs.monitors, hs.routed⟩
    · exact hs
  | tryRecv shard => exact hs.tryRecv shard

/-! ## Main theorem -/

/-- What the bus promises after any steps. -/
structure Accounted (s : MonitorBus n cap) : Prop where
  conserved : ∀ k,
    (s.delivered k).length + (s.txs k).items.length + s.failed k = s.sent k
  dropped : s.totalDropped = s.errors
  counting : s.totalDropped + s.counting.length = ∑ k, s.failed k
  monitors : ∀ mon ∈ s.monitors,
    mon.busShard = shardForPv mon.pvName n ∧ shardForPv mon.pvName n < n
  routed : ∀ k, ∀ tagged ∈ s.delivered k ++ (s.txs k).items, (k : ℕ) = shardForPv tagged.pvName n
  ordered : ∀ pvName (k : Fin n), (k : ℕ) = shardForPv pvName n →
    (s.delivered k).filter (·.pvName = pvName) ++ (s.txs k).items.filter (·.pvName = pvName) =
      (s.accepted.map Prod.snd).filter (·.pvName = pvName)

/-- All accepted events of a PV are those its shard accepted. -/
theorem filter_acceptedBy {l : List (Fin n × TaggedEvent)}
    (hrouted : ∀ p ∈ l, (p.1 : ℕ) = shardForPv p.2.pvName n) {pvName : String} {k : Fin n}
    (hk : (k : ℕ) = shardForPv pvName n) :
    ((l.filter (·.1 = k)).map Prod.snd).filter (·.pvName = pvName) =
      (l.map Prod.snd).filter (·.pvName = pvName) := by
  induction l with
  | nil => rfl
  | cons p l ih =>
    have hrest := ih fun p hp => hrouted p (List.mem_cons_of_mem _ hp)
    by_cases hname : p.2.pvName = pvName
    · have hshard : p.1 = k := by
        apply Fin.ext
        rw [hrouted p List.mem_cons_self, hname, hk]
      simp only [List.filter_cons, hshard, hname, decide_true, if_true, List.map_cons, hrest]
    · by_cases hshard : p.1 = k
      · simp only [List.filter_cons, hshard, hname, decide_true, decide_false, if_true,
          List.map_cons, hrest, Bool.false_eq_true, if_false]
      · simp only [List.filter_cons, hshard, hname, decide_false, List.map_cons, hrest,
          Bool.false_eq_true, if_false]

theorem Conserving.accounted (hs : s.Conserving) : s.Accounted where
  conserved k := by
    rw [(hs.fifo k).length_add]
    exact hs.sent k
  dropped := hs.counted
  counting := hs.counting
  monitors mon hmon := by
    obtain ⟨hshard, hn⟩ := hs.monitors mon hmon
    exact ⟨hshard, shardForPv_lt hn mon.pvName⟩
  routed k tagged htagged := by
    rw [hs.fifo k, acceptedBy] at htagged
    obtain ⟨p, hp, rfl⟩ := List.mem_map.mp htagged
    obtain ⟨hmem, hshard⟩ := List.mem_filter.mp hp
    rw [← of_decide_eq_true hshard]
    exact hs.routed p hmem
  ordered pvName k hk := by
    rw [← List.filter_append, hs.fifo k]
    exact filter_acceptedBy hs.routed hk

/-- **Main theorem**: in every state of every interleaving, for each shard the events
    delivered, queued and dropped are the ones sent; `total_dropped` is the number of sends
    that returned an error, which with the sends about to do so are the ones that failed;
    every event of a PV goes to the PV's shard; and the events of a PV are delivered in the
    order they were accepted. -/
theorem bus_conserves (n cap : ℕ) (acts : List (BusAct n)) :
    AlongStates step Accounted (create : MonitorBus n cap) acts := by
  have hinv : AlongStates step Conserving (create : MonitorBus n cap) acts :=
    alongStates_of_step (fun s act hs => hs.step act) conserving_create acts
  exact hinv.mono fun s hs => hs.accounted

end MonitorBus

end AuraEpics.Session
