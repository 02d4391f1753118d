import AuraEpics.Ingest.Thread
import AuraEpics.Lib.Runs

/-!
# PV status

Model of the table `pv_status` (`migrations/014_pv_events_status.sql`, lines 51-66) and of
the statements that write it: the lifecycle handlers of `src/handlers.rs` (lines 26-540), the
unsubscribe branches and the initialisation of `src/main.rs` (lines 578-599, 831-877 and
1004-1030). Of a row the columns are kept that one of these statements reads, and `ioc_addr`.

A statement that fails is logged and changes nothing; which ones succeed is part of the step.
`NOW()` is a natural number of nanoseconds and is read anew by each statement.

Result: `lifecycle_iff`, when an unsubscribed PV stays so until it is subscribed again and a
subscribed PV with new events is archiving after the merge.
-/

namespace AuraEpics.Main

open AuraEpics.Core AuraEpics.Ingest AuraEpics.Store AuraEpics.Types Runs

/-! ## The table -/

/-- `pv_status.state` (014_pv_events_status.sql, lines 55-56). -/
inductive PvState where
  | init | searching | connected | archiving | disconnected | timeout | unsubscribed
  deriving DecidableEq, Repr

/-- A row of `pv_status`; `none` is `NULL`. -/
structure PvStatus where
  pvId : Option Int32
  state : PvState
  iocAddr : Option String
  lastEventAt : Option ℕ
  deriving DecidableEq, Repr

/-- `pv_status` by its primary key. -/
abbrev PvStatusTable := String → Option PvStatus

namespace PvStatusTable

/-- `UPDATE pv_status SET .. WHERE ..`. -/
def updateWhere (t : PvStatusTable) (cond : String → PvStatus → Prop)
    [∀ name r, Decidable (cond name r)] (set : PvStatus → PvStatus) : PvStatusTable :=
  fun name => (t name).map fun r => if cond name r then set r else r

/-- `INSERT INTO pv_status .. ON CONFLICT (pv_name) DO UPDATE SET ..` with a row for every
    name `rows` has a value for. -/
def upsert {κ : Type} (t : PvStatusTable) (rows : String → Option κ) (insert : κ → PvStatus)
    (set : κ → PvStatus → PvStatus) : PvStatusTable :=
  fun name =>
    match rows name with
    | none => t name
    | some k => some ((t name).elim (insert k) (set k))

end PvStatusTable

/-- The table with what the handlers keep beside it: `metadata_stored_pvs`, and the PVs
    subscribed and not unsubscribed since. -/
structure Status where
  table : PvStatusTable
  metadataStored : List String
  subscribed : List String

/-- A call of a handler, with what it is given and which of its statements succeed. -/
inductive StatusAct where
  | subscribe (okPvs : List String) (lookup : String → Option Int32) (ok : Bool)
  | connect (addr : String) (pvs : List String) (stateOk addrOk : Bool)
  | disconnect (pvs : List String) (ok : Bool)
  | reconnect (pvs : List String) (ok : Bool)
  | drainMetadata (raw : List (String × PvaValue)) (statusOk storeOk : Bool)
      (inlineMetas : List String) (inlineOk : Bool)
  | updatePvStatus (snapshots : List PvStatsMap) (mergeNow timeoutNow : ℕ) (mergeOk timeoutOk : Bool)
  | unsubscribe (pvs : List String) (ok : Bool)

/-! ## Statements -/

namespace PvStatusTable

/-- The initialisation after startup (main.rs, lines 584-589). -/
def initialise (t : PvStatusTable) (cache : String → Option Int32) (now : ℕ) : PvStatusTable :=
  t.upsert cache (fun id => ⟨some id, .archiving, none, some now⟩)
    fun id r => { r with state := .archiving, pvId := some id, lastEventAt := some now }

/-- `subscribe_pvs` (handlers.rs, lines 114-121): the rows of `pv_lookup` for the PVs that
    were subscribed. -/
def subscribe (t : PvStatusTable) (okPvs : List String) (lookup : String → Option Int32) :
    PvStatusTable :=
  t.upsert (fun name => if name ∈ okPvs then lookup name else none)
    (fun id => ⟨some id, .searching, none, none⟩)
    fun id r => { r with state := .searching, pvId := some id }

/-- The states `handle_connect` moves a PV from (handlers.rs, line 215). -/
def connectable : List PvState := [.init, .searching, .disconnected, .timeout]

/-- The first statement of `handle_connect` (handlers.rs, lines 212-216). -/
def connect (t : PvStatusTable) (addr : String) (pvs : List String) : PvStatusTable :=
  t.updateWhere (fun name r => name ∈ pvs ∧ r.state ∈ connectable) fun r =>
    { r with state := .connected, iocAddr := some addr }

/-- Its second statement (handlers.rs, lines 225-228). -/
def refreshAddr (t : PvStatusTable) (addr : String) (pvs : List String) : PvStatusTable :=
  t.updateWhere (fun name r => name ∈ pvs ∧ r.iocAddr ≠ some addr) fun r =>
    { r with iocAddr := some addr }

/-- `UPDATE pv_status SET state = .. WHERE pv_name = ANY(..)`: `handle_disconnect` and
    `handle_reconnect` (handlers.rs, lines 292 and 339-340) and the four unsubscribe branches
    (main.rs, lines 845, 866, 1014 and 1027). -/
def setState (t : PvStatusTable) (pvs : List String) (state : PvState) : PvStatusTable :=
  t.updateWhere (fun name _ => name ∈ pvs) fun r => { r with state := state }

/-- The statement of `drain_metadata` (handlers.rs, lines 378-383). -/
def firstValue (t : PvStatusTable) (names : List String) : PvStatusTable :=
  t.upsert (fun name => if name ∈ names then some () else none)
    (fun _ => ⟨none, .archiving, none, none⟩) fun _ r => { r with state := .archiving }

/-- The merge of `update_pv_status` (handlers.rs, lines 479-486). -/
def merge (t : PvStatusTable) (ids : List Int32) (now : ℕ) : PvStatusTable :=
  t.updateWhere (fun _ r => ∃ id ∈ ids, r.pvId = some id) fun r =>
    { r with
      lastEventAt := some now
      state := if r.state = .connected then .archiving else r.state }

/-- `PV_TIMEOUT_SECS` (handlers.rs, line 9). -/
def pvTimeout : ℕ := 60 * 1000000000

/-- The row is timed out at `now` (handlers.rs, lines 500-503). -/
def TimedOut (r : PvStatus) (now : ℕ) : Prop :=
  r.state = .archiving ∧ ∃ at' ∈ r.lastEventAt, at' + pvTimeout < now

instance (r : PvStatus) (now : ℕ) : Decidable (TimedOut r now) :=
  inferInstanceAs (Decidable (_ ∧ ∃ at' ∈ r.lastEventAt, at' + pvTimeout < now))

/-- The timeout detection (handlers.rs, lines 499-504). -/
def detectTimeouts (t : PvStatusTable) (now : ℕ) : PvStatusTable :=
  t.updateWhere (fun _ r => TimedOut r now) fun r => { r with state := .timeout }

end PvStatusTable

/-! ## Handlers -/

/-- The name of the metadata `drain_metadata` makes of a first value (handlers.rs, lines
    364-371). -/
def metadataName (raw : String × PvaValue) : Option String :=
  match ((PvConverter.new raw.1).convert (.value raw.2)).1 with
  | .updateWithMetadata _ initial => some initial.1
  | _ => none

/-- The ids of the merged snapshots (handlers.rs, lines 459-473). -/
def mergedIds (snapshots : List PvStatsMap) : List Int32 := snapshots.flatten.map Prod.fst

namespace Status

/-- The names `drain_metadata` stores from the sessions (handlers.rs, lines 362-373). -/
def freshNames (s : Status) (raw : List (String × PvaValue)) : List String :=
  (raw.filterMap metadataName).filter (· ∉ s.metadataStored)

/-- `drain_metadata` (handlers.rs, lines 352-441). An `INSERT` that names a PV twice
    fails. -/
def drainMetadata (s : Status) (raw : List (String × PvaValue)) (statusOk storeOk : Bool)
    (inlineMetas : List String) (inlineOk : Bool) : Status :=
  let names := s.freshNames raw
  let s := { s with
    table := if statusOk ∧ names.Nodup then s.table.firstValue names else s.table
    metadataStored := if storeOk then s.metadataStored ++ names else s.metadataStored }
  let inlineNames := inlineMetas.filter (· ∉ s.metadataStored)
  { s with
    metadataStored := if inlineOk then s.metadataStored ++ inlineNames else s.metadataStored }

/-- The table after the merge of `update_pv_status` (handlers.rs, lines 457-497). -/
def merged (s : Status) (snapshots : List PvStatsMap) (mergeNow : ℕ) (mergeOk : Bool) :
    PvStatusTable :=
  if mergeOk then s.table.merge (mergedIds snapshots) mergeNow else s.table

/-- `update_pv_status` (handlers.rs, lines 446-540) without the health score. -/
def updatePvStatus (s : Status) (snapshots : List PvStatsMap) (mergeNow timeoutNow : ℕ)
    (mergeOk timeoutOk : Bool) : Status :=
  let t := s.merged snapshots mergeNow mergeOk
  { s with table := if timeoutOk then t.detectTimeouts timeoutNow else t }

/-- The row `update_pv_status` hands over for the PV if it times out (handlers.rs, lines
    523-534). -/
def timeoutRow (s : Status) (snapshots : List PvStatsMap) (mergeNow timeoutNow : ℕ)
    (mergeOk timeoutOk : Bool) (cache : String → Option Int32) (time : DateTime) (pv : String) :
    Option ScalarRow :=
  match s.merged snapshots mergeNow mergeOk pv with
  | none => none
  | some r =>
    if timeoutOk ∧ PvStatusTable.TimedOut r timeoutNow then
      (cache pv).map fun id => .new time id .nan 3 105 .timeout
    else none

/-- One call. -/
def step (s : Status) : StatusAct → Status
  | .subscribe okPvs lookup ok =>
    { s with
      table := if ok then s.table.subscribe okPvs lookup else s.table
      subscribed := s.subscribed ++ okPvs }
  | .connect addr pvs stateOk addrOk =>
    let t := if stateOk then s.table.connect addr pvs else s.table
    { s with table := if addrOk then t.refreshAddr addr pvs else t }
  | .disconnect pvs ok =>
    { s with table := if ok then s.table.setState pvs .disconnected else s.table }
  | .reconnect pvs ok =>
    { s with table := if ok then s.table.setState pvs .archiving else s.table }
  | .drainMetadata raw statusOk storeOk inlineMetas inlineOk =>
    s.drainMetadata raw statusOk storeOk inlineMetas inlineOk
  | .updatePvStatus snapshots mergeNow timeoutNow mergeOk timeoutOk =>
    s.updatePvStatus snapshots mergeNow timeoutNow mergeOk timeoutOk
  | .unsubscribe pvs ok =>
    { s with
      table := if ok then s.table.setState pvs .unsubscribed else s.table
      subscribed := s.subscribed.filter (· ∉ pvs) }

/-- The state of a PV. -/
def stateOf (s : Status) (pv : String) : Option PvState := (s.table pv).map PvStatus.state

/-! ## Properties -/

/-- The PV is unsubscribed. -/
def Unsubscribed (pv : String) (s : Status) : Prop := s.stateOf pv = some .unsubscribed

instance (pv : String) (s : Status) : Decidable (Unsubscribed pv s) :=
  inferInstanceAs (Decidable (s.stateOf pv = some .unsubscribed))

/-- The call subscribes the PV. -/
def Subscribes (pv : String) : StatusAct → Prop
  | .subscribe okPvs _ _ => pv ∈ okPvs
  | _ => False

/-- The PV is subscribed and the snapshots have new events for its row. -/
def HasNewEvents (s : Status) (snapshots : List PvStatsMap) (pv : String) : Prop :=
  pv ∈ s.subscribed ∧ ∃ r ∈ s.table pv, ∃ id ∈ mergedIds snapshots, r.pvId = some id

instance (s : Status) (snapshots : List PvStatsMap) (pv : String) :
    Decidable (s.HasNewEvents snapshots pv) :=
  inferInstanceAs (Decidable (_ ∧ ∃ r ∈ s.table pv, ∃ id ∈ mergedIds snapshots, r.pvId = some id))

/-- A call of `update_pv_status` that merges leaves every subscribed PV with new events
    archiving. -/
def MergesToArchiving (s : Status) (a : StatusAct) : Prop :=
  match a with
  | .updatePvStatus snapshots _ _ mergeOk _ =>
    mergeOk → ∀ pv, s.HasNewEvents snapshots pv → (s.step a).stateOf pv = some .archiving
  | _ => True

/-! ## Conditions -/

/-- The call does not write an unsubscribed PV: a lost or regained connection and a first
    value are of PVs that are not unsubscribed. -/
def SparesUnsubscribed (s : Status) : StatusAct → Prop
  | .disconnect pvs ok | .reconnect pvs ok => ok → ∀ pv ∈ pvs, ¬Unsubscribed pv s
  | .drainMetadata raw statusOk _ _ _ =>
    statusOk → (s.freshNames raw).Nodup → ∀ pv ∈ s.freshNames raw, ¬Unsubscribed pv s
  | _ => True

/-- A subscribed PV that gets new events is connected or archiving already, and the timeout
    detection does not come a whole timeout after the merge. -/
def MergesLive (s : Status) : StatusAct → Prop
  | .updatePvStatus snapshots mergeNow timeoutNow mergeOk timeoutOk =>
    mergeOk → ∀ pv, s.HasNewEvents snapshots pv →
      (s.stateOf pv = some .connected ∨ s.stateOf pv = some .archiving) ∧
        (timeoutOk → timeoutNow ≤ mergeNow + PvStatusTable.pvTimeout)
  | _ => True

/-! ## One call -/

theorem stateOf_eq_some {s : Status} {pv : String} {state : PvState} :
    s.stateOf pv = some state ↔ ∃ r, s.table pv = some r ∧ r.state = state :=
  Option.map_eq_some_iff

end Status

namespace PvStatusTable

variable {t : PvStatusTable} {pv : String} {r : PvStatus}

theorem updateWhere_of_eq_some (hr : t pv = some r) (cond : String → PvStatus → Prop)
    [∀ name r, Decidable (cond name r)] (set : PvStatus → PvStatus) :
    t.updateWhere cond set pv = some (if cond pv r then set r else r) := by
  unfold updateWhere
  rw [hr]
  rfl

theorem setState_of_eq_some (hr : t pv = some r) (pvs : List String) (state : PvState) :
    t.setState pvs state pv = some (if pv ∈ pvs then { r with state := state } else r) :=
  updateWhere_of_eq_some hr _ _

theorem upsert_of_eq_some {κ : Type} (hr : t pv = some r) (rows : String → Option κ)
    (insert : κ → PvStatus) (set : κ → PvStatus → PvStatus) :
    t.upsert rows insert set pv = some ((rows pv).elim r fun k => set k r) := by
  unfold upsert
  cases rows pv with
  | none => exact hr
  | some k => rw [hr]; rfl

theorem upsert_of_eq_none {κ : Type} {rows : String → Option κ} (hrows : rows pv = none)
    (insert : κ → PvStatus) (set : κ → PvStatus → PvStatus) :
    t.upsert rows insert set pv = t pv := by
  unfold upsert
  rw [hrows]

theorem map_state_updateWhere {cond : String → PvStatus → Prop}
    [∀ name r, Decidable (cond name r)] {set : PvStatus → PvStatus}
    (h : ∀ r, t pv = some r → cond pv r → (set r).state = r.state) :
    (t.updateWhere cond set pv).map PvStatus.state = (t pv).map PvStatus.state := by
  cases hr : t pv with
  | none => rw [updateWhere, hr]; rfl
  | some r =>
    rw [updateWhere_of_eq_some hr, Option.map_some, Option.map_some, apply_ite PvStatus.state]
    split_ifs with hcond
    · rw [h r hr hcond]
    · rfl

theorem merge_of_eq_some (hr : t pv = some r) {ids : List Int32}
    (hid : ∃ id ∈ ids, r.pvId = some id) (now : ℕ) :
    t.merge ids now pv = some { r with
      lastEventAt := some now
      state := if r.state = .connected then .archiving else r.state } := by
  rw [merge, updateWhere_of_eq_some hr, if_pos hid]

/-- A row is archiving after the timeout detection exactly if it was before and is not timed
    out. -/
theorem detectTimeouts_state (hr : t pv = some r) (now : ℕ) :
    (t.detectTimeouts now pv).map PvStatus.state = some .archiving ↔
      r.state = .archiving ∧ ∀ at' ∈ r.lastEventAt, now ≤ at' + pvTimeout := by
  rw [detectTimeouts, updateWhere_of_eq_some hr, Option.map_some, Option.some_inj,
    apply_ite PvStatus.state]
  have hnot : ¬TimedOut r now ↔ r.state = .archiving →
      ∀ at' ∈ r.lastEventAt, now ≤ at' + pvTimeout := by
    unfold TimedOut
    push Not
    rfl
  split_ifs with htimedOut
  · refine iff_of_false not_false fun h => ?_
    exact hnot.2 (fun _ => h.2) htimedOut
  · exact ⟨fun h => ⟨h, hnot.1 htimedOut h⟩, And.left⟩

theorem map_state_ite (ok : Bool) {t' : PvStatusTable}
    (h : (t' pv).map PvStatus.state = (t pv).map PvStatus.state) :
    ((if ok then t' else t) pv).map PvStatus.state = (t pv).map PvStatus.state := by
  split_ifs
  · exact h
  · rfl

end PvStatusTable

namespace Status

open PvStatusTable

variable {s : Status} {pv : String} {r : PvStatus}

theorem unsubscribed_iff_of_row (hr : s.table pv = some r) :
    Unsubscribed pv s ↔ r.state = .unsubscribed := by
  unfold Unsubscribed stateOf
  rw [hr]
  exact Option.some_inj

/-- A statement that writes the state `state` of the PVs `names` and no other keeps the
    unsubscribed PVs exactly if it names none. -/
theorem rewrites_keeps_iff (s : Status) {s' : Status} {names : List String} (state : PvState)
    (hstate : state ≠ .unsubscribed)
    (h : ∀ pv r, s.table pv = some r → ∃ r', s'.table pv = some r' ∧
      r'.state = if pv ∈ names then state else r.state) :
    (∀ pv, Unsubscribed pv s → Unsubscribed pv s') ↔ ∀ pv ∈ names, ¬Unsubscribed pv s := by
  refine forall_congr' fun pv => ?_
  constructor
  · intro hkeeps hpv hunsub
    obtain ⟨r, hr, -⟩ := stateOf_eq_some.1 hunsub
    obtain ⟨r', hr', hr'state⟩ := h pv r hr
    rw [if_pos hpv] at hr'state
    exact hstate (hr'state.symm.trans ((unsubscribed_iff_of_row hr').1 (hkeeps hunsub)))
  · intro hnot hunsub
    obtain ⟨r, hr, hrstate⟩ := stateOf_eq_some.1 hunsub
    obtain ⟨r', hr', hr'state⟩ := h pv r hr
    rw [if_neg fun hpv => hnot hpv hunsub] at hr'state
    exact (unsubscribed_iff_of_row hr').2 (hr'state.trans hrstate)

theorem setState_keeps_iff (s : Status) (pvs : List String) (state : PvState)
    (hstate : state ≠ .unsubscribed) (ok : Bool) :
    (∀ pv, Unsubscribed pv s → Unsubscribed pv
      { s with table := if ok then s.table.setState pvs state else s.table }) ↔
    (ok → ∀ pv ∈ pvs, ¬Unsubscribed pv s) := by
  cases ok with
  | false => exact iff_of_true (fun _ h => h) fun h => absurd h Bool.false_ne_true
  | true =>
    rw [forall_prop_of_true rfl]
    refine s.rewrites_keeps_iff state hstate fun pv r hr => ?_
    rw [if_pos rfl]
    refine ⟨_, setState_of_eq_some hr pvs state, ?_⟩
    exact apply_ite PvStatus.state _ _ _

theorem drainMetadata_keeps_iff (s : Status) (raw : List (String × PvaValue))
    (statusOk storeOk : Bool) (inlineMetas : List String) (inlineOk : Bool) :
    (∀ pv, Unsubscribed pv s →
      Unsubscribed pv (s.drainMetadata raw statusOk storeOk inlineMetas inlineOk)) ↔
    (statusOk → (s.freshNames raw).Nodup → ∀ pv ∈ s.freshNames raw, ¬Unsubscribed pv s) := by
  rw [← and_imp]
  have htable : (s.drainMetadata raw statusOk storeOk inlineMetas inlineOk).table =
      if statusOk ∧ (s.freshNames raw).Nodup then s.table.firstValue (s.freshNames raw)
      else s.table := rfl
  by_cases hwrites : statusOk ∧ (s.freshNames raw).Nodup
  · rw [forall_prop_of_true hwrites]
    refine s.rewrites_keeps_iff .archiving PvState.noConfusion fun pv r hr => ?_
    rw [htable, if_pos hwrites]
    refine ⟨_, upsert_of_eq_some hr _ _ _, ?_⟩
    split_ifs <;> rfl
  · refine iff_of_true (fun pv hunsub => ?_) fun h => absurd h hwrites
    unfold Unsubscribed stateOf
    rw [htable, if_neg hwrites]
    exact hunsub

/-- A call keeps the unsubscribed PVs it does not subscribe exactly if it spares them. -/
theorem keepsUnsubscribed_iff (s : Status) (a : StatusAct) :
    (∀ pv, Unsubscribed pv s → ¬Subscribes pv a → Unsubscribed pv (s.step a)) ↔
      s.SparesUnsubscribed a := by
  cases a with
  | subscribe okPvs lookup ok =>
    refine iff_of_true (fun pv hunsub hnot => Eq.trans ?_ hunsub) trivial
    refine map_state_ite ok ?_
    rw [PvStatusTable.subscribe, upsert_of_eq_none (if_neg hnot)]
  | connect addr pvs stateOk addrOk =>
    refine iff_of_true (fun pv hunsub _ => Eq.trans ?_ hunsub) trivial
    refine (map_state_ite addrOk ?_).trans (map_state_ite stateOk ?_)
    · exact map_state_updateWhere fun _ _ _ => rfl
    · refine map_state_updateWhere fun r hr hcond => ?_
      rw [(unsubscribed_iff_of_row hr).1 hunsub] at hcond
      exact absurd hcond.2 (by decide)
  | disconnect pvs ok =>
    refine Iff.trans ?_ (s.setState_keeps_iff pvs .disconnected PvState.noConfusion ok)
    exact forall₂_congr fun pv _ => forall_prop_of_true not_false
  | reconnect pvs ok =>
    refine Iff.trans ?_ (s.setState_keeps_iff pvs .archiving PvState.noConfusion ok)
    exact forall₂_congr fun pv _ => forall_prop_of_true not_false
  | drainMetadata raw statusOk storeOk inlineMetas inlineOk =>
    refine Iff.trans ?_ (s.drainMetadata_keeps_iff raw statusOk storeOk inlineMetas inlineOk)
    exact forall₂_congr fun pv _ => forall_prop_of_true not_false
  | updatePvStatus snapshots mergeNow timeoutNow mergeOk timeoutOk =>
    refine iff_of_true (fun pv hunsub _ => ?_) trivial
    have hmerged : (s.merged snapshots mergeNow mergeOk pv).map PvStatus.state =
        some .unsubscribed := by
      refine (map_state_ite mergeOk (map_state_updateWhere fun r hr _ => ?_)).trans hunsub
      exact if_neg (by rw [(unsubscribed_iff_of_row hr).1 hunsub]; exact PvState.noConfusion)
    refine (map_state_ite timeoutOk (map_state_updateWhere fun r hr hcond => ?_)).trans hmerged
    rw [hr, Option.map_some, hcond.1] at hmerged
    cases hmerged
  | unsubscribe pvs ok =>
    refine iff_of_true (fun pv hunsub _ => Eq.trans ?_ hunsub) trivial
    refine map_state_ite ok (map_state_updateWhere fun r hr _ => ?_)
    exact ((unsubscribed_iff_of_row hr).1 hunsub).symm

theorem merged_of_eq_some (s : Status) (hr : s.table pv = some r) {snapshots : List PvStatsMap}
    (hid : ∃ id ∈ mergedIds snapshots, r.pvId = some id) (now : ℕ) {mergeOk : Bool}
    (hmergeOk : mergeOk = true) :
    s.merged snapshots now mergeOk pv = some { r with
      lastEventAt := some now
      state := if r.state = .connected then .archiving else r.state } := by
  rw [merged, if_pos hmergeOk]
  exact merge_of_eq_some hr hid now

/-- A merge leaves the subscribed PVs with new events archiving exactly if they are live. -/
theorem mergesToArchiving_iff (s : Status) (a : StatusAct) :
    s.MergesToArchiving a ↔ s.MergesLive a := by
  cases a with
  | updatePvStatus snapshots mergeNow timeoutNow mergeOk timeoutOk =>
    refine forall_congr' fun hmergeOk => forall₂_congr fun pv hnew => ?_
    obtain ⟨-, r, hr, hid⟩ := hnew
    have hstate : s.stateOf pv = some r.state := stateOf_eq_some.2 ⟨r, hr, rfl⟩
    have hmerged := s.merged_of_eq_some hr hid mergeNow hmergeOk
    show Option.map PvStatus.state ((if timeoutOk then
      (s.merged snapshots mergeNow mergeOk).detectTimeouts timeoutNow else _) pv) = _ ↔ _
    rw [hstate, Option.some_inj, Option.some_inj]
    have hlive : (if r.state = .connected then .archiving else r.state) = PvState.archiving ↔
        r.state = .connected ∨ r.state = .archiving := by
      split_ifs with hconnected
      · exact iff_of_true rfl (.inl hconnected)
      · exact (or_iff_right hconnected).symm
    cases timeoutOk with
    | false =>
      rw [if_neg Bool.false_ne_true, hmerged, Option.map_some, Option.some_inj, hlive]
      exact (and_iff_left fun h => absurd h Bool.false_ne_true).symm
    | true =>
      rw [if_pos rfl, detectTimeouts_state hmerged, hlive, forall_prop_of_true rfl]
      exact and_congr_right fun _ => by simp
  | _ => exact Iff.rfl

/-! ## Main theorem -/

/-- **Main theorem**: over a sequence of calls from any table, an unsubscribed PV stays
    unsubscribed until it is subscribed again and a subscribed PV with new events is archiving
    after the merge, exactly if every call spares the unsubscribed PVs and merges into live
    ones. -/
theorem lifecycle_iff (s : Status) (acts : List StatusAct) :
    (∀ pv, HeldUntil step (Unsubscribed pv) (Subscribes pv) s acts) ∧
      AlongSteps step MergesToArchiving s acts ↔
    AlongSteps step (fun s a => s.SparesUnsubscribed a ∧ s.MergesLive a) s acts := by
  have hheld : (∀ pv, HeldUntil step (Unsubscribed pv) (Subscribes pv) s acts) ↔
      AlongSteps step SparesUnsubscribed s acts := by
    rw [forall_congr' fun pv => heldUntil_iff, ← alongSteps_forall]
    exact alongSteps_congr (J := fun _ => True) (fun _ _ _ _ => trivial)
      (fun s a _ => s.keepsUnsubscribed_iff a) trivial acts
  have hmerges : AlongSteps step MergesToArchiving s acts ↔ AlongSteps step MergesLive s acts :=
    alongSteps_congr (J := fun _ => True) (fun _ _ _ _ => trivial)
      (fun s a _ => s.mergesToArchiving_iff a) trivial acts
  rw [hheld, hmerges, alongSteps_and]

/-- A lost connection that is handled after the PV was unsubscribed makes it disconnected, and
    a PV whose connection was not reported stays searching when its events are merged. -/
theorem unsubscribed_disconnected :
    let subscribe : StatusAct := .subscribe ["A"] (fun _ => some 7) true
    ¬HeldUntil step (Unsubscribed "A") (Subscribes "A") ⟨fun _ => none, [], []⟩
        [subscribe, .unsubscribe ["A"] true, .disconnect ["A"] true] ∧
      ¬AlongSteps step MergesToArchiving ⟨fun _ => none, [], []⟩
        [subscribe, .updatePvStatus [[(7, ⟨1, .one, 0⟩)]] 1 1 true true] := by
  intro subscribe
  constructor
  · intro hheld
    have hlast := hheld [subscribe, .unsubscribe ["A"] true] [.disconnect ["A"] true] [] rfl
      (by decide) (by simp [Subscribes])
    exact absurd hlast (by decide)
  · rintro ⟨-, hmerges, -⟩
    exact absurd (hmerges rfl "A" (by decide)) (by decide)

end Status

end AuraEpics.Main
