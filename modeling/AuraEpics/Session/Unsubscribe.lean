import AuraEpics.Lib.Runs
import AuraEpics.Session.Bulk

/-!
# Unsubscribing

What `remove_monitor_inline` (`crates/aura-net/src/runtime/session.rs`, lines 845-897) leaves
of a PV, in a session that has seen any sequence of `add_monitor_inline`, `add_monitors_bulk`
and `remove_monitor_inline`. It takes the first channel it finds under the name of the PV, does
nothing unless that one is active, and takes out one monitor and all the channels.

Closed channels stay in the table and a PV can be subscribed again, so that there may be
several channels and several monitors of one name.

* `Unsubscribed`: what is to hold after the call;
* `Removable`: the states in which it does, whatever the searches find first.

Result: `removals_effective_iff`, the calls of a run are effective exactly if each is made in
such a state.
-/

namespace AuraEpics.Session

open Runs

namespace SessionTables

/-- No monitor and no active channel of the PV is left, and those of the other PVs are as they
    were. -/
structure Unsubscribed (s : SessionTables) (pvName : String) (s' : SessionTables) : Prop where
  monitors : ∀ requestId mon, s'.monitors.lookup requestId = some mon ↔
    s.monitors.lookup requestId = some mon ∧ mon.pvName ≠ pvName
  inactive : ∀ clientId info, s'.channels.lookup clientId = some info → info.pvName = pvName →
    info.state.isActive = false
  channels : ∀ clientId info, info.pvName ≠ pvName →
    (s'.channels.lookup clientId = some info ↔ s.channels.lookup clientId = some info)

/-- A channel of the PV is active. -/
def HasActive (s : SessionTables) (pvName : String) : Prop :=
  ∃ clientId info, s.channels.lookup clientId = some info ∧ info.pvName = pvName ∧
    info.state.isActive = true

/-- The channels of the PV are active, and it has at most one monitor; or none of them is
    active, and it has no monitor. -/
def Removable (s : SessionTables) (pvName : String) : Prop :=
  (s.HasActive pvName ∧
    (∀ clientId info, s.channels.lookup clientId = some info → info.pvName = pvName →
      info.state.isActive = true) ∧
    ∀ a b mon mon', s.monitors.lookup a = some mon → s.monitors.lookup b = some mon' →
      mon.pvName = pvName → mon'.pvName = pvName → a = b) ∨
  (¬s.HasActive pvName ∧
    ∀ requestId mon, s.monitors.lookup requestId = some mon → mon.pvName ≠ pvName)

/-! ## Searches -/

theorem mem_entries_iff {β : Type*} {map : AList fun _ : ℤ => β} {key : ℤ} {v : β} :
    (⟨key, v⟩ : Sigma fun _ : ℤ => β) ∈ map.entries ↔ map.lookup key = some v :=
  AList.mem_lookup_iff.symm

theorem lookup_retain {β : Type*} (map : AList fun _ : ℤ => β) (keep : β → Bool) (key : ℤ)
    (v : β) : (retain map keep).lookup key = some v ↔ map.lookup key = some v ∧ keep v = true := by
  rw [← mem_entries_iff, ← mem_entries_iff]
  exact List.mem_filter

/-- A search finds an entry of the table that passes its test, or there is none. -/
theorem find_yields {β : Type*} (order : HashOrder (Sigma fun _ : ℤ => β))
    (map : AList fun _ : ℤ => β) (p : β → Bool) :
    (∃ key v, (order.yields map.entries).find? (fun e => p e.2) = some ⟨key, v⟩ ∧
      map.lookup key = some v ∧ p v = true) ∨
    ((order.yields map.entries).find? (fun e => p e.2) = none ∧
      ∀ key v, map.lookup key = some v → p v = false) := by
  cases hfind : (order.yields map.entries).find? (fun e => p e.2) with
  | some e =>
    have hp : p e.2 = true := by simpa using List.find?_some hfind
    refine .inl ⟨e.1, e.2, rfl, ?_, hp⟩
    exact mem_entries_iff.1 ((order.perm _).mem_iff.1 (List.mem_of_find?_eq_some hfind))
  | none =>
    refine .inr ⟨rfl, fun key v hv => ?_⟩
    have hmem := (order.perm _).mem_iff.2 (mem_entries_iff.2 hv)
    simpa using List.find?_eq_none.1 hfind _ hmem

/-- What `remove_monitor_inline` does. -/
inductive Removal (s : SessionTables) (pvName : String) : SessionTables → Prop where
  | noChannel (h : ∀ clientId info, s.channels.lookup clientId = some info →
      info.pvName ≠ pvName) : Removal s pvName s
  | notActive {clientId : ℤ} {info : ChannelInfo} (h : s.channels.lookup clientId = some info)
      (hname : info.pvName = pvName) (hactive : info.state.isActive = false) : Removal s pvName s
  | removed {clientId : ℤ} {info : ChannelInfo} {monitors : AList fun _ : ℤ => MonitorSubscription}
      (h : s.channels.lookup clientId = some info) (hname : info.pvName = pvName)
      (hactive : info.state.isActive = true)
      (hmonitors : (monitors = s.monitors ∧
          ∀ requestId mon, s.monitors.lookup requestId = some mon → mon.pvName ≠ pvName) ∨
        ∃ requestId mon, s.monitors.lookup requestId = some mon ∧ mon.pvName = pvName ∧
          monitors = s.monitors.erase requestId) :
      Removal s pvName { s with
        monitors, channels := retain s.channels fun info => info.pvName ≠ pvName }

theorem removal_removeMonitorInline (s : SessionTables) (pvName : String)
    (channelOrder : HashOrder (Sigma fun _ : ℤ => ChannelInfo))
    (monitorOrder : HashOrder (Sigma fun _ : ℤ => MonitorSubscription)) :
    Removal s pvName (s.removeMonitorInline pvName channelOrder monitorOrder) := by
  unfold removeMonitorInline
  obtain ⟨clientId, info, hfind, hinfo, hname⟩ | ⟨hfind, hnone⟩ :=
    find_yields channelOrder s.channels fun info => info.pvName = pvName
  · rw [hfind]
    dsimp only
    have hactive := info.state.serverId_isSome
    cases hserver : info.state.serverId with
    | none =>
      rw [hserver] at hactive
      exact .notActive hinfo (of_decide_eq_true hname) hactive.symm
    | some serverId =>
      rw [hserver] at hactive
      refine .removed hinfo (of_decide_eq_true hname) hactive.symm ?_
      obtain ⟨requestId, mon, hfind, hmon, hname⟩ | ⟨hfind, hnone⟩ :=
        find_yields monitorOrder s.monitors fun mon => mon.pvName = pvName
      · rw [hfind]
        exact .inr ⟨requestId, mon, hmon, of_decide_eq_true hname, rfl⟩
      · rw [hfind]
        exact .inl ⟨rfl, fun requestId mon hmon => of_decide_eq_false (hnone requestId mon hmon)⟩
  · rw [hfind]
    exact .noChannel fun clientId info hinfo => of_decide_eq_false (hnone clientId info hinfo)

/-- An order that meets an entry first. -/
def firstOrder (e : Sigma fun _ : ℤ => ChannelInfo) :
    HashOrder (Sigma fun _ : ℤ => ChannelInfo) where
  yields l := if e ∈ l then e :: l.erase e else l
  perm l := by
    split_ifs with h
    · exact (List.perm_cons_erase h).symm
    · exact List.Perm.refl l

/-- If the search meets a channel first that is not active, nothing is done. -/
theorem removeMonitorInline_of_first {s : SessionTables} {pvName : String} {clientId : ℤ}
    {info : ChannelInfo} (h : s.channels.lookup clientId = some info) (hname : info.pvName = pvName)
    (hactive : info.state.isActive = false)
    (monitorOrder : HashOrder (Sigma fun _ : ℤ => MonitorSubscription)) :
    s.removeMonitorInline pvName (firstOrder ⟨clientId, info⟩) monitorOrder = s := by
  have hfind : ((firstOrder ⟨clientId, info⟩).yields s.channels.entries).find?
      (fun e => e.2.pvName = pvName) = some ⟨clientId, info⟩ := by
    show (if _ then _ else _ : List _).find? _ = _
    rw [if_pos (mem_entries_iff.2 h)]
    exact List.find?_cons_of_pos (decide_eq_true hname)
  have hserver : info.state.serverId = none := by
    have hsome := info.state.serverId_isSome
    rw [hactive] at hsome
    exact Option.isNone_iff_eq_none.1 (Option.isSome_eq_false_iff.1 hsome)
  unfold removeMonitorInline
  rw [hfind]
  dsimp only
  rw [hserver]

/-! ## One call -/

theorem removable_of_unsubscribed {s : SessionTables} {pvName : String}
    (h : ∀ channelOrder monitorOrder,
      s.Unsubscribed pvName (s.removeMonitorInline pvName channelOrder monitorOrder)) :
    s.Removable pvName := by
  have hplain := h plainOrder plainOrder
  have hremoval := removal_removeMonitorInline s pvName plainOrder plainOrder
  generalize s.removeMonitorInline pvName plainOrder plainOrder = s' at hplain hremoval
  by_cases hactive : s.HasActive pvName
  · -- the call has an effect, whatever channel it finds
    have heffect : ¬s.Unsubscribed pvName s := by
      obtain ⟨clientId, info, hinfo, hname, hact⟩ := hactive
      intro hun
      rw [hun.inactive clientId info hinfo hname] at hact
      cases hact
    refine .inl ⟨hactive, fun clientId info hinfo hname => ?_, ?_⟩
    · by_contra hnot
      rw [Bool.not_eq_true] at hnot
      have hun := h (firstOrder ⟨clientId, info⟩) plainOrder
      rw [removeMonitorInline_of_first hinfo hname hnot] at hun
      exact heffect hun
    · cases hremoval with
      | noChannel => exact absurd hplain heffect
      | notActive => exact absurd hplain heffect
      | removed _ _ _ hmonitors =>
        intro a b mon mon' ha hb hmon hmon'
        obtain ⟨-, hnone⟩ | ⟨requestId, gone, -, -, rfl⟩ := hmonitors
        · exact absurd hmon (hnone a mon ha)
        · -- a monitor of the PV is the one that was taken out
          have honly : ∀ key m, s.monitors.lookup key = some m → m.pvName = pvName →
              key = requestId := by
            intro key m hm hname
            by_contra hne
            refine ((hplain.monitors key m).1 ?_).2 hname
            exact (AList.lookup_erase_ne hne).trans hm
          rw [honly a mon ha hmon, honly b mon' hb hmon']
  · refine .inr ⟨hactive, fun requestId mon hmon => ?_⟩
    cases hremoval with
    | noChannel => exact ((hplain.monitors requestId mon).1 hmon).2
    | notActive => exact ((hplain.monitors requestId mon).1 hmon).2
    | removed hinfo hname hact => exact absurd ⟨_, _, hinfo, hname, hact⟩ hactive

theorem unsubscribed_of_removable {s s' : SessionTables} {pvName : String} (h : s.Removable pvName)
    (hremoval : Removal s pvName s') : s.Unsubscribed pvName s' := by
  obtain ⟨⟨clientId, info, hinfo, hname, -⟩, hall, hone⟩ | ⟨hactive, hnone⟩ := h
  · cases hremoval with
    | noChannel hno => exact absurd hname (hno clientId info hinfo)
    | notActive hinfo' hname' hact =>
      rw [hall _ _ hinfo' hname'] at hact
      cases hact
    | removed _ _ _ hmonitors =>
      refine ⟨fun requestId mon => ?_, fun clientId info hleft hname => ?_,
        fun clientId info hname => ?_⟩
      · dsimp only
        obtain ⟨rfl, hnone⟩ | ⟨gone, old, hold, hname, rfl⟩ := hmonitors
        · exact (and_iff_left_of_imp (hnone requestId mon)).symm
        · by_cases hid : requestId = gone
          · subst hid
            rw [AList.lookup_erase, hold]
            refine iff_of_false (fun hnone => by cases hnone) ?_
            rintro ⟨heq, hne⟩
            exact hne (Option.some.inj heq ▸ hname)
          · rw [AList.lookup_erase_ne hid]
            refine (and_iff_left_of_imp fun hmon hname' => ?_).symm
            exact hid (hone requestId gone mon old hmon hold hname' hname)
      · have hkeep := ((lookup_retain _ _ _ _).1 hleft).2
        exact absurd hname (of_decide_eq_true hkeep)
      · dsimp only
        rw [lookup_retain]
        exact and_iff_left (decide_eq_true hname)
  · have hsame : s.Unsubscribed pvName s := by
      refine ⟨fun requestId mon => (and_iff_left_of_imp (hnone requestId mon)).symm,
        fun clientId info hinfo hname => ?_, fun _ _ _ => Iff.rfl⟩
      by_contra hact
      exact hactive ⟨clientId, info, hinfo, hname, Bool.not_eq_false _ ▸ hact⟩
    cases hremoval with
    | noChannel => exact hsame
    | notActive => exact hsame
    | removed hinfo hname hact => exact absurd ⟨_, _, hinfo, hname, hact⟩ hactive

/-- `remove_monitor_inline` is effective, whatever its searches find first, exactly in the
    states in which the PV is removable. -/
theorem unsubscribed_iff_removable (s : SessionTables) (pvName : String) :
    (∀ channelOrder monitorOrder,
      s.Unsubscribed pvName (s.removeMonitorInline pvName channelOrder monitorOrder)) ↔
      s.Removable pvName :=
  ⟨removable_of_unsubscribed, fun h channelOrder monitorOrder =>
    unsubscribed_of_removable h (removal_removeMonitorInline s pvName channelOrder monitorOrder)⟩

end SessionTables

/-! ## Runs -/

/-- The calls a session serves, with what is on the wire. -/
inductive SessionCall where
  | addMonitorInline (pvName : String) (sends : Sends) (wire : List (Option Frame))
  | addMonitorsBulk (pvNames : List String) (flushed : Bool) (order : HashOrder (String × ℤ))
      (wire : List (Option Frame))
  | removeMonitorInline (pvName : String)
      (channelOrder : HashOrder (Sigma fun _ : ℤ => ChannelInfo))
      (monitorOrder : HashOrder (Sigma fun _ : ℤ => MonitorSubscription))

namespace SessionTables

/-- One call. -/
def step (ids : ℕ → ℤ) (s : SessionTables) : SessionCall → SessionTables
  | .addMonitorInline pvName sends wire => (s.addMonitorInline ids pvName sends wire).2.1
  | .addMonitorsBulk pvNames flushed order wire =>
    (addMonitorsBulk ids s pvNames flushed order wire).2.1
  | .removeMonitorInline pvName channelOrder monitorOrder =>
    s.removeMonitorInline pvName channelOrder monitorOrder

/-- A removal is effective, whatever its searches find first. -/
def Effective (s : SessionTables) : SessionCall → Prop
  | .removeMonitorInline pvName _ _ => ∀ channelOrder monitorOrder,
    s.Unsubscribed pvName (s.removeMonitorInline pvName channelOrder monitorOrder)
  | _ => True

/-- A removal is made where the PV is removable. -/
def RemovesRemovable (s : SessionTables) : SessionCall → Prop
  | .removeMonitorInline pvName _ _ => s.Removable pvName
  | _ => True

/-- **Main theorem.** The removals of a run are effective exactly if each is made in a state in
    which the PV is removable. -/
theorem removals_effective_iff (ids : ℕ → ℤ) (calls : List SessionCall) :
    AlongSteps (step ids) Effective .new calls ↔ AlongSteps (step ids) RemovesRemovable .new calls := by
  refine alongSteps_congr (J := fun _ => True) (fun _ _ _ _ => trivial) (fun s call _ => ?_)
    trivial calls
  cases call with
  | addMonitorInline pvName sends wire => exact Iff.rfl
  | addMonitorsBulk pvNames flushed order wire => exact Iff.rfl
  | removeMonitorInline pvName channelOrder monitorOrder =>
    exact unsubscribed_iff_removable s pvName

/-- The answers to a channel and a monitor that are both accepted. -/
def accepted (clientId requestId : ℤ) : List (Option Frame) :=
  [some (.createChannel (some ⟨clientId, 10, ⟨.ok, ""⟩⟩)),
    some (.monitor (some (.init requestId (some ⟨.ok, ""⟩) (some (.scalar .double)))))]

/-- A PV that is subscribed twice keeps one of its monitors. -/
theorem subscribedTwice_left :
    ¬AlongSteps (step plainIds.id) Effective .new
      [.addMonitorInline "A" ⟨true, true, true⟩ (accepted 0 1),
        .addMonitorInline "A" ⟨true, true, true⟩ (accepted 2 3),
        .removeMonitorInline "A" plainOrder plainOrder] := by
  intro h
  have hremoved := h.2.2.1 plainOrder plainOrder
  exact ((hremoved.monitors 1 ⟨"A", some (.scalar .double)⟩).1 rfl).2 rfl

end SessionTables

end AuraEpics.Session
