import AuraEpics.Ingest.Beats

/-!
# Histories of the heartbeat tracker

Any order of `set_pv_heartbeat`, `record_store` and `emit_heartbeats`, each scan with a
configuration and a set of active PVs of its own (`crates/aura-ingest/src/heartbeat.rs`).

Results:
* `scanRows_content`: what a heartbeat carries and how far it is from the rows before it;
* `silent_iff`: a scan without a PV silences it until its next `record_store` exactly when it
  gets as far as the check of the active set, or there is nothing to silence.
-/

namespace AuraEpics.Ingest

open Numeric Latest Runs AuraEpics.Core AuraEpics.Store

/-- What a scan reads: the configuration, the active set and the clocks. -/
structure Scan where
  config : HeartbeatConfig
  active : Int32 → Bool
  now : ℕ
  nowPgUs : Int64

/-- The calls of the tracker. -/
inductive TrackerAct where
  | setPvHeartbeat (now : ℕ) (pvId : Int32) (heartbeatS : Binary64)
  | recordStore (pvId : Int32) (value : Binary64) (severity status : Int16) (now : ℕ)
  | emitHeartbeats (s : Scan)

/-- The instant of the call. -/
def TrackerAct.now : TrackerAct → ℕ
  | .setPvHeartbeat now _ _ => now
  | .recordStore _ _ _ _ now => now
  | .emitHeartbeats s => s.now

/-- The call is a `record_store` of the PV. -/
def TrackerAct.records (id : Int32) : TrackerAct → Bool
  | .recordStore pvId _ _ _ _ => pvId = id
  | _ => false

/-- What `record_store` is given. -/
structure Sample where
  value : Binary64
  severity : Int16
  status : Int16
  deriving DecidableEq, Repr

namespace HeartbeatTracker

variable (before : ℕ → Binary32 → Bool)

/-- The rows a scan pushes. -/
def scanRows (t : HeartbeatTracker) (s : Scan) : List ScalarRow :=
  (t.emitHeartbeats before s.config s.active s.now s.nowPgUs).2.1

/-- One call. -/
def step (t : HeartbeatTracker) : TrackerAct → HeartbeatTracker
  | .setPvHeartbeat now pvId heartbeatS => t.setPvHeartbeat now pvId heartbeatS
  | .recordStore pvId value severity status now => t.recordStore pvId value severity status now
  | .emitHeartbeats s => (t.emitHeartbeats before s.config s.active s.now s.nowPgUs).2.2

/-! ## What a history says -/

/-- The values `record_store` was given, oldest first. -/
def stores (as : List TrackerAct) : List (Int32 × Sample) :=
  as.filterMap fun
    | .recordStore pvId value severity status _ => some (pvId, ⟨value, severity, status⟩)
    | _ => none

/-- The settings a call applies, where `ptr` is the configuration applied last. -/
def settingsOf (ptr : ℕ) : TrackerAct → List (Int32 × Binary64)
  | .setPvHeartbeat _ pvId heartbeatS => [(pvId, heartbeatS)]
  | .recordStore .. => []
  | .emitHeartbeats s => appliedBy ptr s.config

/-- The configuration applied last. -/
def nextPtr (ptr : ℕ) : TrackerAct → ℕ
  | .emitHeartbeats s => s.config.ptr
  | _ => ptr

/-- The settings the calls apply, oldest first. -/
def settings (as : List TrackerAct) : List (Int32 × Binary64) := outputs nextPtr settingsOf 0 as

/-- The effective interval of a PV: what was set for it last, unless that is negative or
    nothing was, and else the default. -/
def effectiveInterval (defaultHs : Binary32) (as : List TrackerAct) (id : Int32) : Binary32 :=
  match latest (settings as) id with
  | none => defaultHs
  | some hs => if hs.toBinary32.ltZero then defaultHs else hs.toBinary32

/-- The instant of a `record_store` of the PV or of a row for it. -/
def rowTimeOf (id : Int32) (t : HeartbeatTracker) : TrackerAct → List ℕ
  | .setPvHeartbeat .. => []
  | .recordStore pvId _ _ _ now => if pvId = id then [now] else []
  | .emitHeartbeats s => if id ∈ (t.scanRows before s).map ScalarRow.pvId then [s.now] else []

/-- The instants of the `record_store`s and of the heartbeats of the PV. -/
def rowTimes (defaultHs : Binary32) (as : List TrackerAct) (id : Int32) : List ℕ :=
  outputs (step before) (rowTimeOf before id) (new defaultHs) as

/-! ## Unsubscribing -/

/-- A scan without the PV leaves nothing cached for it: nothing was, or neither the tracker nor
    the PV is switched off once the scan has reloaded the configuration. -/
def Invalidates (t : HeartbeatTracker) (s : Scan) (id : Int32) : Prop :=
  t.cached id = none ∨
    (t.reload s.now s.config).isDisabled = false ∧
      ((t.reload s.now s.config).effective id).leZero = false

instance (t : HeartbeatTracker) (s : Scan) (id : Int32) : Decidable (t.Invalidates s id) :=
  inferInstanceAs (Decidable (_ ∨ _ ∧ _))

theorem step_wellSized (t : HeartbeatTracker) (a : TrackerAct) (ht : t.WellSized) :
    (t.step before a).WellSized := by
  cases a with
  | setPvHeartbeat now pvId hs => exact setPvHeartbeat_wellSized t now pvId hs ht
  | recordStore pvId value severity status now =>
    exact recordStore_wellSized t pvId value severity status now ht
  | emitHeartbeats s => exact emitHeartbeats_wellSized before _ _ _ _ t ht

theorem new_wellSized (defaultHs : Binary32) : (new defaultHs).WellSized := Nat.zero_le _

theorem run_wellSized (defaultHs : Binary32) (as : List TrackerAct) :
    (run (step before) (new defaultHs) as).WellSized :=
  (alongStates_of_step (step_wellSized before) (new_wellSized defaultHs) as).last

theorem scanned_none (before : ℕ → Binary32 → Bool) (active : Int32 → Bool) (now : ℕ)
    (hs : Binary32) (id : Int32) : scanned before active now hs id none = none := by
  unfold scanned
  split_ifs <;> rfl

/-- Only `record_store` puts a value back. -/
theorem step_cached_none (t : HeartbeatTracker) {id : Int32} {a : TrackerAct}
    (ha : a.records id = false) (h : t.cached id = none) : (t.step before a).cached id = none := by
  cases a with
  | setPvHeartbeat now pvId hs => exact (setPvHeartbeat_cached t now pvId hs id).trans h
  | recordStore pvId value severity status now =>
    have hne : ¬pvId = id := of_decide_eq_false ha
    show (t.recordStore pvId value severity status now).cached id = none
    rw [recordStore_cached, if_neg fun hid => hne hid.1, h]
  | emitHeartbeats s =>
    show (t.emitHeartbeats before s.config s.active s.now s.nowPgUs).2.2.cached id = none
    rw [emitHeartbeats_cached, h, scanned_none]
    exact ite_self _

theorem cached_after_absent (t : HeartbeatTracker) {s : Scan} {id : Int32}
    (habsent : s.active id = false) :
    (t.step before (.emitHeartbeats s)).cached id =
      if t.Invalidates s id then none else t.cached id := by
  show (t.emitHeartbeats before s.config s.active s.now s.nowPgUs).2.2.cached id = _
  rw [emitHeartbeats_cached]
  unfold scanned
  by_cases hnone : t.cached id = none
  · rw [if_pos (show t.Invalidates s id from .inl hnone), hnone]
    split_ifs <;> rfl
  by_cases hdisabled : (t.reload s.now s.config).isDisabled = true
  · have hkept : ¬t.Invalidates s id := fun h => h.elim hnone fun h => by simp [hdisabled] at h
    rw [if_pos hdisabled, if_neg hkept]
  rw [if_neg hdisabled]
  by_cases hzero : ((t.reload s.now s.config).effective id).leZero = true
  · have hkept : ¬t.Invalidates s id := fun h => h.elim hnone fun h => by simp [hzero] at h
    rw [if_pos hzero, if_neg hkept]
  · have hgone : t.Invalidates s id :=
      .inr ⟨Bool.not_eq_true _ ▸ hdisabled, Bool.not_eq_true _ ▸ hzero⟩
    rw [if_neg hzero, if_pos hgone, habsent]
    rfl

/-- One second, as `set_pv_heartbeat` gets it. -/
theorem toBinary32_one : Binary64.one.toBinary32 = ⟨0x3F800000⟩ := by decide +kernel

/-- A scan that finds the configuration it has already applied. -/
theorem reload_same (t : HeartbeatTracker) (now : ℕ) (intervals : List (Int32 × Binary32)) :
    t.reload now ⟨t.configPtr, intervals⟩ = t := if_pos rfl

/-- A PV with a cached value gets a row from some later scan: its interval is set to one second
    and a scan that finds it active comes a second after its last row. -/
theorem beats_later (t : HeartbeatTracker) (ht : t.WellSized) {id : Int32} {c : Cached}
    (hc : t.cached id = some c) :
    ∃ mid s, (∀ a ∈ mid, TrackerAct.records id a = false) ∧
      ∃ row ∈ (run (step elapsedBefore) t mid).scanRows elapsedBefore s, row.pvId = id := by
  have hid : Tracked id := tracked_of_cached ht hc
  let t' := t.setPvHeartbeat 0 id Binary64.one
  have hoverride : t'.isDisabled = false := by
    unfold isDisabled
    rw [setPvHeartbeat_override, show isOverride (id, Binary64.one) = true from
        Bool.and_eq_true_iff.2 ⟨decide_eq_true hid, (by decide : Binary64.one.gtZero = true)⟩,
      Bool.or_true, Bool.not_true, Bool.and_false]
  have heffective : t'.effective id = ⟨0x3F800000⟩ := by
    unfold effective
    rw [setPvHeartbeat_interval, if_pos ⟨rfl, hid⟩, toBinary32_one]
    exact if_neg (by decide +kernel)
  let s : Scan := ⟨⟨t'.configPtr, []⟩, fun _ => true, c.storedAt + 10 ^ 9, 0⟩
  refine ⟨[.setPvHeartbeat 0 id Binary64.one], s, ?_, heartbeatRow 0 id c, ?_, rfl⟩
  · intro a ha
    rw [List.mem_singleton.1 ha]
    rfl
  show heartbeatRow 0 id c ∈ t'.scanRows elapsedBefore s
  unfold scanRows
  rw [mem_emitHeartbeats _ _ _ _ _ _ (setPvHeartbeat_wellSized t 0 id Binary64.one ht),
    reload_same]
  refine ⟨hoverride, c, (setPvHeartbeat_cached t 0 id Binary64.one id).trans hc, ⟨?_, rfl, ?_⟩, rfl⟩
  · show (t'.effective id).leZero = false
    rw [heffective]
    decide +kernel
  · show elapsedBefore (c.storedAt + 10 ^ 9 - c.storedAt) (t'.effective id) = false
    rw [heffective, Nat.add_sub_cancel_left]
    decide +kernel

/-- Nothing cached, no row. -/
theorem cached_of_row {t : HeartbeatTracker} (ht : t.WellSized) {s : Scan} {row : ScalarRow}
    (h : row ∈ t.scanRows before s) : ∃ c, t.cached row.pvId = some c := by
  obtain ⟨-, c, hc, -⟩ := (mem_emitHeartbeats _ _ _ _ _ _ ht).1 h
  exact ⟨c, hc⟩

/-- **Main theorem.** After any history a scan without the PV keeps every later scan from
    pushing a row for it, until a `record_store` of the PV, exactly when it invalidates what is
    cached. -/
theorem silent_iff (defaultHs : Binary32) (pre : List TrackerAct) (s : Scan) (id : Int32)
    (habsent : s.active id = false) :
    (∀ mid s', (∀ a ∈ mid, TrackerAct.records id a = false) →
      ∀ row ∈ (run (step elapsedBefore) (new defaultHs)
          (pre ++ .emitHeartbeats s :: mid)).scanRows elapsedBefore s',
        row.pvId ≠ id) ↔
      (run (step elapsedBefore) (new defaultHs) pre).Invalidates s id := by
  have ht := run_wellSized elapsedBefore defaultHs pre
  generalize hstate : run (step elapsedBefore) (new defaultHs) pre = t at ht
  have hrun (mid : List TrackerAct) :
      run (step elapsedBefore) (new defaultHs) (pre ++ .emitHeartbeats s :: mid) =
        run (step elapsedBefore) (t.step elapsedBefore (.emitHeartbeats s)) mid := by
    rw [run_append, hstate]
    rfl
  have hsized := step_wellSized elapsedBefore t (.emitHeartbeats s) ht
  have hcached := cached_after_absent elapsedBefore t habsent
  generalize t.step elapsedBefore (.emitHeartbeats s) = u at hrun hsized hcached
  constructor
  · intro hsilent
    by_contra hkept
    rw [if_neg hkept] at hcached
    obtain ⟨c, hc⟩ := Option.ne_none_iff_exists'.1 fun hnone => hkept (.inl hnone)
    obtain ⟨mid, s', hmid, row, hrow, hid⟩ := beats_later u hsized (hcached.trans hc)
    exact hsilent mid s' hmid row (by rwa [hrun]) hid
  · intro hgone mid s' hmid row hrow hid
    rw [if_pos hgone] at hcached
    rw [hrun] at hrow
    have hnone : (run (step elapsedBefore) u mid).cached id = none :=
      ((alongSteps_of_mem hmid).invariant
        (fun t a ha h => step_cached_none elapsedBefore t ha h) hcached).last
    have hsized' : (run (step elapsedBefore) u mid).WellSized :=
      (alongStates_of_step (step_wellSized elapsedBefore) hsized mid).last
    obtain ⟨c, hc⟩ := cached_of_row elapsedBefore hsized' hrow
    rw [hid, hnone] at hc
    cases hc

/-- A PV with an interval of 5 s is switched off while it is unsubscribed, and switched on
    again. -/
def switchedOff : List TrackerAct :=
  [.setPvHeartbeat 0 1 ⟨0x4014000000000000⟩, .recordStore 1 .one 0 0 0,
    .setPvHeartbeat 0 1 .zero]

/-- The value stored before the scan without the PV comes back as a heartbeat. -/
theorem switchedOff_beats :
    let absent : Scan := ⟨⟨0, []⟩, fun _ => false, 10 ^ 10, 0⟩
    let present : Scan := ⟨⟨0, []⟩, fun _ => true, 2 * 10 ^ 10, 0⟩
    let again := TrackerAct.setPvHeartbeat 0 1 ⟨0x4014000000000000⟩
    again.records 1 = false ∧
      (run (step elapsedBefore) (new ⟨0⟩)
          (switchedOff ++ [.emitHeartbeats absent, again])).scanRows elapsedBefore present =
        [heartbeatRow 0 1 ⟨.one, 0, 0, 0⟩] := by
  decide +kernel

theorem silent_iff_default :
    let absent : Scan := ⟨⟨0, []⟩, fun _ => false, 10 ^ 10, 0⟩
    let pre := [TrackerAct.recordStore 1 .one 0 0 0]
    (∀ mid s', (∀ a ∈ mid, TrackerAct.records 1 a = false) →
      ∀ row ∈ (run (step elapsedBefore) (new ⟨0x40A00000⟩)
          (pre ++ .emitHeartbeats absent :: mid)).scanRows elapsedBefore s',
        row.pvId ≠ 1) :=
  (silent_iff ⟨0x40A00000⟩ [.recordStore 1 .one 0 0 0] ⟨⟨0, []⟩, fun _ => false, 10 ^ 10, 0⟩ 1
    rfl).2 (by decide +kernel)

/-! ## Content and spacing -/

/-- What the tracker knows after a history. -/
structure Knows (defaultHs : Binary32) (as : List TrackerAct) (t : HeartbeatTracker) : Prop where
  sized : t.WellSized
  default : t.defaultHeartbeatS = defaultHs
  ptr : t.configPtr = run nextPtr 0 as
  override : t.hasExplicitOverride = (settings as).any isOverride
  interval : ∀ id, Tracked id →
    t.interval id = ((latest (settings as) id).map Binary64.toBinary32).getD ⟨0xBF800000⟩
  cached : ∀ id c, t.cached id = some c → ∃ x, latest (stores as) id = some x ∧
    c.value = x.value ∧ c.severity = max x.severity 0 ∧ c.status = x.status ∧
    (rowTimes before defaultHs as id).getLast? = some c.storedAt

theorem Knows.effective {defaultHs : Binary32} {as : List TrackerAct} {t : HeartbeatTracker}
    (h : t.Knows before defaultHs as) {id : Int32} (hid : Tracked id) :
    t.effective id = effectiveInterval defaultHs as id := by
  unfold HeartbeatTracker.effective effectiveInterval
  rw [h.interval id hid, h.default]
  cases latest (settings as) id with
  | none => exact if_pos (show (⟨0xBF800000⟩ : Binary32).ltZero = true by decide +kernel)
  | some hs => rfl

theorem exactlyBefore_mono {ns ns' : ℕ} (hle : ns ≤ ns') {hs : Binary32}
    (h : exactlyBefore ns hs = false) : exactlyBefore ns' hs = false :=
  Binary32.below_mono (by gcongr) h

theorem rowTimeOf_eq {id : Int32} {t : HeartbeatTracker} {a : TrackerAct} {at' : ℕ}
    (h : at' ∈ rowTimeOf before id t a) : at' = a.now := by
  cases a with
  | setPvHeartbeat now pvId hs => cases h
  | recordStore pvId value severity status now =>
    unfold rowTimeOf at h
    dsimp only at h
    split_ifs at h
    · exact List.mem_singleton.1 h
    · cases h
  | emitHeartbeats s =>
    unfold rowTimeOf at h
    dsimp only at h
    split_ifs at h
    · exact List.mem_singleton.1 h
    · cases h

/-- The PVs a scan pushes rows for. -/
theorem mem_scanRows_pvId {t : HeartbeatTracker} (ht : t.WellSized) (s : Scan) (id : Int32) :
    id ∈ (t.scanRows before s).map ScalarRow.pvId ↔
      (t.reload s.now s.config).isDisabled = false ∧ ∃ c, t.cached id = some c ∧
        Due before s.active s.now ((t.reload s.now s.config).effective id) id c := by
  rw [List.mem_map]
  constructor
  · rintro ⟨row, hrow, rfl⟩
    obtain ⟨henabled, c, hc, hdue, -⟩ := (mem_emitHeartbeats _ _ _ _ _ _ ht).1 hrow
    exact ⟨henabled, c, hc, hdue⟩
  · rintro ⟨henabled, c, hc, hdue⟩
    exact ⟨heartbeatRow s.nowPgUs id c,
      (mem_emitHeartbeats _ _ _ _ _ _ ht).2 ⟨henabled, c, hc, hdue, rfl⟩, rfl⟩

/-- A scan that finds the PV active changes only the age of what is cached. -/
theorem cached_after_active {t : HeartbeatTracker} (ht : t.WellSized) {s : Scan} {id : Int32}
    (hactive : s.active id = true) {c : Cached} (hc : t.cached id = some c) :
    (t.step before (.emitHeartbeats s)).cached id =
      some (if id ∈ (t.scanRows before s).map ScalarRow.pvId then { c with storedAt := s.now }
        else c) := by
  show (t.emitHeartbeats before s.config s.active s.now s.nowPgUs).2.2.cached id = _
  rw [emitHeartbeats_cached, hc]
  have hrow := mem_scanRows_pvId before ht s id
  by_cases hdisabled : (t.reload s.now s.config).isDisabled = true
  · have hno : id ∉ (t.scanRows before s).map ScalarRow.pvId := fun h =>
      absurd (hdisabled.symm.trans (hrow.1 h).1) (by decide)
    rw [if_pos hdisabled, if_neg hno]
  rw [if_neg hdisabled]
  have hdue : id ∈ (t.scanRows before s).map ScalarRow.pvId ↔
      Due before s.active s.now ((t.reload s.now s.config).effective id) id c := by
    rw [hrow]
    constructor
    · rintro ⟨-, d, hd, hdue⟩
      obtain rfl : c = d := Option.some.inj (hc.symm.trans hd)
      exact hdue
    · exact fun hdue => ⟨Bool.not_eq_true _ ▸ hdisabled, c, hc, hdue⟩
  unfold scanned
  by_cases hzero : ((t.reload s.now s.config).effective id).leZero = true
  · have hno : id ∉ (t.scanRows before s).map ScalarRow.pvId := fun h =>
      absurd (hzero.symm.trans (hdue.1 h).enabled) (by decide)
    rw [if_pos hzero, if_neg hno]
  rw [if_neg hzero, hactive, if_neg (by decide), Option.map_some]
  split_ifs with helapsed hpushed hpushed
  · exact absurd (helapsed.symm.trans (hdue.1 hpushed).elapsed) (by decide)
  · rfl
  · rfl
  · exact absurd (hdue.2 ⟨by simpa using hzero, hactive, by simpa using helapsed⟩) hpushed

/-- Where a cached value comes from: the call recorded it, or it was there before, and then it
    is as old as before unless a row for it was pushed. -/
theorem step_cached_some {t : HeartbeatTracker} (ht : t.WellSized) {a : TrackerAct} {id : Int32}
    {c' : Cached} (h : (t.step before a).cached id = some c') :
    (∃ value severity status now, a = .recordStore id value severity status now ∧
      c' = ⟨value, max severity 0, status, now⟩) ∨
    ∃ c, a.records id = false ∧ t.cached id = some c ∧
      ((c' = c ∧ rowTimeOf before id t a = []) ∨
        c' = { c with storedAt := a.now } ∧ rowTimeOf before id t a = [a.now]) := by
  cases a with
  | setPvHeartbeat now pvId hs =>
    have hc : t.cached id = some c' := (setPvHeartbeat_cached t now pvId hs id).symm.trans h
    exact .inr ⟨c', rfl, hc, .inl ⟨rfl, rfl⟩⟩
  | recordStore pvId value severity status now =>
    change (t.recordStore pvId value severity status now).cached id = some c' at h
    rw [recordStore_cached] at h
    by_cases heq : pvId = id
    · subst heq
      have hid : Tracked pvId := tracked_of_cached (recordStore_wellSized t _ _ _ _ _ ht)
        (by rw [recordStore_cached]; exact h)
      rw [if_pos ⟨rfl, hid⟩] at h
      exact .inl ⟨value, severity, status, now, rfl, (Option.some.inj h).symm⟩
    · rw [if_neg fun hid => heq hid.1] at h
      exact .inr ⟨c', decide_eq_false heq, h, .inl ⟨rfl, if_neg heq⟩⟩
  | emitHeartbeats s =>
    cases hcached : t.cached id with
    | none => rw [step_cached_none before t rfl hcached] at h; cases h
    | some c =>
      refine .inr ⟨c, rfl, rfl, ?_⟩
      by_cases hactive : s.active id = true
      · rw [cached_after_active before ht hactive hcached] at h
        obtain rfl := Option.some.inj h
        split_ifs with hrow
        · exact .inr ⟨rfl, if_pos hrow⟩
        · exact .inl ⟨rfl, if_neg hrow⟩
      · rw [cached_after_absent before t (Bool.not_eq_true _ ▸ hactive)] at h
        split_ifs at h with hkept
        obtain rfl : c = c' := Option.some.inj (hcached.symm.trans h)
        refine .inl ⟨rfl, if_neg fun hrow => ?_⟩
        obtain ⟨-, d, -, hdue⟩ := (mem_scanRows_pvId before ht s id).1 hrow
        exact hactive hdue.active

theorem step_default (t : HeartbeatTracker) (a : TrackerAct) :
    (t.step before a).defaultHeartbeatS = t.defaultHeartbeatS ∧
      (t.step before a).configPtr = nextPtr t.configPtr a := by
  cases a with
  | setPvHeartbeat now pvId hs =>
    exact ⟨setPvHeartbeat_default t now pvId hs, setPvHeartbeat_configPtr t now pvId hs⟩
  | recordStore pvId value severity status now =>
    exact recordStore_default t pvId value severity status now
  | emitHeartbeats s => exact emitHeartbeats_default before _ _ _ _ t

theorem step_override (t : HeartbeatTracker) (a : TrackerAct) :
    (t.step before a).hasExplicitOverride =
      (t.hasExplicitOverride || (settingsOf t.configPtr a).any isOverride) := by
  cases a with
  | setPvHeartbeat now pvId hs =>
    refine (setPvHeartbeat_override t now pvId hs).trans ?_
    rw [settingsOf, List.any_cons, List.any_nil, Bool.or_false]
  | recordStore pvId value severity status now =>
    show (t.recordStore pvId value severity status now).hasExplicitOverride = _
    unfold recordStore
    split_ifs <;> exact (Bool.or_false _).symm
  | emitHeartbeats s =>
    exact (emitHeartbeats_override before _ _ _ _ t).trans (reload_override t s.now s.config)

theorem step_interval (t : HeartbeatTracker) (a : TrackerAct) {id : Int32} (hid : Tracked id) :
    (t.step before a).interval id =
      ((latest (settingsOf t.configPtr a) id).map Binary64.toBinary32).getD (t.interval id) := by
  cases a with
  | setPvHeartbeat now pvId hs =>
    show (t.setPvHeartbeat now pvId hs).interval id =
      ((latest ([] ++ [(pvId, hs)]) id).map Binary64.toBinary32).getD (t.interval id)
    rw [setPvHeartbeat_interval, latest_concat]
    by_cases heq : pvId = id
    · rw [if_pos ⟨heq, hid⟩, if_pos heq.symm]
      rfl
    · rw [if_neg fun h => heq h.1, if_neg fun h => heq h.symm]
      rfl
  | recordStore pvId value severity status now =>
    exact recordStore_interval t pvId value severity status now id
  | emitHeartbeats s =>
    exact (emitHeartbeats_interval before _ _ _ _ t id).trans
      (reload_interval t s.now s.config hid)

theorem latest_stores_concat {as : List TrackerAct} {a : TrackerAct} {id : Int32}
    (h : a.records id = false) : latest (stores (as ++ [a])) id = latest (stores as) id := by
  unfold stores
  rw [List.filterMap_append]
  cases a with
  | recordStore pvId value severity status now =>
    have hne : ¬pvId = id := of_decide_eq_false h
    exact (latest_concat _ _ _).trans (if_neg fun heq => hne heq.symm)
  | _ => exact congrArg (latest · id) (List.append_nil _)

/-- One call more. -/
theorem knows_step {defaultHs : Binary32} {as : List TrackerAct} (a : TrackerAct)
    (h : (run (step before) (new defaultHs) as).Knows before defaultHs as) :
    ((run (step before) (new defaultHs) as).step before a).Knows before defaultHs (as ++ [a]) := by
  have hrowTimes (id : Int32) : rowTimes before defaultHs (as ++ [a]) id =
      rowTimes before defaultHs as id ++
        rowTimeOf before id (run (step before) (new defaultHs) as) a := outputs_concat ..
  generalize run (step before) (new defaultHs) as = t at h hrowTimes ⊢
  refine ⟨step_wellSized before t a h.sized, (step_default before t a).1.trans h.default,
    ?_, ?_, ?_, ?_⟩
  · rw [(step_default before t a).2, h.ptr, run_append]
    rfl
  · unfold settings
    rw [outputs_concat, List.any_append, step_override, h.ptr, h.override]
    rfl
  · intro id hid
    unfold settings
    rw [outputs_concat, latest_append, step_interval before t a hid, h.ptr, h.interval id hid]
    cases latest (settingsOf (run nextPtr 0 as) a) id <;> rfl
  · intro id c' hc'
    rw [hrowTimes]
    obtain ⟨value, severity, status, now, rfl, rfl⟩ | ⟨c, hrecords, hc, hcase⟩ :=
      step_cached_some before h.sized hc'
    · refine ⟨⟨value, severity, status⟩, ?_, rfl, rfl, rfl, ?_⟩
      · unfold stores
        rw [List.filterMap_append]
        exact (latest_concat _ _ _).trans (if_pos rfl)
      · unfold rowTimeOf
        dsimp only
        rw [if_pos rfl, List.getLast?_concat]
    · obtain ⟨x, hx, hvalue, hseverity, hstatus, hlast⟩ := h.cached id c hc
      rw [latest_stores_concat hrecords]
      obtain ⟨rfl, hno⟩ | ⟨rfl, hrow⟩ := hcase
      · refine ⟨x, hx, hvalue, hseverity, hstatus, ?_⟩
        rw [hno, List.append_nil]
        exact hlast
      · refine ⟨x, hx, hvalue, hseverity, hstatus, ?_⟩
        rw [hrow, List.getLast?_concat]

theorem knows_run (defaultHs : Binary32) (as : List TrackerAct) :
    (run (step before) (new defaultHs) as).Knows before defaultHs as := by
  induction as using List.reverseRecOn with
  | nil => exact ⟨new_wellSized defaultHs, rfl, rfl, rfl, fun _ _ => rfl, fun _ _ h => by cases h⟩
  | append_singleton as a ih =>
    rw [run_append]
    exact knows_step before a ih

/-- Where the calls are in the order of time, so are the rows. -/
theorem rowTimes_pairwise (defaultHs : Binary32) (as : List TrackerAct) (id : Int32)
    (htimes : (as.map TrackerAct.now).Pairwise (· ≤ ·)) :
    (rowTimes before defaultHs as id).Pairwise (· ≤ ·) := by
  induction as using List.reverseRecOn with
  | nil => exact .nil
  | append_singleton as a ih =>
    rw [List.map_append, List.pairwise_append] at htimes
    obtain ⟨hpast, -, hlast⟩ := htimes
    unfold rowTimes
    rw [outputs_concat, List.pairwise_append]
    refine ⟨ih hpast, ?_, fun x hx y hy => ?_⟩
    · cases a with
      | setPvHeartbeat now pvId hs => exact .nil
      | recordStore pvId value severity status now =>
        unfold rowTimeOf
        dsimp only
        split_ifs
        · exact List.pairwise_singleton _ _
        · exact .nil
      | emitHeartbeats s =>
        unfold rowTimeOf
        dsimp only
        split_ifs
        · exact List.pairwise_singleton _ _
        · exact .nil
    · obtain ⟨pre, b, post, rfl, hb⟩ := mem_outputs hx
      rw [rowTimeOf_eq before hb, rowTimeOf_eq before hy]
      exact hlast b.now (List.mem_map_of_mem (by simp)) a.now (List.mem_singleton_self _)

theorem le_of_getLast? {l : List ℕ} (h : l.Pairwise (· ≤ ·)) {n : ℕ} (hn : l.getLast? = some n) :
    ∀ m ∈ l, m ≤ n := by
  obtain ⟨l', rfl⟩ := List.getLast?_eq_some_iff.1 hn
  intro m hm
  obtain hm | hm := List.mem_append.1 hm
  · exact (List.pairwise_append.1 h).2.2 m hm n (List.mem_singleton_self n)
  · exact (List.mem_singleton.1 hm).le

/-- **Main theorem.** After any history in the order of time, the rows a scan pushes belong to
    different PVs of the active set; each carries the value, severity and status of the latest
    `record_store` of its PV, and the effective interval of the PV is positive and has passed
    since every earlier `record_store` and every earlier heartbeat of it. -/
theorem scanRows_content (defaultHs : Binary32) (pre : List TrackerAct) (s : Scan)
    (htimes : ((pre ++ [TrackerAct.emitHeartbeats s]).map TrackerAct.now).Pairwise (· ≤ ·)) :
    (((run (step exactlyBefore) (new defaultHs) pre).scanRows exactlyBefore s).map
      ScalarRow.pvId).Nodup ∧
      ∀ row ∈ (run (step exactlyBefore) (new defaultHs) pre).scanRows exactlyBefore s,
        s.active row.pvId = true ∧
        (∃ x, latest (stores pre) row.pvId = some x ∧
          row = ⟨s.nowPgUs, row.pvId, x.value, max x.severity 0, x.status,
            StoreReason.heartbeat.toI16⟩) ∧
        (effectiveInterval defaultHs (pre ++ [.emitHeartbeats s]) row.pvId).leZero = false ∧
        ∀ at' ∈ rowTimes exactlyBefore defaultHs pre row.pvId, exactlyBefore (s.now - at')
          (effectiveInterval defaultHs (pre ++ [.emitHeartbeats s]) row.pvId) = false := by
  rw [List.map_append, List.pairwise_append] at htimes
  have hpast := rowTimes_pairwise exactlyBefore defaultHs pre
  have hknows := knows_run exactlyBefore defaultHs pre
  have hnext := knows_step exactlyBefore (.emitHeartbeats s) hknows
  generalize run (step exactlyBefore) (new defaultHs) pre = t at hknows hnext
  refine ⟨emitHeartbeats_nodup _ _ _ _ _ t hknows.sized, fun row hrow => ?_⟩
  obtain ⟨-, c, hc, hdue, hcontent⟩ := (mem_emitHeartbeats _ _ _ _ _ _ hknows.sized).1 hrow
  have hid := tracked_of_cached hknows.sized hc
  -- the interval after the scan is the one it has used
  have heffective : (t.reload s.now s.config).effective row.pvId =
      effectiveInterval defaultHs (pre ++ [.emitHeartbeats s]) row.pvId := by
    rw [← hnext.effective exactlyBefore hid]
    exact (emitHeartbeats_effective _ _ _ _ _ t _).symm
  rw [heffective] at hdue
  obtain ⟨x, hx, hvalue, hseverity, hstatus, hlast⟩ := hknows.cached row.pvId c hc
  refine ⟨hdue.active, ⟨x, hx, ?_⟩, hdue.enabled, fun at' hat => ?_⟩
  · rw [hcontent]
    unfold heartbeatRow
    rw [hvalue, hseverity, hstatus]
  · have hle := le_of_getLast? (hpast row.pvId htimes.1) hlast at' hat
    exact exactlyBefore_mono (by omega) hdue.elapsed

/-- An interval of 3 s in a new configuration, 5 s after the last `record_store`. -/
theorem scanRows_hotReload :
    let pre := [TrackerAct.recordStore 1 .one 3 7 0]
    let s : Scan := ⟨⟨1, [(1, ⟨0x40400000⟩)]⟩, fun _ => true, 5 * 10 ^ 9, 0⟩
    let row := heartbeatRow 0 1 ⟨.one, 3, 7, 0⟩
    (run (step exactlyBefore) (new ⟨0x42700000⟩) pre).scanRows exactlyBefore s = [row] ∧
      ∀ at' ∈ rowTimes exactlyBefore ⟨0x42700000⟩ pre row.pvId, exactlyBefore (s.now - at')
        (effectiveInterval ⟨0x42700000⟩ (pre ++ [.emitHeartbeats s]) row.pvId) = false := by
  intro pre s row
  have hrows : (run (step exactlyBefore) (new ⟨0x42700000⟩) pre).scanRows exactlyBefore s = [row] := by
    decide +kernel
  have hcontent := scanRows_content ⟨0x42700000⟩ pre s (by decide)
  exact ⟨hrows, (hcontent.2 row (by rw [hrows]; exact List.mem_singleton_self _)).2.2.2⟩

end HeartbeatTracker

end AuraEpics.Ingest
