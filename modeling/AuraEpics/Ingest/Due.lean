import AuraEpics.Ingest.History

/-!
# When a scan pushes a heartbeat

What a scan does for a PV, said of the calls before it (`crates/aura-ingest/src/heartbeat.rs`,
lines 108-176): which of them have left the tracker without a value to repeat (`NoValue`),
which have switched the heartbeats of the PV off (`Off`), and which row of the PV was the last
(`Waiting`).

Result: `mem_scanRows_iff`, a scan pushes a heartbeat of a PV it finds active exactly if none
of these keeps it from doing so.
-/

namespace AuraEpics.Ingest.HeartbeatTracker

open Numeric Latest Runs AuraEpics.Core AuraEpics.Store

variable (before : ℕ → Binary32 → Bool) (defaultHs : Binary32)

/-- After these calls the PV gets no heartbeats: its interval is not positive, or neither the
    default nor any interval set for a PV ever was. -/
def Off (as : List TrackerAct) (id : Int32) : Prop :=
  (effectiveInterval defaultHs as id).leZero = true ∨
    defaultHs.leZero = true ∧ (settings as).any isOverride = false

/-- There is nothing to repeat: the tracker has no entry for the PV, or after every
    `record_store` of it a scan missed the PV while its heartbeats were not off. -/
def NoValue (as : List TrackerAct) (id : Int32) : Prop :=
  Tracked id → ∀ pre a, pre ++ [a] <+: as → a.records id = true →
    ∃ mid s, pre ++ [a] <+: mid ∧ mid ++ [.emitHeartbeats s] <+: as ∧ s.active id = false ∧
      ¬Off defaultHs (mid ++ [.emitHeartbeats s]) id

/-- The scan comes before the interval has passed since the last row of the PV. -/
def Waiting (as : List TrackerAct) (s : Scan) (id : Int32) : Prop :=
  ∃ at', (rowTimes before defaultHs as id).getLast? = some at' ∧
    before (s.now - at') (effectiveInterval defaultHs (as ++ [.emitHeartbeats s]) id) = true

/-! ## Off -/

theorem off_iff (as : List TrackerAct) (s : Scan) {id : Int32} (hid : Tracked id) :
    Off defaultHs (as ++ [.emitHeartbeats s]) id ↔
      (((run (step before) (new defaultHs) as).reload s.now s.config).effective id).leZero = true ∨
        ((run (step before) (new defaultHs) as).reload s.now s.config).isDisabled = true := by
  have hknows := knows_run before defaultHs as
  have hnext := knows_step before (.emitHeartbeats s) hknows
  generalize run (step before) (new defaultHs) as = t at hknows hnext
  have heffective : (t.reload s.now s.config).effective id =
      effectiveInterval defaultHs (as ++ [.emitHeartbeats s]) id := by
    rw [← hnext.effective before hid]
    exact (emitHeartbeats_effective before _ _ _ _ t id).symm
  have hoverride : (t.reload s.now s.config).hasExplicitOverride =
      (settings (as ++ [.emitHeartbeats s])).any isOverride := by
    rw [← hnext.override]
    exact (emitHeartbeats_override before _ _ _ _ t).symm
  unfold Off isDisabled
  rw [heffective, hoverride, reload_default, hknows.default, Bool.and_eq_true, Bool.not_eq_true']

/-! ## Values -/

section Values

variable {defaultHs : Binary32} {as : List TrackerAct} {a : TrackerAct} {id : Int32}

theorem not_noValue_of_records (hid : Tracked id) (ha : a.records id = true) :
    ¬NoValue defaultHs (as ++ [a]) id := by
  intro h
  obtain ⟨mid, s, hpre, hmid, -, -⟩ := h hid as a (List.prefix_refl _) ha
  have hle := hmid.length_le.trans hpre.length_le
  rw [List.length_append, List.length_singleton] at hle
  omega

theorem noValue_concat (hid : Tracked id) (ha : a.records id = false) :
    NoValue defaultHs (as ++ [a]) id ↔ NoValue defaultHs as id ∨
      ∃ s, a = .emitHeartbeats s ∧ s.active id = false ∧ ¬Off defaultHs (as ++ [a]) id := by
  -- a `record_store` of the PV is among the calls before `a`
  have hearlier {pre : List TrackerAct} {b : TrackerAct} (hpre : pre ++ [b] <+: as ++ [a])
      (hb : b.records id = true) : pre ++ [b] <+: as := by
    obtain heq | hpre := List.prefix_concat_iff.1 hpre
    · obtain rfl := (List.cons.inj (List.append_inj' heq rfl).2).1
      exact absurd (ha.symm.trans hb) (by decide)
    · exact hpre
  constructor
  · intro h
    by_contra hno
    obtain ⟨hvalue, hscan⟩ := not_or.1 hno
    refine hvalue fun _ pre b hpre hb => ?_
    obtain ⟨mid, s, hmid, hs, habsent, hoff⟩ := h hid pre b (hpre.trans (List.prefix_append _ _)) hb
    obtain heq | hs := List.prefix_concat_iff.1 hs
    · obtain ⟨rfl, hlast⟩ := List.append_inj' heq rfl
      obtain rfl := (List.cons.inj hlast).1
      exact absurd ⟨s, rfl, habsent, hoff⟩ hscan
    · exact ⟨mid, s, hmid, hs, habsent, hoff⟩
  · rintro (h | ⟨s, rfl, habsent, hoff⟩) _ pre b hpre hb
    · obtain ⟨mid, s, hmid, hs, habsent, hoff⟩ := h hid pre b (hearlier hpre hb) hb
      exact ⟨mid, s, hmid, hs.trans (List.prefix_append _ _), habsent, hoff⟩
    · exact ⟨as, s, hearlier hpre hb, List.prefix_refl _, habsent, hoff⟩

end Values

/-- A call that records nothing of the PV takes away a value only if it is a scan that misses
    the PV while its heartbeats are not off. -/
theorem step_cached_lost (as : List TrackerAct) {a : TrackerAct} {id : Int32} {c : Cached}
    (hid : Tracked id) (ha : a.records id = false)
    (hc : (run (step before) (new defaultHs) as).cached id = some c) :
    ((run (step before) (new defaultHs) as).step before a).cached id = none ↔
      ∃ s, a = .emitHeartbeats s ∧ s.active id = false ∧ ¬Off defaultHs (as ++ [a]) id := by
  cases a with
  | setPvHeartbeat now pvId hs =>
    have hkept : ((run (step before) (new defaultHs) as).step before
        (.setPvHeartbeat now pvId hs)).cached id = some c :=
      (setPvHeartbeat_cached _ now pvId hs id).trans hc
    refine iff_of_false (by simp [hkept]) ?_
    rintro ⟨s, heq, -⟩
    cases heq
  | recordStore pvId value severity status now =>
    have hne : ¬(pvId = id ∧ Tracked id) := fun h => of_decide_eq_false ha h.1
    have hkept : ((run (step before) (new defaultHs) as).step before
        (.recordStore pvId value severity status now)).cached id = some c :=
      (recordStore_cached _ pvId value severity status now id).trans ((if_neg hne).trans hc)
    refine iff_of_false (by simp [hkept]) ?_
    rintro ⟨s, heq, -⟩
    cases heq
  | emitHeartbeats s =>
    have hsized := run_wellSized before defaultHs as
    have hoff := off_iff before defaultHs as s hid
    generalize run (step before) (new defaultHs) as = t at hc hsized hoff
    cases hactive : s.active id with
    | true =>
      rw [cached_after_active before hsized hactive hc]
      refine iff_of_false (by simp) ?_
      rintro ⟨s', heq, habsent, -⟩
      obtain rfl := TrackerAct.emitHeartbeats.inj heq
      exact absurd (hactive.symm.trans habsent) (by decide)
    | false =>
      have hinvalidates : t.Invalidates s id ↔ ¬Off defaultHs (as ++ [.emitHeartbeats s]) id := by
        unfold Invalidates
        rw [hoff, not_or, hc, Bool.not_eq_true, Bool.not_eq_true]
        simp [and_comm]
      rw [cached_after_absent before t hactive, hc]
      constructor
      · intro hgone
        refine ⟨s, rfl, hactive, hinvalidates.1 ?_⟩
        by_contra hkept
        rw [if_neg hkept] at hgone
        cases hgone
      · rintro ⟨s', heq, -, hon⟩
        exact if_pos (hinvalidates.2 hon)

theorem cached_eq_none_iff (as : List TrackerAct) (id : Int32) :
    (run (step before) (new defaultHs) as).cached id = none ↔ NoValue defaultHs as id := by
  by_cases hid : Tracked id
  · induction as using List.reverseRecOn with
    | nil =>
      refine iff_of_true rfl fun _ pre a hpre => ?_
      exact absurd (List.prefix_nil.1 hpre) (by simp)
    | append_singleton as a ih =>
      rw [run_append]
      show ((run (step before) (new defaultHs) as).step before a).cached id = none ↔ _
      cases ha : a.records id with
      | true =>
        refine iff_of_false ?_ (not_noValue_of_records hid ha)
        cases a with
        | recordStore pvId value severity status now =>
          have heq : pvId = id := of_decide_eq_true ha
          have hnew := (recordStore_cached (run (step before) (new defaultHs) as) pvId value severity
            status now id).trans (if_pos ⟨heq, hid⟩)
          exact fun hnone => Option.some_ne_none _ (hnew.symm.trans hnone)
        | _ => cases ha
      | false =>
        rw [noValue_concat hid ha, ← ih]
        cases hc : (run (step before) (new defaultHs) as).cached id with
        | none => exact iff_of_true (step_cached_none before _ ha hc) (.inl rfl)
        | some c =>
          rw [step_cached_lost before defaultHs as hid ha hc]
          simp
  · refine iff_of_true ?_ fun h => absurd h hid
    by_contra hsome
    obtain ⟨c, hc⟩ := Option.ne_none_iff_exists'.1 hsome
    exact hid (tracked_of_cached (run_wellSized before defaultHs as) hc)

/-! ## Main theorem -/

/-- **Main theorem.** After any calls a scan pushes a row of a PV exactly if it finds the PV
    active, there is a value to repeat, the heartbeats of the PV are not off, and it need not
    wait. -/
theorem mem_scanRows_iff (as : List TrackerAct) (s : Scan) (id : Int32) :
    id ∈ ((run (step before) (new defaultHs) as).scanRows before s).map ScalarRow.pvId ↔
      s.active id = true ∧ ¬NoValue defaultHs as id ∧
        ¬Off defaultHs (as ++ [.emitHeartbeats s]) id ∧ ¬Waiting before defaultHs as s id := by
  have hknows := knows_run before defaultHs as
  have hnext := knows_step before (.emitHeartbeats s) hknows
  rw [mem_scanRows_pvId before hknows.sized, ← cached_eq_none_iff before]
  cases hcached : (run (step before) (new defaultHs) as).cached id with
  | none => simp
  | some c =>
    have hid := tracked_of_cached hknows.sized hcached
    rw [off_iff before defaultHs as s hid]
    obtain ⟨-, -, -, -, -, hlast⟩ := hknows.cached id c hcached
    have heffective : ((run (step before) (new defaultHs) as).reload s.now s.config).effective id =
        effectiveInterval defaultHs (as ++ [.emitHeartbeats s]) id := by
      rw [← hnext.effective before hid]
      exact (emitHeartbeats_effective before _ _ _ _ _ id).symm
    have hwaiting : Waiting before defaultHs as s id ↔
        before (s.now - c.storedAt)
          (effectiveInterval defaultHs (as ++ [.emitHeartbeats s]) id) = true := by
      constructor
      · rintro ⟨at', hat, hbefore⟩
        obtain rfl := Option.some.inj (hlast.symm.trans hat)
        exact hbefore
      · exact fun h => ⟨c.storedAt, hlast, h⟩
    rw [hwaiting, ← heffective]
    generalize (run (step before) (new defaultHs) as).reload s.now s.config = t
    constructor
    · rintro ⟨henabled, d, hd, hdue⟩
      obtain rfl := Option.some.inj hd
      refine ⟨hdue.active, by simp, ?_, by simp [hdue.elapsed]⟩
      simp [hdue.enabled, henabled]
    · rintro ⟨hactive, -, hon, hover⟩
      obtain ⟨hpositive, henabled⟩ := not_or.1 hon
      refine ⟨by simpa using henabled, c, rfl, ⟨by simpa using hpositive, hactive, ?_⟩⟩
      simpa using hover

end AuraEpics.Ingest.HeartbeatTracker
