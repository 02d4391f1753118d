import AuraEpics.Discover.Poller
import AuraEpics.Lib.Runs

/-!
# The snapshot of the poller

`ConfigPoller` (`crates/aura-discover/src/config_poller.rs`, lines 47-125) takes its snapshot
once, in `load_initial`, and patches it change by change in every `diff`. A disabled row counts
as an absent one. Heartbeats are compared as floats are: the two zeros are the same setting, and
a NaN is never the same as anything.

* `SameSettings`: what `config_changed` compares of two enabled configurations;
* `Exact`: a `diff` reports the difference between the snapshot and the list, and no more;
* `Journal`: the calls of a poller, with what has been reported since `load_initial`.

Results: `diff_exact`, every `diff` of every run is exact, and the reported changes replay the
snapshot; `reported_iff`, which edits of a row are reported once it is read back by
`into_pv_config`.
-/

namespace AuraEpics.Discover

open AuraEpics.Store Numeric Runs

/-- The settings are the same. -/
def SameSettings (old new : PvConfig) : Prop :=
  old.heartbeatS.ieeeEq new.heartbeatS = true ∧ old.expectedIoc = new.expectedIoc

instance (old new : PvConfig) : Decidable (SameSettings old new) :=
  inferInstanceAs (Decidable (_ ∧ _))

/-- The list names each PV once. -/
def Distinct (fresh : List PvConfig) : Prop := (fresh.map PvConfig.pvName).Nodup

/-- No heartbeat of the list is a NaN. -/
def NoNaN (fresh : List PvConfig) : Prop := ∀ cfg ∈ fresh, cfg.heartbeatS.isNaN = false

/-- What a change leaves for its PV. -/
def PvChange.setting : PvChange → Option PvConfig
  | added cfg => some cfg
  | removed _ => none
  | modified cfg => some cfg

namespace ConfigPoller

/-- `new` (lines 40-44). -/
def new : ConfigPoller := ⟨∅⟩

/-- `load_initial` (lines 48-58): the number of rows, and the new snapshot. -/
def loadInitial (configs : List PvConfig) : ℕ × ConfigPoller :=
  (configs.length, ⟨freshMap configs⟩)

/-- A `diff` with `fresh` reports what has changed since the snapshot, each PV once, and
    brings the snapshot up to date. -/
structure Exact (poller : ConfigPoller) (fresh : List PvConfig) : Prop where
  added : ∀ cfg, .added cfg ∈ (poller.diff fresh).1 ↔
    cfg ∈ fresh ∧ cfg.enabled = true ∧ cfg.pvName ∉ poller.known
  removed : ∀ name, .removed name ∈ (poller.diff fresh).1 ↔
    name ∈ poller.known ∧ ∀ cfg ∈ fresh, cfg.pvName = name → cfg.enabled = false
  modified : ∀ cfg, .modified cfg ∈ (poller.diff fresh).1 ↔
    cfg ∈ fresh ∧ cfg.enabled = true ∧
      ∃ old, poller.known.lookup cfg.pvName = some old ∧ ¬SameSettings old cfg
  once : ((poller.diff fresh).1.map fun change => change.keeps.1).Nodup
  known : ∀ name, name ∈ (poller.diff fresh).2.known ↔
    ∃ cfg ∈ fresh, cfg.enabled = true ∧ cfg.pvName = name
  settings : ∀ cfg ∈ fresh, cfg.enabled = true →
    ∃ kept, (poller.diff fresh).2.known.lookup cfg.pvName = some kept ∧ SameSettings kept cfg
  again : ((poller.diff fresh).2.diff fresh).1 = []

/-- The snapshot holds enabled configurations under their names. -/
def Keyed (poller : ConfigPoller) : Prop :=
  ∀ name cfg, poller.known.lookup name = some cfg → cfg.pvName = name ∧ cfg.enabled = true

end ConfigPoller

/-! ## The map of a list -/

theorem of_lookup_foldl_insert {map : AList fun _ : String => PvConfig} {cfgs : List PvConfig}
    {name : String} {cfg : PvConfig}
    (h : (cfgs.foldl (fun map c => map.insert c.pvName c) map).lookup name = some cfg) :
    cfg ∈ cfgs ∨ map.lookup name = some cfg := by
  induction cfgs generalizing map with
  | nil => exact .inr h
  | cons new cfgs ih =>
    rcases ih h with hmem | hlook
    · exact .inl (List.mem_cons_of_mem _ hmem)
    · by_cases heq : name = new.pvName
      · subst heq
        rw [AList.lookup_insert] at hlook
        cases hlook
        exact .inl List.mem_cons_self
      · rw [AList.lookup_insert_ne heq] at hlook
        exact .inr hlook

theorem of_lookup_freshMap {fresh : List PvConfig} {name : String} {cfg : PvConfig}
    (h : (freshMap fresh).lookup name = some cfg) :
    cfg ∈ fresh ∧ cfg.enabled = true ∧ cfg.pvName = name := by
  rcases of_lookup_foldl_insert h with hmem | hempty
  · obtain ⟨hin, henabled⟩ := List.mem_filter.1 hmem
    exact ⟨hin, henabled, pvName_of_lookup_freshMap h⟩
  · cases hempty

theorem lookup_freshMap_iff {fresh : List PvConfig} (hnodup : Distinct fresh) {name : String}
    {cfg : PvConfig} :
    (freshMap fresh).lookup name = some cfg ↔
      cfg ∈ fresh ∧ cfg.enabled = true ∧ cfg.pvName = name := by
  refine ⟨of_lookup_freshMap, ?_⟩
  rintro ⟨hin, henabled, rfl⟩
  have hmem : cfg.pvName ∈ freshMap fresh := mem_freshMap_iff.2 ⟨cfg, hin, henabled, rfl⟩
  obtain ⟨cfg', hlook⟩ := Option.isSome_iff_exists.1 (AList.lookup_isSome.2 hmem)
  obtain ⟨hin', -, hname⟩ := of_lookup_freshMap hlook
  rw [hlook, List.inj_on_of_nodup_map hnodup hin' hin hname]

theorem configChanged_iff {old new : PvConfig} (henabled : old.enabled = new.enabled) :
    configChanged old new = true ↔ ¬SameSettings old new := by
  unfold configChanged SameSettings
  rw [henabled]
  simp [imp_iff_not_or]

/-! ## One `diff` -/

section Diff

variable {poller : ConfigPoller} {fresh : List PvConfig}

/-- The three parts of what `diff` reports; what it reports for a PV that is known and fresh has
    its name. -/
theorem changes_parts :
    ∃ f : String → Option PvChange,
      poller.changes fresh =
        (((freshMap fresh).keys.filter fun name => name ∉ poller.known).filterMap fun name =>
            ((freshMap fresh).lookup name).map .added) ++
          ((poller.known.keys.filter fun name => name ∉ freshMap fresh).map .removed) ++
          ((poller.known.keys.filter fun name => name ∈ freshMap fresh).filterMap f) ∧
      ∀ name change, f name = some change → change.keeps.1 = name := by
  refine ⟨_, rfl, ?_⟩
  intro name change hchange
  split at hchange
  · next old new hold hnew =>
    split_ifs at hchange
    cases hchange
    exact pvName_of_lookup_freshMap hnew
  · cases hchange

theorem nodup_names_changes :
    ((poller.changes fresh).map fun change => change.keeps.1).Nodup := by
  have hkeys : poller.known.keys.Nodup := poller.known.keys_nodup
  obtain ⟨f, hchanges, hparts⟩ := @changes_parts poller fresh
  rw [hchanges]
  rw [List.map_append, List.map_append, List.map_filterMap, List.map_filterMap, List.map_map]
  rw [List.nodup_append, List.nodup_append]
  have hadded : ∀ name name' : String, name' ∈ (((freshMap fresh).lookup name).map
      PvChange.added).map (fun change : PvChange => change.keeps.1) → name' = name := by
    intro name name' h
    rw [Option.map_map] at h
    obtain ⟨cfg, hlook, rfl⟩ := Option.map_eq_some_iff.1 h
    exact pvName_of_lookup_freshMap hlook
  have hmodified : ∀ name name' : String,
      name' ∈ (f name).map (fun change : PvChange => change.keeps.1) → name' = name := by
    intro name name' h
    obtain ⟨change, hchange, rfl⟩ := Option.map_eq_some_iff.1 h
    exact hparts name change hchange
  refine ⟨⟨?_, ?_, ?_⟩, ?_, ?_⟩
  · refine ((freshMap fresh).keys_nodup.filter _).filterMap fun a a' b ha ha' => ?_
    exact (hadded a b ha).symm.trans (hadded a' b ha')
  · exact (hkeys.filter _).map fun _ _ h => h
  · -- an added PV is not known, a removed one is
    rintro name hname other hother rfl
    obtain ⟨key, hkey, hin⟩ := List.mem_filterMap.1 hname
    obtain ⟨gone, hgone, heq⟩ := List.mem_map.1 hother
    obtain rfl : gone = name := heq
    obtain rfl := hadded key gone hin
    exact of_decide_eq_true (List.mem_filter.1 hkey).2 (AList.mem_keys.2 (List.mem_filter.1 hgone).1)
  · refine (hkeys.filter _).filterMap fun a a' b ha ha' => ?_
    exact (hmodified a b ha).symm.trans (hmodified a' b ha')
  · -- a modified PV is known and fresh
    rintro name hname other hother rfl
    obtain ⟨key, hkey, hin⟩ := List.mem_filterMap.1 hother
    obtain rfl := hmodified key name hin
    obtain ⟨hknown, hfresh⟩ := List.mem_filter.1 hkey
    rcases List.mem_append.1 hname with hadd | hrem
    · obtain ⟨key', hkey', hin'⟩ := List.mem_filterMap.1 hadd
      obtain rfl := hadded key' name hin'
      exact of_decide_eq_true (List.mem_filter.1 hkey').2 (AList.mem_keys.2 hknown)
    · obtain ⟨gone, hgone, heq⟩ := List.mem_map.1 hrem
      obtain rfl : gone = name := heq
      exact of_decide_eq_true (List.mem_filter.1 hgone).2 (of_decide_eq_true hfresh)

/-! ## The snapshot after a `diff` -/

theorem lookup_applyChange (known : AList fun _ : String => PvConfig) (change : PvChange) :
    (applyChange known change).lookup change.keeps.1 = change.setting := by
  cases change with
  | added cfg => exact AList.lookup_insert known
  | removed name => exact AList.lookup_erase name known
  | modified cfg => exact AList.lookup_insert known

theorem lookup_applyChange_ne {known : AList fun _ : String => PvConfig} {change : PvChange}
    {name : String} (h : change.keeps.1 ≠ name) :
    (applyChange known change).lookup name = known.lookup name := by
  cases change with
  | added cfg => exact AList.lookup_insert_ne (Ne.symm h)
  | removed other => exact AList.lookup_erase_ne (Ne.symm h)
  | modified cfg => exact AList.lookup_insert_ne (Ne.symm h)

theorem lookup_foldl_applyChange_ne {known : AList fun _ : String => PvConfig}
    {changes : List PvChange} {name : String} (h : ∀ change ∈ changes, change.keeps.1 ≠ name) :
    (changes.foldl applyChange known).lookup name = known.lookup name := by
  induction changes generalizing known with
  | nil => rfl
  | cons change changes ih =>
    rw [List.foldl_cons, ih fun c hc => h c (List.mem_cons_of_mem _ hc)]
    exact lookup_applyChange_ne (h change List.mem_cons_self)

/-- Where each PV has one change, that change decides. -/
theorem lookup_foldl_applyChange {known : AList fun _ : String => PvConfig}
    {changes : List PvChange} (hnodup : (changes.map fun change => change.keeps.1).Nodup)
    {change : PvChange} (hmem : change ∈ changes) :
    (changes.foldl applyChange known).lookup change.keeps.1 = change.setting := by
  obtain ⟨pre, post, rfl⟩ := List.append_of_mem hmem
  rw [List.map_append, List.map_cons] at hnodup
  have hpost : ∀ other ∈ post, other.keeps.1 ≠ change.keeps.1 := by
    intro other hother heq
    have hnot := (List.nodup_cons.1 (List.nodup_append.1 hnodup).2.1).1
    exact hnot (List.mem_map.2 ⟨other, hother, heq⟩)
  rw [List.foldl_append, List.foldl_cons, lookup_foldl_applyChange_ne hpost]
  exact lookup_applyChange _ change

variable (poller fresh) in
/-- What is known of a PV after a `diff`: the new configuration if there is a change, and else the
    old one. -/
theorem lookup_diff_cases (name : String) :
    (∃ change ∈ poller.changes fresh, change.keeps.1 = name ∧
      (poller.diff fresh).2.known.lookup name = change.setting) ∨
    ((∀ change ∈ poller.changes fresh, change.keeps.1 ≠ name) ∧
      (poller.diff fresh).2.known.lookup name = poller.known.lookup name) := by
  by_cases h : ∃ change ∈ poller.changes fresh, change.keeps.1 = name
  · obtain ⟨change, hmem, rfl⟩ := h
    exact .inl ⟨change, hmem, rfl, lookup_foldl_applyChange nodup_names_changes hmem⟩
  · replace h : ∀ change ∈ poller.changes fresh, change.keeps.1 ≠ name := fun change hmem heq =>
      h ⟨change, hmem, heq⟩
    exact .inr ⟨h, lookup_foldl_applyChange_ne h⟩

theorem keyed_diff (h : poller.Keyed) : (poller.diff fresh).2.Keyed := by
  intro name cfg hlook
  rcases lookup_diff_cases poller fresh name with
    ⟨change, hmem, hname, hset⟩ | ⟨-, hset⟩
  · rw [hset] at hlook
    cases change with
    | added new =>
      cases hlook
      obtain ⟨-, henabled, -⟩ := of_lookup_freshMap (added_mem_iff.1 hmem).1
      exact ⟨hname, henabled⟩
    | removed other => cases hlook
    | modified new =>
      cases hlook
      obtain ⟨-, henabled, -⟩ := of_lookup_freshMap (modified_mem_iff.1 hmem).1
      exact ⟨hname, henabled⟩
  · rw [hset] at hlook
    exact h name cfg hlook

theorem sameSettings_refl {cfg : PvConfig} (h : cfg.heartbeatS.isNaN = false) :
    SameSettings cfg cfg := ⟨Binary64.ieeeEq_refl h, rfl⟩

/-- A fresh PV is known afterwards with the fresh settings. -/
theorem settings_diff (hkeyed : poller.Keyed) (hnan : NoNaN fresh) {cfg : PvConfig}
    (hlook : (freshMap fresh).lookup cfg.pvName = some cfg) :
    ∃ kept, (poller.diff fresh).2.known.lookup cfg.pvName = some kept ∧ SameSettings kept cfg := by
  obtain ⟨hin, henabled, -⟩ := of_lookup_freshMap hlook
  rcases lookup_diff_cases poller fresh cfg.pvName with
    ⟨change, hmem, hname, hset⟩ | ⟨hnone, hset⟩
  · refine ⟨cfg, ?_, sameSettings_refl (hnan cfg hin)⟩
    rw [hset]
    cases change with
    | added new =>
      have hnew := (added_mem_iff.1 hmem).1
      rw [show new.pvName = cfg.pvName from hname, hlook] at hnew
      cases hnew
      rfl
    | removed other =>
      obtain rfl : other = cfg.pvName := hname
      have hnot := ((removed_mem_changes_iff poller fresh cfg.pvName).1 hmem).2
      exact absurd (mem_freshMap_iff.2 ⟨cfg, hin, henabled, rfl⟩) hnot
    | modified new =>
      have hnew := (modified_mem_iff.1 hmem).1
      rw [show new.pvName = cfg.pvName from hname, hlook] at hnew
      cases hnew
      rfl
  · -- without a change the PV was known already, with the same settings
    rw [hset]
    cases hold : poller.known.lookup cfg.pvName with
    | none =>
      have hadded : .added cfg ∈ poller.changes fresh :=
        added_mem_iff.2 ⟨hlook, AList.lookup_eq_none.1 hold⟩
      exact absurd rfl (hnone _ hadded)
    | some old =>
      refine ⟨old, rfl, ?_⟩
      by_contra hdiffer
      have henabled' : old.enabled = cfg.enabled := by
        rw [(hkeyed cfg.pvName old hold).2, henabled]
      have hmodified : .modified cfg ∈ poller.changes fresh :=
        modified_mem_iff.2 ⟨hlook, old, hold, (configChanged_iff henabled').2 hdiffer⟩
      exact hnone _ hmodified rfl

theorem exact_of_keyed (hkeyed : poller.Keyed) (hnodup : Distinct fresh) (hnan : NoNaN fresh) :
    poller.Exact fresh := by
  have hfresh : ∀ cfg, (freshMap fresh).lookup cfg.pvName = some cfg ↔
      cfg ∈ fresh ∧ cfg.enabled = true := by
    intro cfg
    rw [lookup_freshMap_iff hnodup]
    exact ⟨fun h => ⟨h.1, h.2.1⟩, fun h => ⟨h.1, h.2, rfl⟩⟩
  have hmodified : ∀ {poller : ConfigPoller}, poller.Keyed → ∀ cfg,
      .modified cfg ∈ poller.changes fresh ↔ cfg ∈ fresh ∧ cfg.enabled = true ∧
        ∃ old, poller.known.lookup cfg.pvName = some old ∧ ¬SameSettings old cfg := by
    intro poller hkeyed cfg
    rw [modified_mem_iff, hfresh, and_assoc]
    refine and_congr_right fun _ => and_congr_right fun henabled => exists_congr fun old => ?_
    refine and_congr_right fun hold => configChanged_iff ?_
    rw [(hkeyed cfg.pvName old hold).2, henabled]
  refine ⟨?_, ?_, hmodified hkeyed, nodup_names_changes, ?_, ?_, ?_⟩
  · intro cfg
    show .added cfg ∈ poller.changes fresh ↔ _
    rw [added_mem_iff, hfresh, and_assoc]
  · intro name
    show .removed name ∈ poller.changes fresh ↔ _
    rw [removed_mem_changes_iff, mem_freshMap_iff]
    refine and_congr_right fun _ => ?_
    simp only [not_exists, not_and]
    exact ⟨fun h cfg hin hname => by_contra fun hne => h cfg hin (by simpa using hne) hname,
      fun h cfg hin henabled hname => by simp [h cfg hin hname] at henabled⟩
  · intro name
    rw [mem_known_diff_iff, mem_freshMap_iff]
  · intro cfg hin henabled
    exact settings_diff hkeyed hnan ((hfresh cfg).2 ⟨hin, henabled⟩)
  · show (poller.diff fresh).2.changes fresh = []
    refine List.eq_nil_iff_forall_not_mem.2 fun change hmem => ?_
    cases change with
    | added cfg =>
      obtain ⟨hlook, hnot⟩ := added_mem_iff.1 hmem
      obtain ⟨kept, hkept, -⟩ := settings_diff hkeyed hnan hlook
      rw [AList.lookup_eq_none.2 hnot] at hkept
      cases hkept
    | removed name =>
      obtain ⟨hknown, hnot⟩ := (removed_mem_changes_iff _ fresh name).1 hmem
      exact hnot ((mem_known_diff_iff poller fresh name).1 hknown)
    | modified cfg =>
      obtain ⟨hin, henabled, old, hold, hdiffer⟩ := (hmodified (keyed_diff hkeyed) cfg).1 hmem
      obtain ⟨kept, hkept, hsame⟩ := settings_diff hkeyed hnan ((hfresh cfg).2 ⟨hin, henabled⟩)
      rw [hold] at hkept
      cases hkept
      exact hdiffer hsame

end Diff

/-! ## Runs -/

/-- The calls of a poller. -/
inductive PollerCall where
  | loadInitial (configs : List PvConfig)
  | diff (fresh : List PvConfig)
  deriving DecidableEq

/-- A poller, its snapshot at the last `load_initial`, and the changes reported since. -/
structure Journal where
  poller : ConfigPoller
  initial : AList fun _ : String => PvConfig
  reported : List PvChange

namespace Journal

/-- The poller before any call. -/
def new : Journal := ⟨.new, ∅, []⟩

/-- One call. -/
def step (j : Journal) : PollerCall → Journal
  | .loadInitial configs =>
    let poller := (ConfigPoller.loadInitial configs).2
    ⟨poller, poller.known, []⟩
  | .diff fresh =>
    let (changes, poller) := j.poller.diff fresh
    ⟨poller, j.initial, j.reported ++ changes⟩

/-- The reported changes make the snapshot out of the initial one. -/
def Replays (j : Journal) : Prop := j.reported.foldl applyChange j.initial = j.poller.known

theorem keyed_and_replays_step (j : Journal) (call : PollerCall)
    (h : j.poller.Keyed ∧ j.Replays) : (j.step call).poller.Keyed ∧ (j.step call).Replays := by
  obtain ⟨hkeyed, hreplays⟩ := h
  cases call with
  | loadInitial configs =>
    refine ⟨fun name cfg hlook => ?_, rfl⟩
    obtain ⟨-, henabled, hname⟩ := of_lookup_freshMap hlook
    exact ⟨hname, henabled⟩
  | diff fresh =>
    refine ⟨keyed_diff hkeyed, ?_⟩
    show (j.reported ++ j.poller.changes fresh).foldl applyChange j.initial =
      (j.poller.changes fresh).foldl applyChange j.poller.known
    rw [List.foldl_append]
    exact congrArg (List.foldl applyChange · (j.poller.changes fresh)) hreplays

theorem keyed_and_replays (calls : List PollerCall) :
    (run step new calls).poller.Keyed ∧ (run step new calls).Replays := by
  have hnew : new.poller.Keyed ∧ new.Replays := by
    refine ⟨fun name cfg hlook => ?_, rfl⟩
    cases hlook
  exact (alongStates_of_step keyed_and_replays_step hnew calls).last

/-- **Main theorem.** After any calls, the changes reported since the last `load_initial` replay
    the snapshot, and a `diff` with a list of distinct PVs and no NaN is exact. -/
theorem diff_exact (calls : List PollerCall) (fresh : List PvConfig) (hnodup : Distinct fresh)
    (hnan : NoNaN fresh) :
    let j := run step new calls
    j.Replays ∧ j.poller.Exact fresh := by
  intro j
  obtain ⟨hkeyed, hreplays⟩ := keyed_and_replays calls
  exact ⟨hreplays, exact_of_keyed hkeyed hnodup hnan⟩

/-- "A" is disabled, "B" gets another heartbeat, "C" is new. -/
theorem diff_exact_three :
    let fresh : List PvConfig :=
      [⟨"A", 0, none, false⟩, ⟨"B", 2, none, true⟩, ⟨"C", 0, none, true⟩]
    let j := run step new [.loadInitial [⟨"A", 0, none, true⟩], .diff
      [⟨"A", 0, none, true⟩, ⟨"B", 1, none, true⟩]]
    (j.poller.diff fresh).1 =
        [.added ⟨"C", 0, none, true⟩, .removed "A", .modified ⟨"B", 2, none, true⟩] ∧
      j.Replays ∧ j.poller.Exact fresh :=
  ⟨by decide +kernel, diff_exact _ _ (by unfold Distinct; decide) (by unfold NoNaN; decide +kernel)⟩

end Journal

/-! ## Edits of a row -/

/-- The settings of `heartbeat_s`: no setting is another one than any number. -/
def sameHeartbeat : Option Binary64 → Option Binary64 → Bool
  | none, none => true
  | some old, some new => old.ieeeEq new
  | _, _ => false

/-- The row has got another `heartbeat_s` or another `expected_ioc`. -/
def Edited (old new : ConfigRow) : Prop :=
  sameHeartbeat old.heartbeatS new.heartbeatS = false ∨ old.expectedIoc ≠ new.expectedIoc

instance (old new : ConfigRow) : Decidable (Edited old new) :=
  inferInstanceAs (Decidable (_ ∨ _))

/-- The changes a poller that has loaded one content of the table reports for another. -/
def changesBetween (table table' : PvTable) : List PvChange :=
  ((ConfigPoller.loadInitial table.getAllEnabled).2.diff table'.getAllEnabled).1

/-- A modification of the PV is reported. -/
def ModifiedReported (table table' : PvTable) (name : String) : Prop :=
  ∃ cfg, .modified cfg ∈ changesBetween table table' ∧ cfg.pvName = name

theorem distinct_getAllEnabled (table : PvTable) : Distinct table.getAllEnabled := by
  have hkeys : (table.entries.map Sigma.fst).Nodup := table.nodupKeys
  unfold Distinct PvTable.getAllEnabled
  rw [List.map_map]
  exact hkeys.sublist (List.filter_sublist.map Sigma.fst)

/-- The only row of the PV is the inserted one. -/
theorem lookup_freshMap_insert (table : PvTable) (name : String) (row : ConfigRow)
    (cfg : PvConfig) :
    (freshMap (PvTable.getAllEnabled (table.insert name row))).lookup name = some cfg ↔
      row.enabled = true ∧ cfg = row.intoPvConfig name := by
  rw [lookup_freshMap_iff (distinct_getAllEnabled _)]
  unfold PvTable.getAllEnabled
  simp only [List.mem_map, List.mem_filter, Sigma.exists]
  constructor
  · rintro ⟨⟨other, row', ⟨hmem, henabled⟩, rfl⟩, -, hname⟩
    obtain rfl : other = name := hname
    have hlook := AList.mem_lookup_iff.2 hmem
    rw [AList.lookup_insert] at hlook
    cases hlook
    exact ⟨henabled, rfl⟩
  · rintro ⟨henabled, rfl⟩
    have hmem := AList.mem_lookup_iff.1 (AList.lookup_insert table (a := name) (b := row))
    exact ⟨⟨name, row, ⟨hmem, henabled⟩, rfl⟩, henabled, rfl⟩

/-- **Main theorem.** Between two contents of a row a modification is reported exactly when both
    are enabled and their heartbeats differ once no setting is read as zero. -/
theorem reported_iff (table table' : PvTable) (name : String) (old new : ConfigRow) :
    ModifiedReported (table.insert name old) (table'.insert name new) name ↔
      old.enabled = true ∧ new.enabled = true ∧
        (old.heartbeatS.getD .zero).ieeeEq (new.heartbeatS.getD .zero) = false := by
  have hchanged : old.enabled = true → new.enabled = true →
      (configChanged (old.intoPvConfig name) (new.intoPvConfig name) = true ↔
        (old.heartbeatS.getD .zero).ieeeEq (new.heartbeatS.getD .zero) = false) := by
    intro hold hnew
    -- neither conversion has an IOC
    simp [configChanged, ConfigRow.intoPvConfig, hold, hnew]
  constructor
  · rintro ⟨cfg, hcfg, rfl⟩
    obtain ⟨hlook, before, hbefore, hdiffer⟩ := modified_mem_iff.1 hcfg
    obtain ⟨hnew, hcfg'⟩ := (lookup_freshMap_insert table' cfg.pvName new cfg).1 hlook
    obtain ⟨hold, rfl⟩ := (lookup_freshMap_insert table cfg.pvName old before).1 hbefore
    rw [hcfg'] at hdiffer
    exact ⟨hold, hnew, (hchanged hold hnew).1 hdiffer⟩
  · rintro ⟨hold, hnew, hdiffer⟩
    have hlook := (lookup_freshMap_insert table' name new _).2 ⟨hnew, rfl⟩
    have hbefore := (lookup_freshMap_insert table name old _).2 ⟨hold, rfl⟩
    refine ⟨new.intoPvConfig name, modified_mem_iff.2 ⟨hlook, _, hbefore, ?_⟩, rfl⟩
    exact (hchanged hold hnew).2 hdiffer

/-- Disabling the heartbeat of a PV that has no setting is not reported, nor is another IOC. -/
theorem edits_unreported :
    let unset : ConfigRow := ⟨none, none, true, 1⟩
    let off : ConfigRow := ⟨some 0, none, true, 2⟩
    let moved : ConfigRow := ⟨none, some "ioc2:5075", true, 2⟩
    let table (row : ConfigRow) : PvTable := (∅ : PvTable).insert "A" row
    Edited unset off ∧ changesBetween (table unset) (table off) = [] ∧
      Edited unset moved ∧ changesBetween (table unset) (table moved) = [] := by
  decide +kernel

end AuraEpics.Discover
