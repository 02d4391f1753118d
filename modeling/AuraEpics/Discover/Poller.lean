import AuraEpics.Discover.Command
import AuraEpics.Store.PvConfig

/-!
# Poller and reconciler

Model of `ConfigPoller` (`crates/aura-discover/src/config_poller.rs`, lines 34-125) and of
`Reconciler` (`crates/aura-discover/src/reconciler.rs`, lines 51-145). Both are pure: the
poller compares a snapshot of the enabled PVs with the one it knows, and the reconciler
turns the changes into actions.

Hash maps and sets are modelled by association lists and lists; they are walked in the
order of these.
-/

namespace AuraEpics.Discover

open AuraEpics.Store Latest

/-- `PvChange` (lines 11-18). -/
inductive PvChange where
  | added (cfg : PvConfig)
  | removed (name : String)
  | modified (cfg : PvConfig)
  deriving DecidableEq, Repr

/-- The PV of a change, with whether it is known afterwards. -/
def PvChange.keeps : PvChange → String × Bool
  | added cfg => (cfg.pvName, true)
  | removed name => (name, false)
  | modified cfg => (cfg.pvName, true)

/-- `ConfigPoller` (lines 34-37). -/
structure ConfigPoller where
  known : AList fun _ : String => PvConfig
  deriving DecidableEq

/-- `config_changed` (lines 121-125). -/
def configChanged (old new : PvConfig) : Bool :=
  !old.heartbeatS.ieeeEq new.heartbeatS || old.enabled ≠ new.enabled || old.expectedIoc ≠ new.expectedIoc

/-- `fresh_map` (lines 67-71). -/
def freshMap (fresh : List PvConfig) : AList fun _ : String => PvConfig :=
  (fresh.filter fun c => c.enabled).foldl (fun map c => map.insert c.pvName c) ∅

/-- One pass of the loop that applies the changes (lines 97-106). -/
def applyChange (known : AList fun _ : String => PvConfig) :
    PvChange → AList fun _ : String => PvConfig
  | .added cfg => known.insert cfg.pvName cfg
  | .modified cfg => known.insert cfg.pvName cfg
  | .removed name => known.erase name

namespace ConfigPoller

/-- The changes `diff` finds (lines 73-94). -/
def changes (poller : ConfigPoller) (fresh : List PvConfig) : List PvChange :=
  let map := freshMap fresh
  ((map.keys.filter fun name => name ∉ poller.known).filterMap fun name =>
      (map.lookup name).map .added) ++
    ((poller.known.keys.filter fun name => name ∉ map).map .removed) ++
    ((poller.known.keys.filter fun name => name ∈ map).filterMap fun name =>
      match poller.known.lookup name, map.lookup name with
      | some old, some new => if configChanged old new then some (.modified new) else none
      | _, _ => none)

/-- `diff` (lines 66-109). -/
def diff (poller : ConfigPoller) (fresh : List PvConfig) : List PvChange × ConfigPoller :=
  let changes := poller.changes fresh
  (changes, ⟨changes.foldl applyChange poller.known⟩)

end ConfigPoller

/-- `Action` (lines 14-25). An alert is only logged. -/
inductive Action where
  | resolve (names : List String)
  | subscribe (entries : List (String × Option String))
  | unsubscribe (names : List String)
  | updateFilter (names : List String)
  | alert
  deriving DecidableEq, Repr

/-- `Reconciler` (lines 51-61). -/
structure Reconciler where
  resolved : List String
  pending : List String
  notFound : List String
  deriving DecidableEq, Repr

/-- The accumulators of `reconcile` (lines 84-86). -/
structure Plan where
  toResolve : List String
  toUnsubscribe : List String
  toUpdateFilter : List String
  deriving DecidableEq, Repr

/-- The actions of a plan (lines 113-121). -/
def Plan.actions (plan : Plan) : List Action :=
  (if plan.toResolve = [] then [] else [.resolve plan.toResolve]) ++
    (if plan.toUnsubscribe = [] then [] else [.unsubscribe plan.toUnsubscribe]) ++
    (if plan.toUpdateFilter = [] then [] else [.updateFilter plan.toUpdateFilter])

namespace Reconciler

/-- One pass of the loop over the changes (lines 89-111). -/
def reconcileChange (acc : Reconciler × Plan) (change : PvChange) : Reconciler × Plan :=
  let (r, plan) := acc
  match change with
  | .added cfg =>
    ({ r with pending := r.pending.insert cfg.pvName },
      { plan with toResolve := plan.toResolve ++ [cfg.pvName] })
  | .removed name =>
    ({ resolved := r.resolved.filter (· ≠ name), pending := r.pending.filter (· ≠ name),
       notFound := r.notFound.filter (· ≠ name) },
      { plan with toUnsubscribe := plan.toUnsubscribe ++ [name] })
  | .modified cfg =>
    if cfg.pvName ∈ r.resolved then
      (r, { plan with toUpdateFilter := plan.toUpdateFilter ++ [cfg.pvName] })
    else
      ({ r with pending := r.pending.insert cfg.pvName },
        { plan with toResolve := plan.toResolve ++ [cfg.pvName] })

/-- `reconcile` (lines 78-125). -/
def reconcile (r : Reconciler) (changes : List PvChange) : Reconciler × List Action :=
  let (r, plan) := changes.foldl reconcileChange (r, ⟨[], [], []⟩)
  (r, plan.actions)

/-- One pass of the loop of `mark_resolved` (lines 135-143). -/
def markResolvedName (acc : Reconciler × List String) (name : String) :
    Reconciler × List String :=
  let (r, toSubscribe) := acc
  let r := { r with
    pending := r.pending.filter (· ≠ name), notFound := r.notFound.filter (· ≠ name) }
  if name ∈ r.resolved then (r, toSubscribe)
  else ({ r with resolved := name :: r.resolved }, toSubscribe ++ [name])

/-- `mark_resolved` (lines 129-145); the address it pairs the names with is not used. -/
def markResolved (r : Reconciler) (names : List String) : Reconciler × List String :=
  names.foldl markResolvedName (r, [])

end Reconciler

/-! ## What `diff` finds -/

section Diff

theorem mem_foldl_insert_pvName (map : AList fun _ : String => PvConfig) (cfgs : List PvConfig)
    (name : String) :
    (name ∈ cfgs.foldl (fun map c => map.insert c.pvName c) map ↔
      name ∈ map ∨ ∃ c ∈ cfgs, c.pvName = name) ∧
    ((∀ c, map.lookup name = some c → c.pvName = name) →
      ∀ c, (cfgs.foldl (fun map c => map.insert c.pvName c) map).lookup name = some c →
        c.pvName = name) := by
  induction cfgs generalizing map with
  | nil => exact ⟨by simp, fun h => h⟩
  | cons new cfgs ih =>
    obtain ⟨hmem, hname⟩ := ih (map.insert new.pvName new)
    refine ⟨?_, fun h => hname fun c hc => ?_⟩
    · rw [List.foldl_cons, hmem, AList.mem_insert]
      simp only [List.exists_mem_cons_iff, eq_comm (a := name), or_assoc, or_left_comm]
    · by_cases heq : name = new.pvName
      · subst heq
        rw [AList.lookup_insert] at hc
        cases hc
        rfl
      · rw [AList.lookup_insert_ne heq] at hc
        exact h c hc

theorem mem_freshMap_iff {fresh : List PvConfig} {name : String} :
    name ∈ freshMap fresh ↔ ∃ c ∈ fresh, c.enabled = true ∧ c.pvName = name := by
  unfold freshMap
  rw [(mem_foldl_insert_pvName ∅ _ name).1]
  simp [and_assoc]

theorem pvName_of_lookup_freshMap {fresh : List PvConfig} {name : String} {c : PvConfig}
    (h : (freshMap fresh).lookup name = some c) : c.pvName = name := by
  refine (mem_foldl_insert_pvName ∅ _ name).2 (fun c hc => ?_) c h
  cases hc

theorem added_mem_iff {poller : ConfigPoller} {fresh : List PvConfig} {cfg : PvConfig} :
    .added cfg ∈ poller.changes fresh ↔
      (freshMap fresh).lookup cfg.pvName = some cfg ∧ cfg.pvName ∉ poller.known := by
  unfold ConfigPoller.changes
  simp only [List.mem_append, List.mem_filterMap, List.mem_filter, List.mem_map]
  constructor
  · rintro ((⟨name, ⟨hname, hnot⟩, hmap⟩ | ⟨name, -, hmap⟩) | ⟨name, -, hmap⟩)
    · obtain ⟨c', hlook, hc'⟩ := Option.map_eq_some_iff.1 hmap
      cases hc'
      rw [pvName_of_lookup_freshMap hlook]
      exact ⟨hlook, of_decide_eq_true hnot⟩
    · cases hmap
    · split at hmap
      · split_ifs at hmap
        cases hmap
      · cases hmap
  · rintro ⟨hlook, hknown⟩
    have hmem : cfg.pvName ∈ freshMap fresh := by
      rw [← AList.lookup_isSome, hlook]
      rfl
    refine .inl (.inl ⟨cfg.pvName, ⟨AList.mem_keys.1 hmem, decide_eq_true hknown⟩, ?_⟩)
    rw [hlook]
    rfl

theorem modified_mem_iff {poller : ConfigPoller} {fresh : List PvConfig} {cfg : PvConfig} :
    .modified cfg ∈ poller.changes fresh ↔
      (freshMap fresh).lookup cfg.pvName = some cfg ∧
        ∃ old, poller.known.lookup cfg.pvName = some old ∧ configChanged old cfg = true := by
  unfold ConfigPoller.changes
  simp only [List.mem_append, List.mem_filterMap, List.mem_filter, List.mem_map]
  constructor
  · rintro ((⟨name, -, hmap⟩ | ⟨name, -, hmap⟩) | ⟨name, -, hmap⟩)
    · obtain ⟨c', -, hc'⟩ := Option.map_eq_some_iff.1 hmap
      cases hc'
    · cases hmap
    · split at hmap
      · next old new hold hnew =>
        split_ifs at hmap with hchanged
        cases hmap
        rw [pvName_of_lookup_freshMap hnew]
        exact ⟨hnew, old, hold, hchanged⟩
      · cases hmap
  · rintro ⟨hnew, old, hold, hchanged⟩
    have hfresh : cfg.pvName ∈ freshMap fresh := by
      rw [← AList.lookup_isSome, hnew]
      rfl
    have hknown : cfg.pvName ∈ poller.known := by
      rw [← AList.lookup_isSome, hold]
      rfl
    refine .inr ⟨cfg.pvName, ⟨AList.mem_keys.1 hknown, decide_eq_true hfresh⟩, ?_⟩
    rw [hold, hnew]
    exact if_pos hchanged

variable (poller : ConfigPoller) (fresh : List PvConfig)

theorem added_mem_changes_iff (name : String) :
    (∃ c, PvChange.added c ∈ poller.changes fresh ∧ c.pvName = name) ↔
      name ∈ freshMap fresh ∧ name ∉ poller.known := by
  constructor
  · rintro ⟨c, hc, rfl⟩
    obtain ⟨hlook, hknown⟩ := added_mem_iff.1 hc
    exact ⟨AList.lookup_isSome.1 (hlook ▸ rfl), hknown⟩
  · rintro ⟨hfresh, hknown⟩
    obtain ⟨c, hc⟩ := Option.isSome_iff_exists.1 (AList.lookup_isSome.2 hfresh)
    obtain rfl := pvName_of_lookup_freshMap hc
    exact ⟨c, added_mem_iff.2 ⟨hc, hknown⟩, rfl⟩

theorem removed_mem_changes_iff (name : String) :
    PvChange.removed name ∈ poller.changes fresh ↔
      name ∈ poller.known ∧ name ∉ freshMap fresh := by
  unfold ConfigPoller.changes
  simp only [List.mem_append, List.mem_filterMap, List.mem_filter, List.mem_map]
  constructor
  · rintro ((⟨other, -, hmap⟩ | ⟨other, ⟨hknown, hnot⟩, hmap⟩) | ⟨other, -, hmap⟩)
    · obtain ⟨c, -, hc⟩ := Option.map_eq_some_iff.1 hmap
      cases hc
    · cases hmap
      exact ⟨AList.mem_keys.2 hknown, of_decide_eq_true hnot⟩
    · split at hmap
      · split_ifs at hmap
        cases hmap
      · cases hmap
  · rintro ⟨hknown, hnot⟩
    exact .inl (.inr ⟨name, ⟨AList.mem_keys.1 hknown, decide_eq_true hnot⟩, rfl⟩)

theorem known_of_modified_mem_changes {c : PvConfig}
    (h : PvChange.modified c ∈ poller.changes fresh) :
    c.pvName ∈ poller.known ∧ c.pvName ∈ freshMap fresh := by
  obtain ⟨hnew, old, hold, -⟩ := modified_mem_iff.1 h
  exact ⟨AList.lookup_isSome.1 (hold ▸ rfl), AList.lookup_isSome.1 (hnew ▸ rfl)⟩

theorem mem_foldl_applyChange (known : AList fun _ : String => PvConfig) (changes : List PvChange)
    (name : String) :
    name ∈ changes.foldl applyChange known ↔
      Decided {name | name ∈ known} (changes.map PvChange.keeps) name := by
  induction changes generalizing known with
  | nil => exact Iff.rfl
  | cons change changes ih =>
    rw [List.foldl_cons, ih, List.map_cons, ← List.singleton_append, decided_append]
    have hset : {name | name ∈ applyChange known change} =
        {name | Decided {name | name ∈ known} [change.keeps] name} := by
      ext other
      show other ∈ applyChange known change ↔
        Decided {name | name ∈ known} ([change.keeps.1].map fun pv => (pv, change.keeps.2)) other
      rw [decided_map]
      by_cases heq : other = change.keeps.1
      · cases change <;> simp_all [applyChange, PvChange.keeps]
      · cases change <;> simp_all [applyChange, PvChange.keeps]
    rw [hset]

/-- After `diff` the poller knows the enabled PVs of the snapshot. -/
theorem mem_known_diff_iff (name : String) :
    name ∈ (poller.diff fresh).2.known ↔ name ∈ freshMap fresh := by
  show name ∈ (poller.changes fresh).foldl applyChange poller.known ↔ _
  rw [mem_foldl_applyChange, Decided]
  have hkeeps : ∀ b, (name, b) ∈ (poller.changes fresh).map PvChange.keeps →
      (b = true ↔ name ∈ freshMap fresh) := by
    intro b hb
    obtain ⟨change, hchange, hkeep⟩ := List.mem_map.1 hb
    cases change with
    | added c =>
      cases hkeep
      simp [((added_mem_changes_iff poller fresh c.pvName).1 ⟨c, hchange, rfl⟩).1]
    | removed other =>
      cases hkeep
      simp [((removed_mem_changes_iff poller fresh name).1 hchange).2]
    | modified c =>
      cases hkeep
      simp [(known_of_modified_mem_changes poller fresh hchange).2]
  cases hlast : latest ((poller.changes fresh).map PvChange.keeps) name with
  | some b => exact hkeeps b (mem_of_latest hlast)
  | none =>
    -- no change names the PV, so it is known already or not fresh
    have hnone := latest_eq_none_iff.1 hlast
    rw [List.map_map] at hnone
    show name ∈ poller.known ↔ _
    constructor
    · intro hknown
      by_contra hfresh
      have hmem := (removed_mem_changes_iff poller fresh name).2 ⟨hknown, hfresh⟩
      exact hnone (List.mem_map.2 ⟨_, hmem, rfl⟩)
    · intro hfresh
      by_contra hknown
      obtain ⟨c, hmem, hc⟩ := (added_mem_changes_iff poller fresh name).2 ⟨hfresh, hknown⟩
      exact hnone (List.mem_map.2 ⟨_, hmem, hc⟩)

end Diff

/-! ## What `reconcile` plans -/

/-- What the loop over the changes comes to when a modified PV is a resolved one. -/
structure Reconciled (r : Reconciler) (plan : Plan) (changes : List PvChange)
    (out : Reconciler × Plan) : Prop where
  resolved : ∀ name, name ∈ out.1.resolved ↔ name ∈ r.resolved ∧ .removed name ∉ changes
  pending : ∀ name ∈ out.1.pending,
    name ∈ r.pending ∨ ∃ c, .added c ∈ changes ∧ c.pvName = name
  notFound : out.1.notFound ⊆ r.notFound
  toResolve : ∀ name, name ∈ out.2.toResolve ↔
    name ∈ plan.toResolve ∨ ∃ c, .added c ∈ changes ∧ c.pvName = name
  toUnsubscribe : ∀ name, name ∈ out.2.toUnsubscribe ↔
    name ∈ plan.toUnsubscribe ∨ .removed name ∈ changes

namespace Reconciler

theorem foldl_reconcileChange {changes : List PvChange} {r : Reconciler} (plan : Plan)
    (hmod : ∀ c, .modified c ∈ changes → c.pvName ∈ r.resolved ∧ .removed c.pvName ∉ changes) :
    Reconciled r plan changes (changes.foldl reconcileChange (r, plan)) := by
  induction changes generalizing r plan with
  | nil =>
    constructor
    · simp
    · exact fun name h => .inl h
    · exact List.Subset.refl _
    · simp
    · simp
  | cons change changes ih =>
    rw [List.foldl_cons]
    cases change with
    | added cfg =>
      show Reconciled r plan _ (changes.foldl reconcileChange
        ({ r with pending := r.pending.insert cfg.pvName },
          { plan with toResolve := plan.toResolve ++ [cfg.pvName] }))
      obtain ⟨hres, hpend, hnf, hto, hun⟩ :=
        ih (r := { r with pending := r.pending.insert cfg.pvName })
          { plan with toResolve := plan.toResolve ++ [cfg.pvName] }
          fun c hc => by simpa using hmod c (List.mem_cons_of_mem _ hc)
      constructor
      · simpa using hres
      · intro name hname
        rcases hpend name hname with hold | ⟨c, hc, hcn⟩
        · rcases List.mem_insert_iff.1 hold with rfl | hold
          · exact .inr ⟨cfg, List.mem_cons_self, rfl⟩
          · exact .inl hold
        · exact .inr ⟨c, List.mem_cons_of_mem _ hc, hcn⟩
      · exact hnf
      · intro name
        refine (hto name).trans ?_
        simp only [List.mem_append, List.mem_cons, List.not_mem_nil, or_false, PvChange.added.injEq,
          or_and_right, exists_or, exists_eq_left, or_assoc, eq_comm (a := name)]
      · simpa using hun
    | removed other =>
      have hne : ∀ c, .modified c ∈ changes → c.pvName ≠ other := by
        intro c hc heq
        exact (hmod c (List.mem_cons_of_mem _ hc)).2 (heq ▸ List.mem_cons_self)
      show Reconciled r plan _ (changes.foldl reconcileChange
        ({ resolved := r.resolved.filter (· ≠ other), pending := r.pending.filter (· ≠ other),
           notFound := r.notFound.filter (· ≠ other) },
          { plan with toUnsubscribe := plan.toUnsubscribe ++ [other] }))
      obtain ⟨hres, hpend, hnf, hto, hun⟩ :=
        ih (r := { resolved := r.resolved.filter (· ≠ other),
                   pending := r.pending.filter (· ≠ other),
                   notFound := r.notFound.filter (· ≠ other) })
          { plan with toUnsubscribe := plan.toUnsubscribe ++ [other] }
          fun c hc => by
            obtain ⟨hin, hout⟩ := hmod c (List.mem_cons_of_mem _ hc)
            simp only [List.mem_cons, not_or] at hout
            exact ⟨List.mem_filter.2 ⟨hin, by simpa using hne c hc⟩, hout.2⟩
      constructor
      · intro name
        refine (hres name).trans ?_
        simp only [List.mem_filter, decide_eq_true_eq, List.mem_cons, PvChange.removed.injEq,
          not_or, and_assoc]
      · intro name hname
        refine (hpend name hname).imp (fun h => (List.mem_filter.1 h).1) ?_
        exact fun ⟨c, hc, hcn⟩ => ⟨c, List.mem_cons_of_mem _ hc, hcn⟩
      · exact fun name hname => (List.mem_filter.1 (hnf hname)).1
      · simpa using hto
      · intro name
        refine (hun name).trans ?_
        simp only [List.mem_append, List.mem_cons, List.not_mem_nil, or_false,
          PvChange.removed.injEq, or_assoc]
    | modified cfg =>
      have hin : cfg.pvName ∈ r.resolved := (hmod cfg List.mem_cons_self).1
      have hstep : reconcileChange (r, plan) (.modified cfg) =
          (r, { plan with toUpdateFilter := plan.toUpdateFilter ++ [cfg.pvName] }) := if_pos hin
      rw [hstep]
      obtain ⟨hres, hpend, hnf, hto, hun⟩ :=
        ih (r := r) { plan with toUpdateFilter := plan.toUpdateFilter ++ [cfg.pvName] }
          fun c hc => by simpa using hmod c (List.mem_cons_of_mem _ hc)
      constructor
      · simpa using hres
      · simpa using hpend
      · exact hnf
      · simpa using hto
      · simpa using hun

theorem foldl_markResolvedName (r : Reconciler) (toSubscribe names : List String) (name : String) :
    let out := names.foldl markResolvedName (r, toSubscribe)
    (name ∈ out.1.resolved ↔ name ∈ r.resolved ∨ name ∈ names) ∧
    (name ∈ out.1.pending ↔ name ∈ r.pending ∧ name ∉ names) ∧
    (name ∈ out.1.notFound ↔ name ∈ r.notFound ∧ name ∉ names) ∧
    (name ∈ out.2 ↔ name ∈ toSubscribe ∨ (name ∈ names ∧ name ∉ r.resolved)) := by
  induction names generalizing r toSubscribe with
  | nil => simp
  | cons other names ih =>
    intro out
    set r' : Reconciler := { r with
      pending := r.pending.filter (· ≠ other), notFound := r.notFound.filter (· ≠ other) } with hr'
    by_cases hother : other ∈ r.resolved
    · have hstep : markResolvedName (r, toSubscribe) other = (r', toSubscribe) := if_pos hother
      obtain ⟨hres, hpend, hnf, hto⟩ := ih r' toSubscribe
      have hout : out = names.foldl markResolvedName (r', toSubscribe) :=
        congrArg (names.foldl markResolvedName) hstep
      rw [hout, hres, hpend, hnf, hto]
      by_cases heq : name = other
      · simp [hr', heq, hother]
      · simp [hr', heq]
    · have hstep : markResolvedName (r, toSubscribe) other =
          ({ r' with resolved := other :: r.resolved }, toSubscribe ++ [other]) := if_neg hother
      obtain ⟨hres, hpend, hnf, hto⟩ :=
        ih { r' with resolved := other :: r.resolved } (toSubscribe ++ [other])
      have hout : out = names.foldl markResolvedName
          ({ r' with resolved := other :: r.resolved }, toSubscribe ++ [other]) :=
        congrArg (names.foldl markResolvedName) hstep
      rw [hout, hres, hpend, hnf, hto]
      by_cases heq : name = other
      · simp [hr', heq, hother]
      · simp [hr', heq]

/-- No PV is subscribed twice: the first pass has put it among the resolved ones. -/
theorem nodup_foldl_markResolvedName {r : Reconciler} {toSubscribe : List String}
    (names : List String) (hsub : toSubscribe ⊆ r.resolved) (hnodup : toSubscribe.Nodup) :
    (names.foldl markResolvedName (r, toSubscribe)).2.Nodup := by
  induction names generalizing r toSubscribe with
  | nil => exact hnodup
  | cons other names ih =>
    rw [List.foldl_cons]
    by_cases hother : other ∈ r.resolved
    · have hstep : markResolvedName (r, toSubscribe) other =
          ({ r with
              pending := r.pending.filter (· ≠ other)
              notFound := r.notFound.filter (· ≠ other) }, toSubscribe) := if_pos hother
      rw [hstep]
      exact ih hsub hnodup
    · have hstep : markResolvedName (r, toSubscribe) other =
          ({ resolved := other :: r.resolved, pending := r.pending.filter (· ≠ other),
             notFound := r.notFound.filter (· ≠ other) }, toSubscribe ++ [other]) := if_neg hother
      rw [hstep]
      apply ih
      · rw [List.append_subset]
        exact ⟨fun name hname => List.mem_cons_of_mem _ (hsub hname), by simp⟩
      · rw [List.nodup_append]
        refine ⟨hnodup, List.nodup_singleton other, fun name hname name' hname' heq => ?_⟩
        rw [List.mem_singleton] at hname'
        subst heq hname'
        exact hother (hsub hname)

end Reconciler

end AuraEpics.Discover
