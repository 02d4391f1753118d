import AuraEpics.Runtime.Tables
import AuraEpics.Session.Bulk

/-!
# What a batch accounts for

`monitor_batch` (`crates/aura-net/src/runtime/driver.rs`, lines 161-460) returns a list of
results and leaves the PVs it could not find in `failed_pvs`, where `hot_add_ioc` (lines
624-701) looks for them. Here both are compared with the list of PVs it was called with, for
one batch in any state of the driver.

* `BatchAccounted`: one result for every PV, and no PV that is neither subscribed nor to be
  searched again;
* `CompleteBatch`: the batches that come to that.

Results:
* `accounted_iff`, which batches account for their PVs;
* `exists_bulkResults`, the results of a session are those the driver is modelled with.
-/

namespace AuraEpics.Runtime

/-! ## Results of a session -/

theorem map_fst_bulkResults (outcome : String → BulkOutcome) (pvs : List String) :
    (bulkResults outcome pvs).map Prod.fst = pvs.filter fun pv => outcome pv ≠ .unanswered := by
  induction pvs with
  | nil => rfl
  | cons pv pvs ih =>
    unfold bulkResults at ih ⊢
    cases hout : outcome pv with
    | unanswered =>
      rw [List.filterMap_cons_none (by rw [hout]), List.filter_cons_of_neg (by simp [hout]), ih]
    | rejected | notInit | started =>
      rw [List.filterMap_cons_some (by rw [hout]), List.filter_cons_of_pos (by simp [hout]),
        List.map_cons, ih]

/-- A list that reports no PV twice and no other PV is one the driver is modelled with. -/
theorem exists_bulkResults {pvs : List String} {results : List (String × Bool)}
    (hpvs : pvs.Nodup) (hnodup : (results.map Prod.fst).Nodup)
    (hsub : ∀ r ∈ results, r.1 ∈ pvs) : ∃ outcome, results.Perm (bulkResults outcome pvs) := by
  let outcome : String → BulkOutcome := fun pv =>
    if (pv, true) ∈ results then .started
    else if (pv, false) ∈ results then .rejected else .unanswered
  have hboth : ∀ pv, (pv, false) ∈ results → (pv, true) ∉ results := by
    intro pv hfalse htrue
    have heq := List.inj_on_of_nodup_map hnodup hfalse htrue rfl
    exact absurd (Prod.mk.inj heq).2 Bool.noConfusion
  have hmem : ∀ r, r ∈ results ↔ r ∈ bulkResults outcome pvs := by
    rintro ⟨pv, ok⟩
    unfold bulkResults
    rw [List.mem_filterMap]
    constructor
    · intro hr
      refine ⟨pv, hsub _ hr, ?_⟩
      dsimp only [outcome]
      cases ok with
      | true => rw [if_pos hr]
      | false => rw [if_neg (hboth pv hr), if_pos hr]
    · rintro ⟨name, -, hname⟩
      dsimp only [outcome] at hname
      split_ifs at hname with htrue hfalse
      · cases hname
        exact htrue
      · cases hname
        exact hfalse
  have hbulk : ((bulkResults outcome pvs).map Prod.fst).Nodup := by
    rw [map_fst_bulkResults]
    exact hpvs.filter _
  exact ⟨outcome, (List.perm_ext_iff_of_nodup hnodup.of_map hbulk.of_map).2 hmem⟩

open Session in
/-- The results of a session are of this kind, if its server answers no channel twice. -/
theorem exists_bulkResults_addMonitorsBulk (ids : IdSource) (s : SessionTables)
    {pvs : List String} (hpvs : pvs.Nodup) (order : HashOrder (String × ℤ))
    (wire : List (Option Frame))
    (honce : ((responses (bulkCall ids.id s pvs true order wire).created).map
      CreateChannelResponse.clientChannelId).Nodup) :
    ∃ outcome, (addMonitorsBulk ids.id s pvs true order wire).1.Perm (bulkResults outcome pvs) := by
  obtain ⟨failures, created, initDone, h⟩ := bulk_reports ids s pvs order wire
  exact exists_bulkResults hpvs (h.nodup_map_fst hpvs honce) fun r hr => h.mem_pvs_of_result hr

/-! ## Results of a batch -/

variable {Addr : Type} [DecidableEq Addr]

namespace PvaDriver

omit [DecidableEq Addr] in
/-- The PV is reported at the address: by the session that replies, else by a new one. -/
def Reports (d : PvaDriver Addr) (answers : BatchAnswers Addr) (addr : Addr) (pv : String) : Prop :=
  ∃ outcome ∈ (d.reply answers addr).or (answers.opened addr), outcome pv ≠ .unanswered

/-- What `monitor_batch` owes the PVs: one result for each, a table that has it, and no failed PV
    that is lost. -/
structure BatchAccounted (d : PvaDriver Addr) (names : List String)
    (results : List (String × Bool)) (d' : PvaDriver Addr) : Prop where
  once : (results.map Prod.fst).Perm names.dedup
  tracked : ∀ pv ∈ names, d'.Subscribed pv ∨ pv ∈ d'.failedPvs
  kept : ∀ pv ∈ d.failedPvs, ¬d'.Subscribed pv → pv ∈ d'.failedPvs

/-- A batch that is searched for is complete: a PV that is found is reported, and accepted unless
    it is subscribed already; one that is not found is named once; and the failed PVs that are
    not subscribed are named again. -/
structure CompleteBatch (d : PvaDriver Addr) (names : List String) (answers : BatchAnswers Addr)
    (routes : List (String × Addr)) : Prop where
  reported : ∀ addr, ∀ pv ∈ foundAt routes addr, d.Reports answers addr pv
  accepted : ∀ addr, ∀ pv ∈ foundAt routes addr, d.Accepts answers addr pv ∨ d.Subscribed pv
  distinct : ∀ pv, NotFound routes pv → names.count pv ≤ 1
  asked : ∀ pv ∈ d.failedPvs, ¬d.Subscribed pv → pv ∈ names

/-- A batch is complete. Without name servers it names every PV once, and only PVs that are
    subscribed or failed. -/
def Complete (d : PvaDriver Addr) (names : List String) (answers : BatchAnswers Addr) : Prop :=
  if d.nameServers = [] then
    names.Nodup ∧ ∀ pv ∈ names, d.Subscribed pv ∨ pv ∈ d.failedPvs
  else d.CompleteBatch names answers
    (searchRoutes d.nameServers names answers.found₁ answers.found₂)

section Results

variable (d : PvaDriver Addr) (answers : BatchAnswers Addr)

omit [DecidableEq Addr] in
theorem mem_entryResults (e : Addr × List String) (pv : String) :
    pv ∈ (d.entryResults answers e).map Prod.fst ↔ pv ∈ e.2 ∧ d.Reports answers e.1 pv := by
  unfold entryResults Reports
  cases (d.reply answers e.1).or (answers.opened e.1) with
  | none => simp
  | some outcome =>
    dsimp only
    rw [map_fst_bulkResults, List.mem_filter]
    simp

omit [DecidableEq Addr] in
theorem nodup_entryResults {e : Addr × List String} (h : e.2.Nodup) :
    ((d.entryResults answers e).map Prod.fst).Nodup := by
  unfold entryResults
  cases (d.reply answers e.1).or (answers.opened e.1) with
  | none => exact List.nodup_nil
  | some outcome =>
    dsimp only
    rw [map_fst_bulkResults]
    exact h.filter _

/-- The sessions report no PV twice, and those that are found where a session reports them. -/
theorem results_subscribeRoutes {routes : List (String × Addr)} (h : (routes.map Prod.fst).Nodup) :
    (((d.subscribeRoutes routes answers).results).map Prod.fst).Nodup ∧
      ∀ pv, pv ∈ (d.subscribeRoutes routes answers).results.map Prod.fst ↔
        ∃ addr, pv ∈ foundAt routes addr ∧ d.Reports answers addr pv := by
  obtain ⟨es, hperm, -, hresults⟩ := d.driver_subscribeRoutes answers routes
  have hentry : ∀ e ∈ es, e.2 = foundAt routes e.1 ∧ e.2 ≠ [] :=
    fun e he => mem_serverPvs.1 (hperm.mem_iff.1 he)
  rw [hresults, List.map_flatMap]
  constructor
  · rw [List.nodup_flatMap]
    constructor
    · intro e he
      apply d.nodup_entryResults answers
      rw [(hentry e he).1]
      exact nodup_foundAt h e.1
    · apply (hperm.nodup_iff.2 (nodup_serverPvs_entries routes)).pairwise_of_forall_ne
      intro e he e' he' hne pv hpv hpv'
      have hmem := ((d.mem_entryResults answers e pv).1 hpv).1
      have hmem' := ((d.mem_entryResults answers e' pv).1 hpv').1
      rw [(hentry e he).1] at hmem
      rw [(hentry e' he').1] at hmem'
      have haddr := foundAt_unique h hmem hmem'
      apply hne
      rw [Prod.ext_iff, (hentry e he).1, (hentry e' he').1, haddr]
      exact ⟨rfl, rfl⟩
  · intro pv
    rw [List.mem_flatMap]
    constructor
    · rintro ⟨e, he, hpv⟩
      obtain ⟨hmem, hreports⟩ := (d.mem_entryResults answers e pv).1 hpv
      rw [(hentry e he).1] at hmem
      exact ⟨e.1, hmem, hreports⟩
    · rintro ⟨addr, hmem, hreports⟩
      have he : (addr, foundAt routes addr) ∈ es :=
        hperm.mem_iff.2 (mem_serverPvs.2 ⟨rfl, List.ne_nil_of_mem hmem⟩)
      exact ⟨_, he, (d.mem_entryResults answers _ pv).2 ⟨hmem, hreports⟩⟩

end Results

theorem mem_missing {names : List String} {routes : List (String × Addr)} {pv : String} :
    pv ∈ names.filter (fun pv => (routes.lookup pv).isNone) ↔ pv ∈ names ∧ NotFound routes pv := by
  rw [List.mem_filter, ← notFound_iff]

/-- The results of a batch name its PVs once each exactly if the PVs that are found are reported
    and the others are named once. -/
theorem once_iff (d : PvaDriver Addr) (names : List String) (answers : BatchAnswers Addr)
    {routes : List (String × Addr)} (h : (routes.map Prod.fst).Nodup)
    (hnames : ∀ r ∈ routes, r.1 ∈ names) :
    let missing := names.filter fun pv => (routes.lookup pv).isNone
    (((d.subscribeRoutes routes answers).results ++ missing.map fun pv => (pv, false)).map
        Prod.fst).Perm names.dedup ↔
      (∀ addr, ∀ pv ∈ foundAt routes addr, d.Reports answers addr pv) ∧
        ∀ pv, NotFound routes pv → names.count pv ≤ 1 := by
  intro missing
  obtain ⟨hnodup, hmem⟩ := d.results_subscribeRoutes answers h
  have hfirst : (missing.map fun pv => (pv, false)).map Prod.fst = missing := by
    rw [List.map_map]
    exact List.map_id missing
  rw [List.map_append, hfirst]
  generalize (d.subscribeRoutes routes answers).results.map Prod.fst = reported at hnodup hmem
  have hcount : ∀ pv, NotFound routes pv → missing.count pv = names.count pv :=
    fun pv hnot => List.count_filter (notFound_iff.2 hnot)
  constructor
  · intro hperm
    have hall := hperm.nodup_iff.2 names.nodup_dedup
    refine ⟨fun addr pv hpv => ?_, fun pv hnot => ?_⟩
    · have hname : pv ∈ names.dedup := List.mem_dedup.2 (hnames _ (mem_foundAt.1 hpv))
      obtain hrep | hmiss := List.mem_append.1 (hperm.mem_iff.2 hname)
      · obtain ⟨addr', hpv', hreports⟩ := (hmem pv).1 hrep
        rw [foundAt_unique h hpv hpv']
        exact hreports
      · exact absurd hpv ((mem_missing.1 hmiss).2 addr)
    · rw [← hcount pv hnot]
      exact List.nodup_iff_count_le_one.1 (List.nodup_append.1 hall).2.1 pv
  · rintro ⟨hreports, hdistinct⟩
    have hmissing : missing.Nodup := by
      rw [List.nodup_iff_count_le_one]
      intro pv
      by_cases hpv : pv ∈ missing
      · rw [hcount pv (mem_missing.1 hpv).2]
        exact hdistinct pv (mem_missing.1 hpv).2
      · rw [List.count_eq_zero_of_not_mem hpv]
        exact Nat.zero_le 1
    have hdisjoint : List.Disjoint reported missing := by
      intro pv hrep hmiss
      obtain ⟨addr, hpv, -⟩ := (hmem pv).1 hrep
      exact (mem_missing.1 hmiss).2 addr hpv
    rw [List.perm_ext_iff_of_nodup (hnodup.append hmissing hdisjoint) names.nodup_dedup]
    intro pv
    rw [List.mem_append, hmem, mem_missing, List.mem_dedup]
    constructor
    · rintro (⟨addr, hpv, -⟩ | ⟨hname, -⟩)
      · exact hnames _ (mem_foundAt.1 hpv)
      · exact hname
    · intro hname
      by_cases hnot : NotFound routes pv
      · exact .inr ⟨hname, hnot⟩
      · obtain ⟨addr, hpv⟩ := not_forall_not.1 hnot
        exact .inl ⟨addr, hpv, hreports addr pv hpv⟩

/-! ## Tables of a batch -/

section Tables

variable {d d' : PvaDriver Addr} {names : List String} {answers : BatchAnswers Addr}
  {routes : List (String × Addr)}

/-- A PV that is subscribed stays so. -/
theorem BatchTables.subscribed_of_subscribed (h : d.BatchTables answers routes d') {pv : String}
    (hpv : d.Subscribed pv) : d'.Subscribed pv := by
  by_contra hnot
  have hnone := h.cache_none (Option.not_isSome_iff_eq_none.1 hnot)
  unfold Subscribed at hpv
  rw [hnone] at hpv
  cases hpv

/-- A PV that is found is subscribed afterwards if it is accepted or was subscribed. -/
theorem BatchTables.subscribed_iff (h : d.BatchTables answers routes d') {addr : Addr}
    {pv : String} (hpv : pv ∈ foundAt routes addr) :
    d'.Subscribed pv ↔ d.Accepts answers addr pv ∨ d.Subscribed pv := by
  unfold Subscribed
  rw [h.cache_found addr pv hpv]
  split_ifs with hacc
  · exact iff_of_true rfl (.inl hacc)
  · exact (or_iff_right hacc).symm

theorem tracked_and_kept_iff (h : d.BatchTables answers routes d')
    (hnames : ∀ r ∈ routes, r.1 ∈ names)
    (hfailed : ∀ pv, pv ∈ d'.failedPvs ↔ pv ∈ names ∧ NotFound routes pv) (old : List String) :
    ((∀ pv ∈ names, d'.Subscribed pv ∨ pv ∈ d'.failedPvs) ∧
        ∀ pv ∈ old, ¬d'.Subscribed pv → pv ∈ d'.failedPvs) ↔
      (∀ addr, ∀ pv ∈ foundAt routes addr, d.Accepts answers addr pv ∨ d.Subscribed pv) ∧
        ∀ pv ∈ old, ¬d.Subscribed pv → pv ∈ names := by
  constructor
  · rintro ⟨htracked, hkept⟩
    refine ⟨fun addr pv hpv => ?_, fun pv hold hnot => ?_⟩
    · obtain hsub | hfail := htracked pv (hnames _ (mem_foundAt.1 hpv))
      · exact (h.subscribed_iff hpv).1 hsub
      · exact absurd hpv (((hfailed pv).1 hfail).2 addr)
    · by_contra hname
      -- a PV that is not asked for is not found, so its route stays as it was
      have hnotFound : NotFound routes pv := fun addr hpv => hname (hnames _ (mem_foundAt.1 hpv))
      have hnot' : ¬d'.Subscribed pv := by
        unfold Subscribed
        rw [h.cache_other pv hnotFound]
        exact hnot
      exact hname ((hfailed pv).1 (hkept pv hold hnot')).1
  · rintro ⟨haccepted, hasked⟩
    have htracked : ∀ pv ∈ names, d'.Subscribed pv ∨ pv ∈ d'.failedPvs := by
      intro pv hname
      by_cases hnot : NotFound routes pv
      · exact .inr ((hfailed pv).2 ⟨hname, hnot⟩)
      · obtain ⟨addr, hpv⟩ := not_forall_not.1 hnot
        exact .inl ((h.subscribed_iff hpv).2 (haccepted addr pv hpv))
    refine ⟨htracked, fun pv hold hnot => ?_⟩
    have hname : pv ∈ names := hasked pv hold fun hsub => hnot (h.subscribed_of_subscribed hsub)
    exact (htracked pv hname).resolve_left hnot

end Tables

/-! ## Main theorem -/

/-- **Main theorem.** A batch accounts for its PVs and keeps the failed ones exactly if it is
    complete. -/
theorem accounted_iff (d : PvaDriver Addr) (names : List String) (answers : BatchAnswers Addr) :
    d.BatchAccounted names (d.monitorBatch names answers).1 (d.monitorBatch names answers).2 ↔
      d.Complete names answers := by
  unfold monitorBatch Complete
  by_cases hservers : d.nameServers = []
  · rw [if_pos hservers, if_pos hservers]
    have hfirst : (names.map fun pv => (pv, false)).map Prod.fst = names := by
      rw [List.map_map]
      exact List.map_id names
    constructor
    · intro h
      refine ⟨?_, h.tracked⟩
      have hperm := h.once
      dsimp only at hperm
      rw [hfirst] at hperm
      exact hperm.nodup_iff.2 names.nodup_dedup
    · rintro ⟨hnodup, htracked⟩
      refine ⟨?_, htracked, fun pv hpv _ => hpv⟩
      dsimp only
      rw [hfirst, hnodup.dedup]
  · rw [if_neg hservers, if_neg hservers]
    dsimp only
    have hnames : ∀ r ∈ searchRoutes d.nameServers names answers.found₁ answers.found₂, r.1 ∈ names :=
      fun r hr => mem_of_mem_searchRoutes hr
    have hnodup := nodup_searchRoutes d.nameServers names answers.found₁ answers.found₂
    generalize searchRoutes d.nameServers names answers.found₁ answers.found₂ = routes
      at hnames hnodup ⊢
    generalize hd : { d with failedPvs := names.filter fun pv => (routes.lookup pv).isNone } = d₁
    have htables := d₁.subscribeRoutes_tables answers hnodup
    have hfailed : ∀ pv, pv ∈ (d₁.subscribeRoutes routes answers).driver.failedPvs ↔
        pv ∈ names ∧ NotFound routes pv := by
      intro pv
      rw [failedPvs_subscribeRoutes, ← hd]
      exact mem_missing
    have honce := d₁.once_iff names answers hnodup hnames
    have hrest := tracked_and_kept_iff htables hnames hfailed d.failedPvs
    -- the tables before the batch differ in `failed_pvs` only
    subst hd
    constructor
    · rintro ⟨hperm, htracked, hkept⟩
      obtain ⟨hreported, hdistinct⟩ := honce.1 hperm
      obtain ⟨haccepted, hasked⟩ := hrest.1 ⟨htracked, hkept⟩
      exact ⟨hreported, haccepted, hdistinct, hasked⟩
    · rintro ⟨hreported, haccepted, hdistinct, hasked⟩
      obtain ⟨htracked, hkept⟩ := hrest.2 ⟨haccepted, hasked⟩
      exact ⟨honce.2 ⟨hreported, hdistinct⟩, htracked, hkept⟩

/-- The PV is found, and the session that is opened for it cannot connect. -/
def unreachable : BatchAnswers ℕ :=
  ⟨fun _ _ => true, fun _ _ => true, fun _ => .unsent, fun _ => none⟩

/-- A PV whose IOC cannot be connected to has no result and is in no table. -/
theorem unreachable_unaccounted :
    ¬(new [1]).BatchAccounted ["A"] ((new [1]).monitorBatch ["A"] unreachable).1
      ((new [1]).monitorBatch ["A"] unreachable).2 := by
  intro h
  exact absurd h.once (by decide)

end PvaDriver

end AuraEpics.Runtime
