import AuraEpics.Lib.Runs
import AuraEpics.Runtime.Reconnect

/-!
# Driver tables

The tables of `PvaDriver` (`crates/aura-net/src/runtime/driver.rs`, lines 84-112) over any
sequence of `monitor_batch`, `hot_add_ioc`, `unsubscribe`, `remove_session` and reconnect
notifications (`src/main.rs`, line 622), with any answers of the network.

A batch touches the tables once for every IOC its PVs are found at: the IOC's session replies
and its list is extended, or a new session accepts some of them and the list is replaced, or
nothing happens. `failed_pvs` is overwritten with the PVs of the batch that are not found.

Result: `consistent_iff`, the tables agree in every state of a run exactly if every step is
safe.
-/

namespace AuraEpics.Runtime

open Runs

variable {Addr : Type} [DecidableEq Addr]

namespace PvaDriver

/-! ## What a batch comes to at an address -/

/-- The PVs found at the address. -/
def foundAt (routes : List (String × Addr)) (addr : Addr) : List String :=
  (routes.filter fun r => r.2 = addr).map Prod.fst

omit [DecidableEq Addr] in
/-- What the session of the address replies, if it has one that does. -/
def reply (d : PvaDriver Addr) (answers : BatchAnswers Addr) (addr : Addr) :
    Option (String → BulkOutcome) :=
  if (d.sessionCommands addr).isSome then
    match answers.added addr with
    | .replied outcome => some outcome
    | _ => none
  else none

/-- The PV is accepted at the address: by the session that replies, else by a new one. -/
def Accepts (d : PvaDriver Addr) (answers : BatchAnswers Addr) (addr : Addr) (pv : String) : Prop :=
  ∃ outcome ∈ (d.reply answers addr).or (answers.opened addr), outcome pv = .started

/-- A new session is opened for the address and accepts some of the PVs. -/
def Replaces (d : PvaDriver Addr) (answers : BatchAnswers Addr) (addr : Addr) (pvs : List String) :
    Prop :=
  d.reply answers addr = none ∧ ∃ pv ∈ pvs, d.Accepts answers addr pv

omit [DecidableEq Addr] in
instance (d : PvaDriver Addr) (answers : BatchAnswers Addr) (addr : Addr) (pv : String) :
    Decidable (d.Accepts answers addr pv) :=
  inferInstanceAs
    (Decidable (∃ outcome ∈ (d.reply answers addr).or (answers.opened addr), outcome pv = .started))

/-- What `monitor_batch` does to the tables for the PVs found at one address. -/
def applyEntry (d₀ : PvaDriver Addr) (answers : BatchAnswers Addr) (d : PvaDriver Addr)
    (e : Addr × List String) : PvaDriver Addr :=
  match d₀.reply answers e.1 with
  | some outcome => d.recordExisting e.1 e.2 (bulkResults outcome e.2)
  | none =>
    match answers.opened e.1 with
    | some outcome => d.recordNew e.1 e.2 (bulkResults outcome e.2)
    | none => d

omit [DecidableEq Addr] in
/-- What `monitor_batch` reports about the PVs found at one address. -/
def entryResults (d : PvaDriver Addr) (answers : BatchAnswers Addr) (e : Addr × List String) :
    List (String × Bool) :=
  match (d.reply answers e.1).or (answers.opened e.1) with
  | some outcome => bulkResults outcome e.2
  | none => []

theorem mem_true_bulkResults {outcome : String → BulkOutcome} {pvs : List String} {pv : String} :
    (pv, true) ∈ bulkResults outcome pvs ↔ pv ∈ pvs ∧ outcome pv = .started := by
  unfold bulkResults
  rw [List.mem_filterMap]
  constructor
  · rintro ⟨p, hp, hout⟩
    cases h : outcome p with
    | started =>
      rw [h] at hout
      cases hout
      exact ⟨hp, h⟩
    | _ => rw [h] at hout; cases hout
  · rintro ⟨hpv, hout⟩
    exact ⟨pv, hpv, by rw [hout]⟩

section Entry

variable (d₀ d : PvaDriver Addr) (answers : BatchAnswers Addr) (e : Addr × List String)

omit [DecidableEq Addr] in
theorem insertOk_bulkResults (cache : String → Option Addr) (addr : Addr)
    (outcome : String → BulkOutcome) (pvs : List String) (pv : String) :
    insertOk cache addr (bulkResults outcome pvs) pv =
      if pv ∈ pvs ∧ outcome pv = .started then some addr else cache pv := by
  rw [insertOk_apply, if_congr mem_true_bulkResults rfl rfl]

theorem applyEntry_pvServerCache (pv : String) :
    (applyEntry d₀ answers d e).pvServerCache pv =
      if pv ∈ e.2 ∧ d₀.Accepts answers e.1 pv then some e.1 else d.pvServerCache pv := by
  unfold applyEntry
  cases hreply : d₀.reply answers e.1 with
  | some outcome =>
    show insertOk d.pvServerCache e.1 (bulkResults outcome e.2) pv = _
    rw [insertOk_bulkResults]
    refine if_congr (and_congr_right fun _ => ?_) rfl rfl
    rw [Accepts, hreply]
    simp
  | none =>
    have hiff : d₀.Accepts answers e.1 pv ↔ ∃ outcome ∈ answers.opened e.1, outcome pv = .started := by
      rw [Accepts, hreply, Option.none_or]
    cases hopened : answers.opened e.1 with
    | some outcome =>
      dsimp only
      rw [pvServerCache_recordNew, insertOk_bulkResults]
      refine if_congr (and_congr_right fun _ => ?_) rfl rfl
      rw [hiff, hopened]
      simp
    | none =>
      refine (if_neg fun h => ?_).symm
      obtain ⟨outcome, houtcome, -⟩ := hiff.1 h.2
      rw [hopened] at houtcome
      cases houtcome

/-- The tables of an address. -/
theorem applyEntry_of_ne {addr : Addr} (h : addr ≠ e.1) :
    (applyEntry d₀ answers d e).iocPvs addr = d.iocPvs addr ∧
      (applyEntry d₀ answers d e).sessionCommands addr = d.sessionCommands addr := by
  unfold applyEntry
  cases d₀.reply answers e.1 with
  | some outcome =>
    refine ⟨?_, rfl⟩
    dsimp only [recordExisting]
    cases d.iocPvs e.1 with
    | some existing => exact Function.update_of_ne h _ _
    | none => rfl
  | none =>
    cases answers.opened e.1 with
    | some outcome =>
      dsimp only
      unfold recordNew
      dsimp only
      split_ifs
      · exact ⟨Function.update_of_ne h _ _, Function.update_of_ne h _ _⟩
      · exact ⟨rfl, rfl⟩
    | none => exact ⟨rfl, rfl⟩

/-- A session that replies has its list extended by the PVs that are subscribed by now. -/
theorem applyEntry_of_reply {outcome : String → BulkOutcome}
    (h : d₀.reply answers e.1 = some outcome) :
    (applyEntry d₀ answers d e).iocPvs e.1 = (d.iocPvs e.1).map
        (· ++ e.2.filter fun p => ((applyEntry d₀ answers d e).pvServerCache p).isSome) ∧
      (applyEntry d₀ answers d e).sessionCommands e.1 = d.sessionCommands e.1 := by
  unfold applyEntry
  rw [h]
  refine ⟨?_, rfl⟩
  dsimp only [recordExisting]
  cases hentry : d.iocPvs e.1 with
  | some existing => exact Function.update_self _ _ _
  | none => exact hentry

theorem applyEntry_of_replaces (h : d₀.Replaces answers e.1 e.2) :
    (applyEntry d₀ answers d e).iocPvs e.1 = some e.2 ∧
      ((applyEntry d₀ answers d e).sessionCommands e.1).isSome := by
  obtain ⟨hreply, pv, hpv, outcome, houtcome, hstarted⟩ := h
  rw [hreply, Option.none_or] at houtcome
  unfold applyEntry
  rw [hreply, Option.mem_def.1 houtcome]
  dsimp only
  unfold recordNew
  rw [if_pos ((any_bulkResults outcome e.2).2 ⟨pv, hpv, hstarted⟩)]
  exact ⟨Function.update_self _ _ _, Option.isSome_iff_exists.2 ⟨_, Function.update_self _ _ _⟩⟩

theorem applyEntry_of_nothing (hreply : d₀.reply answers e.1 = none)
    (h : ¬d₀.Replaces answers e.1 e.2) :
    (applyEntry d₀ answers d e).iocPvs e.1 = d.iocPvs e.1 ∧
      (applyEntry d₀ answers d e).sessionCommands e.1 = d.sessionCommands e.1 := by
  unfold applyEntry
  rw [hreply]
  cases hopened : answers.opened e.1 with
  | none => exact ⟨rfl, rfl⟩
  | some outcome =>
    have hnone : ¬(bulkResults outcome e.2).any Prod.snd = true := by
      rw [any_bulkResults]
      rintro ⟨pv, hpv, hstarted⟩
      refine h ⟨hreply, pv, hpv, outcome, ?_, hstarted⟩
      rw [hreply, hopened]
      rfl
    dsimp only
    unfold recordNew
    rw [if_neg hnone]
    exact ⟨rfl, rfl⟩

end Entry

/-! ## A batch, address by address -/

section Batch

variable (d : PvaDriver Addr) (answers : BatchAnswers Addr)

/-- The first loop applies the entries whose session replies and leaves the others over. -/
theorem foldl_addExisting (es : List (Addr × List String))
    (hes : ∀ e ∈ es, (d.sessionCommands e.1).isSome) (p : Progress Addr) :
    let p' := es.foldl (addExisting answers.added) p
    let replied := es.filter fun e => (d.reply answers e.1).isSome
    p'.driver = replied.foldl (applyEntry d answers) p.driver ∧
      p'.results = p.results ++ replied.flatMap (d.entryResults answers) ∧
      p'.newIocPvs = p.newIocPvs ++ es.filter fun e => !(d.reply answers e.1).isSome := by
  induction es generalizing p with
  | nil => exact ⟨rfl, (List.append_nil _).symm, (List.append_nil _).symm⟩
  | cons e es ih =>
    have hreply : d.reply answers e.1 =
        match answers.added e.1 with | .replied outcome => some outcome | _ => none :=
      if_pos (hes e List.mem_cons_self)
    obtain ⟨hdriver, hresults, hnew⟩ := ih (fun e' he' => hes e' (List.mem_cons_of_mem e he'))
      (addExisting answers.added p e)
    dsimp only
    rw [List.foldl_cons, hdriver, hresults, hnew]
    unfold addExisting
    cases hadded : answers.added e.1 with
    | replied outcome =>
      rw [hadded] at hreply
      have happly : applyEntry d answers p.driver e =
          p.driver.recordExisting e.1 e.2 (bulkResults outcome e.2) := by
        unfold applyEntry
        rw [hreply]
      have hentry : d.entryResults answers e = bulkResults outcome e.2 := by
        unfold entryResults
        rw [hreply]
        rfl
      rw [List.filter_cons_of_pos (by rw [hreply]; rfl), List.filter_cons_of_neg (by rw [hreply]; simp),
        List.foldl_cons, List.flatMap_cons, happly, hentry]
      exact ⟨rfl, List.append_assoc _ _ _, rfl⟩
    | unsent | timedOut =>
      rw [hadded] at hreply
      rw [List.filter_cons_of_neg (by rw [hreply]; simp), List.filter_cons_of_pos (by rw [hreply]; rfl)]
      exact ⟨rfl, rfl, List.append_assoc _ _ _⟩

/-- The second loop applies the rest. -/
theorem foldl_collectNew (es : List (Addr × List String))
    (hes : ∀ e ∈ es, d.reply answers e.1 = none) (p : Progress Addr) :
    let p' := es.foldl (collectNew answers.opened) p
    p'.driver = es.foldl (applyEntry d answers) p.driver ∧
      p'.results = p.results ++ es.flatMap (d.entryResults answers) := by
  induction es generalizing p with
  | nil => exact ⟨rfl, (List.append_nil _).symm⟩
  | cons e es ih =>
    have hreply := hes e List.mem_cons_self
    have hone : (collectNew answers.opened p e).driver = applyEntry d answers p.driver e ∧
        (collectNew answers.opened p e).results = p.results ++ d.entryResults answers e := by
      unfold collectNew applyEntry entryResults
      rw [hreply, Option.none_or]
      cases answers.opened e.1 with
      | some outcome => exact ⟨rfl, rfl⟩
      | none => exact ⟨rfl, (List.append_nil _).symm⟩
    obtain ⟨hdriver, hresults⟩ := ih (fun e' he' => hes e' (List.mem_cons_of_mem e he'))
      (collectNew answers.opened p e)
    dsimp only
    rw [List.foldl_cons, List.foldl_cons, List.flatMap_cons, hdriver, hresults, hone.1, hone.2,
      List.append_assoc]
    exact ⟨rfl, rfl⟩

/-- `monitor_batch` applies every entry once, and reports about it. -/
theorem driver_subscribeRoutes (routes : List (String × Addr)) :
    ∃ es : List (Addr × List String), es.Perm (serverPvs routes) ∧
      (d.subscribeRoutes routes answers).driver = es.foldl (applyEntry d answers) d ∧
      (d.subscribeRoutes routes answers).results = es.flatMap (d.entryResults answers) := by
  unfold subscribeRoutes
  dsimp only
  generalize hexisting :
    (serverPvs routes).filter (fun e => (d.sessionCommands e.1).isSome) = existing
  generalize hfresh : (serverPvs routes).filter (fun e => (d.sessionCommands e.1).isNone) = fresh
  have hsession : ∀ e ∈ existing, (d.sessionCommands e.1).isSome := by
    rw [← hexisting]
    exact fun e he => (List.mem_filter.1 he).2
  have hnoSession : ∀ e ∈ fresh, d.reply answers e.1 = none := by
    rw [← hfresh]
    intro e he
    refine if_neg ?_
    rw [Option.not_isSome_iff_eq_none]
    exact Option.isNone_iff_eq_none.1 (List.mem_filter.1 he).2
  obtain ⟨hdriver, hresults, hnew⟩ := d.foldl_addExisting answers existing hsession ⟨d, [], fresh⟩
  dsimp only at hdriver hresults hnew
  refine ⟨existing.filter (fun e => (d.reply answers e.1).isSome) ++
    (fresh ++ existing.filter fun e => !(d.reply answers e.1).isSome), ?_, ?_⟩
  · have hparts : (serverPvs routes).Perm (existing ++ fresh) := by
      rw [← hexisting, ← hfresh]
      simpa using
        (List.filter_append_perm (fun e => (d.sessionCommands e.1).isSome) (serverPvs routes)).symm
    have hreplies := List.filter_append_perm (fun e => (d.reply answers e.1).isSome) existing
    refine List.Perm.trans ?_ hparts.symm
    refine (List.perm_append_comm.append_left _).trans ?_
    rw [← List.append_assoc]
    exact hreplies.append_right fresh
  · have hrest : ∀ e ∈ (existing.foldl (addExisting answers.added) ⟨d, [], fresh⟩).newIocPvs,
        d.reply answers e.1 = none := by
      rw [hnew]
      intro e he
      obtain he | he := List.mem_append.1 he
      · exact hnoSession e he
      · simpa using (List.mem_filter.1 he).2
    obtain ⟨hdriver', hresults'⟩ := foldl_collectNew d answers _ hrest
      (existing.foldl (addExisting answers.added) ⟨d, [], fresh⟩)
    rw [hdriver', hresults', hdriver, hresults, hnew, List.nil_append, ← List.foldl_append,
      ← List.flatMap_append]
    exact ⟨rfl, rfl⟩

theorem applyEntry_failedPvs (d₁ : PvaDriver Addr) (e : Addr × List String) :
    (applyEntry d answers d₁ e).failedPvs = d₁.failedPvs := by
  unfold applyEntry
  split
  · rfl
  · split
    · unfold recordNew
      dsimp only
      split_ifs <;> rfl
    · rfl

theorem mem_foundAt {routes : List (String × Addr)} {addr : Addr} {pv : String} :
    pv ∈ foundAt routes addr ↔ (pv, addr) ∈ routes := by
  unfold foundAt
  rw [List.mem_map]
  constructor
  · rintro ⟨⟨p, a⟩, hr, rfl⟩
    obtain ⟨hmem, ha⟩ := List.mem_filter.1 hr
    obtain rfl : a = addr := of_decide_eq_true ha
    exact hmem
  · intro h
    exact ⟨(pv, addr), List.mem_filter.2 ⟨h, decide_eq_true rfl⟩, rfl⟩

theorem nodup_foundAt {routes : List (String × Addr)} (h : (routes.map Prod.fst).Nodup)
    (addr : Addr) : (foundAt routes addr).Nodup :=
  h.sublist (List.filter_sublist.map Prod.fst)

/-- A PV is found at one address. -/
theorem foundAt_unique {routes : List (String × Addr)} (h : (routes.map Prod.fst).Nodup)
    {a b : Addr} {pv : String} (ha : pv ∈ foundAt routes a) (hb : pv ∈ foundAt routes b) : a = b := by
  have heq := List.inj_on_of_nodup_map h (mem_foundAt.1 ha) (mem_foundAt.1 hb) rfl
  exact (Prod.mk.inj heq).2

theorem nodup_eraseDups (l : List Addr) : l.eraseDups.Nodup := by
  induction hn : l.length using Nat.strong_induction_on generalizing l with
  | _ n ih =>
    cases l with
    | nil => exact List.nodup_nil
    | cons a l =>
      rw [List.eraseDups_cons, List.nodup_cons, List.mem_eraseDups, List.mem_filter]
      refine ⟨fun h => by simpa using h.2, ih _ ?_ _ rfl⟩
      have hle := List.length_filter_le (fun b => !b == a) l
      rw [List.length_cons] at hn
      omega

/-- Every address with PVs found at it has one entry. -/
theorem nodup_serverPvs_entries (routes : List (String × Addr)) : (serverPvs routes).Nodup :=
  (nodup_eraseDups _).map fun _ _ h => (Prod.mk.inj h).1

theorem mem_serverPvs {routes : List (String × Addr)} {e : Addr × List String} :
    e ∈ serverPvs routes ↔ e.2 = foundAt routes e.1 ∧ e.2 ≠ [] := by
  obtain ⟨addr, pvs⟩ := e
  unfold serverPvs
  rw [List.mem_map]
  constructor
  · rintro ⟨a, ha, heq⟩
    obtain ⟨rfl, rfl⟩ := Prod.mk.inj heq
    refine ⟨rfl, ?_⟩
    obtain ⟨⟨pv, b⟩, hr, rfl⟩ := List.mem_map.1 (List.mem_eraseDups.1 ha)
    exact List.ne_nil_of_mem (mem_foundAt.2 hr)
  · rintro ⟨hpvs, hne⟩
    obtain rfl : pvs = foundAt routes addr := hpvs
    obtain ⟨pv, hpv⟩ := List.exists_mem_of_ne_nil _ hne
    refine ⟨addr, List.mem_eraseDups.2 (List.mem_map.2 ⟨(pv, addr), mem_foundAt.1 hpv, rfl⟩), rfl⟩

/-- The tables of an address and the PVs found there. -/
def view (routes : List (String × Addr)) (addr : Addr) (d : PvaDriver Addr) :
    Option (List String) × Option ChannelId × (String → Option Addr) :=
  (d.iocPvs addr, d.sessionCommands addr, fun pv =>
    if pv ∈ foundAt routes addr then d.pvServerCache pv else none)

theorem view_applyEntry {routes : List (String × Addr)} (h : (routes.map Prod.fst).Nodup)
    {addr : Addr} {e : Addr × List String} (he : e ∈ serverPvs routes) (hne : addr ≠ e.1)
    (d₁ : PvaDriver Addr) : view routes addr (applyEntry d answers d₁ e) = view routes addr d₁ := by
  obtain ⟨hioc, hsession⟩ := applyEntry_of_ne d d₁ answers e hne
  unfold view
  rw [hioc, hsession]
  refine congrArg (Prod.mk _) (congrArg (Prod.mk _) (funext fun pv => ?_))
  split_ifs with hpv
  · rw [applyEntry_pvServerCache, if_neg]
    rintro ⟨hmem, -⟩
    rw [(mem_serverPvs.1 he).1] at hmem
    exact hne (foundAt_unique h hpv hmem)
  · rfl

/-- The tables of an address after a batch are what its entry makes of them. -/
theorem view_subscribeRoutes {routes : List (String × Addr)} (h : (routes.map Prod.fst).Nodup)
    (addr : Addr) :
    (foundAt routes addr = [] ∧
      view routes addr (d.subscribeRoutes routes answers).driver = view routes addr d) ∨
    ∃ d₁, view routes addr d₁ = view routes addr d ∧
      view routes addr (d.subscribeRoutes routes answers).driver =
        view routes addr (applyEntry d answers d₁ (addr, foundAt routes addr)) := by
  obtain ⟨es, hperm, hdriver, -⟩ := d.driver_subscribeRoutes answers routes
  rw [hdriver]
  by_cases hempty : foundAt routes addr = []
  · refine .inl ⟨hempty, run_untouched (fun e he d₁ => ?_) d⟩
    have hentry := hperm.mem_iff.1 he
    refine d.view_applyEntry answers h hentry ?_ d₁
    rintro rfl
    exact (mem_serverPvs.1 hentry).2 ((mem_serverPvs.1 hentry).1.trans hempty)
  · have hmem : (addr, foundAt routes addr) ∈ es :=
      hperm.mem_iff.2 (mem_serverPvs.2 ⟨rfl, hempty⟩)
    refine .inr (run_touched_once (hperm.nodup_iff.2 (nodup_serverPvs_entries routes)) hmem ?_ d)
    intro e he hne d₁
    have hentry := hperm.mem_iff.1 he
    refine d.view_applyEntry answers h hentry ?_ d₁
    rintro rfl
    exact hne (Prod.ext rfl (mem_serverPvs.1 hentry).1)

/-- The tables after a batch whose PVs are found as `routes` says. -/
structure BatchTables (routes : List (String × Addr)) (d' : PvaDriver Addr) : Prop where
  cache_found : ∀ addr, ∀ pv ∈ foundAt routes addr,
    d'.pvServerCache pv = if d.Accepts answers addr pv then some addr else d.pvServerCache pv
  cache_other : ∀ pv, (∀ addr, pv ∉ foundAt routes addr) → d'.pvServerCache pv = d.pvServerCache pv
  extended : ∀ addr outcome, d.reply answers addr = some outcome →
    d'.iocPvs addr = (d.iocPvs addr).map
      (· ++ (foundAt routes addr).filter fun p => (d'.pvServerCache p).isSome)
  replaced : ∀ addr, d.Replaces answers addr (foundAt routes addr) →
    d'.iocPvs addr = some (foundAt routes addr) ∧ (d'.sessionCommands addr).isSome
  kept : ∀ addr, d.reply answers addr = none → ¬d.Replaces answers addr (foundAt routes addr) →
    d'.iocPvs addr = d.iocPvs addr
  sessions : ∀ addr, (d.sessionCommands addr).isSome → (d'.sessionCommands addr).isSome

theorem view_eq_iff {routes : List (String × Addr)} {addr : Addr} {d d' : PvaDriver Addr} :
    view routes addr d = view routes addr d' ↔ d.iocPvs addr = d'.iocPvs addr ∧
      d.sessionCommands addr = d'.sessionCommands addr ∧
      ∀ pv ∈ foundAt routes addr, d.pvServerCache pv = d'.pvServerCache pv := by
  unfold view
  rw [Prod.mk.injEq, Prod.mk.injEq, funext_iff]
  refine and_congr_right fun _ => and_congr_right fun _ => forall_congr' fun pv => ?_
  split_ifs with hpv
  · exact ⟨fun h _ => h, fun h => h hpv⟩
  · exact iff_of_true rfl fun h => absurd h hpv

theorem subscribeRoutes_tables {routes : List (String × Addr)} (h : (routes.map Prod.fst).Nodup) :
    d.BatchTables answers routes (d.subscribeRoutes routes answers).driver := by
  obtain ⟨es, hperm, hdriver, -⟩ := d.driver_subscribeRoutes answers routes
  have hview := d.view_subscribeRoutes answers h
  simp only [view_eq_iff] at hview
  rw [hdriver] at hview ⊢
  constructor
  · intro addr pv hpv
    obtain ⟨hempty, -⟩ | ⟨d₁, ⟨-, -, hcache₁⟩, -, -, hcache⟩ := hview addr
    · rw [hempty] at hpv
      exact absurd hpv List.not_mem_nil
    · rw [hcache pv hpv, applyEntry_pvServerCache, hcache₁ pv hpv]
      exact if_congr (and_iff_right hpv) rfl rfl
  · intro pv hnot
    refine run_untouched (f := fun d => d.pvServerCache pv) (fun e he d₁ => ?_) d
    rw [applyEntry_pvServerCache, if_neg]
    rintro ⟨hmem, -⟩
    rw [(mem_serverPvs.1 (hperm.mem_iff.1 he)).1] at hmem
    exact hnot e.1 hmem
  · intro addr outcome hreply
    obtain ⟨hempty, hioc, -⟩ | ⟨d₁, ⟨hioc₁, -, -⟩, hioc, -, hcache⟩ := hview addr
    · rw [hioc, hempty]
      simp
    · rw [hioc, (applyEntry_of_reply d d₁ answers (addr, foundAt routes addr) hreply).1, hioc₁]
      refine congrArg (Option.map · (d.iocPvs addr)) (funext fun l => congrArg (l ++ ·) ?_)
      exact List.filter_congr fun p hp => by rw [hcache p hp]
  · rintro addr ⟨hreply, pv, hpv, haccepts⟩
    obtain ⟨hempty, -⟩ | ⟨d₁, -, hioc, hsession, -⟩ := hview addr
    · rw [hempty] at hpv
      exact absurd hpv List.not_mem_nil
    · rw [hioc, hsession]
      exact applyEntry_of_replaces d d₁ answers (addr, foundAt routes addr) ⟨hreply, pv, hpv, haccepts⟩
  · intro addr hreply hnot
    obtain ⟨-, hioc, -⟩ | ⟨d₁, ⟨hioc₁, -, -⟩, hioc, -, -⟩ := hview addr
    · exact hioc
    · rw [hioc, (applyEntry_of_nothing d d₁ answers (addr, foundAt routes addr) hreply hnot).1, hioc₁]
  · intro addr hsome
    obtain ⟨-, -, hsession, -⟩ | ⟨d₁, ⟨-, hsession₁, -⟩, -, hsession, -⟩ := hview addr
    · rwa [hsession]
    · rw [hsession]
      rw [← hsession₁] at hsome
      cases hreply : d.reply answers addr with
      | some outcome =>
        rw [(applyEntry_of_reply d d₁ answers (addr, foundAt routes addr) hreply).2]
        exact hsome
      | none =>
        by_cases hreplaces : d.Replaces answers addr (foundAt routes addr)
        · exact (applyEntry_of_replaces d d₁ answers (addr, foundAt routes addr) hreplaces).2
        · rw [(applyEntry_of_nothing d d₁ answers (addr, foundAt routes addr) hreply hreplaces).2]
          exact hsome

theorem failedPvs_subscribeRoutes (routes : List (String × Addr)) :
    (d.subscribeRoutes routes answers).driver.failedPvs = d.failedPvs := by
  obtain ⟨es, -, hdriver, -⟩ := d.driver_subscribeRoutes answers routes
  rw [hdriver]
  exact run_untouched (f := fun d => d.failedPvs)
    (fun e _ d₁ => d.applyEntry_failedPvs answers d₁ e) d

end Batch

/-- The PVs listed for an address. -/
def listAt (d : PvaDriver Addr) (addr : Addr) : List String := (d.iocPvs addr).getD []

omit [DecidableEq Addr] in
theorem session_of_reply {d : PvaDriver Addr} {answers : BatchAnswers Addr} {addr : Addr}
    (h : (d.reply answers addr).isSome) : (d.sessionCommands addr).isSome := by
  unfold reply at h
  split_ifs at h with hsome
  · exact hsome
  · cases h

/-- The list of the address takes the PVs found there: it is replaced, or extended. -/
def Takes (d : PvaDriver Addr) (answers : BatchAnswers Addr) (routes : List (String × Addr))
    (addr : Addr) : Prop :=
  d.Replaces answers addr (foundAt routes addr) ∨
    (d.reply answers addr).isSome ∧ (d.iocPvs addr).isSome

/-- The PV is found at no address. -/
def NotFound (routes : List (String × Addr)) (pv : String) : Prop := ∀ addr, pv ∉ foundAt routes addr

theorem notFound_iff {routes : List (String × Addr)} {pv : String} :
    (routes.lookup pv).isNone ↔ NotFound routes pv := by
  have hsome : (routes.lookup pv).isSome ↔ ∃ addr, pv ∈ foundAt routes addr := by
    rw [List.lookup_isSome_iff]
    constructor
    · rintro ⟨⟨p, addr⟩, hr, heq⟩
      obtain rfl : pv = p := by simpa using heq
      exact ⟨addr, mem_foundAt.2 hr⟩
    · rintro ⟨addr, hpv⟩
      exact ⟨(pv, addr), mem_foundAt.1 hpv, by simp⟩
  rw [← Option.not_isSome, Bool.not_eq_true', ← Bool.not_eq_true, hsome]
  exact not_exists

namespace BatchTables

variable {d d' : PvaDriver Addr} {answers : BatchAnswers Addr} {routes : List (String × Addr)}

theorem cache_accepted (h : d.BatchTables answers routes d') {addr : Addr} {pv : String}
    (hpv : pv ∈ foundAt routes addr) (haccepts : d.Accepts answers addr pv) :
    d'.pvServerCache pv = some addr := by
  rw [h.cache_found addr pv hpv, if_pos haccepts]

theorem cache_same (h : d.BatchTables answers routes d') {pv : String}
    (hnot : ∀ addr, pv ∈ foundAt routes addr → ¬d.Accepts answers addr pv) :
    d'.pvServerCache pv = d.pvServerCache pv := by
  by_cases hfound : NotFound routes pv
  · exact h.cache_other pv hfound
  · obtain ⟨addr, hpv⟩ := not_forall_not.1 hfound
    rw [h.cache_found addr pv hpv, if_neg (hnot addr hpv)]

/-- A PV is accepted where it is found, or its route stays as it was. -/
theorem cache_cases (h : d.BatchTables answers routes d') (pv : String) :
    (∃ addr, pv ∈ foundAt routes addr ∧ d.Accepts answers addr pv ∧
      d'.pvServerCache pv = some addr) ∨
    (∀ addr, pv ∈ foundAt routes addr → ¬d.Accepts answers addr pv) ∧
      d'.pvServerCache pv = d.pvServerCache pv := by
  by_cases haccepts : ∃ addr, pv ∈ foundAt routes addr ∧ d.Accepts answers addr pv
  · obtain ⟨addr, hpv, hacc⟩ := haccepts
    exact .inl ⟨addr, hpv, hacc, h.cache_accepted hpv hacc⟩
  · have hnot : ∀ addr, pv ∈ foundAt routes addr → ¬d.Accepts answers addr pv :=
      fun addr hpv hacc => haccepts ⟨addr, hpv, hacc⟩
    exact .inr ⟨hnot, h.cache_same hnot⟩

theorem cache_none (h : d.BatchTables answers routes d') {pv : String}
    (hnone : d'.pvServerCache pv = none) : d.pvServerCache pv = none := by
  obtain ⟨addr, -, -, hcache⟩ | ⟨-, hcache⟩ := h.cache_cases pv
  · rw [hcache] at hnone
    cases hnone
  · rwa [← hcache]

/-- A PV is accepted by the session of the address, or by a new one that replaces its list. -/
theorem reply_or_replaces {addr : Addr} {pv : String} (hpv : pv ∈ foundAt routes addr)
    (haccepts : d.Accepts answers addr pv) :
    (d.reply answers addr).isSome ∨ d.Replaces answers addr (foundAt routes addr) := by
  cases hreply : d.reply answers addr with
  | none => exact .inr ⟨hreply, pv, hpv, haccepts⟩
  | some outcome => exact .inl rfl

theorem listAt_replaced (h : d.BatchTables answers routes d') {addr : Addr}
    (hreplaces : d.Replaces answers addr (foundAt routes addr)) :
    d'.listAt addr = foundAt routes addr := by
  unfold listAt
  rw [(h.replaced addr hreplaces).1]
  rfl

theorem listAt_extended (h : d.BatchTables answers routes d') {addr : Addr}
    (hreply : (d.reply answers addr).isSome) (hlist : (d.iocPvs addr).isSome) :
    d'.listAt addr =
      d.listAt addr ++ (foundAt routes addr).filter fun p => (d'.pvServerCache p).isSome := by
  obtain ⟨outcome, houtcome⟩ := Option.isSome_iff_exists.1 hreply
  obtain ⟨pvs, hpvs⟩ := Option.isSome_iff_exists.1 hlist
  unfold listAt
  rw [h.extended addr outcome houtcome, hpvs]
  rfl

theorem listAt_kept (h : d.BatchTables answers routes d') {addr : Addr}
    (hnot : ¬d.Takes answers routes addr) : d'.listAt addr = d.listAt addr := by
  unfold listAt
  cases hreply : d.reply answers addr with
  | none => rw [h.kept addr hreply fun hreplaces => hnot (.inl hreplaces)]
  | some outcome =>
    rw [h.extended addr outcome hreply]
    cases hlist : d.iocPvs addr with
    | none => rfl
    | some pvs => exact absurd (.inr ⟨by rw [hreply]; rfl, by rw [hlist]; rfl⟩) hnot

/-- A list keeps its PVs unless it is replaced. -/
theorem mem_listAt_of_mem (h : d.BatchTables answers routes d') {addr : Addr} {pv : String}
    (hpv : pv ∈ d.listAt addr) (hnot : ¬d.Replaces answers addr (foundAt routes addr)) :
    pv ∈ d'.listAt addr := by
  by_cases htakes : d.Takes answers routes addr
  · obtain ⟨hreply, hlist⟩ := htakes.resolve_left hnot
    rw [h.listAt_extended hreply hlist]
    exact List.mem_append_left _ hpv
  · rwa [h.listAt_kept htakes]

/-- A list takes the PVs found at its address. -/
theorem mem_listAt_of_takes (h : d.BatchTables answers routes d') {addr : Addr} {pv : String}
    (hpv : pv ∈ foundAt routes addr) (htakes : d.Takes answers routes addr)
    (hsome : (d'.pvServerCache pv).isSome) : pv ∈ d'.listAt addr := by
  obtain hreplaces | ⟨hreply, hlist⟩ := htakes
  · rwa [h.listAt_replaced hreplaces]
  · rw [h.listAt_extended hreply hlist]
    exact List.mem_append_right _ (List.mem_filter.2 ⟨hpv, hsome⟩)

theorem mem_listAt_cases (h : d.BatchTables answers routes d') {addr : Addr} {pv : String}
    (hpv : pv ∈ d'.listAt addr) :
    (pv ∈ d.listAt addr ∧ ¬d.Replaces answers addr (foundAt routes addr)) ∨
      (pv ∈ foundAt routes addr ∧ d.Takes answers routes addr) := by
  by_cases hreplaces : d.Replaces answers addr (foundAt routes addr)
  · rw [h.listAt_replaced hreplaces] at hpv
    exact .inr ⟨hpv, .inl hreplaces⟩
  · by_cases htakes : d.Takes answers routes addr
    · obtain ⟨hreply, hlist⟩ := htakes.resolve_left hreplaces
      rw [h.listAt_extended hreply hlist, List.mem_append] at hpv
      obtain hpv | hpv := hpv
      · exact .inl ⟨hpv, hreplaces⟩
      · exact .inr ⟨(List.mem_filter.1 hpv).1, htakes⟩
    · rw [h.listAt_kept htakes] at hpv
      exact .inl ⟨hpv, hreplaces⟩

end BatchTables

end PvaDriver

/-! ## The tables over a run -/

/-- The driver with the PVs that were requested, or recovered by `hot_add_ioc`, and not
    unsubscribed since. -/
structure Tracked (Addr : Type) where
  driver : PvaDriver Addr
  wanted : List String

/-- A call of the main loop, with the answers of the network. -/
inductive DriverAct (Addr : Type) where
  | monitorBatch (names : List String) (answers : BatchAnswers Addr)
  | hotAddIoc (addr : Addr) (configured : List String) (search : Option (String → Bool))
      (opened : Option (String → BulkOutcome))
  | unsubscribe (pvs : List String)
  | removeSession (addr : Addr)
  | reconnected (addr : Addr) (chan : ChannelId)

namespace Tracked

open PvaDriver

/-- One call. -/
def step (s : Tracked Addr) : DriverAct Addr → Tracked Addr
  | .monitorBatch names answers =>
    ⟨(s.driver.monitorBatch names answers).2, s.wanted ++ names⟩
  | .hotAddIoc addr configured search opened =>
    let (recovered, driver) := s.driver.hotAddIoc addr configured search opened
    ⟨driver, s.wanted ++ recovered⟩
  | .unsubscribe pvs => ⟨s.driver.unsubscribe pvs, s.wanted.filter (· ∉ pvs)⟩
  | .removeSession addr => ⟨s.driver.removeSession addr, s.wanted⟩
  | .reconnected addr chan =>
    ⟨{ s.driver with sessionCommands := Function.update s.driver.sessionCommands addr (some chan) },
      s.wanted⟩

/-- The tables agree: a subscribed PV has a session and is listed once, where it is
    subscribed; no PV is listed for two IOCs; and `failed_pvs` has the requested PVs that are
    not subscribed and none that is. -/
structure Agrees (s : Tracked Addr) : Prop where
  session : ∀ pv addr, s.driver.pvServerCache pv = some addr →
    (s.driver.sessionCommands addr).isSome
  listed : ∀ pv addr, s.driver.pvServerCache pv = some addr → (s.driver.listAt addr).count pv = 1
  single : ∀ pv a b, pv ∈ s.driver.listAt a → pv ∈ s.driver.listAt b → a = b
  disjoint : ∀ pv ∈ s.driver.failedPvs, s.driver.pvServerCache pv = none
  failed : ∀ pv ∈ s.wanted, s.driver.pvServerCache pv = none → pv ∈ s.driver.failedPvs

/-- A batch that is searched for is safe: it asks again for every requested PV that is not
    subscribed; a PV that is not found is not subscribed; a PV that is found is accepted or
    already subscribed; a session that accepts one has a list; a PV whose list takes it is in
    no list that stays; and a list that is replaced loses no subscribed PV. -/
structure SafeBatch (s : Tracked Addr) (names : List String) (answers : BatchAnswers Addr)
    (routes : List (String × Addr)) : Prop where
  asked : ∀ pv ∈ s.wanted, s.driver.pvServerCache pv = none → pv ∈ names
  missing : ∀ pv ∈ names, NotFound routes pv → s.driver.pvServerCache pv = none
  accepted : ∀ addr, ∀ pv ∈ foundAt routes addr, s.driver.pvServerCache pv = none →
    s.driver.Accepts answers addr pv
  listed : ∀ addr, (s.driver.reply answers addr).isSome → ∀ pv ∈ foundAt routes addr,
    s.driver.Accepts answers addr pv → (s.driver.iocPvs addr).isSome
  unlisted : ∀ addr, s.driver.Takes answers routes addr → ∀ pv ∈ foundAt routes addr,
    ∀ b, ¬s.driver.Replaces answers b (foundAt routes b) → pv ∉ s.driver.listAt b
  kept : ∀ addr, s.driver.Replaces answers addr (foundAt routes addr) →
    ∀ pv, s.driver.pvServerCache pv = some addr →
      pv ∈ foundAt routes addr ∨ ∃ b, pv ∈ foundAt routes b ∧ s.driver.Accepts answers b pv

/-- A call is safe. Without name servers a batch must ask for subscribed and failed PVs only.
    A new session for a hot-added IOC needs that no PV is subscribed there and that no PV found
    there is listed elsewhere. -/
def Safe (s : Tracked Addr) : DriverAct Addr → Prop
  | .monitorBatch names answers =>
    if s.driver.nameServers = [] then
      ∀ pv ∈ names, s.driver.pvServerCache pv = none → pv ∈ s.driver.failedPvs
    else s.SafeBatch names answers
      (searchRoutes s.driver.nameServers names answers.found₁ answers.found₂)
  | .hotAddIoc addr configured (some isFound) (some outcome) =>
    let found := (s.driver.hotAddSearch configured).filter isFound
    (∃ pv ∈ found, outcome pv = .started) →
      (∀ pv, s.driver.pvServerCache pv ≠ some addr) ∧
        ∀ pv ∈ found, ∀ b, pv ∈ s.driver.listAt b → b = addr
  | _ => True

/-! ## One step -/

variable {s : Tracked Addr}

section Batch

variable {names : List String} {answers : BatchAnswers Addr} {routes : List (String × Addr)}
  {d' : PvaDriver Addr}

theorem SafeBatch.agrees (hsafe : s.SafeBatch names answers routes) (hs : s.Agrees)
    (hroutes : (routes.map Prod.fst).Nodup) (ht : s.driver.BatchTables answers routes d')
    (hfailed : ∀ pv, pv ∈ d'.failedPvs ↔ pv ∈ names ∧ NotFound routes pv) :
    Agrees ⟨d', s.wanted ++ names⟩ := by
  -- a PV found somewhere is subscribed afterwards
  have hfound : ∀ addr, ∀ pv ∈ foundAt routes addr, (d'.pvServerCache pv).isSome := by
    intro addr pv hpv
    rw [Option.isSome_iff_ne_none]
    intro hnone
    have haccepts := hsafe.accepted addr pv hpv (ht.cache_none hnone)
    rw [ht.cache_accepted hpv haccepts] at hnone
    cases hnone
  constructor
  · intro pv addr hcache
    obtain ⟨a, hpv, haccepts, hcache'⟩ | ⟨-, hsame⟩ := ht.cache_cases pv
    · obtain rfl : a = addr := Option.some.inj (hcache'.symm.trans hcache)
      obtain hreply | hreplaces := BatchTables.reply_or_replaces hpv haccepts
      · exact ht.sessions a (session_of_reply hreply)
      · exact (ht.replaced a hreplaces).2
    · exact ht.sessions addr (hs.session pv addr (hsame.symm.trans hcache))
  · intro pv addr hcache
    show (d'.listAt addr).count pv = 1
    have hnodup := nodup_foundAt hroutes addr
    by_cases hreplaces : s.driver.Replaces answers addr (foundAt routes addr)
    · rw [ht.listAt_replaced hreplaces]
      refine List.count_eq_one_of_mem hnodup ?_
      obtain ⟨a, hpv, haccepts, hcache'⟩ | ⟨hnot, hsame⟩ := ht.cache_cases pv
      · obtain rfl : a = addr := Option.some.inj (hcache'.symm.trans hcache)
        exact hpv
      · refine (hsafe.kept addr hreplaces pv (hsame.symm.trans hcache)).resolve_right ?_
        rintro ⟨b, hpv, haccepts⟩
        exact hnot b hpv haccepts
    · have hold (htakes : s.driver.Takes answers routes addr) (hpv : pv ∈ foundAt routes addr) :
          pv ∉ s.driver.listAt addr := hsafe.unlisted addr htakes pv hpv addr hreplaces
      obtain ⟨a, hpv, haccepts, hcache'⟩ | ⟨hnot, hsame⟩ := ht.cache_cases pv
      · obtain rfl : a = addr := Option.some.inj (hcache'.symm.trans hcache)
        have hreply := (BatchTables.reply_or_replaces hpv haccepts).resolve_right hreplaces
        have hlist := hsafe.listed a hreply pv hpv haccepts
        rw [ht.listAt_extended hreply hlist, List.count_append,
          List.count_eq_zero_of_not_mem (hold (.inr ⟨hreply, hlist⟩) hpv), Nat.zero_add]
        refine List.count_eq_one_of_mem (hnodup.filter _) (List.mem_filter.2 ⟨hpv, ?_⟩)
        exact hfound a pv hpv
      · have hlisted := hs.listed pv addr (hsame.symm.trans hcache)
        by_cases htakes : s.driver.Takes answers routes addr
        · obtain ⟨hreply, hlist⟩ := htakes.resolve_left hreplaces
          rw [ht.listAt_extended hreply hlist, List.count_append, hlisted,
            List.count_eq_zero_of_not_mem]
          intro hmem
          refine hold htakes (List.mem_filter.1 hmem).1 ?_
          exact List.count_pos_iff.1 (by rw [hlisted]; exact Nat.one_pos)
        · rwa [ht.listAt_kept htakes]
  · intro pv a b ha hb
    dsimp only at ha hb
    obtain ⟨ha, hna⟩ | ⟨ha, hta⟩ := ht.mem_listAt_cases ha
    · obtain ⟨hb, -⟩ | ⟨hb, htb⟩ := ht.mem_listAt_cases hb
      · exact hs.single pv a b ha hb
      · exact absurd ha (hsafe.unlisted b htb pv hb a hna)
    · obtain ⟨hb, hnb⟩ | ⟨hb, -⟩ := ht.mem_listAt_cases hb
      · exact absurd hb (hsafe.unlisted a hta pv ha b hnb)
      · exact foundAt_unique hroutes ha hb
  · intro pv hpv
    dsimp only at hpv ⊢
    obtain ⟨hmem, hnot⟩ := (hfailed pv).1 hpv
    rw [ht.cache_other pv hnot]
    exact hsafe.missing pv hmem hnot
  · intro pv hpv hnone
    dsimp only at hpv hnone ⊢
    refine (hfailed pv).2 ⟨?_, fun addr hfoundAt => ?_⟩
    · obtain hpv | hpv := List.mem_append.1 hpv
      · exact hsafe.asked pv hpv (ht.cache_none hnone)
      · exact hpv
    · have hsome := hfound addr pv hfoundAt
      rw [hnone] at hsome
      cases hsome

theorem Agrees.safeBatch (h : Agrees ⟨d', s.wanted ++ names⟩)
    (hnames : ∀ addr, ∀ pv ∈ foundAt routes addr, pv ∈ names)
    (ht : s.driver.BatchTables answers routes d')
    (hfailed : ∀ pv, pv ∈ d'.failedPvs ↔ pv ∈ names ∧ NotFound routes pv) :
    s.SafeBatch names answers routes := by
  have haccepted : ∀ addr, ∀ pv ∈ foundAt routes addr, s.driver.pvServerCache pv = none →
      s.driver.Accepts answers addr pv := by
    intro addr pv hpv hnone
    by_contra hnot
    have hnone' : d'.pvServerCache pv = none := by
      rw [ht.cache_found addr pv hpv, if_neg hnot, hnone]
    have hmem := h.failed pv (List.mem_append_right _ (hnames addr pv hpv)) hnone'
    exact ((hfailed pv).1 hmem).2 addr hpv
  constructor
  · intro pv hpv hnone
    obtain ⟨addr, hfoundAt, -, -⟩ | ⟨-, hsame⟩ := ht.cache_cases pv
    · exact hnames addr pv hfoundAt
    · have hmem := h.failed pv (List.mem_append_left _ hpv) (hsame.trans hnone)
      exact ((hfailed pv).1 hmem).1
  · intro pv hmem hnot
    rw [← ht.cache_other pv hnot]
    exact h.disjoint pv ((hfailed pv).2 ⟨hmem, hnot⟩)
  · exact haccepted
  · intro addr hreply pv hpv haccepts
    have hlisted := h.listed pv addr (ht.cache_accepted hpv haccepts)
    by_contra hnone
    rw [Option.not_isSome_iff_eq_none] at hnone
    obtain ⟨outcome, houtcome⟩ := Option.isSome_iff_exists.1 hreply
    have hempty : d'.listAt addr = [] := by
      unfold listAt
      rw [ht.extended addr outcome houtcome, hnone]
      rfl
    dsimp only at hlisted
    rw [hempty] at hlisted
    cases hlisted
  · intro addr htakes pv hpv b hnot hmem
    have hsome : (d'.pvServerCache pv).isSome := by
      rw [Option.isSome_iff_ne_none]
      intro hnone
      have haccepts := haccepted addr pv hpv (ht.cache_none hnone)
      rw [ht.cache_accepted hpv haccepts] at hnone
      cases hnone
    have hmem' := ht.mem_listAt_of_mem hmem hnot
    obtain rfl : addr = b := h.single pv addr b (ht.mem_listAt_of_takes hpv htakes hsome) hmem'
    -- the list is extended by a PV it has
    obtain ⟨hreply, hlist⟩ := htakes.resolve_left hnot
    obtain ⟨c, hc⟩ := Option.isSome_iff_exists.1 hsome
    have hlisted := h.listed pv c hc
    have hmemc := List.count_pos_iff.1 (by rw [hlisted]; exact Nat.one_pos)
    obtain rfl : addr = c := h.single pv addr c hmem' hmemc
    dsimp only at hlisted
    rw [ht.listAt_extended hreply hlist, List.count_append] at hlisted
    have hold := List.count_pos_iff.2 hmem
    have hnew : 0 < ((foundAt routes addr).filter fun p => (d'.pvServerCache p).isSome).count pv :=
      List.count_pos_iff.2 (List.mem_filter.2 ⟨hpv, hsome⟩)
    omega
  · intro addr hreplaces pv hcache
    obtain ⟨b, hpv, haccepts, -⟩ | ⟨-, hsame⟩ := ht.cache_cases pv
    · exact .inr ⟨b, hpv, haccepts⟩
    · have hlisted := h.listed pv addr (hsame.trans hcache)
      dsimp only at hlisted
      rw [ht.listAt_replaced hreplaces] at hlisted
      exact .inl (List.count_pos_iff.1 (by rw [hlisted]; exact Nat.one_pos))

/-- After a batch the tables agree exactly if it was safe. -/
theorem monitorBatch_agrees_iff (hs : s.Agrees) (names : List String)
    (answers : BatchAnswers Addr) :
    (s.step (.monitorBatch names answers)).Agrees ↔ s.Safe (.monitorBatch names answers) := by
  show Agrees ⟨(s.driver.monitorBatch names answers).2, s.wanted ++ names⟩ ↔ ite _ _ _
  unfold monitorBatch
  split_ifs with hservers
  · constructor
    · exact fun h pv hpv hnone => h.failed pv (List.mem_append_right _ hpv) hnone
    · intro h
      refine ⟨hs.session, hs.listed, hs.single, hs.disjoint, fun pv hpv hnone => ?_⟩
      obtain hpv | hpv := List.mem_append.1 hpv
      · exact hs.failed pv hpv hnone
      · exact h pv hpv hnone
  · dsimp only
    generalize hroutes :
      searchRoutes s.driver.nameServers names answers.found₁ answers.found₂ = routes
    have hnodup : (routes.map Prod.fst).Nodup := by
      rw [← hroutes]
      exact nodup_searchRoutes _ _ _ _
    have hnames : ∀ addr, ∀ pv ∈ foundAt routes addr, pv ∈ names := by
      intro addr pv hpv
      rw [← hroutes] at hpv
      exact mem_of_mem_searchRoutes (mem_foundAt.1 hpv)
    generalize hmissing : (names.filter fun pv => (routes.lookup pv).isNone) = missing
    have hfailed (pv : String) :
        pv ∈ (subscribeRoutes { s.driver with failedPvs := missing } routes
          answers).driver.failedPvs ↔ pv ∈ names ∧ NotFound routes pv := by
      rw [failedPvs_subscribeRoutes, ← hmissing, List.mem_filter, notFound_iff]
    have h := subscribeRoutes_tables { s.driver with failedPvs := missing } answers hnodup
    -- the batch does not read `failed_pvs`
    have ht : s.driver.BatchTables answers routes
        (subscribeRoutes { s.driver with failedPvs := missing } routes answers).driver :=
      ⟨h.cache_found, h.cache_other, h.extended, h.replaced, h.kept, h.sessions⟩
    exact ⟨fun hagrees => hagrees.safeBatch hnames ht hfailed,
      fun hsafe => hsafe.agrees hs hnodup ht hfailed⟩

end Batch

/-! ### The other calls -/

theorem listAt_unsubscribeOne (d : PvaDriver Addr) (q : String) (addr : Addr) :
    (d.unsubscribeOne q).listAt addr =
      if d.pvServerCache q = some addr then (d.listAt addr).filter (· ≠ q) else d.listAt addr := by
  unfold listAt
  rw [iocPvs_unsubscribeOne]
  split_ifs
  · cases d.iocPvs addr <;> rfl
  · rfl

theorem pvServerCache_unsubscribeOne (d : PvaDriver Addr) (q pv : String) :
    (d.unsubscribeOne q).pvServerCache pv = if pv = q then none else d.pvServerCache pv := by
  unfold unsubscribeOne
  cases hq : d.pvServerCache q with
  | none =>
    split_ifs with heq
    · rw [heq]
      exact hq
    · rfl
  | some addr => exact Function.update_apply _ _ _ _

theorem unsubscribeOne_keeps (d : PvaDriver Addr) (q : String) :
    (d.unsubscribeOne q).sessionCommands = d.sessionCommands ∧
      (d.unsubscribeOne q).failedPvs = d.failedPvs := by
  unfold unsubscribeOne
  split <;> exact ⟨rfl, rfl⟩

theorem unsubscribeOne_agrees (hs : s.Agrees) (q : String) :
    Agrees ⟨s.driver.unsubscribeOne q, s.wanted.filter (· ≠ q)⟩ := by
  obtain ⟨hsessions, hfailed⟩ := unsubscribeOne_keeps s.driver q
  have hcache : ∀ pv addr, (s.driver.unsubscribeOne q).pvServerCache pv = some addr →
      pv ≠ q ∧ s.driver.pvServerCache pv = some addr := by
    intro pv addr h
    rw [pvServerCache_unsubscribeOne] at h
    split_ifs at h with hpv
    exact ⟨hpv, h⟩
  have hmem : ∀ pv addr, pv ∈ (s.driver.unsubscribeOne q).listAt addr → pv ∈ s.driver.listAt addr :=
    fun pv addr h => mem_iocPvs_of_unsubscribeOne h
  refine ⟨fun pv addr h => ?_, fun pv addr h => ?_, fun pv a b ha hb => ?_, fun pv hpv => ?_,
    fun pv hpv hnone => ?_⟩
  · dsimp only
    rw [hsessions]
    exact hs.session pv addr (hcache pv addr h).2
  · obtain ⟨hne, h⟩ := hcache pv addr h
    dsimp only
    rw [listAt_unsubscribeOne]
    split_ifs
    · have hcount : ((s.driver.listAt addr).filter (· ≠ q)).count pv = (s.driver.listAt addr).count pv :=
        List.count_filter (decide_eq_true hne)
      exact hcount.trans (hs.listed pv addr h)
    · exact hs.listed pv addr h
  · exact hs.single pv a b (hmem pv a ha) (hmem pv b hb)
  · dsimp only at hpv ⊢
    rw [hfailed] at hpv
    rw [pvServerCache_unsubscribeOne]
    split_ifs
    · rfl
    · exact hs.disjoint pv hpv
  · dsimp only at hpv hnone ⊢
    obtain ⟨hpv, hne⟩ := List.mem_filter.1 hpv
    rw [pvServerCache_unsubscribeOne, if_neg (of_decide_eq_true hne)] at hnone
    rw [hfailed]
    exact hs.failed pv hpv hnone

theorem unsubscribe_agrees (hs : s.Agrees) (pvs : List String) :
    (s.step (.unsubscribe pvs)).Agrees := by
  induction pvs generalizing s with
  | nil =>
    have hnil : s.step (.unsubscribe []) = s := by
      simp [step, unsubscribe]
    rwa [hnil]
  | cons q pvs ih =>
    have hstep : s.step (.unsubscribe (q :: pvs)) =
        Tracked.step ⟨s.driver.unsubscribeOne q, s.wanted.filter (· ≠ q)⟩ (.unsubscribe pvs) := by
      simp [step, unsubscribe, List.filter_filter, Bool.and_comm]
    rw [hstep]
    exact ih (unsubscribeOne_agrees hs q)

theorem listAt_update (d : PvaDriver Addr) {iocPvs : Addr → Option (List String)} {addr : Addr}
    {pvs : Option (List String)} (h : d.iocPvs = Function.update iocPvs addr pvs) (b : Addr) :
    d.listAt b = if b = addr then pvs.getD [] else (iocPvs b).getD [] := by
  unfold listAt
  rw [h, Function.update_apply, apply_ite (Option.getD · [])]

theorem removeSession_agrees (hs : s.Agrees) (addr : Addr) :
    (s.step (.removeSession addr)).Agrees := by
  have hsome : ∀ pv b, (s.driver.removeSession addr).pvServerCache pv = some b →
      s.driver.pvServerCache pv = some b ∧ b ≠ addr := by
    intro pv b h
    rw [PvaDriver.removeSession_pvServerCache] at h
    split_ifs at h with heq
    refine ⟨h, ?_⟩
    rintro rfl
    exact heq h
  have hlist (b : Addr) : (s.driver.removeSession addr).listAt b =
      if b = addr then [] else s.driver.listAt b :=
    listAt_update _ (show _ = Function.update s.driver.iocPvs addr none from rfl) b
  have hmem : ∀ pv b, pv ∈ (s.driver.removeSession addr).listAt b → pv ∈ s.driver.listAt b := by
    intro pv b h
    rw [hlist] at h
    split_ifs at h
    · exact absurd h List.not_mem_nil
    · exact h
  refine ⟨fun pv b h => ?_, fun pv b h => ?_, fun pv a b ha hb => ?_, fun pv hpv => ?_,
    fun pv hpv hnone => ?_⟩
  · obtain ⟨h, hne⟩ := hsome pv b h
    show (Function.update s.driver.sessionCommands addr none b).isSome
    rw [Function.update_of_ne hne]
    exact hs.session pv b h
  · obtain ⟨h, hne⟩ := hsome pv b h
    show ((s.driver.removeSession addr).listAt b).count pv = 1
    rw [hlist, if_neg hne]
    exact hs.listed pv b h
  · exact hs.single pv a b (hmem pv a ha) (hmem pv b hb)
  · show (s.driver.removeSession addr).pvServerCache pv = none
    rw [PvaDriver.removeSession_pvServerCache]
    split_ifs with heq
    · rfl
    · obtain hpv | hpv := List.mem_append.1 hpv
      · exact hs.disjoint pv hpv
      · -- listed for `addr`, so subscribed there or nowhere
        by_contra hnone
        obtain ⟨b, hb⟩ := Option.ne_none_iff_exists'.1 hnone
        have hlisted := hs.listed pv b hb
        have hmemb := List.count_pos_iff.1 (by rw [hlisted]; exact Nat.one_pos)
        exact heq (hb.trans (congrArg some (hs.single pv b addr hmemb hpv)))
  · show pv ∈ s.driver.failedPvs ++ s.driver.listAt addr
    replace hnone : (s.driver.removeSession addr).pvServerCache pv = none := hnone
    rw [PvaDriver.removeSession_pvServerCache] at hnone
    split_ifs at hnone with heq
    · have hlisted := hs.listed pv addr heq
      exact List.mem_append_right _ (List.count_pos_iff.1 (by rw [hlisted]; exact Nat.one_pos))
    · exact List.mem_append_left _ (hs.failed pv hpv hnone)

omit [DecidableEq Addr] in
/-- A PV `hot_add_ioc` searches for is not subscribed. -/
theorem Agrees.not_subscribed (hs : s.Agrees) {configured : List String} {pv : String}
    (h : pv ∈ s.driver.hotAddSearch configured) : s.driver.pvServerCache pv = none := by
  unfold hotAddSearch at h
  obtain h | h := List.mem_append.1 (List.mem_dedup.1 h)
  · exact hs.disjoint pv h
  · exact Option.isNone_iff_eq_none.1 (List.mem_filter.1 h).2

/-- A new session for `addr` that accepts some of the PVs found there. -/
theorem recordHotAdd_agrees_iff (hs : s.Agrees) (addr : Addr) {found : List String}
    (hnodup : found.Nodup) (hfound : ∀ pv ∈ found, s.driver.pvServerCache pv = none)
    (outcome : String → BulkOutcome) {recovered : List String}
    (hrecovered : ∀ pv, pv ∈ recovered ↔ pv ∈ found ∧ outcome pv = .started)
    (hany : ∃ pv ∈ found, outcome pv = .started) :
    Agrees ⟨s.driver.recordHotAdd addr found (bulkResults outcome found), s.wanted ++ recovered⟩ ↔
      (∀ pv, s.driver.pvServerCache pv ≠ some addr) ∧
        ∀ pv ∈ found, ∀ b, pv ∈ s.driver.listAt b → b = addr := by
  generalize hd' : s.driver.recordHotAdd addr found (bulkResults outcome found) = d'
  rw [recordHotAdd, if_pos ((any_bulkResults outcome found).2 hany)] at hd'
  have hcache (pv : String) : d'.pvServerCache pv =
      if pv ∈ recovered then some addr else s.driver.pvServerCache pv := by
    rw [← hd', if_congr (hrecovered pv) rfl rfl]
    exact insertOk_bulkResults _ _ _ _ _
  have hlist (b : Addr) : d'.listAt b = if b = addr then found else s.driver.listAt b := by
    rw [← hd']
    exact listAt_update _ (show _ = Function.update s.driver.iocPvs addr (some found) from rfl) b
  have hsession (b : Addr) (h : b = addr ∨ (s.driver.sessionCommands b).isSome) :
      (d'.sessionCommands b).isSome := by
    rw [← hd']
    show (Function.update s.driver.sessionCommands addr _ b).isSome
    rw [Function.update_apply]
    split_ifs with hb
    · rfl
    · exact h.resolve_left hb
  have hfailed (pv : String) : pv ∈ d'.failedPvs ↔ pv ∈ s.driver.failedPvs ∧ pv ∉ recovered := by
    rw [← hd', hrecovered, ← mem_true_bulkResults]
    show pv ∈ s.driver.failedPvs.filter _ ↔ _
    rw [List.mem_filter, decide_eq_true_iff]
  constructor
  · intro h
    constructor
    · intro pv hpv
      have hnot : pv ∉ found := fun hmem => by
        rw [hfound pv hmem] at hpv
        cases hpv
      have hcache' : d'.pvServerCache pv = some addr := by
        rw [hcache, hpv, ite_self]
      have hlisted := h.listed pv addr hcache'
      dsimp only at hlisted
      rw [hlist, if_pos rfl, List.count_eq_zero_of_not_mem hnot] at hlisted
      cases hlisted
    · intro pv hpv b hb
      by_contra hne
      refine hne (h.single pv b addr ?_ ?_)
      · show pv ∈ d'.listAt b
        rwa [hlist, if_neg hne]
      · show pv ∈ d'.listAt addr
        rwa [hlist, if_pos rfl]
  · rintro ⟨hnone, hunlisted⟩
    refine ⟨fun pv b h => ?_, fun pv b h => ?_, fun pv a b ha hb => ?_, fun pv hpv => ?_,
      fun pv hpv hcached => ?_⟩
    · dsimp only at h
      rw [hcache] at h
      split_ifs at h
      · exact hsession b (.inl (Option.some.inj h).symm)
      · exact hsession b (.inr (hs.session pv b h))
    · dsimp only at h ⊢
      rw [hcache] at h
      split_ifs at h with hpv
      · obtain rfl : addr = b := Option.some.inj h
        rw [hlist, if_pos rfl]
        exact List.count_eq_one_of_mem hnodup ((hrecovered pv).1 hpv).1
      · rw [hlist, if_neg (by rintro rfl; exact hnone pv h)]
        exact hs.listed pv b h
    · dsimp only at ha hb
      rw [hlist] at ha hb
      split_ifs at ha hb with hab hbb hbb
      · rw [hab, hbb]
      · exact absurd (hunlisted pv ha b hb) hbb
      · exact absurd (hunlisted pv hb a ha) hab
      · exact hs.single pv a b ha hb
    · obtain ⟨hpv, hnot⟩ := (hfailed pv).1 hpv
      show d'.pvServerCache pv = none
      rw [hcache, if_neg hnot]
      exact hs.disjoint pv hpv
    · dsimp only at hpv hcached
      rw [hcache] at hcached
      split_ifs at hcached with hnot
      refine (hfailed pv).2 ⟨?_, hnot⟩
      exact hs.failed pv ((List.mem_append.1 hpv).resolve_right hnot) hcached

theorem hotAddIoc_agrees_iff (hs : s.Agrees) (addr : Addr) (configured : List String)
    (search : Option (String → Bool)) (opened : Option (String → BulkOutcome)) :
    (s.step (.hotAddIoc addr configured search opened)).Agrees ↔
      s.Safe (.hotAddIoc addr configured search opened) := by
  have hsame : Agrees ⟨s.driver, s.wanted ++ []⟩ := by rwa [List.append_nil]
  cases search with
  | none => exact iff_of_true hsame trivial
  | some isFound =>
    cases opened with
    | none => exact iff_of_true hsame trivial
    | some outcome =>
      show Agrees ⟨s.driver.recordHotAdd addr ((s.driver.hotAddSearch configured).filter isFound)
        (bulkResults outcome _), s.wanted ++ _⟩ ↔ ((∃ pv ∈ _, _) → _)
      have hnodup : ((s.driver.hotAddSearch configured).filter isFound).Nodup :=
        (List.nodup_dedup _).filter _
      have hfound : ∀ pv ∈ (s.driver.hotAddSearch configured).filter isFound,
          s.driver.pvServerCache pv = none :=
        fun pv hpv => hs.not_subscribed (List.mem_filter.1 hpv).1
      generalize (s.driver.hotAddSearch configured).filter isFound = found at hnodup hfound ⊢
      have hrecovered (pv : String) :
          pv ∈ ((bulkResults outcome found).filter Prod.snd).map Prod.fst ↔
            pv ∈ found ∧ outcome pv = .started := by
        rw [← mem_true_bulkResults, List.mem_map]
        constructor
        · rintro ⟨⟨p, ok⟩, hr, rfl⟩
          obtain ⟨hr, rfl⟩ := List.mem_filter.1 hr
          exact hr
        · exact fun hr => ⟨(pv, true), List.mem_filter.2 ⟨hr, rfl⟩, rfl⟩
      by_cases hany : ∃ pv ∈ found, outcome pv = .started
      · rw [forall_prop_of_true hany]
        exact recordHotAdd_agrees_iff hs addr hnodup hfound outcome hrecovered hany
      · refine iff_of_true ?_ fun h => absurd h hany
        have hnil : ((bulkResults outcome found).filter Prod.snd).map Prod.fst = [] :=
          List.eq_nil_iff_forall_not_mem.2 fun pv hpv => hany ⟨pv, (hrecovered pv).1 hpv⟩
        rw [hnil, recordHotAdd, if_neg (mt (any_bulkResults outcome found).1 hany)]
        exact hsame

/-- A step keeps the agreement of the tables exactly if it is safe. -/
theorem agrees_step_iff (hs : s.Agrees) (a : DriverAct Addr) : (s.step a).Agrees ↔ s.Safe a := by
  cases a with
  | monitorBatch names answers => exact monitorBatch_agrees_iff hs names answers
  | hotAddIoc addr configured search opened =>
    exact hotAddIoc_agrees_iff hs addr configured search opened
  | unsubscribe pvs => exact iff_of_true (unsubscribe_agrees hs pvs) trivial
  | removeSession addr => exact iff_of_true (removeSession_agrees hs addr) trivial
  | reconnected addr chan =>
    refine iff_of_true ⟨fun pv b h => ?_, hs.listed, hs.single, hs.disjoint, hs.failed⟩ trivial
    show (Function.update s.driver.sessionCommands addr (some chan) b).isSome
    rw [Function.update_apply]
    split_ifs
    · rfl
    · exact hs.session pv b h

/-! ## Main theorem -/

/-- **Main theorem**: the tables agree in every state of a run exactly if every call is
    safe. -/
theorem consistent_iff (nameServers : List Addr) (acts : List (DriverAct Addr)) :
    AlongStates step Agrees ⟨.new nameServers, []⟩ acts ↔
      AlongSteps step Safe ⟨.new nameServers, []⟩ acts := by
  have hstart : Agrees (⟨.new nameServers, []⟩ : Tracked Addr) := by
    refine ⟨fun pv addr h => ?_, fun pv addr h => ?_, fun pv a b h => ?_, fun pv h => ?_,
      fun pv h => ?_⟩
    · cases h
    · cases h
    · exact absurd h List.not_mem_nil
    · exact absurd h List.not_mem_nil
    · exact absurd h List.not_mem_nil
  exact alongStates_iff_alongSteps (I := Agrees) (fun s a hs => agrees_step_iff hs a) hstart acts

/-- No answer. -/
def silent : BatchAnswers ℕ := ⟨fun _ _ => false, fun _ _ => false, fun _ => .unsent, fun _ => none⟩

/-- A PV that is not found is forgotten when the next batch is not found either: it is
    requested, but in no table. -/
theorem failed_overwritten :
    ¬AlongStates step Agrees ⟨.new [1], []⟩
      [.monitorBatch ["A"] silent, .monitorBatch ["B"] silent] := by
  intro h
  have hfailed := h.last.failed "A" (by decide) (by decide)
  exact absurd hfailed (by decide)

end Tracked

end AuraEpics.Runtime
